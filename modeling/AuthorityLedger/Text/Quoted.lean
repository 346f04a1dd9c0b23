import AuthorityLedger.Text.Printable

/-!
# Quoted text

In messages for people a text stands between quotation marks.  A backslash goes
before a quotation mark and before itself; line feed, return, tab and the null
character have a letter or digit of their own; every other character that is
not printable is written as its code point in braces.  Apostrophes stand for
themselves.
-/

namespace AuthorityLedger.Text

/-- A code point in braces. -/
def codeEscape (c : Char) : List Char :=
  ['\\', 'u', '\x7b'] ++ Nat.toDigits 16 c.toNat ++ ['\x7d']

/-- A character inside a quoted text. -/
def escape (c : Char) : List Char :=
  match c with
  | '\x00' => ['\\', '0']
  | '\t' => ['\\', 't']
  | '\n' => ['\\', 'n']
  | '\r' => ['\\', 'r']
  | '\\' => ['\\', '\\']
  | '"' => ['\\', '"']
  | c => if isPrintable c then [c] else codeEscape c

/-- A text between quotation marks. -/
def quoted (text : String) : String :=
  "\"" ++ String.ofList (text.toList.flatMap escape) ++ "\""

end AuthorityLedger.Text
