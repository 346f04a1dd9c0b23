import AuthorityLedger.Hash.Sha2
import AuthorityLedger.Hex

/-!
# Digests as text

Block hashes and Merkle nodes are SHA-256 digests written as sixty-four
lower-case hexadecimal digits.
-/

namespace AuthorityLedger

/-- The SHA-256 digest of a byte string, as text. -/
def digestText (message : Bytes) : String :=
  Hex.encode (sha256 message)

/-- The digest of several byte strings put end to end. -/
def sha256Concat (parts : List Bytes) : Bytes :=
  sha256 parts.flatten

/-- Whether a text has the shape of a digest. -/
def isDigestText (text : String) : Bool :=
  text.toList.length == 64 && text.toList.all Hex.isDigit

theorem length_digestText (message : Bytes) : (digestText message).length = 64 := by
  simp [digestText]

/-- Equal digest texts come from equal digests. -/
theorem sha256_eq_of_digestText_eq {a b : Bytes} (h : digestText a = digestText b) :
    sha256 a = sha256 b :=
  Hex.encode_injective h

end AuthorityLedger
