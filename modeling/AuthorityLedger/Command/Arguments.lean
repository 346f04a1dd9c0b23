import AuthorityLedger.Json.Number

/-!
# Command lines

A command line names at most one of three commands.  Options come in a long
form (`--name value`, `--name=value`) and some in a short form (`-n value`,
`-nvalue`, `-n=value`); each may be given once.  The option `--config` may stand
before or behind the name of the command, and the later one counts.

The arguments are taken from left to right.  A value is checked when the next
option is met or the arguments end, so a request for help is answered unless
something is wrong with what stands before it.
-/

namespace AuthorityLedger.Command

/-! ## Options and their values -/

/-- What kind of value an option takes. -/
inductive ValueKind where
  | path
  | count
  deriving DecidableEq, Repr

/-- An option of a command. -/
structure OptionSpec where
  name : String
  letter? : Option Char
  kind : ValueKind
  deriving DecidableEq, Repr

/-- The value of an option. -/
inductive OptionValue where
  | path (text : String)
  | count (n : Nat)
  deriving DecidableEq, Repr

/-- Why a command line is not carried out. -/
inductive Stop where
  /-- Help was asked for. -/
  | help
  /-- The command line cannot be understood. -/
  | usage
  deriving DecidableEq, Repr

/-- The number that decimal digits stand for, a plus sign in front allowed. -/
def count? (text : String) : Option Nat :=
  let digits := match text.toList with
    | '+' :: rest => rest
    | all => all
  if digits ≠ [] ∧ digits.all Json.isDigit then
    let n := Json.digitsValue digits
    if n ≤ Json.maxWord then some n else none
  else none

/-- Read the value of an option; a path must not be empty. -/
def OptionSpec.value? (spec : OptionSpec) (text : String) : Option OptionValue :=
  match spec.kind with
  | .path => if text = "" then none else some (.path text)
  | .count => (count? text).map .count

/-- The values given so far, by the names of their options. -/
abbrev Values := List (String × OptionValue)

/-- The path given for an option. -/
def Values.path? (values : Values) (name : String) : Option String :=
  match values.lookup name with
  | some (.path text) => some text
  | _ => none

/-- The number given for an option. -/
def Values.count? (values : Values) (name : String) : Option Nat :=
  match values.lookup name with
  | some (.count n) => some n
  | _ => none

/-- Take in a value; a second one for the same option is refused. -/
def Values.take (values : Values) (spec : OptionSpec) (text : String) : Except Stop Values :=
  match values.lookup spec.name, spec.value? text with
  | none, some value => .ok ((spec.name, value) :: values)
  | _, _ => .error .usage

/-! ## Taking arguments -/

/-- An option whose value is still to come or has not been checked. -/
structure Waiting where
  spec : OptionSpec
  text? : Option String
  deriving DecidableEq, Repr

/-- What has been taken of the arguments. -/
structure Taken where
  values : Values
  waiting? : Option Waiting
  deriving DecidableEq, Repr

namespace Taken

/-- Nothing taken yet. -/
def start : Taken :=
  ⟨[], none⟩

/-- Check the value that waits. -/
def settle (taken : Taken) : Except Stop Values :=
  match taken.waiting? with
  | none => .ok taken.values
  | some ⟨spec, some text⟩ => taken.values.take spec text
  | some ⟨_, none⟩ => .error .usage

/-- Whether the next argument is the value of an option. -/
def wantsValue (taken : Taken) : Bool :=
  taken.waiting?.any fun w => w.text?.isNone

/-- Take an option, with its value if that is attached. -/
def option (taken : Taken) (spec : OptionSpec) (attached? : Option String) :
    Except Stop Taken := do
  let values ← taken.settle
  match attached? with
  | some text => return ⟨← values.take spec text, none⟩
  | none => return ⟨values, some ⟨spec, none⟩⟩

/-- Answer a request for help. -/
def help (taken : Taken) : Except Stop Taken := do
  let _ ← taken.settle
  throw .help

/-- Take an argument in long form, after its dashes. -/
def long (taken : Taken) (specs : List OptionSpec) (text : List Char) : Except Stop Taken :=
  let name := String.ofList (text.takeWhile (· ≠ '='))
  let attached? := match text.dropWhile (· ≠ '=') with
    | _ :: rest => some (String.ofList rest)
    | [] => none
  if name = "help" then
    if attached?.isSome then .error .usage else taken.help
  else
    match specs.find? (·.name == name) with
    | some spec => taken.option spec attached?
    | none => .error .usage

/-- Take an argument in short form, after its dash. -/
def short (taken : Taken) (specs : List OptionSpec) (letter : Char) (rest : List Char) :
    Except Stop Taken :=
  if letter = 'h' then taken.help
  else
    match specs.find? (·.letter? == some letter) with
    | none => .error .usage
    | some spec =>
      match rest with
      | [] => taken.option spec none
      | '=' :: value => taken.option spec (some (String.ofList value))
      | value => taken.option spec (some (String.ofList value))

/-- Take an argument that is neither a command nor two dashes. -/
def argument (taken : Taken) (specs : List OptionSpec) (text : String) : Except Stop Taken :=
  match text.toList with
  | '-' :: '-' :: rest => taken.long specs rest
  | '-' :: letter :: rest => taken.short specs letter rest
  | _ =>
    match taken.waiting? with
    | some ⟨spec, none⟩ => .ok { taken with waiting? := some ⟨spec, some text⟩ }
    | _ => .error .usage

end Taken

/-- Take all arguments up to the name of a command, which is answered with the arguments behind
it.  Nothing may follow two dashes. -/
def takeArguments (specs : List OptionSpec) (names : List String) :
    Taken → List String → Except Stop (Taken × Option (String × List String))
  | taken, [] => .ok (taken, none)
  | taken, text :: rest =>
    if !taken.wantsValue ∧ text ∈ names then .ok (taken, some (text, rest))
    else if text = "--" then
      if rest = [] then .ok (taken, none) else .error .usage
    else
      match taken.argument specs text with
      | .ok next => takeArguments specs names next rest
      | .error stop => .error stop

/-! ## The commands -/

/-- Where data are kept unless something else is said. -/
def standardDataDir : String := "./data"

/-- Generate keys and a configuration. -/
structure KeygenOptions where
  dataDir : String
  validators : Nat
  deriving DecidableEq, Repr

/-- Commit blocks and persist the chain. -/
structure DemoOptions where
  dataDir : String
  blocks : Nat
  transactions : Nat
  exportPath? : Option String
  deriving DecidableEq, Repr

/-- Show a persisted chain. -/
structure InspectOptions where
  dataDir : String
  block? : Option Nat
  count : Nat
  deriving DecidableEq, Repr

/-- A command with its options. -/
inductive Request where
  | keygen (options : KeygenOptions)
  | demo (options : DemoOptions)
  | inspect (options : InspectOptions)
  deriving DecidableEq, Repr

/-- A command line that has been understood. -/
structure CommandLine where
  config? : Option String
  request? : Option Request
  deriving DecidableEq, Repr

/-- The option for a configuration file, which stands everywhere. -/
def configOption : OptionSpec := ⟨"config", none, .path⟩

/-- The option for the data directory. -/
def dataDirOption : OptionSpec := ⟨"data-dir", some 'd', .path⟩

/-- The options of a command, and the request that their values make. -/
structure CommandSpec where
  name : String
  options : List OptionSpec
  request : Values → Request

/-- The data directory that values give. -/
def Values.dataDir (values : Values) : String :=
  (values.path? "data-dir").getD standardDataDir

/-- The commands. -/
def commandSpecs : List CommandSpec :=
  [ { name := "keygen"
      options := [configOption, dataDirOption, ⟨"validators", some 'v', .count⟩]
      request := fun values => .keygen {
        dataDir := values.dataDir
        validators := (values.count? "validators").getD 3 } },
    { name := "demo"
      options := [configOption, dataDirOption, ⟨"blocks", some 'b', .count⟩,
        ⟨"txs", some 't', .count⟩, ⟨"export", none, .path⟩]
      request := fun values => .demo {
        dataDir := values.dataDir
        blocks := (values.count? "blocks").getD 3
        transactions := (values.count? "txs").getD 2
        exportPath? := values.path? "export" } },
    { name := "inspect"
      options := [configOption, dataDirOption, ⟨"block", some 'b', .count⟩,
        ⟨"count", some 'c', .count⟩]
      request := fun values => .inspect {
        dataDir := values.dataDir
        block? := values.count? "block"
        count := (values.count? "count").getD 10 } } ]

/-- The names that stand for commands; `help` explains the others. -/
def commandNames : List String :=
  commandSpecs.map CommandSpec.name ++ ["help"]

/-- What `help` answers to the arguments behind it: at most one name of a command may follow. -/
def helpStop : List String → Stop
  | [] => .help
  | [name] => if name ∈ commandNames then .help else .usage
  | _ => .usage

/-- Understand a command line. -/
def CommandLine.ofArguments (arguments : List String) : Except Stop CommandLine := do
  let (taken, named?) ← takeArguments [configOption] commandNames Taken.start arguments
  match named? with
  | none => return ⟨(← taken.settle).path? "config", none⟩
  | some (name, rest) =>
    match commandSpecs.find? (·.name == name) with
    | none => throw (helpStop rest)
    | some spec =>
      let (inner, _) ← takeArguments spec.options [] Taken.start rest
      let values ← inner.settle
      let outer ← taken.settle
      return {
        config? := (values.path? "config").or (outer.path? "config")
        request? := some (spec.request values) }

end AuthorityLedger.Command
