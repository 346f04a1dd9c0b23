import AuthorityLedger.Command.Demo
import AuthorityLedger.Command.Keygen

/-!
# Running a command line

A command line either asks for help, cannot be understood, names no command,
or is carried out on a site, where it may fail with an explanation.
-/

namespace AuthorityLedger.Command

/-- How a command line ends. -/
inductive Outcome where
  | stopped (stop : Stop)
  /-- No command was named. -/
  | idle
  | finished
  | failed (causes : List Cause)
  deriving DecidableEq, Repr

/-- What a command does on a site. -/
def Request.job (config? : Option String) : Request → Job Unit
  | .keygen options => Command.keygen options config?
  | .demo options => Command.demo options config?
  | .inspect options => Command.inspect options

/-- Carry out a command line on a site. -/
def execute (arguments : List String) (site : Site) : Outcome × Site :=
  match CommandLine.ofArguments arguments with
  | .error stop => (.stopped stop, site)
  | .ok line =>
    match line.request? with
    | none => (.idle, site)
    | some request =>
      match (request.job line.config?).on site with
      | (.ok (), next) => (.finished, next)
      | (.error causes, next) => (.failed causes, next)

/-- The paths that a command looks at.  In the directory of keys it also looks at every file. -/
def Request.paths : Request → List String
  | .keygen options => dataPaths options.dataDir
  | .demo options => dataPaths options.dataDir ++ options.exportPath?.toList
  | .inspect options => [databaseDirectory options.dataDir]
where
  /-- What is looked at in a data directory. -/
  dataPaths (dataDir : String) : List String :=
    [FilePath.join dataDir configName, keysDirectory dataDir, databaseDirectory dataDir]

/-- What is said to a caller who asks for help. -/
def helpText : String :=
  "An authenticated ledger with Proof of Authority consensus\n\n" ++
  "Usage: authchain [--config <CONFIG>] [COMMAND]\n\n" ++
  "Commands:\n" ++
  "  keygen   Generate validator keys and a default config\n" ++
  "             -d, --data-dir <DATA_DIR>      [default: ./data]\n" ++
  "             -v, --validators <VALIDATORS>  [default: 3]\n" ++
  "  demo     Run a full propose/sign/commit round and persist the chain\n" ++
  "             -d, --data-dir <DATA_DIR>      [default: ./data]\n" ++
  "             -b, --blocks <BLOCKS>          [default: 3]\n" ++
  "             -t, --txs <TXS>                [default: 2]\n" ++
  "                 --export <EXPORT>\n" ++
  "  inspect  Show a persisted chain\n" ++
  "             -d, --data-dir <DATA_DIR>      [default: ./data]\n" ++
  "             -b, --block <BLOCK>\n" ++
  "             -c, --count <COUNT>            [default: 10]\n" ++
  "  help     Print this message\n"

/-- What is said to a caller who names no command. -/
def idleText : String :=
  "authchain - An authenticated ledger with Proof of Authority consensus\n" ++
  "Run 'authchain --help' for usage information.\n"

/-- What is said besides the output of the command. -/
def Outcome.notice : Outcome → String
  | .stopped .help => helpText
  | .stopped .usage => "error: invalid arguments\n\nFor more information, try '--help'.\n"
  | .idle => idleText
  | .finished => ""
  | .failed causes => "Error: " ++ ": ".intercalate (causes.map Cause.message) ++ "\n"

/-- What a program answers to its caller: zero for success, one for a command that failed, and two
for a command line that cannot be understood. -/
def Outcome.exitCode : Outcome → Nat
  | .stopped .usage => 2
  | .failed _ => 1
  | _ => 0

end AuthorityLedger.Command
