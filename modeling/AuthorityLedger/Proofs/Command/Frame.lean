import AuthorityLedger.Command.Demo
import AuthorityLedger.Proofs.Command.Site

/-!
# What a demonstration leaves alone

Reading configuration and keys leaves everything alone.  The demonstration prints,
draws keys, reads the clock and waits; of the files it touches only directories
before the store is open, and none from then on until the chain is stored.  So up
to that moment the ledger is what it was, whether or not the demonstration gets
there (`keeps_rehearse`).
-/

namespace AuthorityLedger.Command

open Job (Keeps KeepsFiles)

variable {γ : Type} {view : Site → γ}

/-! ## Reading the data directory -/

theorem keeps_keyOfDigits (digits : String) : Keeps view (keyOfDigits digits) := by
  unfold keyOfDigits
  split
  · exact fun _ => rfl
  · split
    · exact (Job.keeps_expect _).about _
    · exact Job.keeps_refuse _

theorem keeps_loadKey (file : String) : Keeps view (loadKey file) := by
  refine ((Job.keeps_read file).about _).bind fun text => (Job.keeps_expect _).bind fun json => ?_
  split
  · exact keeps_keyOfDigits _
  · exact Job.keeps_refuse _

theorem keeps_loadKeysFrom (directory : String) (names : List String) :
    Keeps view (loadKeysFrom directory names) := by
  induction names with
  | nil => exact Job.keeps_pure _
  | cons name rest ih =>
      unfold loadKeysFrom
      split
      · exact (keeps_loadKey _).bind fun _ => ih.bind fun _ => Job.keeps_pure _
      · exact ih

theorem keeps_loadKeys (dataDir : String) : Keeps view (loadKeys dataDir) := by
  refine Job.keeps_get.bind fun site => ?_
  dsimp only
  split
  · exact (Job.keeps_expect _).bind fun _ => keeps_loadKeysFrom _ _
  · exact Job.keeps_pure _

theorem keeps_loadConfig (asked? : Option String) (dataDir : String) :
    Keeps view (loadConfig asked? dataDir) := by
  refine Job.keeps_get.bind fun site => ?_
  split
  · exact Job.keeps_pure _
  · refine ((Job.keeps_read _).about _).bind fun text => ?_
    refine ((Job.keeps_expect _).about _).bind fun config => ?_
    exact ((Job.keeps_expect _).about _).bind fun _ => Job.keeps_pure _

/-! ## The demonstration and the files -/

theorem keepsFiles_demoKeys (dataDir : String) : KeepsFiles (demoKeys dataDir) := by
  refine (keeps_loadKeys dataDir).bind fun keys => ?_
  split
  · exact (Job.keepsFiles_print _).bind fun _ =>
      (Job.keepsFiles_newKeys 3).bind fun _ => Job.keeps_pure _
  · exact Job.keeps_pure _

theorem keepsFiles_addValidators (engine : Engine) (keys : List (String × Key)) :
    KeepsFiles (addValidators engine keys) := by
  induction keys generalizing engine with
  | nil => exact Job.keeps_pure _
  | cons entry rest ih =>
      refine Job.keepsFiles_millis.bind fun now => (Job.keeps_expect _).bind fun id => ?_
      exact (ih _).bind fun _ => Job.keeps_pure _

theorem keepsFiles_demoLedger (store : Storage.Store) (client : Key) :
    KeepsFiles (demoLedger store client) := by
  refine (Job.keeps_expect _).bind fun height? => ?_
  split
  · exact (Job.keeps_expect _).about _
  · refine Job.keepsFiles_now.bind fun written => Job.keepsFiles_now.bind fun built => ?_
    exact (Job.keeps_expect _).bind fun _ => Job.keeps_pure _

theorem keepsFiles_demoTransactions (client : Key) (index number count : Nat) :
    KeepsFiles (demoTransactions client index number count) := by
  induction count generalizing number with
  | zero => exact Job.keeps_pure _
  | succ count ih =>
      refine Job.keepsFiles_now.bind fun now => (Job.keeps_expect _).bind fun tx => ?_
      exact (ih _).bind fun _ => Job.keeps_pure _

theorem keepsFiles_attempt (g : GatedLedger String) (block : Block String) (proposer : String) :
    KeepsFiles (attempt g block proposer) := fun _ => rfl

theorem keepsFiles_proposePatiently (g : GatedLedger String) (block : Block String)
    (proposer : String) : KeepsFiles (proposePatiently g block proposer) := by
  refine (keepsFiles_attempt g block proposer).bind fun answer => ?_
  split
  · refine (Job.keepsFiles_print _).bind fun _ => (Job.keepsFiles_wait _).bind fun _ => ?_
    refine (keepsFiles_attempt _ _ _).bind fun again => ?_
    exact (Job.keeps_expect _).bind fun _ => Job.keeps_pure _
  · exact (Job.keeps_expect _).bind fun _ => Job.keeps_pure _

theorem keepsFiles_onLedger {α : Type} (g : GatedLedger String)
    (action : Action (GatedLedger String) Ledger.Error α) : KeepsFiles (onLedger g action) :=
  (Job.keeps_expect _).bind fun _ => Job.keeps_pure _

theorem keepsFiles_signInTurn (g : GatedLedger String) (proposal : String)
    (validators : List String) : KeepsFiles (signInTurn g proposal validators) := by
  induction validators generalizing g with
  | nil => exact Job.keeps_pure _
  | cons validator rest ih =>
      refine Job.keepsFiles_millis.bind fun now => (keepsFiles_onLedger _ _).bind fun answer => ?_
      split
      · split
        · exact Job.keeps_pure _
        · exact ih _

theorem keepsFiles_commitBlock (stage : Stage) (transactions round : Nat) :
    KeepsFiles (commitBlock stage transactions round) := by
  refine (Job.keeps_expect _).bind fun _ => (keepsFiles_demoTransactions _ _ _ _).bind fun txs => ?_
  refine Job.keepsFiles_now.bind fun built => ?_
  refine (keepsFiles_proposePatiently _ _ _).bind fun proposed => ?_
  refine (keepsFiles_signInTurn _ _ _).bind fun signed => ?_
  refine (keepsFiles_onLedger _ _).bind fun answer => ?_
  exact (Job.keepsFiles_print _).bind fun _ => Job.keeps_pure _

theorem keepsFiles_commitBlocks (transactions round count : Nat) (stage : Stage) :
    KeepsFiles (commitBlocks transactions round count stage) := by
  induction count generalizing round stage with
  | zero => exact Job.keeps_pure _
  | succ count ih => exact (keepsFiles_commitBlock _ _ _).bind fun next => ih _ next

theorem keepsFiles_replay (stage : Stage) : KeepsFiles (replay stage) := by
  unfold replay
  split
  · exact Job.keeps_pure _
  · refine Job.keepsFiles_now.bind fun written => (Job.keeps_expect _).bind fun tx => ?_
    refine Job.keepsFiles_now.bind fun built => (keepsFiles_attempt _ _ _).bind fun answer => ?_
    split
    · exact (Job.keepsFiles_print _).bind fun _ => Job.keeps_pure _
    · exact (Job.keepsFiles_print _).bind fun _ => Job.keeps_pure _

theorem keepsFiles_assemble (options : DemoOptions) (config? : Option String) :
    KeepsFiles (assemble options config?) := by
  refine (keeps_loadConfig _ _).bind fun config => (keepsFiles_demoKeys _).bind fun keys => ?_
  refine (Job.keeps_expect _).bind fun engine => (keepsFiles_addValidators _ _).bind fun found => ?_
  exact (Job.keepsFiles_print _).bind fun _ => Job.keeps_pure _

theorem keepsFiles_openStage (store : Storage.Store) (validators : List String) (engine : Engine) :
    KeepsFiles (openStage store validators engine) := by
  refine Job.keepsFiles_newKey.bind fun client => (keepsFiles_demoLedger _ _).bind fun ledger => ?_
  exact (Job.keepsFiles_print _).bind fun _ => Job.keeps_pure _

/-! ## The demonstration and the ledger -/

variable (options : DemoOptions) (config? : Option String)

theorem keeps_openStore (dataDir : String) : Keeps (·.ledger dataDir) (Job.openStore dataDir) := by
  intro site
  rcases Job.on_openStore_cases site dataDir with
    ⟨causes, next, hfailed, hledger⟩ | ⟨next, hopened, hledger, _⟩
  · rw [hfailed]
    exact hledger
  · rw [hopened]
    exact hledger

theorem keeps_setStage : Keeps (·.ledger options.dataDir) (setStage options config?) := by
  refine ((keepsFiles_assemble options config?).ledger _).bind fun found => ?_
  refine (Job.keeps_makeDataDirectory _ _).bind fun _ => ?_
  refine ((keeps_openStore options.dataDir).about _).bind fun store => ?_
  exact ((keepsFiles_openStage _ _ _).ledger _).bind fun _ => Job.keeps_pure _

theorem keeps_stageAfter (rounds : Nat) :
    Keeps (·.ledger options.dataDir) (stageAfter options config? rounds) := by
  refine (keeps_setStage options config?).bind fun opened => ?_
  refine Keeps.ledger ?_ options.dataDir
  refine (Job.keepsFiles_print _).bind fun _ => (Job.keepsFiles_print _).bind fun _ => ?_
  exact (keepsFiles_commitBlocks _ _ _ _).bind fun _ => Job.keeps_pure _

/-- Up to the moment when the chain is stored, the demonstration leaves the ledger alone. -/
theorem keeps_rehearse : Keeps (·.ledger options.dataDir) (rehearse options config?) := by
  refine (keeps_stageAfter options config? options.blocks).bind fun reached => ?_
  refine Keeps.ledger ?_ options.dataDir
  exact (keepsFiles_replay _).bind fun _ => (Job.keepsFiles_print _).bind fun _ => Job.keeps_pure _

end AuthorityLedger.Command
