import AuthorityLedger.Proofs.Consensus.History
import AuthorityLedger.Proofs.Ledger.Operations

/-!
# Ledgers that share an engine

Any number of ledgers, of any payloads, stand beside one engine.  An event is an
operation of one ledger or an operation of the engine that no ledger asked for,
and a run is a list of events in any order.

To the engine a run is a run of its own (`engine_run`), so that what is known of
its proposals holds here too; where its history opens a proposal there is an
event that opened it (`exists_opens`).  To a ledger the others only matter
through the engine, and each of its parked blocks was once proposed to it
(`proposedAs_of_parked`).
-/

namespace AuthorityLedger

/-- Ledgers, by the members of a type, beside one engine. -/
structure Federation {ι : Type} (α : ι → Type) where
  engine : Engine
  ledgers : (i : ι) → Ledger (α i)

namespace Federation

variable {ι : Type} {α : ι → Type}

/-- What can happen to ledgers and their engine. -/
inductive Event (α : ι → Type) where
  /-- The engine is asked directly. -/
  | engine (op : Engine.Operation)
  | ledger (i : ι) (op : GatedLedger.Operation (α i))

/-- An engine beside ledgers over the given chains, with nothing parked. -/
def ofChains (engine : Engine) (chains : (i : ι) → Chain (α i)) : Federation α where
  engine := engine
  ledgers := fun i => Ledger.ofChain (chains i)

/-- One of the ledgers beside the engine. -/
def gated (f : Federation α) (i : ι) : GatedLedger (α i) :=
  ⟨f.ledgers i, f.engine⟩

/-- The chain of one of the ledgers. -/
def chain (f : Federation α) (i : ι) : Chain (α i) :=
  (f.ledgers i).chain

variable [∀ i, Payload (α i)]

/-- The operations of the engine that an event amounts to. -/
def engineOps (f : Federation α) : Event α → List Engine.Operation
  | .engine op => [op]
  | .ledger i op => (f.gated i).engineOps op

/-- An event opens a proposal. -/
def Opens (f : Federation α) (event : Event α) (p : Proposal) : Prop :=
  f.engine.accepts p.opening = true ∧ ∃ rest, f.engineOps event = p.opening :: rest

/-- An event adds a block to a chain without asking the engine. -/
def Event.Bypasses : Event α → Prop
  | .engine _ => False
  | .ledger _ op => op.Bypasses

/-- An event that opens a proposal does so before anything else. -/
theorem eq_nil_of_engineOps_eq {f : Federation α} {event : Event α}
    {early late : List Engine.Operation} {blockHash proposer : String} {now : Nat}
    (h : f.engineOps event = early ++ .createProposal blockHash proposer now :: late) :
    early = [] := by
  have hone {op : Engine.Operation}
      (h : [op] = early ++ .createProposal blockHash proposer now :: late) : early = [] := by
    cases early with
    | nil => rfl
    | cons first rest =>
        have hlength := congrArg List.length h
        simp at hlength
  have hnone (h : [] = early ++ .createProposal blockHash proposer now :: late) : early = [] := by
    simp at h
  cases event with
  | engine op => exact hone h
  | ledger i op =>
      change (f.gated i).engineOps op = _ at h
      cases op with
      | propose block proposer' checked opened recorded =>
          unfold GatedLedger.engineOps at h
          dsimp only at h
          split at h
          · cases early with
            | nil => rfl
            | cons first rest =>
                obtain ⟨_, hrest⟩ := List.cons.inj h
                cases rest with
                | nil => cases (List.cons.inj hrest).1
                | cons second rest =>
                    have hlength := congrArg List.length hrest
                    simp at hlength
          · exact hnone h
      | commit pid =>
          unfold GatedLedger.engineOps at h
          dsimp only at h
          split at h
          · exact hone h
          · exact hone h
          · exact hnone h
      | sign proposal validator now => exact hone h
      | addSignature proposal validator signature now => exact hone h
      | abandon proposal => exact hone h
      | cleanupExpired now => exact hone h
      | onChain op => exact hnone h

variable [DecidableEq ι]

/-- Ledgers and engine after an event. -/
def step (f : Federation α) : Event α → Federation α
  | .engine op => { f with engine := f.engine.step op }
  | .ledger i op => {
      engine := ((f.gated i).step op).engine
      ledgers := Function.update f.ledgers i ((f.gated i).step op).ledger }

/-- Ledgers and engine after a list of events. -/
def run (f : Federation α) (events : List (Event α)) : Federation α :=
  events.foldl step f

/-- The operations of the engine that a list of events amounts to. -/
def engineHistory : Federation α → List (Event α) → List Engine.Operation
  | _, [] => []
  | f, event :: rest => f.engineOps event ++ engineHistory (f.step event) rest

@[simp] theorem run_nil (f : Federation α) : f.run [] = f := rfl

@[simp] theorem run_cons (f : Federation α) (event : Event α) (rest : List (Event α)) :
    f.run (event :: rest) = (f.step event).run rest := rfl

theorem run_append (f : Federation α) (front back : List (Event α)) :
    f.run (front ++ back) = (f.run front).run back :=
  List.foldl_append

/-! ## The engine -/

theorem engine_step (f : Federation α) (event : Event α) :
    (f.step event).engine = f.engine.run (f.engineOps event) := by
  cases event with
  | engine op => rfl
  | ledger i op => exact GatedLedger.engine_step (f.gated i) op

/-- The engine sees a run as a run of its own operations. -/
theorem engine_run (f : Federation α) (events : List (Event α)) :
    (f.run events).engine = f.engine.run (f.engineHistory events) := by
  induction events generalizing f with
  | nil => rfl
  | cons event rest ih =>
      rw [run_cons, ih, engine_step, engineHistory, Engine.run_append]

/-- Each operation of the engine belongs to an event. -/
theorem exists_of_engineHistory_eq {f : Federation α} {events : List (Event α)}
    {front back : List Engine.Operation} {op : Engine.Operation}
    (h : f.engineHistory events = front ++ op :: back) :
    ∃ before event after early late, events = before ++ event :: after ∧
      front = f.engineHistory before ++ early ∧
      (f.run before).engineOps event = early ++ op :: late := by
  induction events generalizing f front with
  | nil => simp [engineHistory] at h
  | cons event rest ih =>
      have hlater (middle : List Engine.Operation) (hfront : front = f.engineOps event ++ middle)
          (hrest : (f.step event).engineHistory rest = middle ++ op :: back) :
          ∃ before other after early late, event :: rest = before ++ other :: after ∧
            front = f.engineHistory before ++ early ∧
            (f.run before).engineOps other = early ++ op :: late := by
        obtain ⟨before, other, after, early, late, rfl, rfl, hops⟩ := ih hrest
        refine ⟨event :: before, other, after, early, late, rfl, ?_, hops⟩
        rw [hfront, engineHistory, List.append_assoc]
      rcases List.append_eq_append_iff.mp h with ⟨middle, hfront, hrest⟩ | ⟨late, hops, hrest⟩
      · exact hlater middle hfront hrest
      · cases late with
        | nil =>
            rw [List.append_nil] at hops
            exact hlater [] (by rw [hops, List.append_nil]) hrest.symm
        | cons first late =>
            obtain ⟨rfl, _⟩ := List.cons.inj hrest
            exact ⟨[], event, rest, front, late, rfl, rfl, hops⟩

/-- **Every proposal was opened by an event.**  A proposal that the engine holds after a run was
opened by one of the events, and asks for what the engine required then. -/
theorem exists_opens {config : Consensus.Config} {f : Federation α}
    (hnew : Engine.new config = .ok f.engine) {events : List (Event α)} {pid : String}
    {p : Proposal} (hp : (f.run events).engine.proposals.get? pid = some p) :
    ∃ before event after, events = before ++ event :: after ∧
      (f.run before).Opens event p ∧
      p.required = config.requiredSignatures (f.run before).engine.activeCount := by
  rw [engine_run] at hp
  obtain ⟨_, front, back, hhistory, htraced⟩ := Engine.traced_run hnew _ hp
  obtain ⟨before, event, after, early, late, hevents, hfront, hops⟩ :=
    exists_of_engineHistory_eq hhistory
  obtain rfl := eq_nil_of_engineOps_eq hops
  rw [List.append_nil] at hfront
  have hengine : f.engine.run front = (f.run before).engine := by rw [engine_run, hfront]
  have hconfig : f.engine.config = config := by
    obtain ⟨_, hstart⟩ := Engine.new_eq_ok_iff.mp hnew
    rw [hstart]
  have hcarried := htraced.carried
  have hrequired := htraced.required_eq
  rw [hengine] at hcarried hrequired
  rw [hconfig] at hrequired
  exact ⟨before, event, after, hevents, ⟨hcarried, late, hops⟩, hrequired⟩

/-- **The signatures of a proposal** that the engine holds after a run come from different
validators, and each verifies over the block hash under the key of its validator. -/
theorem signatures_of_proposal {config : Consensus.Config} {f : Federation α}
    (hnew : Engine.new config = .ok f.engine) {events : List (Event α)} {pid : String}
    {p : Proposal} (hp : (f.run events).engine.proposals.get? pid = some p) :
    pid = proposalId p.blockHash ∧ p.Tallied ∧
      ∀ s ∈ p.signatures, ∃ key : Key,
        key.id = s.validator ∧ key.verify (Bytes.ofText p.blockHash) s.signature = true := by
  rw [engine_run] at hp
  obtain ⟨hfiled, front, back, _, htraced⟩ := Engine.traced_run hnew _ hp
  refine ⟨hfiled.trans htraced.id_eq, htraced.tallied, ?_⟩
  intro s hs
  obtain ⟨_, _, _, v, _, _, _, _, _, hkey, hverify, _⟩ := htraced.taken_in s hs
  exact ⟨v.identity, hkey, hverify⟩

/-! ## The ledgers -/

/-- An event of another ledger or of the engine leaves a ledger alone. -/
theorem ledgers_step_of_ne (f : Federation α) (event : Event α) {i : ι}
    (h : ∀ op, event ≠ .ledger i op) : (f.step event).ledgers i = f.ledgers i := by
  cases event with
  | engine op => rfl
  | ledger j op =>
      have hne : i ≠ j := by
        rintro rfl
        exact h op rfl
      exact Function.update_of_ne hne _ _

theorem ledgers_step_self (f : Federation α) (i : ι) (op : GatedLedger.Operation (α i)) :
    (f.step (.ledger i op)).ledgers i = ((f.gated i).step op).ledger :=
  Function.update_self _ _ _

/-- **What an event does to a ledger** is what an operation of that ledger does, or nothing. -/
theorem ledgers_step_cases (f : Federation α) (event : Event α) (i : ι) :
    (∃ op, event = .ledger i op ∧
        (f.step event).ledgers i = ((f.gated i).step op).ledger) ∨
      (f.step event).ledgers i = f.ledgers i := by
  by_cases hown : ∃ op, event = .ledger i op
  · obtain ⟨op, rfl⟩ := hown
    exact Or.inl ⟨op, rfl, ledgers_step_self f i op⟩
  · exact Or.inr (ledgers_step_of_ne f event fun op heq => hown ⟨op, heq⟩)

/-- A block was proposed to a ledger along a list of events, and is parked under a proposal as it
was linked then. -/
def ProposedAs (f : Federation α) (events : List (Event α)) (i : ι) (pid : String)
    (b : Block (α i)) : Prop :=
  ∃ before after block proposer checked opened recorded,
    events = before ++ .ledger i (.propose block proposer checked opened recorded) :: after ∧
      ((GatedLedger.proposeAt block proposer checked opened recorded).on
        ((f.run before).gated i)).1 = .ok pid ∧
      b = ((f.run before).chain i).prepare block

/-- **Every parked block was proposed**, to the ledger that holds it and under that proposal. -/
theorem proposedAs_of_parked (f : Federation α) (hempty : ∀ i, (f.ledgers i).pending = .empty)
    (events : List (Event α)) {i : ι} {pid : String} {b : Block (α i)}
    (hb : ((f.run events).ledgers i).pending.get? pid = some b) : f.ProposedAs events i pid b := by
  induction events using List.reverseRecOn with
  | nil =>
      rw [run_nil, hempty] at hb
      simp at hb
  | append_singleton events event ih =>
      have hsnoc (h : ((f.run events).ledgers i).pending.get? pid = some b) :
          f.ProposedAs (events ++ [event]) i pid b := by
        obtain ⟨before, after, block, proposer, checked, opened, recorded, rfl, hrest⟩ := ih h
        exact ⟨before, after ++ [event], block, proposer, checked, opened, recorded, by simp, hrest⟩
      rw [run_append, run_cons, run_nil] at hb
      rcases ledgers_step_cases (f.run events) event i with ⟨op, rfl, hnext⟩ | hsame
      · rw [hnext] at hb
        rcases GatedLedger.pending_step _ op hb with
          hold | ⟨block, proposer, checked, opened, recorded, rfl, hanswer, rfl⟩
        · exact hsnoc hold
        · exact ⟨events, [], block, proposer, checked, opened, recorded, rfl, hanswer, rfl⟩
      · rw [hsame] at hb
        exact hsnoc hb

end Federation

end AuthorityLedger
