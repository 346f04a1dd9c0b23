import AuthorityLedger.Proofs.Registry
import Mathlib.Data.List.Induction

/-!
# What a registry remembers

A registry is changed by seven operations.  What it answers now is what they
have left behind: a participant may act since it was last registered, it holds a
capability since that was last given to it while it was registered, and a
transaction identifier is used since it was first marked or an action was
allowed to use it up.

All three have one shape (`Lasting`): an operation begins it, and no operation
since then has ended it.  One step of a registry is described in these terms
(`isAuthorized_step`, `hasCapability_step`, `isUsed_step`), and one induction
turns such a description of a step into one of all runs (`lasting_run`).
-/

namespace AuthorityLedger.Registry

/-- What can be asked of a registry that may change it. -/
inductive Operation where
  | register (participant state : String) (metadata : SortedMap String String)
  | deauthorize (participant : String)
  | setState (participant state : String)
  | grant (participant capability : String)
  | revoke (participant capability : String)
  | recordAction (participant transaction capability : String)
  | markUsed (transactions : List String)

/-- The action behind an operation. -/
def Operation.action : Operation → Action Registry Error Unit
  | .register participant state metadata => modify (·.register participant state metadata)
  | .deauthorize participant => modify (·.deauthorize participant)
  | .setState participant state => modify (·.setState participant state)
  | .grant participant capability => modify (·.grant participant capability)
  | .revoke participant capability => modify (·.revoke participant capability)
  | .recordAction participant transaction capability =>
    Registry.recordAction participant transaction capability
  | .markUsed transactions => modify (·.markUsed transactions)

/-- The registry after an operation, carried out or refused. -/
def step (r : Registry) (op : Operation) : Registry :=
  (op.action.on r).2

/-- The registry after a list of operations. -/
def run (r : Registry) (ops : List Operation) : Registry :=
  ops.foldl step r

@[simp] theorem run_nil (r : Registry) : r.run [] = r := rfl

theorem run_concat (r : Registry) (ops : List Operation) (op : Operation) :
    r.run (ops ++ [op]) = (r.run ops).step op := by
  simp [run]

/-! ## What is known of a participant -/

theorem participant?_register (r : Registry) (id state : String)
    (metadata : SortedMap String String) (other : String) :
    (r.register id state metadata).participant? other =
      if other = id then some ⟨state, r.capabilities id, metadata⟩ else r.participant? other := by
  exact SortedMap.get?_insert_eq _ _ _ _

theorem participant?_deauthorize (r : Registry) (id other : String) :
    (r.deauthorize id).participant? other = if other = id then none else r.participant? other :=
  SortedMap.get?_erase_eq _ _ _

theorem participant?_update (r : Registry) (id other : String)
    (change : Participant → Participant) :
    (r.update id change).participant? other =
      if other = id then (r.participant? id).map change else r.participant? other := by
  unfold update
  cases hknown : r.participant? id with
  | none =>
      by_cases hid : other = id
      · simp [hid, hknown]
      · simp [hid]
  | some known =>
      rw [Option.map_some]
      exact SortedMap.get?_insert_eq _ _ _ _

/-- A participant is registered if something is known of it. -/
theorem isAuthorized_eq (r : Registry) (id : String) :
    r.isAuthorized id = (r.participant? id).isSome := rfl

/-- A participant holds what is noted for it. -/
theorem hasCapability_eq (r : Registry) (id capability : String) :
    r.hasCapability id capability =
      (r.participant? id).any (·.capabilities.contains capability) := by
  unfold hasCapability capabilities
  cases r.participant? id <;> rfl

/-! ## Histories -/

/-- Something has been begun by an operation, in view of the operations before it, and has not been
ended since. -/
def Lasting (begins : List Operation → Operation → Prop) (ends : Operation → Prop)
    (ops : List Operation) : Prop :=
  ∃ front op back, ops = front ++ op :: back ∧ begins front op ∧ ∀ later ∈ back, ¬ ends later

/-- A participant has been registered and not been deauthorized since. -/
def Enrolled (participant : String) : List Operation → Prop :=
  Lasting (fun _ op => ∃ state metadata, op = .register participant state metadata)
    (· = .deauthorize participant)

/-- A participant has been given a capability while it was registered, and neither has it been taken
back nor the participant been deauthorized since. -/
def Entitled (participant capability : String) : List Operation → Prop :=
  Lasting (fun front op => op = .grant participant capability ∧ Enrolled participant front)
    fun op => op = .revoke participant capability ∨ op = .deauthorize participant

/-- A transaction identifier has been marked as used, or used up by an action that succeeded. -/
def Spent (transaction : String) : List Operation → Prop :=
  Lasting (fun front op => (∃ ids, op = .markUsed ids ∧ transaction ∈ ids) ∨
      ∃ participant capability, op = .recordAction participant transaction capability ∧
        ((Registry.recordAction participant transaction capability).on (empty.run front)).1 =
          .ok ())
    fun _ => False

section Lasting

variable {begins : List Operation → Operation → Prop} {ends : Operation → Prop}

theorem not_lasting_nil : ¬ Lasting begins ends [] := by
  rintro ⟨front, op, back, hops, _⟩
  simp at hops

/-- Something lasts after one more operation if that begins it, or if it lasted before and the
operation does not end it. -/
theorem lasting_concat (ops : List Operation) (op : Operation) :
    Lasting begins ends (ops ++ [op]) ↔ begins ops op ∨ (Lasting begins ends ops ∧ ¬ ends op) := by
  constructor
  · rintro ⟨front, first, back, hops, hbegins, hlasts⟩
    cases back using List.reverseRecOn with
    | nil =>
        obtain ⟨rfl, hlast⟩ := List.append_inj' hops rfl
        obtain rfl : op = first := by simpa using hlast
        exact Or.inl hbegins
    | append_singleton back last =>
        rw [← List.cons_append, ← List.append_assoc] at hops
        obtain ⟨rfl, hlast⟩ := List.append_inj' hops rfl
        obtain rfl : op = last := by simpa using hlast
        refine Or.inr ⟨⟨front, first, back, rfl, hbegins, ?_⟩, hlasts op (by simp)⟩
        exact fun later hlater => hlasts later (List.mem_append_left _ hlater)
  · rintro (hbegins | ⟨⟨front, first, back, rfl, hbegins, hlasts⟩, hends⟩)
    · exact ⟨ops, op, [], rfl, hbegins, by simp⟩
    · refine ⟨front, first, back ++ [op], by simp, hbegins, ?_⟩
      intro later hlater
      rcases List.mem_append.mp hlater with hlater | hlater
      · exact hlasts later hlater
      · rw [List.mem_singleton.mp hlater]
        exact hends

/-- What one step begins and ends is what lasts along a run. -/
theorem lasting_run {P : Registry → Prop} (hempty : ¬ P empty)
    (hstep : ∀ ops op, P ((empty.run ops).step op) ↔
      begins ops op ∨ (P (empty.run ops) ∧ ¬ ends op))
    (ops : List Operation) : P (empty.run ops) ↔ Lasting begins ends ops := by
  induction ops using List.reverseRecOn with
  | nil => exact iff_of_false hempty not_lasting_nil
  | append_singleton ops op ih => rw [run_concat, hstep, lasting_concat, ih]

end Lasting

/-! ## One step -/

section Step

variable (r : Registry) (participant state capability transaction : String)
  (metadata : SortedMap String String) (transactions : List String)

@[simp] theorem step_register : r.step (.register participant state metadata) =
    r.register participant state metadata := rfl

@[simp] theorem step_deauthorize :
    r.step (.deauthorize participant) = r.deauthorize participant := rfl

@[simp] theorem step_setState :
    r.step (.setState participant state) = r.setState participant state := rfl

@[simp] theorem step_grant :
    r.step (.grant participant capability) = r.grant participant capability := rfl

@[simp] theorem step_revoke :
    r.step (.revoke participant capability) = r.revoke participant capability := rfl

@[simp] theorem step_markUsed : r.step (.markUsed transactions) = r.markUsed transactions := rfl

/-- An action marks its identifier if it is allowed, and otherwise does nothing. -/
theorem step_recordAction :
    r.step (.recordAction participant transaction capability) =
      if ((recordAction participant transaction capability).on r).1 = .ok () then
        r.markUsed [transaction]
      else r := by
  unfold step Operation.action
  rw [on_recordAction]
  cases r.checkAction participant transaction capability <;> simp

end Step

/-- A mark changes no participant. -/
@[simp] theorem participants_markUsed (r : Registry) (ids : List String) :
    (r.markUsed ids).participants = r.participants := rfl

/-- An action changes no participant. -/
theorem participant?_step_recordAction (r : Registry)
    (participant transaction capability id : String) :
    (r.step (.recordAction participant transaction capability)).participant? id =
      r.participant? id := by
  unfold participant?
  rw [step_recordAction]
  split <;> simp

/-- To revise what is known of participants registers nobody and deauthorizes nobody. -/
theorem isAuthorized_update (r : Registry) (id other : String)
    (change : Participant → Participant) :
    (r.update id change).isAuthorized other = r.isAuthorized other := by
  rw [isAuthorized_eq, isAuthorized_eq, participant?_update]
  by_cases hid : other = id <;> simp [hid]

theorem isAuthorized_step (r : Registry) (op : Operation) (id : String) :
    (r.step op).isAuthorized id = true ↔
      (∃ state metadata, op = .register id state metadata) ∨
        (r.isAuthorized id = true ∧ ¬ op = .deauthorize id) := by
  cases op with
  | register participant state metadata =>
      rw [step_register, isAuthorized_eq, participant?_register, isAuthorized_eq]
      by_cases hid : id = participant
      · simp [hid]
      · simp [hid, Ne.symm hid]
  | deauthorize participant =>
      rw [step_deauthorize, isAuthorized_eq, participant?_deauthorize, isAuthorized_eq]
      by_cases hid : id = participant
      · simp [hid]
      · simp [hid, Ne.symm hid]
  | setState participant state => simp [setState, isAuthorized_update]
  | grant participant capability => simp [grant, isAuthorized_update]
  | revoke participant capability => simp [revoke, isAuthorized_update]
  | recordAction participant transaction capability =>
      rw [isAuthorized_eq, participant?_step_recordAction, isAuthorized_eq]
      simp
  | markUsed transactions => simp [isAuthorized_eq, participant?]

theorem hasCapability_update (r : Registry) (id other capability : String)
    (change : Participant → Participant) :
    (r.update id change).hasCapability other capability =
      if other = id then
        (r.participant? id).any fun p => (change p).capabilities.contains capability
      else r.hasCapability other capability := by
  rw [hasCapability_eq, hasCapability_eq, participant?_update]
  by_cases hid : other = id <;> simp [hid, Option.any_map]

theorem hasCapability_step (r : Registry) (op : Operation) (id capability : String) :
    (r.step op).hasCapability id capability = true ↔
      (op = .grant id capability ∧ r.isAuthorized id = true) ∨
        (r.hasCapability id capability = true ∧
          ¬ (op = .revoke id capability ∨ op = .deauthorize id)) := by
  cases op with
  | register participant state metadata =>
      rw [step_register, hasCapability_eq, participant?_register]
      by_cases hid : id = participant
      · simp [hid, hasCapability]
      · simp [hid, hasCapability_eq]
  | deauthorize participant =>
      rw [step_deauthorize, hasCapability_eq, participant?_deauthorize, hasCapability_eq]
      by_cases hid : id = participant
      · simp [hid]
      · simp [hid, Ne.symm hid]
  | setState participant state =>
      rw [step_setState, setState, hasCapability_update]
      by_cases hid : id = participant
      · simp [hid, hasCapability_eq]
      · simp [hid]
  | grant participant given =>
      rw [step_grant, grant, hasCapability_update]
      by_cases hid : id = participant
      · cases hknown : r.participant? participant with
        | none => simp [hid, hknown, hasCapability_eq, isAuthorized_eq]
        | some p =>
            by_cases hgiven : capability = given
            · simp [hid, hknown, hgiven, isAuthorized_eq]
            · simp [hid, hknown, hgiven, Ne.symm hgiven, hasCapability_eq]
      · simp [hid, Ne.symm hid]
  | revoke participant taken =>
      rw [step_revoke, revoke, hasCapability_update]
      by_cases hid : id = participant
      · cases hknown : r.participant? participant with
        | none => simp [hid, hknown, hasCapability_eq]
        | some p =>
            by_cases htaken : capability = taken
            · simp [hid, htaken]
            · simp [hid, hknown, htaken, Ne.symm htaken, hasCapability_eq]
      · simp [hid, Ne.symm hid]
  | recordAction participant transaction given =>
      rw [hasCapability_eq, participant?_step_recordAction, hasCapability_eq]
      simp
  | markUsed transactions => simp [hasCapability_eq, participant?]

theorem isUsed_step (r : Registry) (op : Operation) (id : String) :
    (r.step op).isUsed id = true ↔
      ((∃ ids, op = .markUsed ids ∧ id ∈ ids) ∨
        ∃ participant capability, op = .recordAction participant id capability ∧
          ((recordAction participant id capability).on r).1 = .ok ()) ∨
        (r.isUsed id = true ∧ ¬ False) := by
  cases op with
  | recordAction participant transaction capability =>
      rw [step_recordAction]
      by_cases hid : id = transaction
      · subst hid
        by_cases hok : ((recordAction participant id capability).on r).1 = .ok ()
        · simp [hok]
        · simp [hok]
      · by_cases hok : ((recordAction participant transaction capability).on r).1 = .ok ()
        · simp [hok, hid, Ne.symm hid]
        · simp [hok, Ne.symm hid]
  | markUsed transactions => simp
  | setState participant state => simp [setState, isUsed_congr (used_update ..)]
  | register | deauthorize | grant | revoke => simp [isUsed]

/-! ## Actions -/

/-- **What is said to an action.**  It is refused for the first reason that applies, and then nothing
changes; if none applies, its identifier becomes used and nothing else changes. -/
theorem on_recordAction_iff (r : Registry) (participant transaction capability : String) :
    let outcome := ((recordAction participant transaction capability).on r).1
    let next := ((recordAction participant transaction capability).on r).2
    (outcome = .error .emptyTransactionId ↔ transaction = "") ∧
      (outcome = .error (.duplicateTransaction transaction) ↔
        transaction ≠ "" ∧ r.isUsed transaction = true) ∧
      (outcome = .error (.unauthorized participant) ↔
        transaction ≠ "" ∧ ¬ r.isUsed transaction = true ∧ ¬ r.isAuthorized participant = true) ∧
      (outcome = .error (.missingCapability participant capability) ↔
        transaction ≠ "" ∧ ¬ r.isUsed transaction = true ∧ r.isAuthorized participant = true ∧
          capability ≠ "" ∧ ¬ r.hasCapability participant capability = true) ∧
      (outcome = .ok () ↔
        transaction ≠ "" ∧ ¬ r.isUsed transaction = true ∧ r.isAuthorized participant = true ∧
          (capability = "" ∨ r.hasCapability participant capability = true)) ∧
      (outcome = .ok () → next.participants = r.participants ∧
        ∀ id, next.isUsed id = true ↔ id = transaction ∨ r.isUsed id = true) ∧
      (outcome ≠ .ok () → next = r) := by
  rw [on_recordAction]
  unfold checkAction checkAuthorization
  by_cases hempty : transaction = ""
  · simp [hempty]
  · by_cases hused : r.isUsed transaction = true
    · simp [hempty, hused]
    · by_cases hregistered : r.isAuthorized participant = true
      · by_cases hlacking : capability ≠ "" ∧ r.hasCapability participant capability = false
        · simp [hempty, hused, hregistered, hlacking]
        · have hheld : capability = "" ∨ r.hasCapability participant capability = true := by
            by_cases hnone : capability = ""
            · exact Or.inl hnone
            · exact Or.inr (by simpa [hnone] using hlacking)
          simp [hempty, hused, hregistered, hlacking, hheld]
      · simp [hempty, hused, hregistered]

/-! ## All runs -/

/-- **Rights follow history.**  Whatever has been asked of a registry that was empty at first,

* a participant is registered if the last that happened to it was to be registered;
* it holds a capability if that was given to it while it was registered and neither has been taken
  away since, nor has the participant been deauthorized, however often it was registered again;
* a transaction identifier is used if it was marked, or if an action succeeded with it;
* an action is refused for the first of these reasons that applies: its identifier is empty, or used;
  its participant is not registered, or lacks the capability that is asked for, if one is.  A refused
  action changes nothing, and any other makes its identifier used and changes nothing else. -/
theorem rights_follow_history (ops : List Operation) :
    let r := empty.run ops
    (∀ participant, r.isAuthorized participant = true ↔ Enrolled participant ops) ∧
      (∀ participant capability,
        r.hasCapability participant capability = true ↔ Entitled participant capability ops) ∧
      (∀ transaction, r.isUsed transaction = true ↔ Spent transaction ops) ∧
      ∀ participant transaction capability,
        let outcome := ((recordAction participant transaction capability).on r).1
        let next := ((recordAction participant transaction capability).on r).2
        (outcome = .error .emptyTransactionId ↔ transaction = "") ∧
          (outcome = .error (.duplicateTransaction transaction) ↔
            transaction ≠ "" ∧ Spent transaction ops) ∧
          (outcome = .error (.unauthorized participant) ↔
            transaction ≠ "" ∧ ¬ Spent transaction ops ∧ ¬ Enrolled participant ops) ∧
          (outcome = .error (.missingCapability participant capability) ↔
            transaction ≠ "" ∧ ¬ Spent transaction ops ∧ Enrolled participant ops ∧
              capability ≠ "" ∧ ¬ Entitled participant capability ops) ∧
          (outcome = .ok () ↔
            transaction ≠ "" ∧ ¬ Spent transaction ops ∧ Enrolled participant ops ∧
              (capability = "" ∨ Entitled participant capability ops)) ∧
          (outcome = .ok () → next.participants = r.participants ∧
            ∀ id, next.isUsed id = true ↔ id = transaction ∨ r.isUsed id = true) ∧
          (outcome ≠ .ok () → next = r) := by
  intro r
  have henrolled (ops : List Operation) (participant : String) :
      (empty.run ops).isAuthorized participant = true ↔ Enrolled participant ops := by
    refine lasting_run (P := fun r => r.isAuthorized participant = true) nofun ?_ ops
    exact fun front op => isAuthorized_step (empty.run front) op participant
  have hentitled (participant capability : String) :
      r.hasCapability participant capability = true ↔ Entitled participant capability ops := by
    refine lasting_run (P := fun r => r.hasCapability participant capability = true)
      nofun ?_ ops
    intro front op
    rw [← henrolled]
    exact hasCapability_step (empty.run front) op participant capability
  have hspent (transaction : String) : r.isUsed transaction = true ↔ Spent transaction ops := by
    refine lasting_run (P := fun r => r.isUsed transaction = true) nofun ?_ ops
    exact fun front op => isUsed_step (empty.run front) op transaction
  refine ⟨henrolled ops, hentitled, hspent, ?_⟩
  intro participant transaction capability
  simp only [← hspent, ← henrolled ops, ← hentitled]
  exact on_recordAction_iff r participant transaction capability

end AuthorityLedger.Registry
