import AuthorityLedger.Proofs.Chain.Admission

/-!
# Runs of a chain

A chain that was created or imported is changed by six operations: blocks are
offered, participants come and go and gain and lose capabilities, and actions
use up identifiers.  A run is a list of such operations, each of which may be
refused.

What an operation uses up (`Operation.consumes`) is the ground of the double
spending argument.  One step marks exactly what it uses up and nothing that was
used before (`step_isUsed`, `fresh_consumes`); along a run, therefore, no
identifier is used up twice, whether by a block or by an action
(`fresh_consumed`).
-/

namespace AuthorityLedger.Chain

variable {α : Type}

/-- What can be asked of a chain that may change it. -/
inductive Operation (α : Type) where
  | addBlock (candidate : Block α)
  | register (participant state : String) (metadata : SortedMap String String)
  | deauthorize (participant : String)
  | grant (participant capability : String)
  | revoke (participant capability : String)
  | recordAction (participant transaction capability : String)

variable [Payload α]

/-- The action behind an operation. -/
def Operation.action : Operation α → Action (Chain α) Error Unit
  | .addBlock candidate => do let _ ← Chain.addBlock candidate
  | .register participant state metadata =>
    modify (·.withRegistry (·.register participant state metadata))
  | .deauthorize participant => modify (·.withRegistry (·.deauthorize participant))
  | .grant participant capability => modify (·.withRegistry (·.grant participant capability))
  | .revoke participant capability => modify (·.withRegistry (·.revoke participant capability))
  | .recordAction participant transaction capability =>
    Chain.recordAction participant transaction capability

/-- Whether a chain carries an operation out. -/
def accepts (chain : Chain α) (op : Operation α) : Bool :=
  (op.action.on chain).1.isOk

/-- The chain after an operation, carried out or refused. -/
def step (chain : Chain α) (op : Operation α) : Chain α :=
  (op.action.on chain).2

/-- The chain after a list of operations. -/
def run (chain : Chain α) (ops : List (Operation α)) : Chain α :=
  ops.foldl step chain

/-- The identifiers that an operation uses up if it is carried out. -/
def Operation.spends : Operation α → List String
  | .addBlock candidate => candidate.transactions.map Transaction.id
  | .recordAction _ transaction _ => [transaction]
  | _ => []

/-- The identifiers that an operation uses up on a chain, none if it is refused. -/
def consumes (chain : Chain α) (op : Operation α) : List String :=
  if chain.accepts op then op.spends else []

/-- The identifiers that are used up along a run, in order. -/
def consumed : Chain α → List (Operation α) → List String
  | _, [] => []
  | chain, op :: rest => chain.consumes op ++ consumed (chain.step op) rest

@[simp] theorem run_nil (chain : Chain α) : chain.run [] = chain := rfl

@[simp] theorem run_cons (chain : Chain α) (op : Operation α) (rest : List (Operation α)) :
    chain.run (op :: rest) = (chain.step op).run rest := rfl

theorem run_append (chain : Chain α) (front back : List (Operation α)) :
    chain.run (front ++ back) = (chain.run front).run back :=
  List.foldl_append

/-! ## One operation -/

/-- Offering a block appends it as it is linked, or changes nothing. -/
theorem step_addBlock (chain : Chain α) (candidate : Block α) :
    chain.step (.addBlock candidate) =
      match chain.check (chain.prepare candidate) with
      | .ok () => chain.append (chain.prepare candidate)
      | .error _ => chain := by
  unfold step Operation.action
  simp only [Action.on_bind, on_addBlock]
  cases chain.check (chain.prepare candidate) <;> rfl

/-- **What one operation can do.**  It appends a block that was admissible once linked, marks an
identifier that was new, changes participants and nothing else, or is refused without a trace. -/
theorem step_cases (chain : Chain α) (op : Operation α) :
    (∃ candidate, op = .addBlock candidate ∧ chain.accepts op = true ∧
        chain.check (chain.prepare candidate) = .ok () ∧
        chain.step op = chain.append (chain.prepare candidate)) ∨
      (∃ participant transaction capability,
        op = .recordAction participant transaction capability ∧ chain.accepts op = true ∧
        chain.registry.isUsed transaction = false ∧
        chain.step op = chain.withRegistry (·.markUsed [transaction])) ∨
      ((∀ candidate, op ≠ .addBlock candidate) ∧ op.spends = [] ∧ chain.accepts op = true ∧
        ∃ r : Registry, r.used = chain.registry.used ∧
          chain.step op = chain.withRegistry (fun _ => r)) ∨
      (chain.accepts op = false ∧ chain.step op = chain) := by
  cases op with
  | addBlock candidate =>
      unfold accepts step Operation.action
      simp only [Action.on_bind, on_addBlock]
      cases hcheck : chain.check (chain.prepare candidate) with
      | ok => exact Or.inl ⟨candidate, rfl, rfl, hcheck, rfl⟩
      | error cause => exact Or.inr (Or.inr (Or.inr ⟨rfl, rfl⟩))
  | recordAction participant transaction capability =>
      unfold accepts step Operation.action recordAction onRegistry
      simp only [Action.on_wrapping, Action.on_focus, Registry.on_recordAction]
      cases hcheck : chain.registry.checkAction participant transaction capability with
      | ok =>
          have hnew := Registry.isUsed_eq_false_of_checkAction hcheck
          exact Or.inr (Or.inl ⟨participant, transaction, capability, rfl, rfl, hnew, rfl⟩)
      | error cause => exact Or.inr (Or.inr (Or.inr ⟨rfl, rfl⟩))
  | register participant state metadata =>
      exact Or.inr (Or.inr (Or.inl ⟨nofun, rfl, rfl, _, Registry.used_register .., rfl⟩))
  | deauthorize participant =>
      exact Or.inr (Or.inr (Or.inl ⟨nofun, rfl, rfl, _, Registry.used_deauthorize .., rfl⟩))
  | grant participant capability =>
      exact Or.inr (Or.inr (Or.inl ⟨nofun, rfl, rfl, _, Registry.used_grant .., rfl⟩))
  | revoke participant capability =>
      exact Or.inr (Or.inr (Or.inl ⟨nofun, rfl, rfl, _, Registry.used_revoke .., rfl⟩))

/-- An operation that is refused changes nothing at all. -/
theorem step_eq_self_of_refused {chain : Chain α} {op : Operation α}
    (h : chain.accepts op = false) : chain.step op = chain := by
  rcases step_cases chain op with
    ⟨_, _, hyes, _⟩ | ⟨_, _, _, _, hyes, _⟩ | ⟨_, _, hyes, _⟩ | ⟨_, hsame⟩
  · simp [hyes] at h
  · simp [hyes] at h
  · simp [hyes] at h
  · exact hsame

/-- A block that is admitted is appended as it is linked, and its identifiers were fresh. -/
theorem step_addBlock_of_accepted {chain : Chain α} {candidate : Block α}
    (h : chain.accepts (.addBlock candidate) = true) :
    (chain.step (.addBlock candidate)).blocks = chain.blocks ++ [chain.prepare candidate] ∧
      chain.registry.Fresh (candidate.transactions.map Transaction.id) := by
  rcases step_cases chain (.addBlock candidate) with
    ⟨_, hop, _, hcheck, hnext⟩ | ⟨_, _, _, hop, _⟩ | ⟨hother, _⟩ | ⟨hno, _⟩
  · cases hop
    have hfresh := ((check_eq_ok_iff chain _).mp hcheck).2.1
    rw [hnext]
    exact ⟨rfl, hfresh⟩
  · cases hop
  · exact absurd rfl (hother candidate)
  · simp [h] at hno

/-- The blocks of a chain stay the first blocks of it. -/
theorem blocks_prefix_step (chain : Chain α) (op : Operation α) :
    chain.blocks <+: (chain.step op).blocks := by
  rcases step_cases chain op with
    ⟨candidate, _, _, _, hnext⟩ | ⟨_, transaction, _, _, _, _, hnext⟩ | ⟨_, _, _, r, _, hnext⟩ |
      ⟨_, hsame⟩
  · rw [hnext, blocks_append]
    exact List.prefix_append _ _
  · rw [hnext]
    exact List.prefix_refl _
  · rw [hnext]
    exact List.prefix_refl _
  · exact hsame.symm ▸ List.prefix_refl _

/-- An operation adds at most one block. -/
theorem length_blocks_step (chain : Chain α) (op : Operation α) :
    (chain.step op).blocks.length ≤ chain.blocks.length + 1 := by
  rcases step_cases chain op with
    ⟨candidate, _, _, _, hnext⟩ | ⟨_, transaction, _, _, _, _, hnext⟩ | ⟨_, _, _, r, _, hnext⟩ |
      ⟨_, hsame⟩
  · rw [hnext, blocks_append]
    simp
  · rw [hnext]
    exact Nat.le_succ _
  · rw [hnext]
    exact Nat.le_succ _
  · rw [hsame]
    exact Nat.le_succ _

/-- A valid chain stays valid. -/
theorem validate_step {chain : Chain α} (h : chain.validate = .ok ()) (op : Operation α) :
    (chain.step op).validate = .ok () := by
  rcases step_cases chain op with
    ⟨candidate, _, _, hcheck, hnext⟩ | ⟨_, transaction, _, _, _, _, hnext⟩ | ⟨_, _, _, r, _, hnext⟩ |
      ⟨_, hsame⟩
  · rw [hnext]
    exact validate_append h hcheck
  · rw [hnext]
    exact h
  · rw [hnext]
    exact h
  · rw [hsame]
    exact h

/-- **What is used after an operation** is what was used before and what it used up. -/
theorem step_isUsed (chain : Chain α) (op : Operation α) (id : String) :
    (chain.step op).registry.isUsed id =
      (decide (id ∈ chain.consumes op) || chain.registry.isUsed id) := by
  unfold consumes
  rcases step_cases chain op with
    ⟨candidate, rfl, hyes, _, hnext⟩ | ⟨_, transaction, _, rfl, hyes, _, hnext⟩ |
      ⟨_, hspends, hyes, r, hused, hnext⟩ | ⟨hno, hsame⟩
  · rw [hnext, hyes]
    simp [Operation.spends]
  · rw [hnext, hyes]
    simp [Operation.spends, withRegistry]
  · rw [hnext, hyes, hspends]
    simpa [withRegistry] using Registry.isUsed_congr hused id
  · rw [hsame, hno]
    simp

/-- What an operation uses up was fresh. -/
theorem fresh_consumes (chain : Chain α) (op : Operation α) :
    chain.registry.Fresh (chain.consumes op) := by
  unfold consumes
  rcases step_cases chain op with
    ⟨candidate, rfl, hyes, hcheck, _⟩ | ⟨_, transaction, _, rfl, hyes, hnew, _⟩ |
      ⟨_, hspends, hyes, _⟩ | ⟨hno, _⟩
  · rw [hyes]
    exact ((check_eq_ok_iff chain _).mp hcheck).2.1
  · rw [hyes]
    exact (Registry.fresh_singleton _ _).mpr hnew
  · rw [hyes, hspends]
    exact Registry.fresh_nil _
  · rw [hno]
    exact Registry.fresh_nil _

/-- Blocks whose identifiers are all used keep this, and the identifiers of new blocks are used. -/
theorem transactionIds_used_step {chain : Chain α}
    (h : ∀ id ∈ transactionIds chain.blocks, chain.registry.isUsed id = true)
    (op : Operation α) :
    ∀ id ∈ transactionIds (chain.step op).blocks, (chain.step op).registry.isUsed id = true := by
  have hblocks : ∀ id ∈ transactionIds (chain.step op).blocks,
      id ∈ transactionIds chain.blocks ∨ id ∈ chain.consumes op := by
    unfold consumes
    intro id hid
    rcases step_cases chain op with
      ⟨candidate, rfl, hyes, _, hnext⟩ | ⟨_, transaction, _, _, _, _, hnext⟩ |
        ⟨_, _, _, r, _, hnext⟩ | ⟨_, hsame⟩
    · rw [hnext, blocks_append, transactionIds_append, transactionIds_singleton] at hid
      rw [hyes]
      exact List.mem_append.mp hid
    · rw [hnext] at hid
      exact Or.inl hid
    · rw [hnext] at hid
      exact Or.inl hid
    · rw [hsame] at hid
      exact Or.inl hid
  intro id hid
  rw [step_isUsed]
  rcases hblocks id hid with hold | hnew
  · simp [h id hold]
  · simp [hnew]

/-- Identifiers that are all used and all different stay all different. -/
theorem nodup_transactionIds_step {chain : Chain α}
    (hused : ∀ id ∈ transactionIds chain.blocks, chain.registry.isUsed id = true)
    (hnodup : (transactionIds chain.blocks).Nodup) (op : Operation α) :
    (transactionIds (chain.step op).blocks).Nodup := by
  rcases step_cases chain op with
    ⟨candidate, _, _, hcheck, hnext⟩ | ⟨_, transaction, _, _, _, _, hnext⟩ | ⟨_, _, _, r, _, hnext⟩ |
      ⟨_, hsame⟩
  · obtain ⟨hnew, hunused⟩ := ((check_eq_ok_iff chain _).mp hcheck).2.1
    rw [hnext, blocks_append, transactionIds_append, transactionIds_singleton]
    refine List.nodup_append.mpr ⟨hnodup, hnew, ?_⟩
    intro id hid other hother hsame
    have hno := hunused other hother
    rw [← hsame, hused id hid] at hno
    cases hno
  · rw [hnext]
    exact hnodup
  · rw [hnext]
    exact hnodup
  · rw [hsame]
    exact hnodup

/-! ## A whole run -/

/-- What is used after a run is what was used before and what the run used up. -/
theorem run_isUsed (chain : Chain α) (ops : List (Operation α)) (id : String) :
    (chain.run ops).registry.isUsed id =
      (decide (id ∈ chain.consumed ops) || chain.registry.isUsed id) := by
  induction ops generalizing chain with
  | nil => simp [consumed]
  | cons op rest ih =>
      rw [run_cons, ih, step_isUsed, consumed]
      simp only [List.mem_append, Bool.decide_or]
      cases decide (id ∈ chain.consumes op) <;> simp

/-- **No identifier is used up twice along a run**, and none that was used when it began. -/
theorem fresh_consumed (chain : Chain α) (ops : List (Operation α)) :
    chain.registry.Fresh (chain.consumed ops) := by
  induction ops generalizing chain with
  | nil => exact Registry.fresh_nil _
  | cons op rest ih =>
      have hmarked : (chain.registry.markUsed (chain.consumes op)).Fresh
          ((chain.step op).consumed rest) := by
        refine (Registry.fresh_congr ?_ _).mpr (ih (chain.step op))
        intro id
        rw [Registry.isUsed_markUsed, step_isUsed]
      exact (Registry.fresh_append_iff _ _ _).mpr ⟨fresh_consumes chain op, hmarked⟩

/-- The blocks of a chain stay the first blocks of it along a run. -/
theorem blocks_prefix_run (chain : Chain α) (ops : List (Operation α)) :
    chain.blocks <+: (chain.run ops).blocks := by
  induction ops generalizing chain with
  | nil => exact List.prefix_refl _
  | cons op rest ih => exact (blocks_prefix_step chain op).trans (ih (chain.step op))

/-- A run adds at most one block with each operation. -/
theorem length_blocks_run (chain : Chain α) (ops : List (Operation α)) :
    (chain.run ops).blocks.length ≤ chain.blocks.length + ops.length := by
  induction ops generalizing chain with
  | nil => simp
  | cons op rest ih =>
      have hstep := length_blocks_step chain op
      have hrest := ih (chain.step op)
      rw [run_cons, List.length_cons]
      omega

/-- A valid chain stays valid along a run. -/
theorem validate_run {chain : Chain α} (h : chain.validate = .ok ()) (ops : List (Operation α)) :
    (chain.run ops).validate = .ok () := by
  induction ops generalizing chain with
  | nil => exact h
  | cons op rest ih => exact ih (validate_step h op)

/-- The identifiers of all blocks stay used along a run. -/
theorem transactionIds_used_run {chain : Chain α}
    (h : ∀ id ∈ transactionIds chain.blocks, chain.registry.isUsed id = true)
    (ops : List (Operation α)) :
    ∀ id ∈ transactionIds (chain.run ops).blocks, (chain.run ops).registry.isUsed id = true := by
  induction ops generalizing chain with
  | nil => exact h
  | cons op rest ih => exact ih (transactionIds_used_step h op)

end AuthorityLedger.Chain
