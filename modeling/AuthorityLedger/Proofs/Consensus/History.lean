import AuthorityLedger.Proofs.Consensus.Run

/-!
# The history of proposals

Every proposal that an engine holds can be traced back through the run that led
to the engine: `front`, the operation that opened it, and `back`.  The state
after `front` fixes what the proposal asks for, and each of its signatures was
taken in by an operation of `back` (`Traced`).  An engine that starts empty
holds traced proposals only (`traced_run`).

The engine holds a proposal without a break since it was opened, so that a
proposal that was opened again, after it had expired or had been removed, is
traced to the later opening.

The identifiers of the active validators are as many as the active validators,
since validators are filed under their own identifiers (`size_activeIds`).
-/

namespace AuthorityLedger

/-! ## Validators are filed under the identifiers of their keys -/

namespace Engine

/-- Every validator is filed under its identifier, which is that of its key. -/
def Keyed (engine : Engine) : Prop :=
  ∀ id v, engine.validators.get? id = some v → v.id = id ∧ v.identity.id = id

theorem keyed_empty (config : Consensus.Config) (limits : SortedMap String RateLimit) :
    Keyed ⟨config, SortedMap.empty, SortedMap.empty, limits⟩ := by
  intro id v hv
  simp at hv

theorem Keyed.next {engine next : Engine} {op : Operation} {carried : Bool}
    (hkeyed : engine.Keyed) (h : Transition engine op carried next) : next.Keyed := by
  intro id v hv
  rcases h.validator_cases hv with
    hold | ⟨participant, identity, weight, now, _, _, rfl, rfl⟩ | ⟨old, change, hop, hold, hchange⟩ |
      ⟨old, now, hold, _, rfl⟩
  · exact hkeyed id v hold
  · exact ⟨rfl, rfl⟩
  · obtain ⟨hid, hkey⟩ := identity_eq_of_update hop hchange
    obtain ⟨hsame, hsamekey⟩ := hkeyed id old hold
    exact ⟨hid.trans hsame, hkey ▸ hsamekey⟩
  · exact hkeyed id old hold

theorem Keyed.run {engine : Engine} (hkeyed : engine.Keyed) (ops : List Operation) :
    (engine.run ops).Keyed := by
  induction ops generalizing engine with
  | nil => exact hkeyed
  | cons op rest ih => exact ih (hkeyed.next (transition engine op))

/-- What the identifiers of the active validators are. -/
theorem Keyed.contains_activeIds {engine : Engine} (hkeyed : engine.Keyed) (id : String) :
    engine.activeIds.contains id = true ↔
      ∃ v, engine.validators.get? id = some v ∧ v.canSign = true := by
  unfold activeIds
  rw [NameSet.contains_ofNames, decide_eq_true_iff, List.mem_map]
  constructor
  · rintro ⟨v, hv, rfl⟩
    obtain ⟨hmem, hactive⟩ := List.mem_filter.mp hv
    obtain ⟨⟨key, found⟩, hentry, rfl⟩ := List.mem_map.mp hmem
    have hfiled := engine.validators.mem_entries_iff.mp hentry
    exact ⟨found, (hkeyed key found hfiled).1 ▸ hfiled, hactive⟩
  · rintro ⟨v, hfiled, hactive⟩
    have hmem : v ∈ engine.validators.values :=
      List.mem_map.mpr ⟨(id, v), engine.validators.mem_entries_iff.mpr hfiled, rfl⟩
    exact ⟨v, List.mem_filter.mpr ⟨hmem, hactive⟩, (hkeyed id v hfiled).1⟩

/-- The active validators have as many identifiers as they are. -/
theorem Keyed.size_activeIds {engine : Engine} (hkeyed : engine.Keyed) :
    engine.activeIds.size = engine.activeCount := by
  have hids : engine.validators.values.map Validator.id = engine.validators.keys := by
    unfold SortedMap.values SortedMap.keys
    rw [List.map_map]
    refine List.map_congr_left ?_
    rintro ⟨id, v⟩ hmem
    exact (hkeyed id v (engine.validators.mem_entries_iff.mp hmem)).1
  have hnd : (engine.activeValidators.map Validator.id).Nodup := by
    have hsub : (engine.activeValidators.map Validator.id).Sublist engine.validators.keys := by
      rw [← hids]
      exact List.filter_sublist.map _
    exact hsub.nodup engine.validators.nodup_keys
  unfold activeIds activeCount
  rw [NameSet.size_ofNames hnd, List.length_map]

end Engine

/-! ## One signature more -/

/-- Block hashes are known apart by their proposals. -/
theorem proposalId_inj {a b : String} (h : proposalId a = proposalId b) : a = b := by
  unfold proposalId at h
  exact (String.append_right_inj _).mp h

namespace Proposal

/-- The signatures of a proposal are those of its signers, each of them once. -/
structure Tallied (p : Proposal) : Prop where
  nodup : (p.signatures.map BlockSignature.validator).Nodup
  signed_iff : ∀ id, p.signed.contains id = decide (id ∈ p.signatures.map BlockSignature.validator)
  size_signed : p.signed.size = p.signatures.length

theorem tallied_fresh (config : Consensus.Config) (blockHash proposer : String) (active : NameSet)
    (now : Nat) : (fresh config blockHash proposer active now).Tallied where
  nodup := List.nodup_nil
  signed_iff := fun _ => rfl
  size_signed := rfl

theorem Tallied.record {p : Proposal} (h : p.Tallied) {s : BlockSignature}
    (hnew : p.signed.contains s.validator = false) : (p.record s).Tallied := by
  have hmap : (p.record s).signatures.map BlockSignature.validator =
      p.signatures.map BlockSignature.validator ++ [s.validator] := by
    simp [Proposal.record]
  have hnotin : s.validator ∉ p.signatures.map BlockSignature.validator := by
    rw [h.signed_iff] at hnew
    exact of_decide_eq_false hnew
  constructor
  · rw [hmap]
    refine List.nodup_append.mpr ⟨h.nodup, List.nodup_singleton _, ?_⟩
    intro a ha b hb heq
    rw [heq, List.mem_singleton.mp hb] at ha
    exact hnotin ha
  · intro id
    have hcontains : (p.record s).signed.contains id =
        (decide (id = s.validator) || p.signed.contains id) := NameSet.contains_add _ _ _
    rw [hcontains, h.signed_iff, hmap]
    simp only [List.mem_append, List.mem_singleton, Bool.decide_or]
    exact Bool.or_comm _ _
  · have hsize : (p.record s).signed.size = p.signed.size + 1 := NameSet.size_add hnew
    rw [hsize, h.size_signed]
    simp [Proposal.record]

/-- The operation that opened a proposal. -/
def opening (p : Proposal) : Engine.Operation :=
  .createProposal p.blockHash p.proposer p.createdAt

end Proposal

/-! ## Proposals and the run behind them -/

namespace Engine

/-- An engine holds a proposal as it was opened, with more or fewer signatures. -/
def Holds (engine : Engine) (p : Proposal) : Prop :=
  ∃ q, engine.proposals.get? p.id = some q ∧ q.opening = p.opening

/-- A signature was taken in by an operation of a list that an engine has carried out. -/
def TakenIn (engine : Engine) (ops : List Operation) (p : Proposal) (s : BlockSignature) : Prop :=
  ∃ before source after v,
    ops = before ++ .submitSignature p.id s.validator source s.signedAt :: after ∧
      (engine.run before).accepts (.submitSignature p.id s.validator source s.signedAt) = true ∧
      (engine.run before).validators.get? s.validator = some v ∧ v.canSign = true ∧
      s.participant = v.participant ∧ v.identity.id = s.validator ∧
      v.verify (Bytes.ofText p.blockHash) s.signature = true ∧
      s.signedAt - p.createdAt ≤ engine.config.signatureTimeout

/-- A proposal was opened after `front` and has been signed along `back`. -/
structure Traced (start : Engine) (front back : List Operation) (p : Proposal) : Prop where
  id_eq : p.id = proposalId p.blockHash
  blockHash_ne : p.blockHash ≠ ""
  carried : (start.run front).accepts p.opening = true
  held : ∀ mid, mid <+: back → Holds (((start.run front).step p.opening).run mid) p
  required_eq : p.required = start.config.requiredSignatures (start.run front).activeCount
  pending_iff : ∀ id,
    p.pending.contains id = ((start.run front).activeIds.contains id && !p.signed.contains id)
  tallied : p.Tallied
  taken_in : ∀ s ∈ p.signatures, TakenIn ((start.run front).step p.opening) back p s

variable {start : Engine} {front back : List Operation} {p : Proposal}

theorem TakenIn.snoc {engine : Engine} {ops : List Operation} {s : BlockSignature}
    (h : TakenIn engine ops p s) (op : Operation) : TakenIn engine (ops ++ [op]) p s := by
  obtain ⟨before, source, after, v, rfl, hrest⟩ := h
  exact ⟨before, source, after ++ [op], v, by simp, hrest⟩

/-- The run that leads to a proposal, from its opening on. -/
theorem run_opening (start : Engine) (front back : List Operation) (p : Proposal) :
    start.run (front ++ p.opening :: back) = ((start.run front).step p.opening).run back := by
  rw [run_append, run_cons]

/-- A proposal that is still there after one more operation has been there all along. -/
theorem Traced.held_snoc (h : Traced start front back p) {op : Operation}
    (hnow : Holds (start.run (front ++ p.opening :: (back ++ [op]))) p) :
    ∀ mid, mid <+: back ++ [op] → Holds (((start.run front).step p.opening).run mid) p := by
  intro mid hmid
  rcases List.prefix_concat_iff.mp hmid with rfl | hearlier
  · exact run_opening start front _ p ▸ hnow
  · exact h.held mid hearlier

/-- What happens to others leaves a proposal traced. -/
theorem Traced.snoc (h : Traced start front back p) {op : Operation}
    (hnow : Holds (start.run (front ++ p.opening :: (back ++ [op]))) p) :
    Traced start front (back ++ [op]) p :=
  { h with
    held := h.held_snoc hnow
    taken_in := fun s hs => (h.taken_in s hs).snoc op }

/-- A new proposal is traced to its opening. -/
theorem traced_fresh (hkeyed : start.Keyed) {ops : List Operation}
    {blockHash proposer : String} {now : Nat} (hhash : blockHash ≠ "")
    (hcarried : (start.run ops).accepts (.createProposal blockHash proposer now) = true)
    (hnow : Holds ((start.run ops).step (.createProposal blockHash proposer now))
      (Proposal.fresh (start.run ops).config blockHash proposer (start.run ops).activeIds now)) :
    Traced start ops [] (Proposal.fresh (start.run ops).config blockHash proposer
      (start.run ops).activeIds now) where
  id_eq := rfl
  blockHash_ne := hhash
  carried := hcarried
  held := by
    intro mid hmid
    rw [List.prefix_nil.mp hmid]
    exact hnow
  required_eq := by
    rw [← (hkeyed.run ops).size_activeIds, ← config_run start ops]
    rfl
  pending_iff := by
    intro id
    simp [Proposal.fresh, SortedMap.contains]
  tallied := Proposal.tallied_fresh _ _ _ _ _
  taken_in := by
    intro s hs
    cases hs

/-- A proposal stays traced when it is signed. -/
theorem Traced.record (h : Traced start front back p) (hkeyed : start.Keyed) {v : Validator}
    {s : BlockSignature} {source : SignatureSource}
    (hsignable : Signable (start.run (front ++ p.opening :: back)) p v s)
    (hcarried : (start.run (front ++ p.opening :: back)).accepts
      (.submitSignature p.id s.validator source s.signedAt) = true)
    (hnow : Holds (start.run (front ++ p.opening ::
      (back ++ [.submitSignature p.id s.validator source s.signedAt]))) p) :
    Traced start front (back ++ [.submitSignature p.id s.validator source s.signedAt])
      (p.record s) := by
  have hrun := run_opening start front back p
  have hconfig : (start.run (front ++ p.opening :: back)).config =
      ((start.run front).step p.opening).config := by
    rw [hrun, config_run]
  have hkey := hkeyed.run (front ++ p.opening :: back) s.validator v hsignable.registered
  refine { h with
    held := h.held_snoc hnow
    pending_iff := ?_
    tallied := h.tallied.record hsignable.new
    taken_in := ?_ }
  · intro id
    have hpending : (p.record s).pending.contains id =
        (!decide (id = s.validator) && p.pending.contains id) := by
      unfold Proposal.record SortedMap.contains
      rw [SortedMap.get?_erase_eq]
      by_cases hid : id = s.validator <;> simp [hid]
    have hsigned : (p.record s).signed.contains id =
        (decide (id = s.validator) || p.signed.contains id) := NameSet.contains_add _ _ _
    rw [hpending, hsigned, h.pending_iff]
    cases decide (id = s.validator) <;> simp
  · intro other hother
    have hcases : other ∈ p.signatures ∨ other = s := by
      simpa [Proposal.record] using hother
    rcases hcases with hold | rfl
    · exact (h.taken_in other hold).snoc _
    · refine ⟨back, source, [], v, rfl, ?_⟩
      have hregistered := hsignable.registered
      have htime := hsignable.in_time
      rw [hrun] at hregistered hcarried
      rw [hconfig] at htime
      exact ⟨hcarried, hregistered, hsignable.active, hsignable.participant_eq, hkey.2, hsignable.verifies,
        htime⟩

/-- **Every proposal is traced to its opening.**  Whatever is asked of an engine that was started
anew, each proposal it holds is filed under its identifier, was opened by an operation that was
carried out, and holds what the operations since then have put into it. -/
theorem traced_run {config : Consensus.Config} (hnew : new config = .ok start)
    (ops : List Operation) {pid : String} (hp : (start.run ops).proposals.get? pid = some p) :
    pid = p.id ∧ ∃ front back, ops = front ++ p.opening :: back ∧ Traced start front back p := by
  obtain ⟨_, hstart⟩ := new_eq_ok_iff.mp hnew
  have hkeyed : start.Keyed := by
    rw [hstart]
    exact keyed_empty _ _
  induction ops using List.reverseRecOn generalizing pid p with
  | nil =>
      rw [run_nil, hstart] at hp
      simp at hp
  | append_singleton ops op ih =>
      have hnow := hp
      rw [run_append, run_cons, run_nil] at hp
      rcases (transition (start.run ops) op).proposal_cases hp with
        hold | ⟨blockHash, proposer, now, rfl, hcarried, hhash, rfl, rfl⟩ |
          ⟨old, v, s, source, rfl, hcarried, hold, hsignable, rfl⟩
      · obtain ⟨rfl, front, back, rfl, htraced⟩ := ih hold
        rw [List.append_assoc, List.cons_append] at hnow ⊢
        exact ⟨rfl, front, back ++ [op], rfl, htraced.snoc ⟨p, hnow, rfl⟩⟩
      · exact ⟨rfl, ops, [], rfl, traced_fresh hkeyed hhash hcarried ⟨_, hp, rfl⟩⟩
      · obtain ⟨rfl, front, back, rfl, htraced⟩ := ih hold
        rw [List.append_assoc, List.cons_append] at hnow ⊢
        exact ⟨rfl, front, back ++ [.submitSignature old.id s.validator source s.signedAt], rfl,
          htraced.record hkeyed hsignable hcarried ⟨_, hnow, rfl⟩⟩

end Engine

end AuthorityLedger
