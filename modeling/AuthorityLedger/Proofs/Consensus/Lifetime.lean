import AuthorityLedger.Proofs.Consensus.Proposals

/-!
# The lifetime of a proposal

A proposal ends in one of three ways: it is forgotten, or, when its time has run
out, it is swept or a new one for the same hash takes its place (`Ends`).  Until
then nothing that it holds is lost, whatever becomes of the validators and
however the clock behaves: an operation leaves it as it is or adds one signature
(`held_or_signed_of_not_ends`), and so a later state of it extends an earlier one
(`Extends`).  A quorum that has been reached stays reached.
-/

namespace AuthorityLedger

namespace Proposal

/-- A later state of a proposal: it asks for the same as before, signatures have been added behind
those it had, and validators that it waited for have come to be among those that have signed. -/
structure Extends (q p : Proposal) : Prop where
  id_eq : q.id = p.id
  blockHash_eq : q.blockHash = p.blockHash
  proposer_eq : q.proposer = p.proposer
  createdAt_eq : q.createdAt = p.createdAt
  required_eq : q.required = p.required
  signatures : p.signatures <+: q.signatures
  signed : ∀ id, p.signed.contains id = true → q.signed.contains id = true
  size_signed : p.signed.size ≤ q.signed.size
  pending : ∀ id, q.pending.contains id = true → p.pending.contains id = true

variable {p q r : Proposal}

theorem Extends.refl (p : Proposal) : p.Extends p :=
  ⟨rfl, rfl, rfl, rfl, rfl, List.prefix_rfl, fun _ h => h, le_rfl, fun _ h => h⟩

theorem Extends.trans (hrq : r.Extends q) (hqp : q.Extends p) : r.Extends p where
  id_eq := hrq.id_eq.trans hqp.id_eq
  blockHash_eq := hrq.blockHash_eq.trans hqp.blockHash_eq
  proposer_eq := hrq.proposer_eq.trans hqp.proposer_eq
  createdAt_eq := hrq.createdAt_eq.trans hqp.createdAt_eq
  required_eq := hrq.required_eq.trans hqp.required_eq
  signatures := hqp.signatures.trans hrq.signatures
  signed := fun id h => hrq.signed id (hqp.signed id h)
  size_signed := hqp.size_signed.trans hrq.size_signed
  pending := fun id h => hqp.pending id (hrq.pending id h)

/-- A signature of a validator that has not signed yet extends a proposal. -/
theorem extends_record {s : BlockSignature} (hnew : p.signed.contains s.validator = false) :
    (p.record s).Extends p where
  id_eq := rfl
  blockHash_eq := rfl
  proposer_eq := rfl
  createdAt_eq := rfl
  required_eq := rfl
  signatures := List.prefix_append _ _
  signed := by
    intro id hid
    simp [record, hid]
  size_signed := by
    have hsize : (p.record s).signed.size = p.signed.size + 1 := NameSet.size_add hnew
    omega
  pending := by
    intro id hid
    unfold record SortedMap.contains at hid
    rw [SortedMap.get?_erase_eq] at hid
    by_cases hsigner : id = s.validator
    · simp [hsigner] at hid
    · rwa [if_neg hsigner] at hid

theorem Extends.hasQuorum (h : q.Extends p) (hquorum : p.hasQuorum = true) :
    q.hasQuorum = true := by
  have hreached : p.required ≤ p.signed.size := of_decide_eq_true hquorum
  have hrequired := h.required_eq
  have hsize := h.size_signed
  exact decide_eq_true (by omega)

end Proposal

namespace Engine

/-- The operations that end a proposal of an engine.  Two of them do so only when the time for
signatures has passed. -/
inductive Ends (engine : Engine) (p : Proposal) : Operation → Prop
  | forgotten : Ends engine p (.removeProposal p.id)
  | swept {now : Nat} (hlate : p.createdAt + engine.config.signatureTimeout < now) :
      Ends engine p (.cleanupExpired now)
  | replaced {proposer : String} {now : Nat}
      (hcarried : engine.accepts (.createProposal p.blockHash proposer now) = true)
      (hlate : p.createdAt + engine.config.signatureTimeout < now) :
      Ends engine p (.createProposal p.blockHash proposer now)

/-- None of some operations ends a proposal. -/
def Lasts (engine : Engine) (p : Proposal) (ops : List Operation) : Prop :=
  ∀ front op back, ops = front ++ op :: back → ¬ Ends (engine.run front) p op

variable {engine : Engine} {p q : Proposal} {op : Operation} {ops : List Operation}

/-- A later state of a proposal ends as the earlier one does. -/
theorem ends_iff_of_extends (h : q.Extends p) : Ends engine q op ↔ Ends engine p op := by
  have hends {a b : Proposal} (hid : a.id = b.id) (hhash : a.blockHash = b.blockHash)
      (htime : a.createdAt = b.createdAt) (hends : Ends engine a op) : Ends engine b op := by
    cases hends with
    | forgotten =>
        rw [hid]
        exact .forgotten
    | swept hlate =>
        rw [htime] at hlate
        exact .swept hlate
    | replaced hcarried hlate =>
        rw [hhash] at hcarried ⊢
        rw [htime] at hlate
        exact .replaced hcarried hlate
  exact ⟨hends h.id_eq h.blockHash_eq h.createdAt_eq,
    hends h.id_eq.symm h.blockHash_eq.symm h.createdAt_eq.symm⟩

theorem Lasts.not_ends (h : Lasts engine p (op :: ops)) : ¬ Ends engine p op :=
  h [] op ops rfl

/-- A later state lasts through what the earlier one lasts through. -/
theorem Lasts.next (h : Lasts engine p (op :: ops)) (hextends : q.Extends p) :
    Lasts (engine.step op) q ops := by
  intro front later back hops hends
  exact h (op :: front) later back (by rw [hops, List.cons_append])
    ((ends_iff_of_extends hextends).mp hends)

/-! ## One operation -/

/-- The time for signatures of a proposal has passed. -/
theorem isExpired_iff {now timeout : Nat} :
    p.isExpired now timeout = true ↔ p.createdAt + timeout < now := by
  rw [Proposal.isExpired, decide_eq_true_iff]
  omega

/-- **One operation.**  A proposal that an operation does not end stays as it is, unless the
operation adds one signature, of a validator that has not signed yet. -/
theorem held_or_signed_of_not_ends (hp : engine.proposals.get? p.id = some p)
    (hfiled : p.id = proposalId p.blockHash) (hlasts : ¬ Ends engine p op) :
    (engine.step op).proposals.get? p.id = some p ∨
      ∃ source s, op = .submitSignature p.id s.validator source s.signedAt ∧
        engine.accepts op = true ∧ p.signed.contains s.validator = false ∧
          (engine.step op).proposals.get? p.id = some (p.record s) := by
  have htransition := transition engine op
  generalize hcarried : engine.accepts op = carried at htransition
  generalize engine.step op = next at htransition ⊢
  cases htransition with
  | @opened blockHash proposer now v hhash hproposer hfree =>
      refine Or.inl ?_
      rw [SortedMap.get?_insert_eq]
      by_cases hpid : p.id = proposalId blockHash
      · -- a proposal for the same hash is opened only when this one has expired
        obtain rfl : p.blockHash = blockHash := proposalId_inj (hfiled.symm.trans hpid)
        rw [← hpid, hp, Option.any_some, Bool.not_eq_false', isExpired_iff] at hfree
        exact absurd (.replaced hcarried hfree) hlasts
      · rw [if_neg hpid, hp]
  | @signed pid source old v s hopen hsignable =>
      rw [SortedMap.get?_insert_eq]
      by_cases hpid : p.id = pid
      · subst hpid
        obtain rfl : p = old := Option.some.inj (hp.symm.trans hopen)
        exact Or.inr ⟨source, s, rfl, rfl, hsignable.new, if_pos rfl⟩
      · exact Or.inl (by rw [if_neg hpid, hp])
  | @forgotten pid =>
      refine Or.inl ?_
      have hpid : p.id ≠ pid := by
        rintro rfl
        exact hlasts .forgotten
      rw [SortedMap.get?_erase_eq, if_neg hpid, hp]
  | @swept now =>
      refine Or.inl ?_
      have htime : p.isExpired now engine.config.signatureTimeout = false := by
        rw [Bool.eq_false_iff, ne_eq, isExpired_iff]
        exact fun hlate => hlasts (.swept hlate)
      rw [SortedMap.get?_filter, hp]
      simp [Option.filter, htime]
  | enrolled | removed | updated | recorded | refused => exact Or.inl hp

/-- After an operation that ends a proposal there is none in its place, or a new one that was opened
when its time had passed. -/
theorem fresh_of_ends (hp : engine.proposals.get? p.id = some p)
    (hfiled : p.id = proposalId p.blockHash) (hends : Ends engine p op)
    (hq : (engine.step op).proposals.get? p.id = some q) :
    q.signatures = [] ∧ p.createdAt + engine.config.signatureTimeout < q.createdAt := by
  cases hends with
  | forgotten =>
      have hgone : (engine.step (.removeProposal p.id)).proposals.get? p.id = none :=
        (SortedMap.get?_erase_eq engine.proposals p.id p.id).trans (if_pos rfl)
      rw [hgone] at hq
      cases hq
  | @swept now hlate =>
      have hgone : (engine.step (.cleanupExpired now)).proposals.get? p.id = none := by
        refine (SortedMap.get?_filter engine.proposals _ p.id).trans ?_
        simp [hp, Option.filter, isExpired_iff.mpr hlate]
      rw [hgone] at hq
      cases hq
  | @replaced proposer now hcarried hlate =>
      have htransition := transition_of_accepts hcarried
      generalize engine.step (.createProposal p.blockHash proposer now) = next at htransition hq
      cases htransition with
      | updated hop => cases hop
      | opened =>
          rw [hfiled, SortedMap.get?_insert_self, Option.some.injEq] at hq
          rw [← hq]
          exact ⟨rfl, hlate⟩

/-! ## A run -/

/-- A proposal that lasts is held all along, in a later state. -/
theorem exists_extends_of_lasts (hp : engine.proposals.get? p.id = some p)
    (hfiled : p.id = proposalId p.blockHash) (hlasts : Lasts engine p ops) :
    ∃ q, (engine.run ops).proposals.get? p.id = some q ∧ q.Extends p := by
  induction ops generalizing engine p with
  | nil => exact ⟨p, hp, .refl p⟩
  | cons op rest ih =>
      obtain ⟨next, hnext, hextends⟩ :
          ∃ next, (engine.step op).proposals.get? p.id = some next ∧ next.Extends p := by
        rcases held_or_signed_of_not_ends hp hfiled hlasts.not_ends with
          hsame | ⟨_, s, _, _, hnew, hsigned⟩
        · exact ⟨p, hsame, .refl p⟩
        · exact ⟨p.record s, hsigned, Proposal.extends_record hnew⟩
      have hid := hextends.id_eq
      have hnextfiled : next.id = proposalId next.blockHash := by
        rw [hid, hextends.blockHash_eq, hfiled]
      rw [← hid] at hnext
      obtain ⟨q, hq, hlater⟩ := ih hnext hnextfiled (hlasts.next hextends)
      exact ⟨q, hid ▸ hq, hlater.trans hextends⟩

theorem isReady_of_extends {later : Engine} {pid : String} (hp : engine.proposals.get? pid = some p)
    (hq : later.proposals.get? pid = some q) (hextends : q.Extends p)
    (hready : engine.isReady pid = true) : later.isReady pid = true := by
  rw [isReady, hp, Option.any_some] at hready
  rw [isReady, hq, Option.any_some]
  exact hextends.hasQuorum hready

theorem finalizedSignatures_of_extends {later : Engine} {pid : String}
    (hp : engine.proposals.get? pid = some p) (hq : later.proposals.get? pid = some q)
    (hextends : q.Extends p) {signatures : List BlockSignature}
    (hfinal : engine.finalizedSignatures pid = .ok signatures) :
    ∃ more, later.finalizedSignatures pid = .ok (signatures ++ more) := by
  have heq (e : Engine) {found : Proposal} (hfound : e.proposals.get? pid = some found) :
      e.finalizedSignatures pid =
        if found.hasQuorum then .ok found.signatures
        else .error (.quorumNotReached pid found.signed.size found.required) := by
    simp only [finalizedSignatures, proposal, hfound]
  rw [heq engine hp] at hfinal
  by_cases hquorum : p.hasQuorum = true
  · rw [if_pos hquorum, Except.ok.injEq] at hfinal
    obtain ⟨more, hmore⟩ := hextends.signatures
    refine ⟨more, ?_⟩
    rw [heq later hq, if_pos (hextends.hasQuorum hquorum), ← hfinal, hmore]
  · rw [if_neg hquorum] at hfinal
    cases hfinal

/-- **Nothing of a proposal is lost while it lasts.**  Take an engine that was started anew and a
proposal that it holds at some point of a run.  As long as no operation ends the proposal,

* it is held, for the same hash, with the same proposer, opening time and threshold, with the
  signatures it had in front of later ones, and with no more validators to wait for;
* it stays ready once it is, and the signatures that it is finalized with are only extended;
* the next operation leaves it as it is or puts one signature behind the others, unless it ends the
  proposal, and then none is in its place or a new one that was opened when its time had passed. -/
theorem extends_until_ended {config : Consensus.Config} {start : Engine}
    (hnew : new config = .ok start) (front back : List Operation) {pid : String} {p : Proposal}
    (hp : (start.run front).proposals.get? pid = some p) (hlasts : Lasts (start.run front) p back) :
    ∃ q, (start.run (front ++ back)).proposals.get? pid = some q ∧ q.Extends p ∧
      ((start.run front).isReady pid = true → (start.run (front ++ back)).isReady pid = true) ∧
      (∀ signatures, (start.run front).finalizedSignatures pid = .ok signatures →
        ∃ more, (start.run (front ++ back)).finalizedSignatures pid = .ok (signatures ++ more)) ∧
      ∀ op,
        (¬ Ends (start.run (front ++ back)) p op →
          ((start.run (front ++ back)).step op).proposals.get? pid = some q ∨
            ∃ source s, op = .submitSignature pid s.validator source s.signedAt ∧
              (start.run (front ++ back)).accepts op = true ∧
              q.signed.contains s.validator = false ∧
              ((start.run (front ++ back)).step op).proposals.get? pid = some (q.record s)) ∧
        (Ends (start.run (front ++ back)) p op → ∀ next,
          ((start.run (front ++ back)).step op).proposals.get? pid = some next →
            next.signatures = [] ∧ p.createdAt + config.signatureTimeout < next.createdAt) := by
  obtain ⟨rfl, _, _, _, htraced⟩ := traced_run hnew front hp
  obtain ⟨q, hq, hextends⟩ := exists_extends_of_lasts hp htraced.id_eq hlasts
  rw [← run_append] at hq
  have hid := hextends.id_eq
  have hfiled : q.id = proposalId q.blockHash := by
    rw [hid, hextends.blockHash_eq, htraced.id_eq]
  have hheld := hq
  rw [← hid] at hheld
  refine ⟨q, hq, hextends, isReady_of_extends hp hq hextends,
    fun _ => finalizedSignatures_of_extends hp hq hextends, fun op => ?_⟩
  rw [← ends_iff_of_extends hextends, ← hid]
  refine ⟨held_or_signed_of_not_ends hheld hfiled, fun hends next hnext => ?_⟩
  have hfresh := fresh_of_ends hheld hfiled hends hnext
  rwa [hextends.createdAt_eq, config_run, (new_eq_ok_iff.mp hnew).2] at hfresh

/-- One signature is enough. -/
def solo : Consensus.Config :=
  .withThresholds 1 1

/-- The founder takes a break while the clock goes back. -/
def interlude : List Operation := [
  .markOffline founderKey.id 9, .cleanupExpired 6, .markOnline founderKey.id 7]

/-- A finalized proposal outlasts the break of its only validator, and is replaced later on. -/
theorem extends_until_ended_interlude :
    ∃ (start : Engine) (p q next : Proposal), new solo = .ok start ∧
      (start.run (founding.take 3)).proposals.get? (proposalId "hash") = some p ∧
      Lasts (start.run (founding.take 3)) p interlude ∧ q.Extends p ∧
      (start.run (founding.take 3 ++ interlude)).isReady (proposalId "hash") = true ∧
      (∃ more, (start.run (founding.take 3 ++ interlude)).finalizedSignatures (proposalId "hash") =
        .ok (p.signatures ++ more)) ∧
      ((start.run (founding.take 3 ++ interlude)).step
        (.createProposal "hash" founderKey.id 40000)).proposals.get? (proposalId "hash") =
          some next ∧
      next.signatures = [] := by
  let start : Engine := ⟨solo, SortedMap.empty, SortedMap.empty, SortedMap.empty⟩
  let signed := start.run (founding.take 3)
  have hvalid : solo.validate = .ok () := (Consensus.Config.validate_eq_ok_iff _).mpr (by decide)
  have hnew : new solo = .ok start := new_eq_ok_iff.mpr ⟨hvalid, rfl⟩
  have hheld : (signed.proposals.get? (proposalId "hash")).any (fun p =>
      p.hasQuorum && p.blockHash == "hash" && p.createdAt == 5) = true := by
    decide +kernel
  have hreplaced : (((start.run (founding.take 3 ++ interlude)).step
      (.createProposal "hash" founderKey.id 40000)).proposals.get?
        (proposalId "hash")).isSome = true := by
    decide +kernel
  obtain ⟨p, hp, hfacts⟩ := (Option.any_eq_true _ _).mp hheld
  simp only [Bool.and_eq_true, beq_iff_eq] at hfacts
  obtain ⟨⟨hquorum, hhash⟩, htime⟩ := hfacts
  obtain ⟨next, hnext⟩ := Option.isSome_iff_exists.mp hreplaced
  have hlasts : Lasts signed p interlude := by
    intro front op back hops hends
    have hmem : op ∈ interlude := by simp [hops]
    simp only [interlude, List.mem_cons, List.not_mem_nil, or_false] at hmem
    rcases hmem with rfl | rfl | rfl
    · cases hends
    · cases hends with
      | swept hlate =>
          simp only [htime, signed, config_run] at hlate
          exact absurd hlate (by decide)
    · cases hends
  have hready : signed.isReady (proposalId "hash") = true := by
    rw [isReady, hp, Option.any_some, hquorum]
  have hfinal : signed.finalizedSignatures (proposalId "hash") = .ok p.signatures := by
    simp only [finalizedSignatures, proposal, hp, hquorum, if_true]
  obtain ⟨q, _, hextends, hstays, hmore, hops⟩ :=
    extends_until_ended hnew (founding.take 3) interlude hp hlasts
  have hends : Ends (start.run (founding.take 3 ++ interlude)) p
      (.createProposal "hash" founderKey.id 40000) := by
    rw [← hhash]
    refine .replaced ?_ ?_
    · rw [hhash]
      decide +kernel
    · rw [htime, config_run]
      decide
  exact ⟨start, p, q, next, hnew, hp, hlasts, hextends, hstays hready, hmore _ hfinal, hnext,
    ((hops _).2 hends next hnext).1⟩

end Engine

end AuthorityLedger
