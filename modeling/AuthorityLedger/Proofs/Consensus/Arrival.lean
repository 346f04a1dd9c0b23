import AuthorityLedger.Proofs.Consensus.Run
import AuthorityLedger.Proofs.Outcome

/-!
# Signatures that arrive in any order

Signatures for a proposal arrive from outside, one after another, in whatever
order the network delivers them: forged ones, repeated ones and ones of unknown
validators among them.  As long as the proposal is open, the order does not
matter.  A signature is *genuine* if its validator is registered and active and
it verifies over the block hash, and whether it is does not depend on what
arrived before (`arrival_cases`).  So what has been gathered in the end depends
on the genuine signatures alone (`Gathered`, `exists_gathered`), and the quorum
is reported once, by the signature that completes it (`crossing`).
-/

namespace AuthorityLedger.Engine

/-- A signature as it arrives, with the validator that is said to have made it. -/
structure Submission where
  validator : String
  signature : Bytes
  deriving DecidableEq, Repr

/-- The operation that submits a signature to a proposal. -/
def Submission.operation (pid : String) (now : Nat) (s : Submission) : Operation :=
  .submitSignature pid s.validator (.provided s.signature) now

/-- The engine after signatures have arrived one after another. -/
def submitAll (engine : Engine) (pid : String) (now : Nat) (arrivals : List Submission) : Engine :=
  engine.run (arrivals.map (Submission.operation pid now))

/-- What is answered to signatures that arrive one after another. -/
def answers (pid : String) (now : Nat) :
    Engine → List Submission → List (Except Consensus.Error Bool)
  | _, [] => []
  | engine, s :: rest =>
    ((addSignature pid s.validator s.signature now).on engine).1 ::
      answers pid now (engine.step (s.operation pid now)) rest

/-- How many answers say that a signature has completed the quorum. -/
def completions (engine : Engine) (pid : String) (now : Nat) (arrivals : List Submission) : Nat :=
  (answers pid now engine arrivals).countP fun answer => answer.toOption = some true

/-- Whether a signature verifies over a block hash and comes from an active validator. -/
def genuine (engine : Engine) (blockHash : String) (s : Submission) : Bool :=
  (engine.validators.get? s.validator).any fun v =>
    v.canSign && v.verify (Bytes.ofText blockHash) s.signature

/-- Whether a genuine signature of a validator is among the arrivals. -/
def vouched (engine : Engine) (blockHash : String) (arrivals : List Submission) (id : String) :
    Bool :=
  arrivals.any fun s => s.validator == id && engine.genuine blockHash s

variable {engine : Engine} {pid : String} {now : Nat} {p q : Proposal}

/-- Who is vouched for does not depend on the order of the arrivals. -/
theorem vouched_perm {blockHash : String} {arrivals others : List Submission}
    (h : others.Perm arrivals) (id : String) :
    engine.vouched blockHash others id = engine.vouched blockHash arrivals id := by
  unfold vouched
  rw [Bool.eq_iff_iff, List.any_eq_true, List.any_eq_true]
  constructor
  · rintro ⟨s, hs, hvouches⟩
    exact ⟨s, h.mem_iff.mp hs, hvouches⟩
  · rintro ⟨s, hs, hvouches⟩
    exact ⟨s, h.mem_iff.mpr hs, hvouches⟩

theorem vouched_eq_true_iff {blockHash : String} {arrivals : List Submission} {id : String} :
    engine.vouched blockHash arrivals id = true ↔
      ∃ v, engine.validators.get? id = some v ∧ v.canSign = true ∧
        ∃ s ∈ arrivals, s.validator = id ∧
          v.verify (Bytes.ofText blockHash) s.signature = true := by
  unfold vouched genuine
  rw [List.any_eq_true]
  constructor
  · rintro ⟨s, hs, hvouches⟩
    rw [Bool.and_eq_true, beq_iff_eq, Option.any_eq_true] at hvouches
    obtain ⟨rfl, v, hv, hgenuine⟩ := hvouches
    rw [Bool.and_eq_true] at hgenuine
    exact ⟨v, hv, hgenuine.1, s, hs, rfl, hgenuine.2⟩
  · rintro ⟨v, hv, hactive, s, hs, rfl, hverify⟩
    refine ⟨s, hs, ?_⟩
    simp [hv, hactive, hverify]

theorem vouched_cons (blockHash : String) (s : Submission) (rest : List Submission) (id : String) :
    engine.vouched blockHash (s :: rest) id =
      ((s.validator == id && engine.genuine blockHash s) || engine.vouched blockHash rest id) := rfl

/-! ## One arrival -/

theorem step_operation (engine : Engine) (pid : String) (now : Nat) (s : Submission) :
    engine.step (s.operation pid now) =
      ((addSignature pid s.validator s.signature now).on engine).2 :=
  Action.snd_on_ignore _ _

theorem completions_cons (engine : Engine) (pid : String) (now : Nat) (s : Submission)
    (rest : List Submission) :
    engine.completions pid now (s :: rest) =
      (engine.step (s.operation pid now)).completions pid now rest +
        if ((addSignature pid s.validator s.signature now).on engine).1.toOption = some true then 1
        else 0 := by
  unfold completions
  rw [answers, List.countP_cons]
  simp

/-- **One signature arrives.**  It is refused and changes nothing, because its validator has signed
already or it is not genuine; or it is taken in, and then every other signature is as genuine as
before. -/
theorem arrival_cases (hp : engine.proposals.get? pid = some p)
    (htime : p.isExpired now engine.config.signatureTimeout = false) (s : Submission) :
    ((p.signed.contains s.validator = true ∨ engine.genuine p.blockHash s = false) ∧
        ∃ cause, (addSignature pid s.validator s.signature now).on engine =
          (.error cause, engine)) ∨
      (p.signed.contains s.validator = false ∧ engine.genuine p.blockHash s = true ∧
        ∃ r next, r.validator = s.validator ∧
          (addSignature pid s.validator s.signature now).on engine =
            (.ok (!p.hasQuorum && (p.record r).hasQuorum), next) ∧
          next.proposals.get? pid = some (p.record r) ∧ next.config = engine.config ∧
          next.genuine p.blockHash = engine.genuine p.blockHash) := by
  unfold addSignature
  rw [on_submitSignature, hp]
  dsimp only
  rw [htime, if_neg Bool.false_ne_true]
  by_cases hsigned : p.signed.contains s.validator = true
  · rw [if_pos hsigned]
    exact Or.inl ⟨Or.inl hsigned, _, rfl⟩
  · rw [if_neg hsigned]
    cases hsigner : engine.signer s.validator with
    | error cause =>
        refine Or.inl ⟨Or.inr ?_, cause, rfl⟩
        by_contra hgenuine
        rw [Bool.not_eq_false, genuine, Option.any_eq_true] at hgenuine
        obtain ⟨v, hv, hactive⟩ := hgenuine
        have hok := signer_eq_ok_iff.mpr ⟨hv, (Bool.and_eq_true _ _ ▸ hactive).1⟩
        rw [hsigner] at hok
        cases hok
    | ok v =>
        obtain ⟨hv, hactive⟩ := signer_eq_ok_iff.mp hsigner
        have hgenuine : engine.genuine p.blockHash s =
            v.verify (Bytes.ofText p.blockHash) s.signature := by
          simp [genuine, hv, hactive]
        dsimp only
        by_cases hverify : v.verify (Bytes.ofText p.blockHash) s.signature = true
        · have hobtain : obtainSignature v p.blockHash (.provided s.signature) = .ok s.signature :=
            if_pos hverify
          right
          rw [hobtain]
          refine ⟨Bool.eq_false_iff.mpr hsigned, hgenuine.trans hverify,
            ⟨s.validator, v.participant, s.signature, now⟩, _, rfl, rfl,
            SortedMap.get?_insert_self _ _ _, rfl, ?_⟩
          -- taking in a signature touches the record of its validator, not its key or its status
          funext other
          unfold genuine
          rw [SortedMap.get?_insert_eq]
          by_cases hsame : other.validator = s.validator
          · rw [if_pos hsame, hsame, hv]
            rfl
          · rw [if_neg hsame]
        · have hobtain : obtainSignature v p.blockHash (.provided s.signature) =
              .error (.invalidSignature v.id) := if_neg hverify
          left
          rw [hobtain]
          exact ⟨Or.inr (hgenuine.trans (Bool.eq_false_iff.mpr hverify)), _, rfl⟩

/-- What a proposal has become when signatures of some validators have arrived. -/
structure Gathered (p q : Proposal) (vouched : String → Bool) : Prop where
  required_eq : q.required = p.required
  signed_eq : ∀ id, q.signed.contains id = (p.signed.contains id || vouched id)
  pending_eq : ∀ id,
    q.pending.contains id = (p.pending.contains id && (p.signed.contains id || !vouched id))
  size_signed : p.signed.size ≤ q.signed.size

/-- Signatures of validators that have signed already add nothing to what is gathered. -/
theorem Gathered.of_signed {vouched more : String → Bool} (h : Gathered p q vouched)
    (hmore : ∀ id, more id = vouched id ∨ p.signed.contains id = true) : Gathered p q more where
  required_eq := h.required_eq
  signed_eq := by
    intro id
    rw [h.signed_eq]
    rcases hmore id with heq | hsigned
    · rw [heq]
    · rw [hsigned, Bool.true_or, Bool.true_or]
  pending_eq := by
    intro id
    rw [h.pending_eq]
    rcases hmore id with heq | hsigned
    · rw [heq]
    · rw [hsigned, Bool.true_or, Bool.true_or]
  size_signed := h.size_signed

/-- A signature that is taken in is gathered before those that arrive later. -/
theorem Gathered.of_record {r : BlockSignature} {vouched : String → Bool}
    (h : Gathered (p.record r) q vouched) (hnew : p.signed.contains r.validator = false) :
    Gathered p q fun id => decide (id = r.validator) || vouched id := by
  have hsigned (id : String) : (p.record r).signed.contains id =
      (decide (id = r.validator) || p.signed.contains id) := NameSet.contains_add _ _ _
  have hpending (id : String) : (p.record r).pending.contains id =
      (!decide (id = r.validator) && p.pending.contains id) := by
    unfold Proposal.record SortedMap.contains
    rw [SortedMap.get?_erase_eq]
    by_cases hid : id = r.validator <;> simp [hid]
  have hsize : (p.record r).signed.size = p.signed.size + 1 := NameSet.size_add hnew
  constructor
  · exact h.required_eq
  · intro id
    rw [h.signed_eq, hsigned, Bool.or_left_comm, Bool.or_assoc]
  · intro id
    rw [h.pending_eq, hsigned, hpending]
    by_cases hid : id = r.validator
    · rw [hid, hnew]
      simp
    · simp [hid]
  · have hlater := h.size_signed
    omega

/-- The quorum is completed between two states of a proposal. -/
def crossing (p q : Proposal) : Nat :=
  if p.signed.size < p.required ∧ q.required ≤ q.signed.size then 1 else 0

/-- The quorum is completed by the first signature that is taken in, or later, or not at all. -/
theorem crossing_record {r : BlockSignature} (hrequired : q.required = p.required)
    (hsize : (p.record r).signed.size = p.signed.size + 1)
    (hlater : (p.record r).signed.size ≤ q.signed.size) :
    crossing (p.record r) q + (if (Except.ok (!p.hasQuorum && (p.record r).hasQuorum) :
        Except Consensus.Error Bool).toOption = some true then 1 else 0) = crossing p q := by
  have hanswer : (Except.ok (!p.hasQuorum && (p.record r).hasQuorum) :
      Except Consensus.Error Bool).toOption = some true ↔
        p.signed.size < p.required ∧ p.required ≤ p.signed.size + 1 := by
    simp only [Except.toOption, Option.some.injEq, Bool.and_eq_true, Bool.not_eq_true',
      Proposal.hasQuorum, decide_eq_false_iff_not, decide_eq_true_eq, hsize, Nat.not_le]
    rfl
  have hsame : (p.record r).required = p.required := rfl
  unfold crossing
  simp only [hanswer, hsize, hsame, hrequired]
  split_ifs <;> omega

/-- **Whatever arrives**, what is gathered are the genuine signatures, and the quorum is reported if
and only if it is completed on the way. -/
theorem exists_gathered (hp : engine.proposals.get? pid = some p)
    (htime : p.isExpired now engine.config.signatureTimeout = false) (arrivals : List Submission) :
    ∃ q, (engine.submitAll pid now arrivals).proposals.get? pid = some q ∧
      Gathered p q (engine.vouched p.blockHash arrivals) ∧
      engine.completions pid now arrivals = crossing p q := by
  induction arrivals generalizing engine p with
  | nil =>
      refine ⟨p, hp, ⟨rfl, by simp [vouched], by simp [vouched], le_rfl⟩, ?_⟩
      have hnone : ¬(p.signed.size < p.required ∧ p.required ≤ p.signed.size) := by omega
      exact (if_neg hnone).symm
  | cons s rest ih =>
      have hrun : engine.submitAll pid now (s :: rest) =
          (engine.step (s.operation pid now)).submitAll pid now rest := rfl
      rw [hrun, completions_cons, step_operation]
      rcases arrival_cases hp htime s with
        ⟨hvoid, cause, hanswer⟩ | ⟨hnew, hgenuine, r, next, hr, hanswer, hnext, hconfig, hsame⟩
      · obtain ⟨q, hq, hgathered, hcount⟩ := ih hp htime
        rw [hanswer]
        refine ⟨q, hq, hgathered.of_signed ?_, by simpa [Except.toOption] using hcount⟩
        intro id
        rw [vouched_cons]
        rcases hvoid with hsigned | hforged
        · by_cases hid : s.validator = id
          · exact Or.inr (hid ▸ hsigned)
          · simp [hid]
        · simp [hforged]
      · obtain ⟨q, hq, hgathered, hcount⟩ := ih hnext (by rw [hconfig]; exact htime)
        have hvouched : next.vouched p.blockHash rest = engine.vouched p.blockHash rest := by
          unfold vouched
          rw [hsame]
        have hlater := hgathered.size_signed
        have hsize : (p.record r).signed.size = p.signed.size + 1 := NameSet.size_add (hr ▸ hnew)
        have hfirst : engine.vouched p.blockHash (s :: rest) = fun id =>
            decide (id = r.validator) || next.vouched p.blockHash rest id := by
          funext id
          rw [vouched_cons, hgenuine, Bool.and_true, hvouched, hr]
          congr 1
          rw [Bool.eq_iff_iff, beq_iff_eq, decide_eq_true_iff, eq_comm]
        rw [hanswer]
        refine ⟨q, hq, ?_, ?_⟩
        · rw [hfirst]
          exact hgathered.of_record (hr ▸ hnew)
        · rw [hcount]
          exact crossing_record hgathered.required_eq hsize hlater

/-! ## Any order -/

/-- Two states of a proposal that gathered signatures of the same validators have gathered the
same. -/
theorem Gathered.eq {r : Proposal} {vouched more : String → Bool} (hq : Gathered p q vouched)
    (hr : Gathered p r more) (hsame : ∀ id, more id = vouched id) :
    r.signed = q.signed ∧ r.pending = q.pending ∧ r.required = q.required := by
  refine ⟨NameSet.eq_of_contains fun id => ?_, NameSet.eq_of_contains fun id => ?_,
    hr.required_eq.trans hq.required_eq.symm⟩
  · rw [hr.signed_eq, hq.signed_eq, hsame]
  · rw [hr.pending_eq, hq.pending_eq, hsame]

/-- **The order of arrival does not matter.**  Signatures arrive for a proposal that an engine holds
and whose time has not passed.  In the end

* those have signed who had signed before, and the active validators of whom a signature has arrived
  that verifies over the block hash;
* whatever the order of the same arrivals, the same have signed, the same are waited for, and the
  proposal is ready or is not;
* the quorum has been reported once if it was completed on the way, and never otherwise. -/
theorem arrival_order_irrelevant {engine : Engine} {pid : String} {p : Proposal} {now : Nat}
    (hp : engine.proposals.get? pid = some p)
    (htime : p.isExpired now engine.config.signatureTimeout = false) (arrivals : List Submission) :
    ∃ q, (engine.submitAll pid now arrivals).proposals.get? pid = some q ∧
      q.required = p.required ∧
      (∀ id, q.signed.contains id = true ↔ p.signed.contains id = true ∨
        ∃ v, engine.validators.get? id = some v ∧ v.status = .active ∧
          ∃ s ∈ arrivals, s.validator = id ∧
            v.verify (Bytes.ofText p.blockHash) s.signature = true) ∧
      (∀ others : List Submission, others.Perm arrivals →
        ∃ r, (engine.submitAll pid now others).proposals.get? pid = some r ∧
          r.signed = q.signed ∧ r.pending = q.pending ∧
          (engine.submitAll pid now others).isReady pid =
            (engine.submitAll pid now arrivals).isReady pid) ∧
      engine.completions pid now arrivals =
        if p.signed.size < p.required ∧ q.required ≤ q.signed.size then 1 else 0 := by
  obtain ⟨q, hq, hgathered, hcount⟩ := exists_gathered hp htime arrivals
  refine ⟨q, hq, hgathered.required_eq, ?_, ?_, hcount⟩
  · intro id
    rw [hgathered.signed_eq, Bool.or_eq_true, vouched_eq_true_iff]
    simp only [Validator.canSign, beq_iff_eq]
  · intro others hperm
    obtain ⟨r, hr, hother, _⟩ := exists_gathered hp htime others
    obtain ⟨hsigned, hpending, hrequired⟩ := hgathered.eq hother (vouched_perm hperm)
    refine ⟨r, hr, hsigned, hpending, ?_⟩
    unfold isReady
    rw [hr, hq, Option.any_some, Option.any_some, Proposal.hasQuorum, Proposal.hasQuorum, hsigned,
      hrequired]

/-- The key of the only validator that is asked. -/
def askedKey : Key :=
  Key.ofSeed (List.replicate 32 3)

/-- An engine that waits for one signature. -/
def awaiting : Engine :=
  run ⟨.withThresholds 1 1, SortedMap.empty, SortedMap.empty, SortedMap.empty⟩
    [.addValidator "ada" askedKey 1 0, .createProposal "hash" askedKey.id 5]

/-- The signature that it waits for. -/
def awaited : Submission where
  validator := askedKey.id
  signature := Ed25519.sign (List.replicate 32 3) (Bytes.ofText "hash")

/-- A signature of nobody known, a forged one, and a genuine one that comes twice. -/
def mixedArrivals : List Submission :=
  [⟨"nobody", []⟩, ⟨askedKey.id, [0]⟩, awaited, awaited]

/-- The genuine signature is gathered from the mixed arrivals, in their order or backwards. -/
theorem arrival_order_irrelevant_awaiting :
    ∃ p q r, awaiting.proposals.get? (proposalId "hash") = some p ∧
      p.isExpired 9 awaiting.config.signatureTimeout = false ∧
      (awaiting.submitAll (proposalId "hash") 9 mixedArrivals).proposals.get? (proposalId "hash") =
        some q ∧
      q.signed.contains askedKey.id = true ∧
      (awaiting.submitAll (proposalId "hash") 9 mixedArrivals.reverse).proposals.get?
        (proposalId "hash") = some r ∧
      r.signed = q.signed := by
  have hheld : (awaiting.proposals.get? (proposalId "hash")).any (fun p =>
      !p.isExpired 9 awaiting.config.signatureTimeout && p.blockHash == "hash") = true := by
    decide +kernel
  have hknown : (awaiting.validators.get? askedKey.id).any (fun v =>
      v.status == .active && v.identity == askedKey) = true := by
    decide +kernel
  obtain ⟨p, hp, hfacts⟩ := (Option.any_eq_true _ _).mp hheld
  obtain ⟨v, hv, hactive⟩ := (Option.any_eq_true _ _).mp hknown
  simp only [Bool.and_eq_true, Bool.not_eq_true', beq_iff_eq] at hfacts hactive
  obtain ⟨htime, hhash⟩ := hfacts
  obtain ⟨hstatus, hkey⟩ := hactive
  have hverify : v.verify (Bytes.ofText p.blockHash) awaited.signature = true := by
    rw [Validator.verify, hkey, hhash]
    exact Key.verify_of_sign rfl
  have harrives : awaited ∈ mixedArrivals := by simp [mixedArrivals]
  obtain ⟨q, hq, _, hsigned, hothers, _⟩ := arrival_order_irrelevant hp htime mixedArrivals
  obtain ⟨r, hr, hsame, _⟩ := hothers _ (List.reverse_perm mixedArrivals)
  exact ⟨p, q, r, hp, htime, hq,
    (hsigned askedKey.id).mpr
      (Or.inr ⟨v, hv, hstatus, awaited, harrives, by rw [awaited], hverify⟩),
    hr, hsame⟩

end AuthorityLedger.Engine
