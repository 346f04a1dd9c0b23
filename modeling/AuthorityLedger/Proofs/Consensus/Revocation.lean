import AuthorityLedger.Proofs.Consensus.Run

/-!
# Revoked validators

A validator that is revoked cannot act: it cannot sign, open proposals or be
cleared to propose (`Barred` and its lemmas).  No operation on the record of a
revoked validator leads out of this.  There is one way around it, which is to
remove the validator and to enrol its key again; the engine does not remember
the identifiers that were revoked.  This is the only way, and it always works
(`barred_iff_not_reenrolled`).
-/

namespace AuthorityLedger.Engine

variable {engine next : Engine} {op : Operation} {carried : Bool} {id : String}

/-- A validator is not registered, or it is revoked. -/
def Barred (engine : Engine) (id : String) : Prop :=
  ∀ v, engine.validators.get? id = some v → v.status = .revoked

/-! ## What a barred validator cannot do -/

theorem Barred.canSign_eq_false (h : engine.Barred id) {v : Validator}
    (hv : engine.validators.get? id = some v) : v.canSign = false := by
  simp [Validator.canSign, h v hv]

theorem Barred.signer_ne_ok (h : engine.Barred id) (v : Validator) : engine.signer id ≠ .ok v := by
  intro hsigner
  obtain ⟨hv, hactive⟩ := signer_eq_ok_iff.mp hsigner
  rw [h.canSign_eq_false hv] at hactive
  cases hactive

theorem Barred.accepts_submitSignature (h : engine.Barred id) (pid : String)
    (source : SignatureSource) (now : Nat) :
    engine.accepts (.submitSignature pid id source now) = false := by
  rw [Bool.eq_false_iff]
  intro haccepts
  have htransition := transition_of_accepts haccepts
  generalize engine.step (.submitSignature pid id source now) = next at htransition
  cases htransition with
  | updated hop => cases hop
  | signed _ hsignable =>
      have hactive := hsignable.active
      rw [h.canSign_eq_false hsignable.registered] at hactive
      cases hactive

theorem Barred.accepts_createProposal (h : engine.Barred id) (blockHash : String) (now : Nat) :
    engine.accepts (.createProposal blockHash id now) = false := by
  rw [Bool.eq_false_iff]
  intro haccepts
  have htransition := transition_of_accepts haccepts
  generalize engine.step (.createProposal blockHash id now) = next at htransition
  cases htransition with
  | updated hop => cases hop
  | opened _ hproposer => exact h.signer_ne_ok _ hproposer

theorem Barred.canPropose_ne_ok (h : engine.Barred id) (now : Nat) :
    engine.canPropose id now ≠ .ok () := by
  unfold canPropose
  cases hsigner : engine.signer id with
  | error cause => simp
  | ok v => exact absurd hsigner (h.signer_ne_ok v)

/-! ## What becomes of a barred validator -/

/-- No revision of a revoked validator changes that it is revoked. -/
theorem status_eq_revoked_of_update {change : Validator → Except Consensus.Error Validator}
    (hop : op.update? = some (id, change)) {old revised : Validator}
    (hchange : change old = .ok revised) (hrevoked : old.status = .revoked) :
    revised.status = .revoked := by
  have hmark (status : ValidatorStatus) (now : Nat) : old.mark status now ≠ .ok revised := by
    simp [Validator.mark, Validator.isRevoked, hrevoked]
  cases op with
  | markOffline target now =>
      cases hop
      exact absurd hchange (hmark _ _)
  | markOnline target now =>
      cases hop
      exact absurd hchange (hmark _ _)
  | revokeValidator target now =>
      cases hop
      cases hchange
      rfl
  | recordActivity target now =>
      cases hop
      cases hchange
      exact hrevoked
  | _ => cases hop

/-- **One operation.**  A barred validator stays barred, unless its key is enrolled. -/
theorem Transition.barred (h : Transition engine op carried next) (hbarred : engine.Barred id) :
    next.Barred id ∨
      carried = true ∧ ∃ participant identity weight now,
        op = .addValidator participant identity weight now ∧ identity.id = id := by
  refine or_iff_not_imp_left.mpr fun hfree => ?_
  obtain ⟨v, hv, hstatus⟩ : ∃ v, next.validators.get? id = some v ∧ v.status ≠ .revoked := by
    simpa [Barred] using hfree
  rcases h.validator_cases hv with
    hold | ⟨participant, identity, weight, now, rfl, hcarried, hid, _⟩ |
      ⟨old, change, hop, hold, hchange⟩ | ⟨old, now, hold, hactive, _⟩
  · exact absurd (hbarred v hold) hstatus
  · exact ⟨hcarried, participant, identity, weight, now, rfl, hid.symm⟩
  · exact absurd (status_eq_revoked_of_update hop hchange (hbarred old hold)) hstatus
  · rw [hbarred.canSign_eq_false hold] at hactive
    cases hactive

/-- A registered validator stays registered, unless it is removed. -/
theorem Transition.registered (h : Transition engine op carried next) {v : Validator}
    (hv : engine.validators.get? id = some v) :
    (∃ w, next.validators.get? id = some w) ∨ carried = true ∧ op = .removeValidator id := by
  have hinsert (target : String) (w : Validator) :
      ∃ found, (engine.validators.insert target w).get? id = some found := by
    rw [SortedMap.get?_insert_eq]
    by_cases hid : id = target
    · exact ⟨w, if_pos hid⟩
    · exact ⟨v, by rw [if_neg hid, hv]⟩
  cases h with
  | enrolled | updated | signed => exact Or.inl (hinsert _ _)
  | @removed target old hknown =>
      by_cases hid : id = target
      · exact Or.inr ⟨rfl, by rw [hid]⟩
      · refine Or.inl ⟨v, ?_⟩
        rw [SortedMap.get?_erase_eq, if_neg hid, hv]
  | opened | forgotten | swept | recorded | refused => exact Or.inl ⟨v, hv⟩

/-- Where a barred validator is barred no longer, its key was enrolled on the way. -/
theorem exists_enrolment_of_not_barred (hbarred : engine.Barred id) {ops : List Operation}
    (hnot : ¬ (engine.run ops).Barred id) :
    ∃ front participant identity weight now back,
      ops = front ++ .addValidator participant identity weight now :: back ∧ identity.id = id ∧
        (engine.run front).accepts (.addValidator participant identity weight now) = true := by
  obtain ⟨front, op, back, rfl, hbefore, hafter⟩ :=
    @exists_breaking_operation (Barred · id) _ hbarred _ hnot
  rcases (transition (engine.run front) op).barred hbefore with
    hstill | ⟨hcarried, participant, identity, weight, now, rfl, hid⟩
  · exact absurd hstill hafter
  · exact ⟨front, participant, identity, weight, now, back, rfl, hid, hcarried⟩

/-- Where a registered validator is registered no longer, it was removed on the way. -/
theorem exists_removal_of_absent {v : Validator} (hv : engine.validators.get? id = some v)
    {ops : List Operation} (hgone : (engine.run ops).validators.get? id = none) :
    ∃ front back, ops = front ++ .removeValidator id :: back ∧
      (engine.run front).accepts (.removeValidator id) = true := by
  have habsent : ¬ ∃ w, (engine.run ops).validators.get? id = some w := by
    simp [hgone]
  obtain ⟨front, op, back, rfl, ⟨w, hw⟩, hafter⟩ :=
    @exists_breaking_operation (fun e => ∃ w, e.validators.get? id = some w) _ ⟨v, hv⟩ _ habsent
  rcases (transition (engine.run front) op).registered hw with hstill | ⟨hcarried, rfl⟩
  · exact absurd hstill hafter
  · exact ⟨front, back, rfl, hcarried⟩

/-! ## After a revocation -/

/-- Enrolling is carried out where the identifier is free, and makes an active validator. -/
theorem exists_active_of_enrolled {participant : String} {identity : Key} {weight now : Nat}
    (h : engine.accepts (.addValidator participant identity weight now) = true) :
    engine.validators.get? identity.id = none ∧
      ∃ v, (engine.step (.addValidator participant identity weight now)).validators.get?
        identity.id = some v ∧ v.status = .active := by
  have htransition := transition_of_accepts h
  generalize engine.step (.addValidator participant identity weight now) = next at htransition ⊢
  cases htransition with
  | enrolled hnew => exact ⟨hnew, _, SortedMap.get?_insert_self _ _ _, rfl⟩
  | updated hop => cases hop

/-- Revoking is carried out where the validator is registered, and makes it revoked. -/
theorem exists_revoked_of_revoked {now : Nat}
    (h : engine.accepts (.revokeValidator id now) = true) :
    ∃ v, (engine.step (.revokeValidator id now)).validators.get? id = some v ∧
      v.status = .revoked := by
  have htransition := transition_of_accepts h
  generalize engine.step (.revokeValidator id now) = next at htransition ⊢
  cases htransition with
  | updated hop hknown hchange =>
      cases hop
      cases hchange
      exact ⟨_, SortedMap.get?_insert_self _ _ _, rfl⟩

/-- A validator is removed and later on its key is enrolled again. -/
def Reenrolled (engine : Engine) (ops : List Operation) (id : String) : Prop :=
  ∃ front middle back participant identity weight now,
    ops = front ++ .removeValidator id ::
        (middle ++ .addValidator participant identity weight now :: back) ∧
      identity.id = id ∧ (engine.run front).accepts (.removeValidator id) = true ∧
      (engine.run (front ++ .removeValidator id :: middle)).accepts
        (.addValidator participant identity weight now) = true

/-- **Revocation lasts until the key is enrolled again.**  Whatever is asked of an engine after a
validator was revoked, the validator is absent or revoked all the time, unless it is removed and its
key enrolled again, in which case it is active then.  While it is absent or revoked, no signature of
it is taken in, no proposal is opened by it, and it may not propose. -/
theorem barred_iff_not_reenrolled {now : Nat}
    (hrevoked : engine.accepts (.revokeValidator id now) = true) (ops : List Operation) :
    ((∀ mid, mid <+: ops → ((engine.step (.revokeValidator id now)).run mid).Barred id) ↔
        ¬ Reenrolled (engine.step (.revokeValidator id now)) ops id) ∧
      (((engine.step (.revokeValidator id now)).run ops).Barred id →
        (∀ pid source time, ((engine.step (.revokeValidator id now)).run ops).accepts
          (.submitSignature pid id source time) = false) ∧
        (∀ blockHash time, ((engine.step (.revokeValidator id now)).run ops).accepts
          (.createProposal blockHash id time) = false) ∧
        ∀ time, ((engine.step (.revokeValidator id now)).run ops).canPropose id time ≠ .ok ()) := by
  obtain ⟨v, hv, hstatus⟩ := exists_revoked_of_revoked hrevoked
  generalize engine.step (.revokeValidator id now) = revoked at hv ⊢
  refine ⟨⟨?_, ?_⟩, fun h => ⟨h.accepts_submitSignature, h.accepts_createProposal,
    h.canPropose_ne_ok⟩⟩
  · rintro hbarred ⟨front, middle, back, participant, identity, weight, time, rfl, hid, _, hcarried⟩
    obtain ⟨_, w, hw, hactive⟩ := exists_active_of_enrolled hcarried
    have hprefix : front ++ .removeValidator id :: middle ++
        [.addValidator participant identity weight time] <+: front ++ .removeValidator id ::
          (middle ++ .addValidator participant identity weight time :: back) := ⟨back, by simp⟩
    rw [hid] at hw
    have hnow := hbarred _ hprefix w (by rwa [run_append, run_cons, run_nil])
    rw [hactive] at hnow
    cases hnow
  · intro hnot mid hmid
    by_contra hfree
    have hbarred : revoked.Barred id := by
      intro w hw
      rw [hv] at hw
      exact Option.some.inj hw ▸ hstatus
    obtain ⟨before, participant, identity, weight, time, after, rfl, hid, hcarried⟩ :=
      exists_enrolment_of_not_barred hbarred hfree
    obtain ⟨hgone, _⟩ := exists_active_of_enrolled hcarried
    rw [hid] at hgone
    obtain ⟨front, middle, rfl, hremoved⟩ := exists_removal_of_absent hv hgone
    obtain ⟨later, rfl⟩ := hmid
    refine hnot ⟨front, middle, after ++ later, participant, identity, weight, time, ?_, hid,
      hremoved, hcarried⟩
    simp

/-- The key of a validator that comes back. -/
def returnedKey : Key :=
  Key.ofSeed (List.replicate 32 5)

/-- An engine with one validator. -/
def returning : Engine :=
  run ⟨.standard, SortedMap.empty, SortedMap.empty, SortedMap.empty⟩
    [.addValidator "ada" returnedKey 1 0]

/-- A revoked validator that asks to be marked online stays out; one that is removed and enrolled
again does not. -/
theorem barred_iff_not_reenrolled_returned :
    returning.accepts (.revokeValidator returnedKey.id 4) = true ∧
      (∀ mid, mid <+: [Operation.markOnline returnedKey.id 6] →
        ((returning.step (.revokeValidator returnedKey.id 4)).run mid).Barred returnedKey.id) ∧
      ¬ ∀ mid, mid <+: [Operation.removeValidator returnedKey.id,
          .addValidator "ada" returnedKey 1 8] →
        ((returning.step (.revokeValidator returnedKey.id 4)).run mid).Barred returnedKey.id := by
  have hrevoked : returning.accepts (.revokeValidator returnedKey.id 4) = true := by
    decide +kernel
  refine ⟨hrevoked, ?_, ?_⟩
  · refine (barred_iff_not_reenrolled hrevoked _).1.mpr ?_
    rintro ⟨front, middle, back, participant, identity, weight, time, hops, _⟩
    have hlength := congrArg List.length hops
    simp only [List.length_cons, List.length_append, List.length_nil] at hlength
    omega
  · intro hbarred
    refine (barred_iff_not_reenrolled hrevoked _).1.mp hbarred
      ⟨[], [], [], "ada", returnedKey, 1, 8, rfl, rfl, ?_, ?_⟩
    · decide +kernel
    · decide +kernel

end AuthorityLedger.Engine
