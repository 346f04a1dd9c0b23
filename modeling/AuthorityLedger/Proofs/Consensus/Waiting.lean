import AuthorityLedger.Proofs.Consensus.RateLimit

/-!
# How long a proposer has to wait

A proposer who comes before the gap has passed is told how many seconds to wait.
The gap is measured in milliseconds from the last proposal that was recorded, and
what is left of it is rounded up to whole seconds.  So the number is never zero,
it is enough, and after fewer seconds the proposer is told to wait for exactly
those that are left (`ExactWait`).

This holds where the time of the check is not before the last recorded proposal.
What the engine keeps of a validator is always the last of its recorded
proposals (`getLast?_recordings`), whatever has happened besides.
-/

namespace AuthorityLedger.Engine

variable {engine : Engine} {id other : String} {now wait : Nat}

/-- A proposer is too soon where less than the gap has passed since the last proposal, and has to
wait for what is left of the gap, in seconds and rounded up. -/
theorem canPropose_eq_proposingTooSoon_iff :
    engine.canPropose id now = .error (.proposingTooSoon other wait) ↔
      other = id ∧ (∃ v, engine.signer id = .ok v) ∧
        ∃ kept, engine.rateLimits.get? id = some kept ∧
          now - kept.lastProposal < engine.config.proposalGap ∧
          wait = (engine.config.proposalGap - (now - kept.lastProposal) + 999) / 1000 := by
  unfold canPropose
  cases hsigner : engine.signer id with
  | error cause =>
      have hcause : cause ≠ .proposingTooSoon other wait := by
        rintro rfl
        rcases signer_eq_error_cases hsigner with h | ⟨status, h⟩ <;> cases h
      simp [hcause]
  | ok v =>
      cases engine.rateLimits.get? id with
      | none => simp
      | some kept =>
          simp only [Option.some.injEq, exists_eq_left', Except.ok.injEq, exists_eq', true_and]
          split_ifs with hsoon hpause hfull
          · simp only [Except.error.injEq, Consensus.Error.proposingTooSoon.injEq, hsoon, true_and]
            exact and_congr eq_comm eq_comm
          · simp [hsoon]
          · simp [hsoon]
          · simp [hsoon]

/-- What it means to be told at some time to wait for some seconds. -/
structure ExactWait (engine : Engine) (id : String) (now wait : Nat) : Prop where
  /-- There is something to wait for. -/
  pos : 1 ≤ wait
  /-- After fewer seconds it is still too soon, by those that are left. -/
  needed : ∀ seconds < wait, engine.canPropose id (now + 1000 * seconds) =
    .error (.proposingTooSoon id (wait - seconds))
  /-- After that many seconds, or longer, it is no longer too soon. -/
  enough : ∀ later, now + 1000 * wait ≤ later → ∀ other more,
    engine.canPropose id later ≠ .error (.proposingTooSoon other more)

/-- **The wait is exact**, unless the last proposal is still to come. -/
theorem exactWait_of_kept (hclock : ∀ kept ∈ engine.rateLimits.get? id, kept.lastProposal ≤ now)
    (hsoon : engine.canPropose id now = .error (.proposingTooSoon other wait)) :
    ExactWait engine id now wait := by
  obtain ⟨_, hsigner, kept, hkept, hearly, rfl⟩ := canPropose_eq_proposingTooSoon_iff.mp hsoon
  have hlast : kept.lastProposal ≤ now := hclock kept hkept
  refine ⟨by omega, ?_, ?_⟩
  · intro seconds hseconds
    refine canPropose_eq_proposingTooSoon_iff.mpr ⟨rfl, hsigner, kept, hkept, ?_, ?_⟩
    -- Fewer seconds than the rounded number do not reach the end of the gap.
    · omega
    · omega
  · intro later hlater another more hagain
    obtain ⟨_, _, same, hsame, hstill, _⟩ := canPropose_eq_proposingTooSoon_iff.mp hagain
    obtain rfl := Option.some.inj (hkept.symm.trans hsame)
    omega

/-- What is kept of a validator has the time of the last of its recorded proposals. -/
theorem getLast?_recordings {kept : RateLimit} (hnone : engine.rateLimits.get? id = none)
    {ops : List Operation} (hkept : (engine.run ops).rateLimits.get? id = some kept) :
    (engine.recordings id ops).getLast? = some kept.lastProposal := by
  obtain ⟨recent, ⟨before, hbefore⟩, hcounts⟩ := exists_recent hnone ops
  obtain ⟨hlast, _⟩ := RateLimit.last_of_ofTimes (hcounts.symm.trans hkept)
  rw [← hbefore, List.getLast?_append, hlast, Option.some_or]

/-- **The wait is exact in every state that an engine reaches**, at any time that is not before the
last proposal recorded for the validator. -/
theorem exactWait_of_proposingTooSoon {config : Consensus.Config} (hnew : new config = .ok engine)
    {ops : List Operation} (hlast : ∀ last ∈ (engine.recordings id ops).getLast?, last ≤ now)
    (hsoon : (engine.run ops).canPropose id now = .error (.proposingTooSoon other wait)) :
    ExactWait (engine.run ops) id now wait := by
  obtain ⟨_, hstart⟩ := new_eq_ok_iff.mp hnew
  have hnone : engine.rateLimits.get? id = none := by
    rw [hstart]
    exact SortedMap.get?_empty id
  apply exactWait_of_kept ?_ hsoon
  intro kept hkept
  exact hlast _ (getLast?_recordings hnone hkept)

end AuthorityLedger.Engine
