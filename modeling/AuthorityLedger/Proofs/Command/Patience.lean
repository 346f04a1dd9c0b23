import AuthorityLedger.Proofs.Chain.History
import AuthorityLedger.Proofs.Command.Rounds
import AuthorityLedger.Proofs.Consensus.Waiting
import AuthorityLedger.Proofs.Ledger.Proposing

/-!
# Waiting once

When a block is proposed too soon, the demonstration waits for as many seconds as
it was told to and tries a second time, and no third time.  The wall clock then
shows as much more as was waited for (`Site.shown_waited`), and what the engine
has asked for is exact, so the second attempt cannot be too soon again
(`wait_once`).  It may still be refused for another reason.

The clock has to keep time meanwhile: a clock that is put back is read before the
gap has passed, one before the epoch shows the epoch however long one waits, and
one that has come to the end of its range stays there.
-/

namespace AuthorityLedger.Command

open Engine (ExactWait)

/-! ## The wall clock -/

/-- From the epoch on a clock counts as it stands. -/
theorem ofClock_eq {secs : Int64} (hepoch : 0 ≤ secs) (nanos : UInt32) :
    Timestamp.ofClock secs nanos = ⟨secs, nanos⟩ :=
  if_neg (Int64.not_lt.mpr hepoch)

/-- **Seconds are added to what is shown**, from the epoch on and as long as the sum fits. -/
theorem ofClock_add_millis {secs : Int64} {nanos : UInt32} {seconds : Nat} (hepoch : 0 ≤ secs)
    (hfits : (Timestamp.ofClock secs nanos).millis + 1000 * seconds ≤ Json.maxWord) :
    (Timestamp.ofClock (secs + Int64.ofNat seconds) nanos).millis =
      (Timestamp.ofClock secs nanos).millis + 1000 * seconds := by
  have hword : Json.maxWord = 18446744073709551615 := rfl
  have hsecs : 0 ≤ secs.toInt := Int64.le_iff_toInt_le.mp hepoch
  have hrange : secs.toInt < 2 ^ 63 := Int64.toInt_lt secs
  rw [ofClock_eq hepoch, Timestamp.millis] at hfits ⊢
  dsimp only at hfits ⊢
  -- What fits in milliseconds is far from the end of the range in seconds.
  have hroom : secs.toInt + seconds < 2 ^ 63 := by omega
  have hsum : (secs + Int64.ofNat seconds).toInt = secs.toInt + seconds := by
    rw [Int64.toInt_add, Int64.toInt_ofNat_of_lt (by omega)]
    exact Int.bmod_eq_of_le (by omega) (by omega)
  have hlater : 0 ≤ secs + Int64.ofNat seconds := by
    rw [Int64.le_iff_toInt_le, hsum, Int64.toInt_zero]
    omega
  rw [ofClock_eq hlater, Timestamp.millis]
  dsimp only
  rw [hsum]
  omega

namespace Site

/-- A site after a proposer was told to wait and has waited. -/
def waited (site : Site) (proposer : String) (seconds : Nat) : Site where
  __ := site
  output := site.output ++ ("  " ++ shortId proposer ++ " must wait " ++ toString seconds ++ "s") ++
    "\n"
  clock := { site.clock with secs := site.clock.secs + Int64.ofNat seconds }

/-- Waiting moves the clock by what was waited for. -/
theorem shown_waited {site : Site} {seconds : Nat} (hepoch : 0 ≤ site.clock.secs)
    (hfits : site.shown + 1000 * seconds ≤ Json.maxWord) (proposer : String) :
    (site.waited proposer seconds).shown = site.shown + 1000 * seconds :=
  ofClock_add_millis hepoch hfits

end Site

/-! ## The second attempt -/

/-- A proposal that is too soon is made once more when the proposer has waited. -/
theorem on_proposePatiently {g next final : GatedLedger String} {block : Block String}
    {proposer other : String} {wait : Nat} {site middle after : Site}
    {outcome : Except Ledger.Error String}
    (hfirst : (attempt g block proposer).on site =
      (.ok (.error (.consensus (.proposingTooSoon other wait)), next), middle))
    (hsecond : (attempt next block proposer).on (middle.waited proposer wait) =
      (.ok (outcome, final), after)) :
    (proposePatiently g block proposer).on site =
      (do return (← Job.expect outcome, final) : Job (String × GatedLedger String)).on after := by
  have hwaits : (Job.print ("  " ++ shortId proposer ++ " must wait " ++ toString wait ++ "s") >>=
      fun _ => Job.wait wait).on middle = (.ok (), middle.waited proposer wait) := rfl
  obtain ⟨_, told, hprint, hwait⟩ := Action.on_bind_eq_ok_iff.mp hwaits
  rw [proposePatiently, Action.on_bind, hfirst]
  dsimp only
  rw [Action.on_bind, hprint]
  dsimp only
  rw [Action.on_bind, hwait]
  dsimp only
  rw [Action.on_bind, hsecond]

/-- **One wait is enough.**  Whatever has happened to an engine, who is refused as too soon, at a
time not before the last proposal recorded of them, is told to wait for exactly as many whole seconds
as are needed, and for one at least.  So where the demonstration proposes a block beside this engine
and has to wait, its second and last attempt is not too soon, if the clock keeps time meanwhile. -/
theorem wait_once {config : Consensus.Config} {engine : Engine}
    (hnew : Engine.new config = .ok engine) {ops : List Engine.Operation} {id other : String}
    {now wait : Nat} (hlast : ∀ last ∈ (engine.recordings id ops).getLast?, last ≤ now)
    (hsoon : (engine.run ops).canPropose id now = .error (.proposingTooSoon other wait)) :
    ExactWait (engine.run ops) id now wait ∧
      ∀ (g next : GatedLedger String) (block : Block String) (site middle : Site),
        g.engine = engine.run ops → site.shown = now →
        (attempt g block id).on site =
          (.ok (.error (.consensus (.proposingTooSoon other wait)), next), middle) →
        0 ≤ middle.clock.secs → now ≤ middle.shown →
        middle.shown + 1000 * wait ≤ Json.maxWord →
          ∃ outcome final after,
            (attempt g block id).on (middle.waited id wait) = (.ok (outcome, final), after) ∧
            (proposePatiently g block id).on site =
              (do return (← Job.expect outcome, final) : Job (String × GatedLedger String)).on
                after ∧
            ∀ another more, outcome ≠ .error (.consensus (.proposingTooSoon another more)) := by
  have hexact := Engine.exactWait_of_proposingTooSoon hnew hlast hsoon
  refine ⟨hexact, ?_⟩
  intro g next block site middle hengine hshown hfirst hepoch hforward hfits
  obtain ⟨opened, recorded, _, hon, _⟩ := on_attempt g block id site
  have hrefused : (GatedLedger.proposeAt block id site.shown opened recorded).on g =
      (.error (.consensus (.proposingTooSoon other wait)), next) :=
    Except.ok.inj (Prod.mk.inj (hon.symm.trans hfirst)).1
  have hsame := GatedLedger.eq_of_proposeAt_error (congrArg Prod.fst hrefused)
  rw [hrefused] at hsame
  obtain rfl : next = g := hsame
  obtain ⟨_, _, after, hagain, _⟩ := on_attempt next block id (middle.waited id wait)
  refine ⟨_, _, after, hagain, on_proposePatiently hfirst hagain, ?_⟩
  intro another more hstill
  have hbarred := GatedLedger.canPropose_of_proposingTooSoon hstill
  rw [hengine, Site.shown_waited hepoch hfits] at hbarred
  apply hexact.enough _ ?_ another more hbarred
  omega

/-- An engine without validators and with the standard gap of five seconds. -/
def standardEngine : Engine :=
  ⟨.standard, SortedMap.empty, SortedMap.empty, SortedMap.empty⟩

/-- A validator is enrolled and proposes when ten seconds have gone by. -/
def earlyProposal : List Engine.Operation :=
  [.addValidator "ada" Engine.steadyKey 1 0, .recordProposal Engine.steadyKey.id 10000]

/-- Two seconds and a millisecond later, not quite three seconds are left of the gap. -/
theorem canPropose_early :
    (standardEngine.run earlyProposal).canPropose Engine.steadyKey.id 12001 =
      .error (.proposingTooSoon Engine.steadyKey.id 3) := by
  decide +kernel

/-- A ledger beside an engine that has seen this. -/
def pressed : GatedLedger String where
  ledger := Ledger.ofChain Chain.seedling
  engine := standardEngine.run earlyProposal

/-- A block that the ledger would take. -/
def earlyBlock : Block String :=
  Block.new ⟨12, 0⟩ [Chain.note "a"]

/-- A site where the clock shows this time, and shows it as long as nobody waits. -/
def lobby : Site where
  files := { items := SortedMap.empty, here := [] }
  clock := ⟨12, 1000000⟩
  seeds _ := []
  drawn := 0
  output := ""

theorem shown_lobby : lobby.shown = 12001 := by
  decide +kernel

theorem engine_pressed : pressed.engine = standardEngine.run earlyProposal := by
  dsimp only [pressed]

/-- The first attempt is refused. -/
theorem attempt_pressed :
    (attempt pressed earlyBlock Engine.steadyKey.id).on lobby =
      (.ok (.error (.consensus (.proposingTooSoon Engine.steadyKey.id 3)), pressed),
        { lobby with readings := 3 }) := by
  have hcheck : pressed.ledger.chain.check (pressed.ledger.chain.prepare earlyBlock) = .ok () := by
    decide +kernel
  have hrefused : (GatedLedger.proposeAt earlyBlock Engine.steadyKey.id lobby.shown lobby.shown
      lobby.shown).on pressed =
      (.error (.consensus (.proposingTooSoon Engine.steadyKey.id 3)), pressed) := by
    rw [GatedLedger.on_proposeAt, hcheck, shown_lobby, engine_pressed, canPropose_early]
  rw [← hrefused]
  rfl

/-- The validator has to wait for three seconds, and then the proposal is not too soon. -/
theorem wait_once_lobby :
    ExactWait (standardEngine.run earlyProposal) Engine.steadyKey.id 12001 3 ∧
      ∃ (outcome : Except Ledger.Error String) (final : GatedLedger String) (after : Site),
        (proposePatiently pressed earlyBlock Engine.steadyKey.id).on lobby =
          (do return (← Job.expect outcome, final) : Job (String × GatedLedger String)).on after ∧
        ∀ another more, outcome ≠ .error (.consensus (.proposingTooSoon another more)) := by
  have hvalid : Consensus.Config.standard.validate = .ok () :=
    (Consensus.Config.validate_eq_ok_iff _).mpr (by decide)
  have hnew : Engine.new .standard = .ok standardEngine := Engine.new_eq_ok_iff.mpr ⟨hvalid, rfl⟩
  have hlast : ∀ last ∈
      (standardEngine.recordings Engine.steadyKey.id earlyProposal).getLast?, last ≤ 12001 := by
    decide +kernel
  obtain ⟨hexact, hretry⟩ := wait_once hnew hlast canPropose_early
  obtain ⟨outcome, final, after, _, hpatient, hother⟩ :=
    hretry pressed pressed earlyBlock lobby { lobby with readings := 3 } engine_pressed
      shown_lobby attempt_pressed (by decide) shown_lobby.ge (by decide +kernel)
  exact ⟨hexact, outcome, final, after, hpatient, hother⟩

end AuthorityLedger.Command
