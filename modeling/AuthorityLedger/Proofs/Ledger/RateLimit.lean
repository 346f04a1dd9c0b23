import AuthorityLedger.Proofs.Chain.History
import AuthorityLedger.Proofs.Consensus.RateLimit
import AuthorityLedger.Proofs.Ledger.Federation

/-!
# The rate limit over ledgers that share an engine

The rate limit is kept by the engine, so that ledgers beside one engine share it:
what a validator proposes to one of them counts for all.  A ledger asks whether
the proposer may propose and then records the proposal (`engineOps_cases`).  Who
records proposals with the engine directly has to ask as well; the engine does
not (`Asked`).

As long as everybody asks and the clock never goes back, the recorded proposals
of a validator are paced (`paced_recordings`): the gap between two of them and
the number of them within any hour are as the configuration says
(`rate_limit_holds`).  The count that is kept of it does not pass the limit either
(`count_le_proposalsPerHour`).
-/

namespace AuthorityLedger

namespace GatedLedger

variable {α : Type} [Payload α]

/-- The readings of the clock that an operation is given, in their order. -/
def Operation.times : Operation α → List Nat
  | .propose _ _ checked opened recorded => [checked, opened, recorded]
  | .sign _ _ now => [now]
  | .addSignature _ _ _ now => [now]
  | .commit _ => []
  | .abandon _ => []
  | .cleanupExpired now => [now]
  | .onChain _ => []

/-- **A ledger asks before it records.**  It removes no validator, and records nothing but a
proposal that it has opened for a validator that may propose. -/
theorem engineOps_cases (g : GatedLedger α) (op : Operation α) :
    (∀ o ∈ g.engineOps op, ∀ id, o ≠ .removeValidator id ∧ o.recording? id = none) ∨
      ∃ block proposer checked opened recorded,
        op = .propose block proposer checked opened recorded ∧
        g.engine.canPropose proposer checked = .ok () ∧
        g.engineOps op = [
          .createProposal (g.ledger.chain.prepare block).hash proposer opened,
          .recordProposal proposer recorded] := by
  cases op with
  | propose block proposer checked opened recorded =>
      unfold engineOps
      rcases proposeAt_cases block proposer checked opened recorded g with
        ⟨cause, hrefused⟩ | ⟨pid, engine, _, _, hallowed, _, hparked⟩
      · simp [hrefused]
      · refine Or.inr ⟨block, proposer, checked, opened, recorded, rfl, hallowed, ?_⟩
        simp [hparked]
  | commit pid =>
      refine Or.inl ?_
      unfold engineOps
      dsimp only
      split <;> simp [Engine.Operation.recording?]
  | sign | addSignature | abandon | cleanupExpired | onChain =>
      exact Or.inl (by simp [engineOps, Engine.Operation.recording?])

end GatedLedger

namespace Federation

open RateLimit (Paced ofTimes within)

variable {ι : Type} {α : ι → Type} [∀ i, Payload (α i)]

/-- The readings of the clock that an event is given, in their order. -/
def Event.times : Event α → List Nat
  | .engine op => op.time?.toList
  | .ledger _ op => op.times

/-! ## One event -/

/-- Only who asks the engine directly can remove a validator. -/
theorem eq_of_removal_mem {f : Federation α} {event : Event α} {id : String}
    (h : Engine.Operation.removeValidator id ∈ f.engineOps event) :
    event = .engine (.removeValidator id) := by
  cases event with
  | engine op => rw [List.mem_singleton.mp h]
  | ledger i op =>
      change _ ∈ (f.gated i).engineOps op at h
      rcases (f.gated i).engineOps_cases op with hnone | ⟨_, _, _, _, _, _, _, hops⟩
      · exact absurd rfl (hnone _ h id).1
      · rw [hops] at h
        simp at h

/-- **What one event records** of a validator: nothing, what somebody records with the engine
directly, or a proposal of the validator to a ledger, which has asked. -/
theorem recordings_event (f : Federation α) (event : Event α) (id : String) :
    f.engine.recordings id (f.engineOps event) = [] ∨
      (∃ now, event = .engine (.recordProposal id now) ∧
        f.engine.accepts (.recordProposal id now) = true ∧
        f.engine.recordings id (f.engineOps event) = [now]) ∨
      ∃ i block checked opened recorded,
        event = .ledger i (.propose block id checked opened recorded) ∧
        f.engine.canPropose id checked = .ok () ∧
        f.engine.recordings id (f.engineOps event) = [recorded] := by
  have hrecord (engine : Engine) (target : String) (now : Nat) :
      engine.recorded id (.recordProposal target now) = [] ∨
        target = id ∧ engine.accepts (.recordProposal target now) = true ∧
          engine.recorded id (.recordProposal target now) = [now] := by
    unfold Engine.recorded Engine.Operation.recording?
    by_cases htarget : target = id
    · by_cases haccepts : engine.accepts (.recordProposal target now) = true
      · exact Or.inr ⟨htarget, haccepts, by simp [htarget, htarget ▸ haccepts]⟩
      · exact Or.inl (if_neg haccepts)
    · exact Or.inl (by simp [htarget])
  cases event with
  | engine op =>
      have hone : f.engineOps (.engine op) = [op] := rfl
      rw [hone, Engine.recordings_singleton]
      cases op with
      | recordProposal target now =>
          rcases hrecord f.engine target now with hnone | ⟨rfl, haccepts, hrecorded⟩
          · exact Or.inl hnone
          · exact Or.inr (Or.inl ⟨now, rfl, haccepts, hrecorded⟩)
      | _ => exact Or.inl (ite_self [])
  | ledger i op =>
      rcases (f.gated i).engineOps_cases op with
        hnone | ⟨block, proposer, checked, opened, recorded, rfl, hallowed, hops⟩
      · exact Or.inl (Engine.recordings_eq_nil fun o ho => (hnone o ho id).2)
      · have hcreate : f.engine.recorded id
            (.createProposal ((f.gated i).ledger.chain.prepare block).hash proposer opened) = [] :=
          ite_self []
        have hboth : f.engineOps (.ledger i (.propose block proposer checked opened recorded)) = [
            .createProposal ((f.gated i).ledger.chain.prepare block).hash proposer opened,
            .recordProposal proposer recorded] := hops
        rw [hboth, Engine.recordings, hcreate, List.nil_append, Engine.recordings_singleton]
        rcases hrecord (f.engine.step
            (.createProposal ((f.gated i).ledger.chain.prepare block).hash proposer opened))
          proposer recorded with hnone | ⟨rfl, _, hrecorded⟩
        · exact Or.inl hnone
        · exact Or.inr (Or.inr ⟨i, block, checked, opened, recorded, rfl, hallowed, hrecorded⟩)

/-- What an event records is recorded when the event reads the clock. -/
theorem recordings_event_sublist (f : Federation α) (event : Event α) (id : String) :
    (f.engine.recordings id (f.engineOps event)).Sublist event.times := by
  rcases recordings_event f event id with
    hnone | ⟨now, rfl, _, hrecorded⟩ | ⟨i, block, checked, opened, recorded, rfl, _, hrecorded⟩
  · rw [hnone]
    exact List.nil_sublist _
  · rw [hrecorded]
    exact List.Sublist.refl _
  · rw [hrecorded]
    exact List.sublist_append_right [checked, opened] [recorded]

variable [DecidableEq ι]

/-! ## Runs -/

/-- The times at which proposals of a validator are recorded along a list of events. -/
def recordings (f : Federation α) (id : String) (events : List (Event α)) : List Nat :=
  f.engine.recordings id (f.engineHistory events)

/-- A validator is not removed along a list of events, and whoever records a proposal of it with the
engine directly has asked before whether it may propose, since when nothing else of it has been
recorded. -/
structure Asked (f : Federation α) (id : String) (events : List (Event α)) : Prop where
  kept : ∀ before after, events = before ++ .engine (.removeValidator id) :: after →
    (f.run before).engine.accepts (.removeValidator id) = false
  asked : ∀ before after now, events = before ++ .engine (.recordProposal id now) :: after →
    (f.run before).engine.accepts (.recordProposal id now) = true →
    ∃ front back checked, before = front ++ back ∧ checked ≤ now ∧
      (f.run front).engine.canPropose id checked = .ok () ∧ (f.run front).recordings id back = []

theorem Asked.init {f : Federation α} {id : String} {front back : List (Event α)}
    (h : f.Asked id (front ++ back)) : f.Asked id front where
  kept := by
    rintro before after rfl
    exact h.kept before (after ++ back) (by simp)
  asked := by
    rintro before after now rfl
    exact h.asked before (after ++ back) now (by simp)

theorem engineHistory_append (f : Federation α) (front back : List (Event α)) :
    f.engineHistory (front ++ back) =
      f.engineHistory front ++ (f.run front).engineHistory back := by
  induction front generalizing f with
  | nil => rfl
  | cons event rest ih =>
      rw [List.cons_append, engineHistory, ih, engineHistory, run_cons, List.append_assoc]

theorem recordings_append (f : Federation α) (id : String) (front back : List (Event α)) :
    f.recordings id (front ++ back) =
      f.recordings id front ++ (f.run front).recordings id back := by
  unfold recordings
  rw [engineHistory_append, Engine.recordings_append, engine_run]

theorem recordings_singleton (f : Federation α) (id : String) (event : Event α) :
    f.recordings id [event] = f.engine.recordings id (f.engineOps event) := by
  unfold recordings
  rw [engineHistory, engineHistory, List.append_nil]

theorem recordings_sublist (f : Federation α) (id : String) (events : List (Event α)) :
    (f.recordings id events).Sublist (events.flatMap Event.times) := by
  induction events using List.reverseRecOn with
  | nil => exact List.Sublist.refl []
  | append_singleton events event ih =>
      rw [recordings_append, recordings_singleton, List.flatMap_append, List.flatMap_singleton]
      exact ih.append (recordings_event_sublist (f.run events) event id)

/-- What the engine keeps of a validator follows from what has been recorded. -/
theorem rateLimit_eq_ofTimes {config : Consensus.Config} {f : Federation α}
    (hnew : Engine.new config = .ok f.engine) {id : String} {events : List (Event α)}
    (hasked : f.Asked id events) :
    (f.run events).engine.rateLimits.get? id = ofTimes (f.recordings id events) := by
  have hkeeps : f.engine.Keeps id (f.engineHistory events) := by
    intro front back hhistory
    obtain ⟨before, event, after, early, late, hevents, hfront, hops⟩ :=
      exists_of_engineHistory_eq hhistory
    have hremoves : .removeValidator id ∈ (f.run before).engineOps event := by
      rw [hops]
      simp
    obtain rfl := eq_of_removal_mem hremoves
    -- The event is one operation, so that nothing of it comes before the removal.
    have hearly : early = [] := by
      cases early with
      | nil => rfl
      | cons first rest =>
          have hlength := congrArg List.length hops
          simp [engineOps] at hlength
    rw [hfront, hearly, List.append_nil, ← engine_run]
    exact hasked.kept before after hevents
  have hnone : f.engine.rateLimits.get? id = none := by
    rw [(Engine.new_eq_ok_iff.mp hnew).2]
    exact SortedMap.get?_empty id
  rw [engine_run, Engine.rateLimit_run hkeeps, hnone]
  rfl

/-- **Who asks is paced.**  Where everybody asks, each proposal was permitted by what had been
recorded before it. -/
theorem paced_recordings {config : Consensus.Config} {f : Federation α}
    (hnew : Engine.new config = .ok f.engine) {id : String} {events : List (Event α)}
    (hasked : f.Asked id events) (hclock : (events.flatMap Event.times).Pairwise (· ≤ ·)) :
    Paced config (f.recordings id events) := by
  have hpermits {front : List (Event α)} {checked : Nat} (hfront : f.Asked id front)
      (hallowed : (f.run front).engine.canPropose id checked = .ok ()) :
      RateLimit.Permits config (ofTimes (f.recordings id front)) checked := by
    obtain ⟨_, hpermits⟩ := Engine.canPropose_eq_ok_iff.mp hallowed
    have hconfig : (f.run front).engine.config = config := by
      rw [engine_run, Engine.config_run, (Engine.new_eq_ok_iff.mp hnew).2]
    rwa [rateLimit_eq_ofTimes hnew hfront, hconfig] at hpermits
  induction events using List.reverseRecOn with
  | nil => exact .nil
  | append_singleton events event ih =>
      rw [List.flatMap_append, List.flatMap_singleton] at hclock
      obtain ⟨hbefore, hwithin, _⟩ := List.pairwise_append.mp hclock
      have hpaced := ih hasked.init hbefore
      rw [recordings_append, recordings_singleton]
      rcases recordings_event (f.run events) event id with
        hnone | ⟨now, rfl, haccepts, hrecorded⟩ |
          ⟨i, block, checked, opened, recorded, rfl, hallowed, hrecorded⟩
      · rwa [hnone, List.append_nil]
      · rw [hrecorded]
        -- Nothing was recorded between the check and the record, so that the check still holds.
        obtain ⟨front, back, checked, rfl, hchecked, hallowed, hnothing⟩ :=
          hasked.asked events [] now rfl haccepts
        refine hpaced.concat hchecked ?_
        rw [recordings_append, hnothing, List.append_nil]
        exact hpermits hasked.init.init hallowed
      · rw [hrecorded]
        have hchecked : checked ≤ recorded :=
          (List.pairwise_cons.mp hwithin).1 recorded (by simp)
        exact hpaced.concat hchecked (hpermits hasked.init hallowed)

/-- Who asks is never counted beyond the limit. -/
theorem count_le_proposalsPerHour {config : Consensus.Config} {f : Federation α}
    (hnew : Engine.new config = .ok f.engine) {id : String} {events : List (Event α)}
    (hasked : f.Asked id events) (hclock : (events.flatMap Event.times).Pairwise (· ≤ ·))
    {limit : RateLimit} (hkept : (f.run events).engine.rateLimits.get? id = some limit) :
    limit.count ≤ config.proposalsPerHour := by
  rw [rateLimit_eq_ofTimes hnew hasked] at hkept
  obtain ⟨hvalid, _⟩ := Engine.new_eq_ok_iff.mp hnew
  obtain ⟨_, _, hlimit⟩ := (Consensus.Config.validate_eq_ok_iff config).mp hvalid
  have hordered : (f.recordings id events).Pairwise (· ≤ ·) :=
    hclock.sublist (recordings_sublist f id events)
  exact (paced_recordings hnew hasked hclock).count_le hlimit hordered hkept

/-- **The rate limit is never exceeded.**  Ledgers share a new engine, the clock never goes back, a
validator is never removed, and whoever records a proposal of it has asked before.  Then any two
successive proposals of it are as far from each other as the configuration asks for, and every hour
holds at most as many of them as it allows. -/
theorem rate_limit_holds {config : Consensus.Config} {f : Federation α}
    (hnew : Engine.new config = .ok f.engine) {id : String} {events : List (Event α)}
    (hasked : f.Asked id events) (hclock : (events.flatMap Event.times).Pairwise (· ≤ ·)) :
    (f.recordings id events).IsChain (fun earlier later => earlier + config.proposalGap ≤ later) ∧
      ∀ start, within start (f.recordings id events) ≤ config.proposalsPerHour := by
  have hpaced := paced_recordings hnew hasked hclock
  have hordered : (f.recordings id events).Pairwise (· ≤ ·) :=
    hclock.sublist (recordings_sublist f id events)
  obtain ⟨hvalid, _⟩ := Engine.new_eq_ok_iff.mp hnew
  obtain ⟨_, _, hlimit⟩ := (Consensus.Config.validate_eq_ok_iff config).mp hvalid
  exact ⟨hpaced.spaced hordered, hpaced.within_le hlimit hordered⟩

/-- A ledger beside an engine that allows two proposals within an hour. -/
def metered : Federation fun _ : Unit => String :=
  ofChains Engine.twiceHourlyEngine fun _ => Chain.seedling

/-- A validator joins, records a proposal with the engine and makes another one to the ledger. -/
def meteredEvents : List (Event fun _ : Unit => String) := [
  .engine (.addValidator "ada" Engine.steadyKey 1 0),
  .engine (.recordProposal Engine.steadyKey.id 1000),
  .ledger () (.propose (Block.new ⟨0, 0⟩ [Chain.note "a"]) Engine.steadyKey.id 8000 8000 8001)]

/-- Two proposals are recorded. -/
theorem rate_limit_holds_metered :
    metered.recordings Engine.steadyKey.id meteredEvents = [1000, 8001] ∧
      (metered.recordings Engine.steadyKey.id meteredEvents).IsChain
        (fun earlier later => earlier + Engine.twiceHourly.proposalGap ≤ later) ∧
      ∀ start, within start (metered.recordings Engine.steadyKey.id meteredEvents) ≤
        Engine.twiceHourly.proposalsPerHour := by
  have hnew : Engine.new Engine.twiceHourly = .ok metered.engine := rfl
  have hrecordings : metered.recordings Engine.steadyKey.id meteredEvents = [1000, 8001] := by
    decide +kernel
  have hallowed : (metered.run (meteredEvents.take 1)).engine.canPropose Engine.steadyKey.id 1000 =
      .ok () := by
    decide +kernel
  have hclock : (meteredEvents.flatMap Event.times).Pairwise (· ≤ ·) := by
    decide +kernel
  have hasked : metered.Asked Engine.steadyKey.id meteredEvents := by
    constructor
    · intro before after hevents
      have hmem : Event.engine (.removeValidator Engine.steadyKey.id) ∈ meteredEvents := by
        rw [hevents]
        simp
      simp [meteredEvents] at hmem
    · intro before after now hevents _
      have hsplit : meteredEvents = meteredEvents.take 1 ++
          .engine (.recordProposal Engine.steadyKey.id 1000) :: meteredEvents.drop 2 := rfl
      obtain ⟨rfl, hrecord, _⟩ := (List.append_cons_inj_of_notMem (by simp [meteredEvents])
        (by simp [meteredEvents])).mp (hsplit.symm.trans hevents)
      cases hrecord
      exact ⟨meteredEvents.take 1, [], 1000, (List.append_nil _).symm, le_rfl, hallowed, rfl⟩
  exact ⟨hrecordings, rate_limit_holds hnew hasked hclock⟩

end Federation

end AuthorityLedger
