import AuthorityLedger.Proofs.Consensus.Run

/-!
# The rate limit

Of what a validator has proposed the engine keeps two numbers, the time of the
last proposal and a count.  Both follow from the times at which proposals of it
were recorded (`RateLimit.ofTimes`, `rateLimit_run`).  The count is the length of
the latest *burst*, a sequence of times with never more than an hour from one to
the next (`exists_burst_of_ofTimes`); it begins anew only after an hour without a
proposal.

Where every proposal was permitted when it was recorded (`Paced`), bursts are
more than an hour apart and none is longer than the limit, so the count does not
pass the limit (`Paced.count_le`) and no hour holds more proposals than the limit
(`Paced.within_le`).  The converse fails: a burst may be longer than an hour, and a
validator that never pauses for an hour is refused in the end however seldom it
proposes (`hourly_limit_outlasts_hour`).
-/

namespace AuthorityLedger

namespace RateLimit

/-! ## Times and what is kept of them -/

/-- Count further proposals, one after another. -/
def recordAll (limit? : Option RateLimit) (times : List Nat) : Option RateLimit :=
  times.foldl (fun limit? now => some (record limit? now)) limit?

/-- What is kept of a validator whose proposals were recorded at the given times. -/
def ofTimes (times : List Nat) : Option RateLimit :=
  recordAll none times

theorem recordAll_append (limit? : Option RateLimit) (front back : List Nat) :
    recordAll limit? (front ++ back) = recordAll (recordAll limit? front) back :=
  List.foldl_append

theorem ofTimes_append (front back : List Nat) :
    ofTimes (front ++ back) = recordAll (ofTimes front) back :=
  recordAll_append none front back

/-- One more time is counted on top of what is kept. -/
theorem ofTimes_concat (times : List Nat) (now : Nat) :
    ofTimes (times ++ [now]) = some (record (ofTimes times) now) :=
  ofTimes_append times [now]

theorem lastProposal_record (limit? : Option RateLimit) (now : Nat) :
    (record limit? now).lastProposal = now := by
  unfold record
  cases limit? with
  | none => rfl
  | some limit => dsimp only; split <;> rfl

theorem one_le_count_record (limit? : Option RateLimit) (now : Nat) :
    1 ≤ (record limit? now).count := by
  unfold record
  cases limit? with
  | none => exact le_rfl
  | some limit =>
      dsimp only
      split
      · exact le_rfl
      · exact Nat.le_add_left 1 limit.count

/-- An hour without a proposal starts the count again, and nothing else does. -/
theorem count_record (limit : RateLimit) (now : Nat) :
    (record (some limit) now).count =
      if window < now - limit.lastProposal then 1 else limit.count + 1 := by
  unfold record
  dsimp only
  split <;> rfl

/-- What is kept has the last of the times, and counts at least one. -/
theorem last_of_ofTimes {times : List Nat} {limit : RateLimit} (h : ofTimes times = some limit) :
    times.getLast? = some limit.lastProposal ∧ 1 ≤ limit.count := by
  induction times using List.reverseRecOn with
  | nil => cases h
  | append_singleton times now _ =>
      rw [ofTimes_concat, Option.some.injEq] at h
      rw [← h, lastProposal_record, List.getLast?_concat]
      exact ⟨rfl, one_le_count_record _ _⟩

theorem ofTimes_eq_none_iff {times : List Nat} : ofTimes times = none ↔ times = [] := by
  constructor
  · intro h
    induction times using List.reverseRecOn with
    | nil => rfl
    | append_singleton times now _ =>
        rw [ofTimes_concat] at h
        cases h
  · rintro rfl
    rfl

/-! ## Bursts -/

/-- Times with at most an hour from each to the next. -/
def Burst (times : List Nat) : Prop :=
  times.IsChain fun earlier later => later ≤ earlier + window

/-- **What is kept counts the latest burst.** -/
theorem exists_burst_of_ofTimes {times : List Nat} {limit : RateLimit}
    (h : ofTimes times = some limit) :
    ∃ burst, burst <:+ times ∧ Burst burst ∧ burst.length = limit.count ∧
      burst.getLast? = some limit.lastProposal := by
  induction times using List.reverseRecOn generalizing limit with
  | nil => cases h
  | append_singleton times now ih =>
      rw [ofTimes_concat, Option.some.injEq] at h
      rw [← h, lastProposal_record]
      have halone : ∃ burst, burst <:+ times ++ [now] ∧ Burst burst ∧ burst.length = 1 ∧
          burst.getLast? = some now :=
        ⟨[now], List.suffix_append _ _, List.isChain_singleton _, rfl, rfl⟩
      cases hkept : ofTimes times with
      | none => exact halone
      | some kept =>
          rw [count_record]
          by_cases hpause : window < now - kept.lastProposal
          · rw [if_pos hpause]
            exact halone
          · rw [if_neg hpause]
            obtain ⟨burst, ⟨before, hbefore⟩, hburst, hcount, hlast⟩ := ih hkept
            refine ⟨burst ++ [now], ⟨before, ?_⟩, hburst.append (List.isChain_singleton _) ?_, ?_,
              List.getLast?_concat⟩
            · rw [← List.append_assoc, hbefore]
            · intro earlier hearlier later hlater
              rw [hlast, Option.mem_some_iff] at hearlier
              rw [List.head?_cons, Option.mem_some_iff] at hlater
              omega
            · rw [List.length_append, hcount, List.length_singleton]

/-! ## Permitted times -/

/-- Whether one more proposal is permitted at a time by what is kept of those before. -/
def Permits (config : Consensus.Config) (limit? : Option RateLimit) (now : Nat) : Prop :=
  ∀ limit ∈ limit?, config.proposalGap ≤ now - limit.lastProposal ∧
    (window < now - limit.lastProposal ∨ limit.count < config.proposalsPerHour)

/-- Times at each of which a proposal was permitted, by a check that was made then or earlier but
after the time before. -/
inductive Paced (config : Consensus.Config) : List Nat → Prop
  | nil : Paced config []
  | concat {times : List Nat} {checked now : Nat} (hpaced : Paced config times)
      (hchecked : checked ≤ now) (hpermits : Permits config (ofTimes times) checked) :
      Paced config (times ++ [now])

/-- How many times lie in the hour that begins at a time. -/
def within (start : Nat) (times : List Nat) : Nat :=
  times.countP fun t => start ≤ t ∧ t ≤ start + window

variable {config : Consensus.Config} {times earlier burst : List Nat}

/-- Paced times are as far from each other as is asked for. -/
theorem Paced.spaced (h : Paced config times) (hclock : times.Pairwise (· ≤ ·)) :
    times.IsChain fun before after => before + config.proposalGap ≤ after := by
  induction h with
  | nil => exact List.isChain_nil
  | @concat times checked now hpaced hchecked hpermits ih =>
      obtain ⟨hbefore, _, hlater⟩ := List.pairwise_append.mp hclock
      refine (ih hbefore).append (List.isChain_singleton _) ?_
      intro last hlast later hnow
      rw [List.head?_cons, Option.mem_some_iff] at hnow
      have hle : last ≤ now :=
        hlater last (List.mem_of_getLast? hlast) now (List.mem_singleton_self _)
      cases hkept : ofTimes times with
      | none =>
          rw [ofTimes_eq_none_iff.mp hkept] at hlast
          cases hlast
      | some limit =>
          obtain ⟨hgap, _⟩ := hpermits limit hkept
          rw [(last_of_ofTimes hkept).1, Option.mem_some_iff] at hlast
          omega

/-- An hour does not reach from one burst to the next. -/
theorem within_append_le (start : Nat)
    (hapart : ∀ s ∈ earlier, ∀ t ∈ burst, s + window < t) :
    within start (earlier ++ burst) ≤ max (within start earlier) burst.length := by
  unfold within
  rw [List.countP_append]
  by_cases hnone : ∀ s ∈ earlier, ¬(start ≤ s ∧ s ≤ start + window)
  · have hzero : earlier.countP (fun t => start ≤ t ∧ t ≤ start + window) = 0 := by
      simpa [List.countP_eq_zero] using hnone
    have hlength : burst.countP (fun t => start ≤ t ∧ t ≤ start + window) ≤ burst.length :=
      List.countP_le_length
    omega
  · push Not at hnone
    obtain ⟨s, hs, hfrom, _⟩ := hnone
    have hzero : burst.countP (fun t => start ≤ t ∧ t ≤ start + window) = 0 := by
      rw [List.countP_eq_zero]
      intro t ht
      have hfar := hapart s hs t ht
      simp only [decide_eq_true_eq, not_and]
      omega
    omega

/-- Times that fall into a past, of which no hour holds more than the limit, and more than an hour
later a burst that is no longer than the limit. -/
structure Divided (config : Consensus.Config) (earlier burst : List Nat) : Prop where
  burst_le : burst.length ≤ config.proposalsPerHour
  apart : ∀ s ∈ earlier, ∀ t ∈ burst, s + window < t
  earlier_le : ∀ start, within start earlier ≤ config.proposalsPerHour

theorem Divided.within_le (h : Divided config earlier burst) (start : Nat) :
    within start (earlier ++ burst) ≤ config.proposalsPerHour :=
  (within_append_le start h.apart).trans (max_le (h.earlier_le start) h.burst_le)

/-- After a pause, a new burst begins and all that was recorded is past. -/
theorem Divided.pause (h : Divided config earlier burst) (hlimit : 1 ≤ config.proposalsPerHour)
    {now : Nat} (hpause : ∀ s ∈ earlier ++ burst, s + window < now) :
    Divided config (earlier ++ burst) [now] where
  burst_le := hlimit
  apart := by
    intro s hs t ht
    rw [List.mem_singleton.mp ht]
    exact hpause s hs
  earlier_le := h.within_le

/-- A burst that has begun and has not reached the limit goes on. -/
theorem Divided.extend (h : Divided config earlier burst) (hbegun : burst ≠ [])
    (hroom : burst.length < config.proposalsPerHour) {now : Nat} (hlater : ∀ t ∈ burst, t ≤ now) :
    Divided config earlier (burst ++ [now]) where
  burst_le := by
    rw [List.length_append, List.length_singleton]
    omega
  apart := by
    intro s hs t ht
    obtain ⟨first, hfirst⟩ := List.exists_mem_of_ne_nil burst hbegun
    rcases List.mem_append.mp ht with hold | hnew
    · exact h.apart s hs t hold
    · rw [List.mem_singleton.mp hnew]
      exact lt_of_lt_of_le (h.apart s hs first hfirst) (hlater first hfirst)
  earlier_le := h.earlier_le

/-- No time is later than the last one that is kept. -/
theorem le_of_ofTimes {limit : RateLimit} (hclock : times.Pairwise (· ≤ ·))
    (h : ofTimes times = some limit) : ∀ s ∈ times, s ≤ limit.lastProposal := by
  obtain ⟨front, rfl⟩ := List.getLast?_eq_some_iff.mp (last_of_ofTimes h).1
  obtain ⟨_, _, hlater⟩ := List.pairwise_append.mp hclock
  intro s hs
  rcases List.mem_append.mp hs with hfront | hlast
  · exact hlater s hfront _ (List.mem_singleton_self _)
  · exact (List.mem_singleton.mp hlast).le

/-- **Bursts.**  Paced times are divided into a past and the burst that is counted. -/
theorem Paced.exists_divided (h : Paced config times) (hlimit : 1 ≤ config.proposalsPerHour)
    (hclock : times.Pairwise (· ≤ ·)) :
    ∃ earlier burst, times = earlier ++ burst ∧
      burst.length = (ofTimes times).elim 0 RateLimit.count ∧ Divided config earlier burst := by
  induction h with
  | nil => exact ⟨[], [], rfl, rfl, Nat.zero_le _, by simp, fun _ => Nat.zero_le _⟩
  | @concat times checked now hpaced hchecked hpermits ih =>
      -- The pause is measured at the record, the limit was looked at when it was checked.  A pause
      -- at the check is one at the record, so that without a pause the count was below the limit.
      obtain ⟨hbefore, _, hlater⟩ := List.pairwise_append.mp hclock
      have hle : ∀ s ∈ times, s ≤ now := fun s hs => hlater s hs now (List.mem_singleton_self _)
      obtain ⟨earlier, burst, rfl, hcount, hdivided⟩ := ih hbefore
      rw [ofTimes_concat, Option.elim_some]
      cases hkept : ofTimes (earlier ++ burst) with
      | none =>
          have hnil := ofTimes_eq_none_iff.mp hkept
          exact ⟨_, [now], rfl, rfl, hdivided.pause hlimit (by simp [hnil])⟩
      | some limit =>
          obtain ⟨_, hpositive⟩ := last_of_ofTimes hkept
          obtain ⟨_, hallowed⟩ := hpermits limit hkept
          rw [hkept, Option.elim_some] at hcount
          rw [count_record]
          by_cases hpause : window < now - limit.lastProposal
          · rw [if_pos hpause]
            refine ⟨_, [now], rfl, rfl, hdivided.pause hlimit fun s hs => ?_⟩
            have hlast := le_of_ofTimes hbefore hkept s hs
            omega
          · rw [if_neg hpause]
            have hbegun : burst ≠ [] := by
              rintro rfl
              rw [List.length_nil] at hcount
              omega
            have hroom : burst.length < config.proposalsPerHour := by omega
            refine ⟨earlier, burst ++ [now], List.append_assoc _ _ _, ?_,
              hdivided.extend hbegun hroom fun t ht => hle t (List.mem_append_right _ ht)⟩
            rw [List.length_append, hcount, List.length_singleton]

/-- Of paced times never more are counted than the limit. -/
theorem Paced.count_le (h : Paced config times) (hlimit : 1 ≤ config.proposalsPerHour)
    (hclock : times.Pairwise (· ≤ ·)) {limit : RateLimit} (hkept : ofTimes times = some limit) :
    limit.count ≤ config.proposalsPerHour := by
  obtain ⟨_, burst, _, hcount, hdivided⟩ := h.exists_divided hlimit hclock
  rw [hkept, Option.elim_some] at hcount
  rw [← hcount]
  exact hdivided.burst_le

/-- **The limit holds for every hour.** -/
theorem Paced.within_le (h : Paced config times) (hlimit : 1 ≤ config.proposalsPerHour)
    (hclock : times.Pairwise (· ≤ ·)) (start : Nat) :
    within start times ≤ config.proposalsPerHour := by
  obtain ⟨earlier, burst, rfl, _, hdivided⟩ := h.exists_divided hlimit hclock
  exact hdivided.within_le start

end RateLimit

namespace Engine

open RateLimit (Burst Paced Permits ofTimes recordAll)

/-! ## What the engine asks -/

/-- Who is registered and active and whom the rate limit permits may propose. -/
theorem canPropose_eq_ok_iff {engine : Engine} {id : String} {now : Nat} :
    engine.canPropose id now = .ok () ↔
      (∃ v, engine.signer id = .ok v) ∧
        Permits engine.config (engine.rateLimits.get? id) now := by
  unfold canPropose Permits
  cases engine.signer id with
  | error cause => simp
  | ok v =>
      cases engine.rateLimits.get? id with
      | none => simp
      | some limit =>
          simp only [Option.mem_some_iff, forall_eq', Except.ok.injEq, exists_eq', true_and]
          split_ifs <;> simp <;> omega

/-- The hourly limit is reached where the gap has passed, but no hour since the last proposal, and
as many proposals are counted as are allowed. -/
theorem canPropose_eq_hourlyLimitReached_iff {engine : Engine} {id other : String}
    {now limit : Nat} :
    engine.canPropose id now = .error (.hourlyLimitReached other limit) ↔
      other = id ∧ limit = engine.config.proposalsPerHour ∧ (∃ v, engine.signer id = .ok v) ∧
        ∃ kept, engine.rateLimits.get? id = some kept ∧
          engine.config.proposalGap ≤ now - kept.lastProposal ∧
          now - kept.lastProposal ≤ RateLimit.window ∧
          engine.config.proposalsPerHour ≤ kept.count := by
  unfold canPropose
  cases hsigner : engine.signer id with
  | error cause =>
      have hcause : cause ≠ .hourlyLimitReached other limit := by
        rintro rfl
        rcases signer_eq_error_cases hsigner with h | ⟨status, h⟩ <;> cases h
      simp [hcause]
  | ok v =>
      cases engine.rateLimits.get? id with
      | none => simp
      | some kept =>
          simp only [Option.some.injEq, exists_eq_left', Except.ok.injEq, exists_eq', true_and]
          split_ifs with hsoon hpause hfull
          · simp [hsoon]
          · simp only [false_iff]
            rintro ⟨-, -, -, hrecent, -⟩
            omega
          · simp only [Except.error.injEq, Consensus.Error.hourlyLimitReached.injEq]
            constructor
            · rintro ⟨rfl, rfl⟩
              exact ⟨rfl, rfl, by omega, by omega, hfull⟩
            · rintro ⟨rfl, rfl, -⟩
              exact ⟨rfl, rfl⟩
          · simp [hfull]

/-! ## What the engine has recorded -/

/-- The time that an operation is given. -/
def Operation.time? : Operation → Option Nat
  | .addValidator _ _ _ now => some now
  | .removeValidator _ => none
  | .markOffline _ now => some now
  | .markOnline _ now => some now
  | .revokeValidator _ now => some now
  | .recordActivity _ now => some now
  | .createProposal _ _ now => some now
  | .submitSignature _ _ _ now => some now
  | .removeProposal _ => none
  | .cleanupExpired now => some now
  | .recordProposal _ now => some now

/-- The time at which an operation asks for a proposal of a validator to be recorded. -/
def Operation.recording? (id : String) : Operation → Option Nat
  | .recordProposal target now => if target = id then some now else none
  | _ => none

/-- The time at which an operation records a proposal of a validator, if it does. -/
def recorded (engine : Engine) (id : String) (op : Operation) : List Nat :=
  if engine.accepts op then (op.recording? id).toList else []

/-- The times at which proposals of a validator are recorded along a list of operations. -/
def recordings (id : String) : Engine → List Operation → List Nat
  | _, [] => []
  | engine, op :: rest => engine.recorded id op ++ recordings id (engine.step op) rest

theorem recordings_append (id : String) (engine : Engine) (front back : List Operation) :
    engine.recordings id (front ++ back) =
      engine.recordings id front ++ (engine.run front).recordings id back := by
  induction front generalizing engine with
  | nil => rfl
  | cons op rest ih =>
      rw [List.cons_append, recordings, ih, recordings, run_cons, List.append_assoc]

theorem recordings_singleton (id : String) (engine : Engine) (op : Operation) :
    engine.recordings id [op] = engine.recorded id op := by
  rw [recordings, recordings, List.append_nil]

theorem recordings_eq_nil {id : String} {engine : Engine} {ops : List Operation}
    (h : ∀ op ∈ ops, op.recording? id = none) : engine.recordings id ops = [] := by
  induction ops generalizing engine with
  | nil => rfl
  | cons op rest ih =>
      obtain ⟨hop, hrest⟩ := List.forall_mem_cons.mp h
      rw [recordings, ih hrest, recorded, hop, Option.toList_none, ite_self,
        List.append_nil]

/-- What is recorded is recorded at times that operations are given. -/
theorem recordings_sublist (id : String) (engine : Engine) (ops : List Operation) :
    (engine.recordings id ops).Sublist (ops.filterMap Operation.time?) := by
  induction ops generalizing engine with
  | nil => exact List.Sublist.refl []
  | cons op rest ih =>
      have hone : (engine.recorded id op).Sublist ([op].filterMap Operation.time?) := by
        unfold recorded
        split
        · cases op with
          | recordProposal target now =>
              by_cases htarget : target = id
              · simp [Operation.recording?, Operation.time?, htarget]
              · simp [Operation.recording?, htarget]
          | _ => exact List.nil_sublist _
        · exact List.nil_sublist _
      rw [recordings, ← List.singleton_append, List.filterMap_append]
      exact hone.append (ih _)

/-- **What one operation does to a rate limit.**  Removing the validator erases it; other than that,
what is recorded is counted. -/
theorem Transition.rateLimit {engine next : Engine} {op : Operation} {carried : Bool}
    (h : Transition engine op carried next) (id : String) :
    carried = true ∧ op = .removeValidator id ∧ next.rateLimits.get? id = none ∨
      next.rateLimits.get? id = recordAll (engine.rateLimits.get? id)
        (if carried then (op.recording? id).toList else []) := by
  cases h with
  | @removed target v hknown =>
      by_cases hid : id = target
      · refine Or.inl ⟨rfl, by rw [hid], ?_⟩
        rw [SortedMap.get?_erase_eq, if_pos hid]
      · refine Or.inr ?_
        rw [SortedMap.get?_erase_eq, if_neg hid]
        rfl
  | updated hop =>
      refine Or.inr ?_
      cases op with
      | markOffline | markOnline | revokeValidator | recordActivity => rfl
      | _ => cases hop
  | @recorded target now v hknown =>
      refine Or.inr ?_
      rw [SortedMap.get?_insert_eq, if_pos rfl, Operation.recording?]
      by_cases hid : id = target
      · rw [if_pos hid, if_pos hid.symm, hid]
        rfl
      · rw [if_neg hid, if_neg (Ne.symm hid)]
        rfl
  | enrolled | opened | signed | forgotten | swept | refused => exact Or.inr rfl

/-- A validator is not removed along a list of operations. -/
def Keeps (engine : Engine) (id : String) (ops : List Operation) : Prop :=
  ∀ front back, ops = front ++ .removeValidator id :: back →
    (engine.run front).accepts (.removeValidator id) = false

/-- **A rate limit counts what has been recorded**, as long as the validator is not removed. -/
theorem rateLimit_run {engine : Engine} {id : String} {ops : List Operation}
    (hkeeps : engine.Keeps id ops) :
    (engine.run ops).rateLimits.get? id =
      recordAll (engine.rateLimits.get? id) (engine.recordings id ops) := by
  induction ops using List.reverseRecOn with
  | nil => rfl
  | append_singleton ops op ih =>
      have hbefore : engine.Keeps id ops := by
        rintro front back rfl
        exact hkeeps front (back ++ [op]) (by simp)
      rw [run_append, run_cons, run_nil, recordings_append, recordings_singleton,
        RateLimit.recordAll_append, ← ih hbefore]
      rcases (transition (engine.run ops) op).rateLimit id with ⟨hcarried, rfl, _⟩ | hcounted
      · rw [hkeeps ops [] rfl] at hcarried
        cases hcarried
      · exact hcounted

/-- Whatever happens, a rate limit counts the latest of what has been recorded. -/
theorem exists_recent {engine : Engine} {id : String} (hnone : engine.rateLimits.get? id = none)
    (ops : List Operation) :
    ∃ recent, recent <:+ engine.recordings id ops ∧
      (engine.run ops).rateLimits.get? id = ofTimes recent := by
  induction ops using List.reverseRecOn with
  | nil => exact ⟨[], List.suffix_rfl, hnone⟩
  | append_singleton ops op ih =>
      obtain ⟨recent, ⟨before, hbefore⟩, hcounts⟩ := ih
      rw [run_append, run_cons, run_nil, recordings_append, recordings_singleton]
      rcases (transition (engine.run ops) op).rateLimit id with ⟨_, _, herased⟩ | hcounted
      · exact ⟨[], List.nil_suffix, herased⟩
      · refine ⟨recent ++ (engine.run ops).recorded id op, ⟨before, ?_⟩, ?_⟩
        · rw [← hbefore, List.append_assoc]
        · rw [RateLimit.ofTimes_append, ← hcounts]
          exact hcounted

/-- Nothing is counted that was not recorded. -/
theorem count_le_length_recordings {engine : Engine} {id : String} {ops : List Operation}
    (hnone : engine.rateLimits.get? id = none) {limit : RateLimit}
    (hkept : (engine.run ops).rateLimits.get? id = some limit) :
    limit.count ≤ (engine.recordings id ops).length := by
  obtain ⟨recent, hsuffix, hcounts⟩ := exists_recent hnone ops
  obtain ⟨burst, hlatest, _, hlength, _⟩ :=
    RateLimit.exists_burst_of_ofTimes (hcounts.symm.trans hkept)
  rw [← hlength]
  exact (hlatest.trans hsuffix).length_le

/-! ## Refused for the hour -/

/-- **Who is refused for the hour has not paused for an hour.**  Where the clock never goes back and
a validator is refused since the hourly limit is reached, at least as many of its proposals have
been recorded as are allowed, the latest not more than an hour ago and each of them not more than an
hour after the one before. -/
theorem exists_burst_of_hourlyLimitReached {config : Consensus.Config} {engine : Engine}
    (hnew : new config = .ok engine) {ops : List Operation} {id : String} {now limit : Nat}
    (hclock : (ops.filterMap Operation.time? ++ [now]).Pairwise (· ≤ ·))
    (hrefused : (engine.run ops).canPropose id now = .error (.hourlyLimitReached id limit)) :
    ∃ burst last, burst <:+ engine.recordings id ops ∧ config.proposalsPerHour ≤ burst.length ∧
      Burst burst ∧ burst.getLast? = some last ∧ last ≤ now ∧ now ≤ last + RateLimit.window := by
  obtain ⟨_, hstart⟩ := new_eq_ok_iff.mp hnew
  have hnone : engine.rateLimits.get? id = none := by
    rw [hstart]
    exact SortedMap.get?_empty id
  obtain ⟨_, _, _, kept, hkept, _, hrecent, hfull⟩ :=
    canPropose_eq_hourlyLimitReached_iff.mp hrefused
  obtain ⟨recent, hsuffix, hcounts⟩ := exists_recent hnone ops
  obtain ⟨burst, hlatest, hburst, hlength, hlast⟩ :=
    RateLimit.exists_burst_of_ofTimes (hcounts.symm.trans hkept)
  have hamong := hlatest.trans hsuffix
  rw [config_run, hstart] at hfull
  refine ⟨burst, kept.lastProposal, hamong, hlength.symm ▸ hfull, hburst, hlast, ?_, by omega⟩
  obtain ⟨_, _, hnow⟩ := List.pairwise_append.mp hclock
  have hgiven : kept.lastProposal ∈ ops.filterMap Operation.time? :=
    (recordings_sublist id engine ops).subset (hamong.subset (List.mem_of_getLast? hlast))
  exact hnow _ hgiven now (List.mem_singleton_self _)

/-- The key of a validator that proposes every forty minutes. -/
def steadyKey : Key :=
  Key.ofSeed (List.replicate 32 5)

/-- Two proposals are allowed within an hour. -/
def twiceHourly : Consensus.Config :=
  { Consensus.Config.standard with proposalsPerHour := 2 }

/-- An engine without validators that allows two proposals within an hour. -/
def twiceHourlyEngine : Engine :=
  ⟨twiceHourly, SortedMap.empty, SortedMap.empty, SortedMap.empty⟩

/-- A validator is enrolled and proposes after forty minutes and after eighty. -/
def steadyProposals : List Operation :=
  [.addValidator "ada" steadyKey 1 0, .recordProposal steadyKey.id 2400000,
    .recordProposal steadyKey.id 4800000]

/-- After two hours the validator is refused, and two proposals make up the burst. -/
theorem exists_burst_of_hourlyLimitReached_steady :
    ∃ burst last, burst <:+ twiceHourlyEngine.recordings steadyKey.id steadyProposals ∧
      2 ≤ burst.length ∧ Burst burst ∧ burst.getLast? = some last ∧ last ≤ 7200000 ∧
      7200000 ≤ last + RateLimit.window := by
  have hrefused : (twiceHourlyEngine.run steadyProposals).canPropose steadyKey.id 7200000 =
      .error (.hourlyLimitReached steadyKey.id 2) := by
    decide +kernel
  have hnew : new twiceHourly = .ok twiceHourlyEngine := rfl
  exact exists_burst_of_hourlyLimitReached hnew (by decide +kernel) hrefused

/-- **The hourly limit outlasts the hour.**  A validator may be refused although fewer of its
proposals have been recorded within the last hour than are allowed. -/
theorem hourly_limit_outlasts_hour :
    ¬ ∀ (config : Consensus.Config) (engine : Engine) (ops : List Operation) (id : String)
        (now limit : Nat), new config = .ok engine →
      (ops.filterMap Operation.time? ++ [now]).Pairwise (· ≤ ·) →
      (engine.run ops).canPropose id now = .error (.hourlyLimitReached id limit) →
      config.proposalsPerHour ≤ (engine.recordings id ops).countP fun t =>
        now - RateLimit.window ≤ t ∧ t ≤ now := by
  intro h
  have hrefused : (twiceHourlyEngine.run steadyProposals).canPropose steadyKey.id 7200000 =
      .error (.hourlyLimitReached steadyKey.id 2) := by
    decide +kernel
  have hrecordings : twiceHourlyEngine.recordings steadyKey.id steadyProposals =
      [2400000, 4800000] := by
    decide +kernel
  have hfew := h twiceHourly twiceHourlyEngine steadyProposals steadyKey.id 7200000 2 rfl
    (by decide +kernel) hrefused
  rw [hrecordings] at hfew
  revert hfew
  decide

end Engine

end AuthorityLedger
