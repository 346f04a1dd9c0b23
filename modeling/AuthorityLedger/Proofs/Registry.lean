import AuthorityLedger.Proofs.Lookup
import AuthorityLedger.Registry

/-!
# Used identifiers

The used set of a registry only grows.  `isUsed_markUsed` says what marking
does to it, the `used` lemmas that no change to participants touches it, and
`on_recordAction` what an action does: it marks its identifier if it is
allowed and leaves the registry alone if it is not.

`Fresh` is what admission asks of identifiers.  Lists that are fresh one after
the other, each when those before it have been marked, are fresh together
(`fresh_append_iff`).
-/

namespace AuthorityLedger.Registry

/-- Marking identifiers adds exactly those to the used ones. -/
@[simp] theorem isUsed_markUsed (r : Registry) (ids : List String) (id : String) :
    (r.markUsed ids).isUsed id = (decide (id ∈ ids) || r.isUsed id) :=
  NameSet.contains_foldl_add ids r.used id

/-- Marking what is used already changes nothing. -/
theorem markUsed_eq_self {r : Registry} {ids : List String}
    (h : ∀ id ∈ ids, r.isUsed id = true) : r.markUsed ids = r := by
  have hsame : (r.markUsed ids).used = r.used := by
    refine NameSet.eq_of_contains fun id => ?_
    change (r.markUsed ids).isUsed id = r.isUsed id
    rw [isUsed_markUsed]
    by_cases hid : id ∈ ids
    · simp [hid, h id hid]
    · simp [hid]
  exact congrArg (Registry.mk r.participants) hsame

@[simp] theorem isUsed_empty (id : String) : empty.isUsed id = false := rfl

@[simp] theorem used_register (r : Registry) (id state : String)
    (metadata : SortedMap String String) : (r.register id state metadata).used = r.used := rfl

@[simp] theorem used_deauthorize (r : Registry) (id : String) :
    (r.deauthorize id).used = r.used := rfl

/-- Changing what is known of a participant touches no used identifier. -/
@[simp] theorem used_update (r : Registry) (id : String) (change : Participant → Participant) :
    (r.update id change).used = r.used := by
  unfold update
  split <;> rfl

@[simp] theorem used_grant (r : Registry) (id capability : String) :
    (r.grant id capability).used = r.used :=
  used_update r id _

@[simp] theorem used_revoke (r : Registry) (id capability : String) :
    (r.revoke id capability).used = r.used :=
  used_update r id _

/-- Two registries with the same used set use the same identifiers. -/
theorem isUsed_congr {r s : Registry} (h : r.used = s.used) (id : String) :
    r.isUsed id = s.isUsed id := by
  unfold isUsed
  rw [h]

/-! ## Fresh identifiers -/

/-- Identifiers that differ from each other and from every used one. -/
def Fresh (r : Registry) (ids : List String) : Prop :=
  ids.Nodup ∧ ∀ id ∈ ids, r.isUsed id = false

@[simp] theorem fresh_nil (r : Registry) : r.Fresh [] := by
  simp [Fresh]

@[simp] theorem fresh_singleton (r : Registry) (id : String) :
    r.Fresh [id] ↔ r.isUsed id = false := by
  simp [Fresh]

/-- Which identifiers are fresh depends on the used ones alone. -/
theorem fresh_congr {r s : Registry} (h : ∀ id, r.isUsed id = s.isUsed id) (ids : List String) :
    r.Fresh ids ↔ s.Fresh ids := by
  simp [Fresh, h]

/-- Identifiers are fresh together if the first are, and the others once the first are marked. -/
theorem fresh_append_iff (r : Registry) (front back : List String) :
    r.Fresh (front ++ back) ↔ r.Fresh front ∧ (r.markUsed front).Fresh back := by
  have hmarked (id : String) :
      (r.markUsed front).isUsed id = false ↔ id ∉ front ∧ r.isUsed id = false := by simp
  simp only [Fresh, List.nodup_append, hmarked]
  constructor
  · rintro ⟨⟨hfront, hback, hdisjoint⟩, hnew⟩
    refine ⟨⟨hfront, fun id hid => hnew id (List.mem_append_left _ hid)⟩, hback, ?_⟩
    intro id hid
    exact ⟨fun h => hdisjoint id h id hid rfl, hnew id (List.mem_append_right _ hid)⟩
  · rintro ⟨⟨hfront, hfirst⟩, hback, hsecond⟩
    refine ⟨⟨hfront, hback, ?_⟩, ?_⟩
    · rintro id hid _ hlater rfl
      exact (hsecond id hlater).1 hid
    · intro id hid
      rcases List.mem_append.mp hid with hid | hid
      · exact hfirst id hid
      · exact (hsecond id hid).2

/-! ## Actions -/

/-- An action marks its identifier exactly if it is allowed. -/
theorem on_recordAction (participant transaction capability : String) (r : Registry) :
    (recordAction participant transaction capability).on r =
      match r.checkAction participant transaction capability with
      | .ok () => (.ok (), r.markUsed [transaction])
      | .error cause => (.error cause, r) := by
  unfold recordAction
  simp only [Action.on_bind, Action.on_get, Action.on_ofExcept]
  cases r.checkAction participant transaction capability <;> rfl

/-- The identifier of an allowed action was not used before. -/
theorem isUsed_eq_false_of_checkAction {r : Registry} {participant transaction capability : String}
    (h : r.checkAction participant transaction capability = .ok ()) :
    r.isUsed transaction = false := by
  unfold checkAction at h
  by_cases hempty : transaction = ""
  · simp [hempty] at h
  · by_cases hused : r.isUsed transaction = true
    · simp [hempty, hused] at h
    · simpa using hused

end AuthorityLedger.Registry
