import AuthorityLedger.Command.Site
import AuthorityLedger.Proofs.FileTree

/-!
# What jobs leave alone

A job changes some parts of its site and leaves others alone, whether it succeeds
or fails; what it leaves alone is what every step of it leaves alone
(`Keeps.bind`).  Most jobs do not touch the files.  Of those that do, only
`keepStore` changes the database that is kept for the ledger of a data directory
(`Site.ledger`).
-/

namespace AuthorityLedger.Command

open Storage (Database Store)

/-- The database that is kept for the ledger of a data directory. -/
def Site.ledger (site : Site) (dataDir : String) : Database :=
  site.files.databaseAt (databaseDirectory dataDir)

/-- What the wall clock shows, in milliseconds. -/
def Site.shown (site : Site) : Nat :=
  (Timestamp.ofClock site.clock.secs site.clock.nanos).millis

namespace Job

variable {ε α β γ : Type} {view : Site → γ}

/-- A job that leaves alone what a view shows of its site. -/
def Keeps (view : Site → γ) (job : Job α) : Prop :=
  ∀ site, view (job.on site).2 = view site

theorem Keeps.bind {first : Job α} {next : α → Job β} (hfirst : Keeps view first)
    (hnext : ∀ a, Keeps view (next a)) : Keeps view (first >>= next) := by
  intro site
  have hmiddle := hfirst site
  rw [Action.on_bind]
  cases hon : first.on site with
  | mk outcome middle =>
      rw [hon] at hmiddle
      cases outcome with
      | error causes => exact hmiddle
      | ok a => exact (hnext a middle).trans hmiddle

theorem keeps_pure (a : α) : Keeps view (pure a) := fun _ => rfl

theorem keeps_get : Keeps view (get : Job Site) := fun _ => rfl

theorem keeps_refuse (wording : String) : Keeps view (refuse wording : Job α) := fun _ => rfl

theorem keeps_expect [Explained ε] (outcome : Except ε α) : Keeps view (expect outcome) :=
  fun _ => rfl

theorem Keeps.about {job : Job α} (h : Keeps view job) (wording : String) :
    Keeps view (about wording job) := fun site => h site

theorem keeps_read (path : String) : Keeps view (read path) :=
  keeps_get.bind fun _ => keeps_expect _

/-- To go on with an outcome is to have it, where one is. -/
theorem on_expect_eq_ok_iff [Explained ε] {outcome : Except ε α} {site next : Site} {a : α} :
    (expect outcome).on site = (.ok a, next) ↔ outcome = .ok a ∧ site = next := by
  unfold expect
  rw [Action.on_ofExcept, Prod.mk.injEq, Except.mapError_eq_ok_iff]

/-- The clock can always be read, and nothing is printed for it. -/
theorem on_now (site : Site) : ∃ shown next, now.on site = (.ok shown, next) ∧
    next.output = site.output :=
  ⟨_, _, rfl, rfl⟩

/-- Saying what a job is about does not matter where it succeeds. -/
theorem on_about_eq_ok_iff {wording : String} {job : Job α} {site next : Site} {a : α} :
    (about wording job).on site = (.ok a, next) ↔ job.on site = (.ok a, next) := by
  unfold about
  rw [Action.on_wrapping, Prod.mk.injEq, Except.mapError_eq_ok_iff, ← Prod.mk.injEq]

/-- The same where something else is answered beside it. -/
theorem eq_of_expect_beside [Explained ε] {outcome : Except ε α} {site next : Site} {a : α}
    {b c : β} (h : (do return (← expect outcome, b) : Job (α × β)).on site = (.ok (a, c), next)) :
    outcome = .ok a ∧ b = c := by
  obtain ⟨found, _, hfound, h⟩ := Action.on_bind_eq_ok_iff.mp h
  obtain ⟨rfl, rfl⟩ := Prod.mk.inj (Except.ok.inj (Prod.mk.inj h).1)
  exact ⟨(on_expect_eq_ok_iff.mp hfound).1, rfl⟩

/-! ## The files -/

/-- A job that does not change the files. -/
abbrev KeepsFiles (job : Job α) : Prop :=
  Keeps Site.files job

theorem keepsFiles_print (line : String) : KeepsFiles (print line) := fun _ => rfl

theorem keepsFiles_now : KeepsFiles now := fun _ => rfl

theorem keepsFiles_millis : KeepsFiles millis := fun _ => rfl

theorem keepsFiles_wait (seconds : Nat) : KeepsFiles (wait seconds) := fun _ => rfl

theorem keepsFiles_newKey : KeepsFiles newKey := fun _ => rfl

theorem keepsFiles_newKeys (count : Nat) : KeepsFiles (newKeys count) := by
  induction count with
  | zero => exact keeps_pure _
  | succ count ih => exact keepsFiles_newKey.bind fun _ => ih.bind fun _ => keeps_pure _

/-! ## The ledger of a data directory -/

/-- A job that does not change the files does not change the ledger. -/
theorem Keeps.ledger {job : Job α} (h : KeepsFiles job) (dataDir : String) :
    Keeps (·.ledger dataDir) job := fun site =>
  congrArg (FileTree.databaseAt · (databaseDirectory dataDir)) (h site)

theorem keeps_makeDataDirectory (path dataDir : String) :
    Keeps (·.ledger dataDir) (makeDataDirectory path) := by
  refine Keeps.about (fun site => ?_) _
  exact (FileTree.grows_makeDirectories path site.files).databaseAt_eq _

theorem keeps_write (file content dataDir : String) :
    Keeps (·.ledger dataDir) (write file content) := by
  intro site
  unfold write change onFiles Site.ledger
  rw [Action.on_wrapping, Action.on_focus, Action.on_advance]
  cases hwrite : site.files.write file content with
  | error cause => rfl
  | ok next => exact FileTree.databaseAt_of_write hwrite _

/-- The path to the ledger of a data directory can be followed. -/
def Reachable (site : Site) (dataDir : String) : Prop :=
  ∃ place, site.files.locate (databaseDirectory dataDir) = .ok place

theorem Reachable.of_keepsFiles {job : Job α} {a : α} {site next : Site} {dataDir : String}
    (hjob : KeepsFiles job) (hon : job.on site = (.ok a, next)) (h : Reachable site dataDir) :
    Reachable next dataDir := by
  have hfiles := hjob site
  rw [hon] at hfiles
  unfold Reachable
  rwa [hfiles]

/-- **Opening the store** fails, or answers what the ledger holds.  Either way the ledger stays. -/
theorem on_openStore_cases (site : Site) (dataDir : String) :
    (∃ causes next, (openStore dataDir).on site = (.error causes, next) ∧
        next.ledger dataDir = site.ledger dataDir) ∨
      ∃ next, (openStore dataDir).on site = (.ok (Store.ofDatabase (site.ledger dataDir)), next) ∧
        next.ledger dataDir = site.ledger dataDir ∧ Reachable next dataDir := by
  unfold openStore onFiles
  simp only [Action.on_bind, Action.on_wrapping, Action.on_focus]
  rcases FileTree.on_openDatabase_cases site.files (databaseDirectory dataDir) with
    ⟨cause, next, hfailed, hgrown⟩ | ⟨next, hfound, hopened⟩
  · left
    rw [hfailed]
    exact ⟨_, _, rfl, hgrown.databaseAt_eq _⟩
  · right
    rw [hfound]
    exact ⟨_, rfl, hopened.databaseAt_eq, hopened.located⟩

/-- What a store holds is kept, if the path to the ledger can be followed. -/
theorem ledger_keepStore {site : Site} {dataDir : String} (h : Reachable site dataDir)
    (store : Store) : ((keepStore dataDir store).on site).2.ledger dataDir = store.database := by
  obtain ⟨place, hplace⟩ := h
  have hroot : site.files.destination (databaseDirectory dataDir) ≠ [] :=
    FileTree.destination_join_ne_nil _ _ (by decide) (by decide) (by decide)
  exact FileTree.databaseAt_storeDatabase hplace hroot _

end Job

end AuthorityLedger.Command
