import AccessControl.Manager.Basic
import AccessControl.Proofs.Directory

/-!
# What the next snapshot takes over

Each notification has the whole directory computed anew, yet whoever is the same stays the very
user that readers hold, and where nobody has changed the snapshot itself stays. Nobody can tell this
from a plain rebuild by the values. The dates tell it: an entry is of the generation in which its
user appeared, so a name with such a date stands for one user for good, and a generation for one
snapshot.

## Main definitions

* `Snapshot.Dated` — no entry is dated later than the snapshot
* `Snapshot.Precedes` — a snapshot was current before another, which has from that time only what
  the first one has
* `Manager.applyEach` — the manager after some notifications

## Main results

* `Snapshot.get?_advance` — the entries are those of a plain rebuild, each taken over if it can be,
  whether or not a snapshot is published
* `Manager.dated_ofStore`, `Manager.dated_applyEach` — every manager's snapshot is dated
* `Snapshot.Precedes.advance`, `Manager.precedes_applyEach_append` — what was current before precedes
  what is current after one notification, and after any number of them
* `Manager.apply_takes_over` — a notification is applied as by a plain rebuild, and only what has
  changed is replaced
-/

namespace AccessControl

namespace Snapshot

variable {s t : Snapshot} {d : Directory} {name : String} {user : User} {entry : Entry}

/-! ### Entries that are taken over -/

theorem find?_eq_some_iff :
    s.find? name = some user ↔ ∃ entry, s.get? name = some entry ∧ entry.user = user :=
  Option.map_eq_some_iff

/-- The entry of a user who is the same is taken over. -/
theorem nextEntry_of_get? (hget : s.get? name = some entry) :
    s.nextEntry name entry.user = entry := by
  simp [nextEntry, hget]

/-- A user who was not there as it is gets an entry of the next generation. -/
theorem nextEntry_of_ne (hne : s.find? name ≠ some user) :
    s.nextEntry name user = ⟨s.generation + 1, user⟩ := by
  unfold nextEntry
  split
  · next entry hget =>
    have huser : entry.user ≠ user := fun h => hne (find?_eq_some_iff.mpr ⟨entry, hget, h⟩)
    rw [if_neg huser]
  · rfl

/-- Whether or not a snapshot is published, the entries are those of the directory computed, each
taken over if it can be. -/
theorem get?_advance (s : Snapshot) (d : Directory) (name : String) :
    (s.advance d).get? name = (d.get? name).map (s.nextEntry name) := by
  unfold advance
  split
  · next hd =>
    -- every user is the same, so that there is nothing to publish
    rw [hd, ← find?_eq, find?, Option.map_map]
    cases hget : s.get? name with
    | none => rfl
    | some entry => exact congrArg some (nextEntry_of_get? hget).symm
  · exact SortedMap.get?_mapEntries _

/-- An entry of the current snapshot is the one of before, or of the next generation. -/
theorem get?_advance_cases (h : (s.advance d).get? name = some entry) :
    s.get? name = some entry ∨
      entry.since = s.generation + 1 ∧ s.find? name ≠ some entry.user ∧
        d.get? name = some entry.user := by
  rw [get?_advance] at h
  obtain ⟨user, huser, rfl⟩ := Option.map_eq_some_iff.mp h
  by_cases hsame : s.find? name = some user
  · obtain ⟨old, hold, rfl⟩ := find?_eq_some_iff.mp hsame
    left
    rw [hold, nextEntry_of_get? hold]
  · rw [nextEntry_of_ne hsame]
    exact .inr ⟨rfl, hsame, huser⟩

/-- A snapshot stays current exactly if its directory is computed again. -/
theorem advance_eq_self_iff : s.advance d = s ↔ d = s.directory := by
  constructor
  · intro h
    rw [← h, directory_advance]
  · exact fun h => if_pos h

theorem generation_advance_of_ne (h : d ≠ s.directory) :
    (s.advance d).generation = s.generation + 1 := by
  rw [advance, if_neg h]
  rfl

/-! ### Dates -/

/-- No entry is dated later than the snapshot. -/
def Dated (s : Snapshot) : Prop :=
  ∀ name entry, s.get? name = some entry → entry.since ≤ s.generation

theorem dated_first (d : Directory) : (first d).Dated := by
  intro name entry h
  have hmap : (d.get? name).map (⟨0, ·⟩) = some entry := by
    rwa [get?, first, SortedMap.get?_mapEntries] at h
  obtain ⟨user, -, rfl⟩ := Option.map_eq_some_iff.mp hmap
  exact Nat.le_refl 0

theorem generation_le_advance (s : Snapshot) (d : Directory) :
    s.generation ≤ (s.advance d).generation := by
  by_cases hd : d = s.directory
  · exact Nat.le_of_eq (congrArg generation (advance_eq_self_iff.mpr hd)).symm
  · exact Nat.le_of_lt (Nat.lt_of_succ_le (Nat.le_of_eq (generation_advance_of_ne hd).symm))

theorem Dated.advance (h : s.Dated) (d : Directory) : (s.advance d).Dated := by
  intro name entry hget
  rcases get?_advance_cases hget with hold | ⟨hsince, hnew, huser⟩
  · exact Nat.le_trans (h name entry hold) (generation_le_advance s d)
  · -- somebody has changed, so that a new snapshot is published
    have hd : d ≠ s.directory := by
      rintro rfl
      exact hnew ((find?_eq s name).trans huser)
    exact Nat.le_of_eq (hsince.trans (generation_advance_of_ne hd).symm)

/-! ### Snapshots of different times -/

/-- A snapshot `s` was current before `t`, or is `t`. Its generation stands for no other, and all
that `t` has from its time is in `s` too. -/
structure Precedes (s t : Snapshot) : Prop where
  dated : s.Dated
  generation_le : s.generation ≤ t.generation
  eq_of_generation_eq : s.generation = t.generation → s = t
  get?_of_since_le : ∀ {name entry}, t.get? name = some entry → entry.since ≤ s.generation →
    s.get? name = some entry

theorem Dated.precedes_self (h : s.Dated) : s.Precedes s where
  dated := h
  generation_le := Nat.le_refl _
  eq_of_generation_eq _ := rfl
  get?_of_since_le hget _ := hget

/-- A name with a date stands for one entry, in whatever snapshot it is found. -/
theorem Precedes.eq_of_since_eq {entry' : Entry} (h : s.Precedes t)
    (hs : s.get? name = some entry) (ht : t.get? name = some entry')
    (hsince : entry.since = entry'.since) : entry = entry' := by
  have hdate : entry'.since ≤ s.generation := hsince ▸ h.dated name entry hs
  exact Option.some.inj (hs.symm.trans (h.get?_of_since_le ht hdate))

/-- What was current before a directory was computed precedes what is current after it. -/
theorem Precedes.advance (h : s.Precedes t) (d : Directory) : s.Precedes (t.advance d) where
  dated := h.dated
  generation_le := Nat.le_trans h.generation_le (generation_le_advance t d)
  eq_of_generation_eq hgeneration := by
    by_cases hd : d = t.directory
    · rw [advance_eq_self_iff.mpr hd] at hgeneration ⊢
      exact h.eq_of_generation_eq hgeneration
    · -- a snapshot that is published has a generation of its own
      rw [generation_advance_of_ne hd] at hgeneration
      exact absurd (hgeneration ▸ h.generation_le) (Nat.not_succ_le_self _)
  get?_of_since_le hget hsince := by
    rcases get?_advance_cases hget with hold | ⟨hnext, -, -⟩
    · exact h.get?_of_since_le hold hsince
    · -- an entry that was not there before is too young
      have hnew : t.generation + 1 ≤ t.generation := by
        rw [← hnext]
        exact Nat.le_trans hsince h.generation_le
      exact absurd hnew (Nat.not_succ_le_self _)

end Snapshot

namespace Manager

variable {m : Manager}

/-- The manager after some notifications, one after the other. -/
def applyEach (m : Manager) (cs : List Change) : Manager := cs.foldl apply m

theorem dated_ofStore (s : Store) : (ofStore s).snapshot.Dated := Snapshot.dated_first _

theorem dated_applyEach (hm : m.snapshot.Dated) (cs : List Change) :
    (m.applyEach cs).snapshot.Dated := by
  induction cs generalizing m with
  | nil => exact hm
  | cons c cs ih => exact ih (hm.advance (.ofChange c))

/-- What was current at some time precedes what is current after any notifications. -/
theorem precedes_applyEach {s : Snapshot} (h : s.Precedes m.snapshot) (cs : List Change) :
    s.Precedes (m.applyEach cs).snapshot := by
  induction cs generalizing m with
  | nil => exact h
  | cons c cs ih =>
    have hstep : s.Precedes (m.apply c).snapshot := h.advance (.ofChange c)
    exact ih hstep

/-- Of what is current at two times, the earlier one precedes the later one. -/
theorem precedes_applyEach_append (hm : m.snapshot.Dated) (before after : List Change) :
    (m.applyEach before).snapshot.Precedes (m.applyEach (before ++ after)).snapshot := by
  have hbefore : (m.applyEach before).snapshot.Dated := dated_applyEach hm before
  rw [applyEach, applyEach, List.foldl_append]
  exact precedes_applyEach hbefore.precedes_self after

/-- **A notification is applied as by a plain rebuild, and only what has changed is replaced.**
Whatever the snapshot holds, the directory is that of the sections in the notification, published or
not. A name whose user is the same keeps its entry; any other gets one of the next generation, which
is younger than all entries that have ever been current. The snapshot stays exactly if its directory
is computed again. And no snapshot that was current before is changed: its generation still stands
for it alone, and each name in it with its date for the same user. -/
theorem apply_takes_over (m : Manager) (c : Change) :
    (m.apply c).snapshot.directory = .rebuild c.users c.privileges ∧
    (∀ name entry, m.snapshot.get? name = some entry →
      (Directory.rebuild c.users c.privileges).get? name = some entry.user →
        (m.apply c).snapshot.get? name = some entry) ∧
    (∀ name entry, (m.apply c).snapshot.get? name = some entry →
      m.snapshot.find? name ≠ some entry.user →
        entry.since = m.snapshot.generation + 1 ∧
        ∀ s : Snapshot, s.Precedes m.snapshot →
          ∀ other old, s.get? other = some old → old.since < entry.since) ∧
    ((m.apply c).snapshot = m.snapshot ↔
      Directory.rebuild c.users c.privileges = m.snapshot.directory) ∧
    ∀ s : Snapshot, s.Precedes m.snapshot →
      s.Precedes (m.apply c).snapshot ∧
      (s.generation = (m.apply c).snapshot.generation → s = (m.apply c).snapshot) ∧
      ∀ name old current, s.get? name = some old → (m.apply c).snapshot.get? name = some current →
        old.since = current.since → old = current := by
  have hget := m.snapshot.get?_advance (.ofChange c)
  refine ⟨m.snapshot.directory_advance _, ?same, ?other, Snapshot.advance_eq_self_iff, ?earlier⟩
  case same =>
    intro name entry hentry huser
    have huser : (Directory.ofChange c).get? name = some entry.user := huser
    rw [apply, hget, huser, Option.map_some, Snapshot.nextEntry_of_get? hentry]
  case other =>
    intro name entry hentry hne
    rcases Snapshot.get?_advance_cases hentry with hsame | ⟨hsince, -, -⟩
    · exact absurd (Snapshot.find?_eq_some_iff.mpr ⟨entry, hsame, rfl⟩) hne
    · refine ⟨hsince, fun s hs other old hold => ?_⟩
      have hdate : old.since ≤ m.snapshot.generation :=
        Nat.le_trans (hs.dated other old hold) hs.generation_le
      rw [hsince]
      exact Nat.lt_succ_of_le hdate
  case earlier =>
    intro s hs
    have hafter : s.Precedes (m.apply c).snapshot := hs.advance (.ofChange c)
    exact ⟨hafter, hafter.eq_of_generation_eq, fun _ _ _ hold => hafter.eq_of_since_eq hold⟩

/-- At first there are three users beside the superuser, and then `ford` is granted a permission. In
the next notification it is another one, `arthur` is as before, `zaphod` is gone and `trillian` is
new. When the same is notified again, nothing is replaced. -/
theorem apply_takes_over_unchanged_user :
    let privileges (permission : Permission) : PrivilegeSection :=
      .ofList [("ford", .ofList [⟨.grant, ⟨permission, .cluster⟩, "crate"⟩])]
    let users := UserSection.ofList ["ford", "arthur", "zaphod"]
    let first : Manager := ⟨.first (.rebuild (some users) none)⟩
    let m := first.apply ⟨1, some users, some (privileges .dql)⟩
    let c : Change :=
      ⟨2, some (.ofList ["ford", "arthur", "trillian"]), some (privileges .dml)⟩
    let current := (m.apply c).snapshot
    first.snapshot.Precedes m.snapshot ∧ first.snapshot.Precedes current ∧
      current.get? "arthur" = some ⟨0, .regular "arthur" .empty⟩ ∧
      (∃ entry, current.get? "ford" = some entry ∧
        ∀ other old, first.snapshot.get? other = some old → old.since < entry.since) ∧
      current.get? "zaphod" = none ∧
      current ≠ m.snapshot ∧ ((m.apply c).apply c).snapshot = current := by
  intro privileges users first m c current
  have hbefore : first.snapshot.Precedes m.snapshot :=
    (Snapshot.dated_first _).precedes_self.advance _
  obtain ⟨hdirectory, hsame, hother, hstays, hearlier⟩ := apply_takes_over m c
  have harthur : m.snapshot.get? "arthur" = some ⟨0, .regular "arthur" .empty⟩ := by
    decide +kernel
  have hford : current.get? "ford" = some ⟨2, Directory.storedUser c.privileges "ford"⟩ := by
    decide +kernel
  have hzaphod : current.get? "zaphod" = none := by decide +kernel
  refine ⟨hbefore, (hearlier _ hbefore).1, hsame _ _ harthur (by decide +kernel),
    ⟨_, hford, ?_⟩, hzaphod, fun h => ?_, ?_⟩
  · exact (hother _ _ hford (by decide +kernel)).2 _ hbefore
  · exact absurd (hstays.mp h) (by decide +kernel)
  · exact (apply_takes_over (m.apply c) c).2.2.2.1.mpr hdirectory.symm

end Manager

end AccessControl
