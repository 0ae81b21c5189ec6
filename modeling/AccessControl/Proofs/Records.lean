import AccessControl.Proofs.Store

/-!
# What a list of records leaves behind

Records are written one after the other, for one user or for several. At each key the last record
decides: what is kept there afterwards has the effect of that record, or is gone if it revokes. What
was kept before, there or at other keys, has no part in it.

## Main definitions

* `Effect.kept?` — the effect of what a record leaves at its key
* `PrivilegeSet.effectAt?` — the effect of what is kept at a key
* `PrivilegeSet.applyEach` — the set after each of some records is written

## Main results

* `PrivilegeSet.get?_applyEach` — a key is written by its own records alone
* `PrivilegeSet.effectAt?_applyEach` — the last record at a key decides
* `PrivilegeSet.effectAt?_applyEach_of_uniform` — records of one effect leave it at their keys
* `PrivilegeSection.inForce_applyToAll_of_mem` — whoever is in a list of names has the records
  written, and nothing after them
-/

namespace AccessControl

/-- The effect of what a record leaves at its key: its own, unless it revokes and leaves nothing. -/
def Effect.kept? : Effect → Option Effect
  | .grant => some .grant
  | .deny => some .deny
  | .revoke => none

namespace PrivilegeSet

/-- The effect of what is kept at a key. -/
def effectAt? (s : PrivilegeSet) (k : Privilege.Key) : Option Effect := (s.get? k).map (·.effect)

/-- The set after each of some records is written. -/
def applyEach (s : PrivilegeSet) (ps : List Privilege) : PrivilegeSet :=
  ps.foldl (fun s p => (s.apply p).1) s

/-- What is at a key has come about by the records of that key alone. -/
theorem get?_applyEach (s : PrivilegeSet) (ps : List Privilege) (k : Privilege.Key) :
    (s.applyEach ps).get? k =
      (ps.filter (·.key = k)).foldl (fun old p => written p old) (s.get? k) := by
  induction ps generalizing s with
  | nil => rfl
  | cons p ps ih =>
    have hfirst : (s.applyEach (p :: ps)).get? k = ((s.apply p).1.applyEach ps).get? k := rfl
    rw [hfirst, ih, get?_apply]
    by_cases hp : p.key = k
    · rw [if_pos hp.symm, List.filter_cons_of_pos (by simpa using hp), List.foldl_cons]
    · rw [if_neg (Ne.symm hp), List.filter_cons_of_neg (by simpa using hp)]

theorem map_effect_written (p : Privilege) (old : Option Privilege) :
    (written p old).map (·.effect) = p.effect.kept? := by
  unfold written
  cases heffect : p.effect
  case revoke => rfl
  case grant | deny =>
    dsimp only
    split
    · next hsame =>
      -- the old record stays, and has the same effect
      obtain ⟨record, rfl, hrecord⟩ := (Option.any_eq_true ..).mp hsame
      exact congrArg some (of_decide_eq_true hrecord)
    · exact congrArg some heffect

/-- The last record at a key decides what is kept there. -/
theorem effectAt?_applyEach (s : PrivilegeSet) (ps : List Privilege) (k : Privilege.Key) :
    (s.applyEach ps).effectAt? k =
      (ps.filter (·.key = k)).getLast?.elim (s.effectAt? k) (·.effect.kept?) := by
  unfold effectAt?
  rw [get?_applyEach]
  rcases List.eq_nil_or_concat (ps.filter (·.key = k)) with hnone | ⟨before, last, hlast⟩
  · rw [hnone]
    rfl
  · -- whatever the records before it have left, the last one is written over it
    rw [hlast, List.concat_eq_append, List.foldl_append, List.getLast?_concat]
    exact map_effect_written last _

/-- Records of one effect leave it at all of their keys, and at no other. -/
theorem effectAt?_applyEach_of_uniform {effect : Effect} {ps : List Privilege}
    (h : ∀ p ∈ ps, p.effect = effect) (s : PrivilegeSet) (k : Privilege.Key) :
    (s.applyEach ps).effectAt? k =
      if k ∈ ps.map (·.key) then effect.kept? else s.effectAt? k := by
  rw [effectAt?_applyEach]
  -- the last record at the key is one of the list, so it has the effect of all
  cases hlast : (ps.filter (·.key = k)).getLast? with
  | none =>
    have habsent : k ∉ ps.map (·.key) := by
      simpa [List.getLast?_eq_none_iff, List.filter_eq_nil_iff] using hlast
    rw [if_neg habsent]
    rfl
  | some p =>
    obtain ⟨hmem, hkey⟩ := List.mem_filter.mp (List.mem_of_getLast? hlast)
    have hpresent : k ∈ ps.map (·.key) := List.mem_map.mpr ⟨p, hmem, of_decide_eq_true hkey⟩
    rw [if_pos hpresent, ← h p hmem]
    rfl

end PrivilegeSet

namespace PrivilegeSection

variable {s : PrivilegeSection} {name : String} {names : List String} {ps : List Privilege}

theorem inForce_applyAll (s : PrivilegeSection) (name other : String) (ps : List Privilege) :
    (s.applyAll name ps).1.inForce other =
      if other = name then (s.inForce name).applyEach ps else s.inForce other := by
  induction ps generalizing s with
  | nil =>
    have hnone : (s.applyAll name []).1.inForce other = s.inForce other := rfl
    rw [hnone]
    split
    · next hother => rw [hother]; rfl
    · rfl
  | cons p ps ih =>
    rw [applyAll_cons, ih, inForce_apply, inForce_apply, if_pos rfl]
    split
    · rfl
    · rfl

theorem inForce_applyToAll_of_not_mem (h : name ∉ names) :
    (s.applyToAll names ps).1.inForce name = s.inForce name := by
  induction names generalizing s with
  | nil => rfl
  | cons first names ih =>
    obtain ⟨hfirst, hrest⟩ := not_or.mp (mt List.mem_cons.mpr h)
    rw [applyToAll_cons, ih hrest, inForce_applyAll, if_neg hfirst]

/-- Whoever is in a list of names has the records written, and nothing after them. -/
theorem inForce_applyToAll_of_mem (h : name ∈ names) :
    ∃ before : PrivilegeSet, (s.applyToAll names ps).1.inForce name = before.applyEach ps := by
  induction names generalizing s with
  | nil => cases h
  | cons first names ih =>
    rw [applyToAll_cons]
    by_cases hrest : name ∈ names
    · exact ih hrest
    · -- nobody comes after the first user who has the same name
      obtain rfl : name = first := (List.mem_cons.mp h).resolve_right hrest
      refine ⟨s.inForce name, ?_⟩
      rw [inForce_applyToAll_of_not_mem hrest, inForce_applyAll, if_pos rfl]

end PrivilegeSection

end AccessControl
