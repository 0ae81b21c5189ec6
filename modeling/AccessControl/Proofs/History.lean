import AccessControl.Proofs.Records
import Mathlib.Data.List.Induction

/-!
# What a history of records comes to

Of the records that are written at a key, the last one decides which effect is left. It need not be
the record that is left: a record that finds its own effect at the key stays out, so of an unbroken
run of one effect the first record is kept, with its grantor. What was there before the records has
a part in it only if it begins the run itself.

So a history that is written once more changes nothing: it ends in the same run.

## Main definitions

* `Privilege.IsLastRun` — the records of one effect that a list ends in
* `PrivilegeSet.writtenEach` — what records for a key leave there, one after the other

## Main results

* `PrivilegeSet.writtenEach_of_isLastRun` — the first record of the last run is left, unless the run
  was begun before
* `PrivilegeSet.applyEach_applyEach` — records that are written once more change nothing
* `PrivilegeSet.applyEach_keeps_first_of_last_run` — the record at each key after a list of records
-/

namespace AccessControl

/-! ### The last run of a list -/

namespace Privilege

/-- A list of records ends in this run, which is of one effect, and in no longer one. -/
structure IsLastRun (effect : Effect) (ps run : List Privilege) : Prop where
  suffix : run <:+ ps
  uniform : ∀ p ∈ run, p.effect = effect
  longest : ∀ {other}, other <:+ ps → (∀ p ∈ other, p.effect = effect) → other <:+ run

variable {effect : Effect} {ps run : List Privilege} {p : Privilege}

/-- Whatever comes right before the last run is of another effect. -/
theorem IsLastRun.effect_ne {before : List Privilege}
    (h : IsLastRun effect (before ++ p :: run) run) : p.effect ≠ effect := by
  intro hp
  have huniform : ∀ q ∈ p :: run, q.effect = effect := List.forall_mem_cons.mpr ⟨hp, h.uniform⟩
  have hshort := (h.longest (List.suffix_append before (p :: run)) huniform).length_le
  rw [List.length_cons] at hshort
  omega

/-- One more record of the effect goes on with the run. -/
theorem IsLastRun.concat (h : IsLastRun effect ps run) (hp : p.effect = effect) :
    IsLastRun effect (ps ++ [p]) (run ++ [p]) where
  suffix := List.suffix_concat_iff.mpr (.inr ⟨run, rfl, h.suffix⟩)
  uniform := List.forall_mem_append.mpr ⟨h.uniform, List.forall_mem_singleton.mpr hp⟩
  longest := by
    intro other hother huniform
    rcases List.suffix_concat_iff.mp hother with rfl | ⟨shorter, rfl, hshorter⟩
    · exact List.nil_suffix
    · have hrun := h.longest hshorter (List.forall_mem_append.mp huniform).1
      exact List.suffix_concat_iff.mpr (.inr ⟨shorter, rfl, hrun⟩)

/-- A record of another effect leaves no run of the effect. -/
theorem isLastRun_nil_of_ne (hp : p.effect ≠ effect) : IsLastRun effect (ps ++ [p]) [] where
  suffix := List.nil_suffix
  uniform := List.forall_mem_nil _
  longest := by
    intro other hother huniform
    rcases List.suffix_concat_iff.mp hother with rfl | ⟨shorter, rfl, -⟩
    · exact List.nil_suffix
    · exact absurd (huniform p (by simp)) hp

theorem exists_isLastRun (effect : Effect) (ps : List Privilege) :
    ∃ run, IsLastRun effect ps run := by
  induction ps using List.reverseRecOn with
  | nil => exact ⟨[], List.suffix_rfl, List.forall_mem_nil _, fun h _ => h⟩
  | append_singleton ps p ih =>
    by_cases hp : p.effect = effect
    · obtain ⟨run, hrun⟩ := ih
      exact ⟨run ++ [p], hrun.concat hp⟩
    · exact ⟨[], isLastRun_nil_of_ne hp⟩

theorem IsLastRun.unique {run' : List Privilege} (h : IsLastRun effect ps run)
    (h' : IsLastRun effect ps run') : run = run' :=
  (h'.longest h.suffix h.uniform).eq_of_length_le (h.longest h'.suffix h'.uniform).length_le

/-- There is a first record in the last run of the effect that the last record has. -/
theorem exists_isLastRun_cons (hlast : ps.getLast? = some p) :
    ∃ first rest, IsLastRun p.effect ps (first :: rest) := by
  obtain ⟨before, rfl⟩ := List.getLast?_eq_some_iff.mp hlast
  obtain ⟨run, hrun⟩ := exists_isLastRun p.effect before
  obtain ⟨first, rest, hcons⟩ := List.exists_cons_of_ne_nil (List.concat_ne_nil p run)
  exact ⟨first, rest, hcons ▸ List.concat_eq_append ▸ hrun.concat rfl⟩

end Privilege

namespace Effect

variable {e e' : Effect}

theorem kept?_of_ne_revoke (h : e ≠ .revoke) : e.kept? = some e := by
  cases e with
  | grant | deny => rfl
  | revoke => exact absurd rfl h

theorem kept?_eq_some_iff : e.kept? = some e' ↔ e = e' ∧ e' ≠ .revoke := by
  cases e <;> cases e' <;> decide

theorem eq_of_kept?_eq_some (h : e.kept? = some e') : e = e' := (kept?_eq_some_iff.mp h).1

end Effect

namespace PrivilegeSet

open Privilege (IsLastRun)

/-! ### Records for one key -/

/-- What records for a key leave there, written one after the other. -/
def writtenEach (ps : List Privilege) (old : Option Privilege) : Option Privilege :=
  ps.foldl (fun old p => written p old) old

variable {s : PrivilegeSet} {ps : List Privilege} {k : Privilege.Key} {p last : Privilege}
  {effect : Effect} {old : Option Privilege}

theorem get?_applyEach_eq (s : PrivilegeSet) (ps : List Privilege) (k : Privilege.Key) :
    (s.applyEach ps).get? k = writtenEach (ps.filter (·.key = k)) (s.get? k) :=
  get?_applyEach s ps k

/-- Records for other keys leave a key as it is. -/
theorem get?_applyEach_of_not_mem (h : k ∉ ps.map (·.key)) :
    (s.applyEach ps).get? k = s.get? k := by
  have hnone : ps.filter (·.key = k) = [] := by
    simpa [List.filter_eq_nil_iff] using h
  rw [get?_applyEach_eq, hnone]
  rfl

theorem writtenEach_append (ps qs : List Privilege) (old : Option Privilege) :
    writtenEach (ps ++ qs) old = writtenEach qs (writtenEach ps old) :=
  List.foldl_append

/-- A GRANT or a DENY is left, unless its effect was there before. -/
theorem written_of_ne_revoke (h : p.effect ≠ .revoke) (old : Option Privilege) :
    written p old = if old.any (·.effect = p.effect) then old else some p := by
  unfold written
  cases heffect : p.effect with
  | grant | deny => rfl
  | revoke => exact absurd heffect h

theorem any_effect_iff : old.any (·.effect = effect) = true ↔ old.map (·.effect) = some effect := by
  cases old <;> simp

/-- The effect of the last record is left. -/
theorem map_effect_writtenEach (hlast : ps.getLast? = some last) (old : Option Privilege) :
    (writtenEach ps old).map (·.effect) = last.effect.kept? := by
  obtain ⟨before, rfl⟩ := List.getLast?_eq_some_iff.mp hlast
  rw [writtenEach_append]
  exact map_effect_written last _

theorem writtenEach_of_revoke (hlast : ps.getLast? = some last) (hrevoke : last.effect = .revoke)
    (old : Option Privilege) : writtenEach ps old = none := by
  have hgone := map_effect_writtenEach hlast old
  rw [hrevoke] at hgone
  exact Option.map_eq_none_iff.mp hgone

/-- Records of an effect stay out where it is kept already. -/
theorem writtenEach_of_any (heffect : effect ≠ .revoke) (huniform : ∀ p ∈ ps, p.effect = effect)
    (hold : old.any (·.effect = effect) = true) : writtenEach ps old = old := by
  induction ps with
  | nil => rfl
  | cons p ps ih =>
    obtain ⟨rfl, hrest⟩ := List.forall_mem_cons.mp huniform
    have hstay : written p old = old := (written_of_ne_revoke heffect old).trans (if_pos hold)
    exact (congrArg (writtenEach ps) hstay).trans (ih hrest)

/-- Of records of one effect the first is left, unless the effect was there before. -/
theorem writtenEach_of_uniform {rest : List Privilege} (heffect : effect ≠ .revoke)
    (huniform : ∀ q ∈ p :: rest, q.effect = effect) (old : Option Privilege) :
    writtenEach (p :: rest) old = if old.any (·.effect = effect) then old else some p := by
  split
  · next hold => exact writtenEach_of_any heffect huniform hold
  · next hold =>
    obtain ⟨rfl, hrest⟩ := List.forall_mem_cons.mp huniform
    have hfirst : written p old = some p := (written_of_ne_revoke heffect old).trans (if_neg hold)
    have hkept : (some p).any (·.effect = p.effect) = true := by simp
    exact (congrArg (writtenEach rest) hfirst).trans (writtenEach_of_any heffect hrest hkept)

/-- **The last run decides.** Its first record is left, unless there is nothing before the run and
its effect was at the key already. -/
theorem writtenEach_of_isLastRun {rest : List Privilege} (heffect : effect ≠ .revoke)
    (hrun : IsLastRun effect ps (p :: rest)) (old : Option Privilege) :
    writtenEach ps old =
      if p :: rest = ps ∧ old.map (·.effect) = some effect then old else some p := by
  obtain ⟨before, rfl⟩ := hrun.suffix
  rw [writtenEach_append, writtenEach_of_uniform heffect hrun.uniform]
  rcases List.eq_nil_or_concat before with rfl | ⟨before, q, rfl⟩
  · simp [writtenEach, any_effect_iff]
  · rw [List.concat_eq_append] at hrun ⊢
    have hproper : p :: rest ≠ before ++ [q] ++ p :: rest := by
      simp only [ne_eq, List.self_eq_append_left, List.append_eq_nil_iff, List.cons_ne_nil,
        and_false, not_false_eq_true]
    -- the record right before the run leaves another effect, or none
    rw [List.append_assoc] at hrun
    have hother : ¬ (writtenEach (before ++ [q]) old).any (·.effect = effect) = true := by
      rw [any_effect_iff, map_effect_writtenEach List.getLast?_concat]
      exact mt Effect.eq_of_kept?_eq_some hrun.effect_ne
    rw [if_neg hother, if_neg (not_and_of_not_left _ hproper)]

/-- Records that are written once more leave what they have left before. -/
theorem writtenEach_writtenEach (ps : List Privilege) (old : Option Privilege) :
    writtenEach ps (writtenEach ps old) = writtenEach ps old := by
  cases hlast : ps.getLast? with
  | none =>
    rw [List.getLast?_eq_none_iff.mp hlast]
    rfl
  | some last =>
    by_cases hrevoke : last.effect = .revoke
    · rw [writtenEach_of_revoke hlast hrevoke, writtenEach_of_revoke hlast hrevoke]
    · obtain ⟨first, rest, hrun⟩ := Privilege.exists_isLastRun_cons hlast
      have hclosed := writtenEach_of_isLastRun hrevoke hrun
      by_cases hwhole : first :: rest = ps
      · -- all records are of the effect that is left, and stay out
        have hleft : (writtenEach ps old).map (·.effect) = some last.effect := by
          rw [map_effect_writtenEach hlast, Effect.kept?_of_ne_revoke hrevoke]
        rw [hclosed (writtenEach ps old), if_pos ⟨hwhole, hleft⟩]
      · rw [hclosed old, hclosed, if_neg (not_and_of_not_left _ hwhole),
          if_neg (not_and_of_not_left _ hwhole)]

/-! ### Records for any keys -/

/-- **Records that are written once more change nothing.** -/
theorem applyEach_applyEach (s : PrivilegeSet) (ps : List Privilege) :
    (s.applyEach ps).applyEach ps = s.applyEach ps := by
  refine ext_get? fun k => ?_
  rw [get?_applyEach_eq (s.applyEach ps), get?_applyEach_eq s, writtenEach_writtenEach]

/-- After records are written to an empty set, a permission is held if and only if it is not access
control and the last record at the key is a GRANT. -/
theorem holds_ofList_iff :
    (ofList ps).holds k = true ↔ k.permission ≠ .dcl ∧
      ∃ last, (ps.filter (·.key = k)).getLast? = some last ∧ last.effect = .grant := by
  have heffect : (ofList ps).effectAt? k = _ := effectAt?_applyEach empty ps k
  have hholds : (ofList ps).holds k = true ↔
      k.permission ≠ .dcl ∧ (ofList ps).effectAt? k = some .grant := by
    simp [holds, hasEffect_iff, effectAt?]
  rw [hholds, heffect]
  refine and_congr_right fun _ => ?_
  cases (ps.filter (·.key = k)).getLast? with
  | none => simp [effectAt?, get?, empty]
  | some last => simp [Effect.kept?_eq_some_iff]

/-- **The record at a key, after any records.** It is what it was if none of the records is for the
key, and none at all if the last one for the key is a REVOKE. Otherwise the records for the key end
in a run of one effect, and the first of the run is kept; but if all records for the key are of the
run, and a record of this effect was there before, that one is. So in a set that is written record
by record, a permission is held if and only if it is not access control and the last record for it
is a GRANT. -/
theorem applyEach_keeps_first_of_last_run (s : PrivilegeSet) (ps : List Privilege)
    (k : Privilege.Key) :
    let own := ps.filter (·.key = k)
    let kept := (s.applyEach ps).get? k
    (own = [] → kept = s.get? k) ∧
    (∀ last, own.getLast? = some last → last.effect = .revoke → kept = none) ∧
    (∀ last, own.getLast? = some last → last.effect ≠ .revoke →
      ∃ first rest, IsLastRun last.effect own (first :: rest) ∧
        (first :: rest ≠ own ∨ s.effectAt? k ≠ some last.effect → kept = some first) ∧
        (first :: rest = own → s.effectAt? k = some last.effect → kept = s.get? k)) ∧
    ((ofList ps).holds k = true ↔ k.permission ≠ .dcl ∧
      ∃ last, own.getLast? = some last ∧ last.effect = .grant) := by
  intro own kept
  have hkept : kept = writtenEach own (s.get? k) := get?_applyEach_eq s ps k
  refine ⟨fun hnone => ?_, fun last hlast hrevoke => ?_, fun last hlast heffect => ?_,
    holds_ofList_iff⟩
  · rw [hkept, hnone]
    rfl
  · rw [hkept, writtenEach_of_revoke hlast hrevoke]
  · obtain ⟨first, rest, hrun⟩ := Privilege.exists_isLastRun_cons hlast
    have hclosed := hkept.trans (writtenEach_of_isLastRun heffect hrun (s.get? k))
    refine ⟨first, rest, hrun, fun hfirst => ?_, fun hwhole hbefore => ?_⟩
    · exact hclosed.trans (if_neg (not_and_or.mpr hfirst))
    · exact hclosed.trans (if_pos ⟨hwhole, hbefore⟩)

/-- A GRANT is repeated by another user and then denied by two more, amid records for another key:
of all these, the first denial is kept. The other key had a GRANT before, which stays. -/
theorem applyEach_keeps_first_of_last_run_denied :
    let reading : Privilege.Key := ⟨.dql, .table "doc.t"⟩
    let writing : Privilege.Key := ⟨.dml, .cluster⟩
    let s : PrivilegeSet := .ofList [⟨.grant, reading, "crate"⟩, ⟨.grant, writing, "crate"⟩]
    let ps : List Privilege := [⟨.grant, reading, "arthur"⟩, ⟨.deny, reading, "ford"⟩,
      ⟨.grant, writing, "ford"⟩, ⟨.deny, reading, "zaphod"⟩]
    (s.applyEach ps).get? reading = some ⟨.deny, reading, "ford"⟩ ∧
      (s.applyEach ps).get? writing = some ⟨.grant, writing, "crate"⟩ ∧
      (ofList ps).holds reading = false ∧ (ofList ps).holds writing = true := by
  intro reading writing s ps
  obtain ⟨-, -, hreading, hholds⟩ := applyEach_keeps_first_of_last_run s ps reading
  obtain ⟨-, -, hwriting, hholds'⟩ := applyEach_keeps_first_of_last_run s ps writing
  obtain ⟨first, rest, hrun, hfirst, -⟩ := hreading ⟨.deny, reading, "zaphod"⟩ rfl nofun
  obtain ⟨only, more, hrun', -, hstays⟩ := hwriting ⟨.grant, writing, "ford"⟩ rfl nofun
  have hgranted : IsLastRun .deny ([] ++ [⟨.grant, reading, "arthur"⟩]) [] :=
    Privilege.isLastRun_nil_of_ne nofun
  have hdenied := hgranted.concat (p := ⟨.deny, reading, "ford"⟩) rfl
  have hdenials : IsLastRun .deny (ps.filter (·.key = reading))
      [⟨.deny, reading, "ford"⟩, ⟨.deny, reading, "zaphod"⟩] :=
    hdenied.concat (p := ⟨.deny, reading, "zaphod"⟩) rfl
  have hgrants : IsLastRun .grant (ps.filter (·.key = writing)) [⟨.grant, writing, "ford"⟩] :=
    ⟨List.suffix_rfl, by decide +kernel, fun h _ => h⟩
  have hford : first = ⟨.deny, reading, "ford"⟩ := (List.cons.inj (hrun.unique hdenials)).1
  refine ⟨?_, ?_, ?_, ?_⟩
  · rw [← hford]
    exact hfirst (.inr (by decide +kernel))
  · exact (hstays (hrun'.unique hgrants) (by decide +kernel)).trans (by decide +kernel)
  · exact Bool.eq_false_iff.mpr (mt hholds.mp (by decide +kernel))
  · exact hholds'.mpr ⟨nofun, _, rfl, rfl⟩

end PrivilegeSet

end AccessControl
