import AccessControl.Proofs.Agreement
import AccessControl.Proofs.History
import AccessControl.Proofs.Naming
import Mathlib.Data.List.Basic
import Mathlib.Data.List.TakeWhile

/-!
# The most specific record decides what is visible

A scope is looked at from the inside out, for each permission apart. The first record on the way
decides for that permission, and a GRANT for any one of them is enough. So a scope without records
is seen like the scope around it, and a record counts only as long as none of its permission stands
further inside.

## Main definitions

* `PrivilegeSet.HasCloser` — a record of the same permission stands closer to a scope than a key
* `PrivilegeSet.PassesBy` — a key has no part in whether a scope is visible

## Main results

* `PrivilegeSet.closest?_table` — the most specific record on a table, its schema or the cluster
* `PrivilegeSet.sees_apply_of_passesBy` — a record that is passed by makes no difference
* `PrivilegeSet.closest?_apply_of_not_passesBy` — any other record is the most specific one, once it
  is written
* `PrivilegeSet.sees_by_most_specific` — what makes a table visible
-/

namespace AccessControl

namespace PrivilegeSet

variable {s : PrivilegeSet} {scope outer : Scope} {permission : Permission}

/-! ### Scopes with records -/

/-- A scope on which everything is denied is not visible. -/
theorem not_sees_of_denied {further : List Scope} (hchain : scope.chain = scope :: further)
    (hdenied : ∀ permission ≠ .dcl, s.hasEffect ⟨permission, scope⟩ .deny = true) :
    s.sees scope = false := by
  rw [Bool.eq_false_iff, Ne, sees_iff]
  rintro ⟨permission, hpermission, record, hclosest, hgrant⟩
  obtain ⟨denial, hdenial, hdeny⟩ := hasEffect_iff.mp (hdenied permission hpermission)
  obtain rfl : denial = record :=
    Option.some.inj ((closest?_of_get? hchain hdenial).symm.trans hclosest)
  cases hgrant.symm.trans hdeny

/-- The most specific record on a table, on its schema or on the cluster. -/
theorem closest?_table {table : TableName} (hschema : '.' ∉ table.schema.toList) :
    s.closest? permission (.table table.qualified) =
      (s.get? ⟨permission, .table table.qualified⟩).or
        ((s.get? ⟨permission, .schema table.schema⟩).or (s.get? ⟨permission, .cluster⟩)) := by
  rw [closest?, Scope.chain_table hschema]
  simp only [List.findSome?_cons, List.findSome?_nil]
  cases s.get? ⟨permission, .table table.qualified⟩ <;>
    cases s.get? ⟨permission, .schema table.schema⟩ <;>
      cases s.get? ⟨permission, .cluster⟩ <;> rfl

/-! ### Records that are passed by -/

/-- A record of the same permission stands closer to the scope, before that of the key in its
chain. -/
def HasCloser (s : PrivilegeSet) (scope : Scope) (k : Privilege.Key) : Prop :=
  ∃ inner ∈ scope.chain.takeWhile (· ≠ k.scope), (s.get? ⟨k.permission, inner⟩).isSome = true

instance (s : PrivilegeSet) (scope : Scope) : DecidablePred (s.HasCloser scope) := fun _ =>
  inferInstanceAs (Decidable (∃ _ ∈ _, _))

/-- A key has no part in whether the scope is visible: it is for access control, it is not on the
way outwards, or a closer record keeps it from being reached. -/
def PassesBy (s : PrivilegeSet) (scope : Scope) (k : Privilege.Key) : Prop :=
  k.permission = .dcl ∨ k.scope ∉ scope.chain ∨ s.HasCloser scope k

instance (s : PrivilegeSet) (scope : Scope) : DecidablePred (s.PassesBy scope) := fun _ =>
  inferInstanceAs (Decidable (_ ∨ _ ∨ _))

/-- On the way outwards, a scope comes after those before it in the chain. -/
theorem closest?_of_mem_chain (h : outer ∈ scope.chain) (permission : Permission) :
    ∃ further : List Scope, ∀ s : PrivilegeSet, s.closest? permission scope =
      ((scope.chain.takeWhile (· ≠ outer)).findSome? fun inner => s.get? ⟨permission, inner⟩).or
        ((s.get? ⟨permission, outer⟩).or
          (further.findSome? fun inner => s.get? ⟨permission, inner⟩)) := by
  obtain ⟨before, further, hchain, hbefore⟩ := List.eq_append_cons_of_mem h
  have hwhile : scope.chain.takeWhile (· ≠ outer) = before := by
    have hne : ∀ inner ∈ before, decide (inner ≠ outer) = true := fun inner hinner =>
      decide_eq_true fun heq => hbefore (heq ▸ hinner)
    rw [hchain, List.takeWhile_append_of_pos hne, List.takeWhile_cons_of_neg (by simp),
      List.append_nil]
  refine ⟨further, fun s => ?_⟩
  rw [closest?, hwhile, hchain, List.findSome?_append, List.findSome?_cons]
  cases s.get? ⟨permission, outer⟩ <;> rfl

variable {p : Privilege}

/-- Writing a record leaves what is found at the keys of others. -/
theorem findSome?_apply {scopes : List Scope}
    (h : ∀ inner ∈ scopes, (⟨permission, inner⟩ : Privilege.Key) ≠ p.key) :
    (scopes.findSome? fun inner => (s.apply p).1.get? ⟨permission, inner⟩) =
      scopes.findSome? fun inner => s.get? ⟨permission, inner⟩ := by
  rw [← List.head?_filterMap, ← List.head?_filterMap]
  refine congrArg List.head? (List.filterMap_congr fun inner hinner => ?_)
  rw [get?_apply, if_neg (h inner hinner)]

/-- What stands closer than the record that is written stays. -/
theorem findSome?_closer_apply (s : PrivilegeSet) (scope : Scope) (p : Privilege) :
    ((scope.chain.takeWhile (· ≠ p.key.scope)).findSome? fun inner =>
        (s.apply p).1.get? ⟨p.key.permission, inner⟩) =
      (scope.chain.takeWhile (· ≠ p.key.scope)).findSome? fun inner =>
        s.get? ⟨p.key.permission, inner⟩ := by
  refine findSome?_apply fun inner hinner hkey => ?_
  have hne : inner ≠ p.key.scope := by simpa using List.mem_takeWhile_imp hinner
  exact hne (congrArg Privilege.Key.scope hkey)

/-- A permission is decided as before if the record is for another permission, is not on the way
outwards, or is not reached. -/
theorem closest?_apply_of_passed
    (h : permission ≠ p.key.permission ∨ p.key.scope ∉ scope.chain ∨ s.HasCloser scope p.key) :
    (s.apply p).1.closest? permission scope = s.closest? permission scope := by
  by_cases hother : permission ≠ p.key.permission ∨ p.key.scope ∉ scope.chain
  · refine findSome?_apply fun inner hinner hkey => ?_
    rw [← hkey] at hother
    exact hother.elim (· rfl) (· hinner)
  · obtain ⟨hpermission, hmem⟩ := not_or.mp hother
    obtain rfl := of_not_not hpermission
    have hcloser := ((or_assoc.mpr h).resolve_left hother)
    -- a closer record is found before the one that is written
    obtain ⟨further, hclosest⟩ := closest?_of_mem_chain (of_not_not hmem) p.key.permission
    obtain ⟨record, hrecord⟩ := Option.isSome_iff_exists.mp (List.findSome?_isSome_iff.mpr hcloser)
    rw [hclosest, hclosest, findSome?_closer_apply, hrecord]
    rfl

/-- A record that is passed by makes no difference. -/
theorem sees_apply_of_passesBy (h : s.PassesBy scope p.key) :
    (s.apply p).1.sees scope = s.sees scope := by
  refine sees_congr fun permission hpermission => closest?_apply_of_passed ?_
  refine h.imp_left fun hdcl heq => ?_
  exact Permission.mem_grantable_iff.mp hpermission (heq.trans hdcl)

/-- A GRANT or a DENY that is not passed by is the most specific record, once it is written. -/
theorem closest?_apply_of_not_passesBy (h : ¬ s.PassesBy scope p.key)
    (heffect : p.effect ≠ .revoke) :
    ∃ record, (s.apply p).1.closest? p.key.permission scope = some record ∧
      record.effect = p.effect := by
  obtain ⟨-, hmem, hcloser⟩ := by simpa only [PassesBy, not_or] using h
  obtain ⟨further, hclosest⟩ := closest?_of_mem_chain (of_not_not hmem) p.key.permission
  have hnone : ((scope.chain.takeWhile (· ≠ p.key.scope)).findSome? fun inner =>
      s.get? ⟨p.key.permission, inner⟩) = none :=
    Option.not_isSome_iff_eq_none.mp (mt List.findSome?_isSome_iff.mp hcloser)
  obtain ⟨record, hrecord, hsame⟩ := Option.map_eq_some_iff.mp
    ((map_effect_written p (s.get? p.key)).trans (Effect.kept?_of_ne_revoke heffect))
  refine ⟨record, ?_, hsame⟩
  rw [hclosest, findSome?_closer_apply, hnone, get?_apply, if_pos rfl, hrecord]
  rfl

/-- A GRANT that is not passed by makes the scope visible. -/
theorem sees_apply_of_grant (h : ¬ s.PassesBy scope p.key) (hgrant : p.effect = .grant) :
    (s.apply p).1.sees scope = true := by
  obtain ⟨record, hclosest, hsame⟩ := closest?_apply_of_not_passesBy h (by simp [hgrant])
  exact sees_iff.mpr ⟨p.key.permission, mt .inl h, record, hclosest, hsame.trans hgrant⟩

/-- A DENY makes no scope visible. -/
theorem sees_of_sees_apply (hdeny : p.effect = .deny) (hsees : (s.apply p).1.sees scope = true) :
    s.sees scope = true := by
  by_cases h : s.PassesBy scope p.key
  · rwa [← sees_apply_of_passesBy h]
  · obtain ⟨permission, hpermission, record, hclosest, hgrant⟩ := sees_iff.mp hsees
    have hother : permission ≠ p.key.permission := by
      rintro rfl
      -- for its own permission, the DENY would be the most specific record
      obtain ⟨denial, hdenial, hsame⟩ := closest?_apply_of_not_passesBy h (by simp [hdeny])
      obtain rfl := Option.some.inj (hclosest.symm.trans hdenial)
      cases hgrant.symm.trans (hsame.trans hdeny)
    rw [closest?_apply_of_passed (.inl hother)] at hclosest
    exact sees_iff.mpr ⟨permission, hpermission, record, hclosest, hgrant⟩

/-! ### Tables -/

/-- On the way from a table to its schema and on to the cluster, a record is passed by if it is
further out than another one of its permission. -/
theorem passesBy_table_iff {table : TableName} (hschema : '.' ∉ table.schema.toList)
    {k : Privilege.Key} :
    s.PassesBy (.table table.qualified) k ↔
      k.permission = .dcl ∨
      k.scope ∉ [.table table.qualified, .schema table.schema, .cluster] ∨
      (k.scope ≠ .table table.qualified ∧
        (s.get? ⟨k.permission, .table table.qualified⟩).isSome = true) ∨
      (k.scope = .cluster ∧ (s.get? ⟨k.permission, .schema table.schema⟩).isSome = true) := by
  obtain ⟨permission, keyScope⟩ := k
  have htable : Scope.schema table.schema ≠ .table table.qualified := by
    simp [Scope.schema, Scope.table]
  have hcluster : Scope.cluster ≠ .table table.qualified := by simp [Scope.cluster, Scope.table]
  have hinner : Scope.cluster ≠ .schema table.schema := by simp [Scope.cluster, Scope.schema]
  simp only [PassesBy, HasCloser, Scope.chain_table hschema]
  refine or_congr_right (or_congr_right' fun hmem => ?_)
  have hmem : keyScope = .table table.qualified ∨ keyScope = .schema table.schema ∨
      keyScope = .cluster := by simpa using of_not_not hmem
  rcases hmem with rfl | rfl | rfl
  · simp [hcluster.symm]
  · simp [htable, htable.symm, hinner.symm]
  · simp [hcluster, hcluster.symm, hinner.symm]

/-- **The most specific record decides what is visible.** Take any privileges and any table whose
schema has no dot. The table is visible by a GRANT that is, for some permission other than access
control, the record found first on the table, on its schema and on the cluster. So a table without
records is seen like its schema, and a schema without records like the cluster; a GRANT on the table
makes it visible, and it is not if everything on it is denied, whatever else there is. Writing a
record makes no difference if the record is for access control, is about something else, or is
further out than another one of its permission. Otherwise a GRANT makes the table visible; and no
GRANT ever hides it, as no DENY ever shows it. -/
theorem sees_by_most_specific {table : TableName} (hschema : '.' ∉ table.schema.toList)
    (s : PrivilegeSet) :
    let inTable := Scope.table table.qualified
    let inSchema := Scope.schema table.schema
    (s.sees inTable = true ↔ ∃ permission ≠ .dcl, ∃ record,
      (s.get? ⟨permission, inTable⟩).or
        ((s.get? ⟨permission, inSchema⟩).or (s.get? ⟨permission, .cluster⟩)) = some record ∧
      record.effect = .grant) ∧
    ((∀ permission ≠ .dcl, s.get? ⟨permission, inTable⟩ = none) →
      s.sees inTable = s.sees inSchema ∧
      ((∀ permission ≠ .dcl, s.get? ⟨permission, inSchema⟩ = none) →
        s.sees inTable = s.sees .cluster ∧ s.sees inSchema = s.sees .cluster)) ∧
    ((∃ permission ≠ .dcl, s.hasEffect ⟨permission, inTable⟩ .grant = true) →
      s.sees inTable = true) ∧
    ((∀ permission ≠ .dcl, s.hasEffect ⟨permission, inTable⟩ .deny = true) →
      s.sees inTable = false) ∧
    ∀ p : Privilege,
      let after := (s.apply p).1
      let passed := p.key.permission = .dcl ∨ p.key.scope ∉ [inTable, inSchema, .cluster] ∨
        (p.key.scope ≠ inTable ∧ (s.get? ⟨p.key.permission, inTable⟩).isSome = true) ∨
        (p.key.scope = .cluster ∧ (s.get? ⟨p.key.permission, inSchema⟩).isSome = true)
      (passed → after.sees inTable = s.sees inTable) ∧
      (¬ passed → p.effect = .grant → after.sees inTable = true) ∧
      (p.effect = .grant → s.sees inTable = true → after.sees inTable = true) ∧
      (p.effect = .deny → s.sees inTable = false → after.sees inTable = false) := by
  intro inTable inSchema
  have hchain : inTable.chain = inTable :: inSchema.chain := Scope.chain_table hschema
  have hgrantable {permission : Permission} (h : permission ∈ Permission.grantable) :
      permission ≠ .dcl := Permission.mem_grantable_iff.mp h
  refine ⟨?_, fun htable => ?_, ?_, not_sees_of_denied hchain, fun p => ?_⟩
  · simp only [sees_iff, inTable, closest?_table hschema]
    rfl
  · have hseen : s.sees inTable = s.sees inSchema :=
      sees_of_none hchain fun permission h => htable permission (hgrantable h)
    refine ⟨hseen, fun houter => ?_⟩
    have hcluster : s.sees inSchema = s.sees .cluster :=
      sees_of_none rfl fun permission h => houter permission (hgrantable h)
    exact ⟨hseen.trans hcluster, hcluster⟩
  · rintro ⟨permission, hpermission, hgranted⟩
    obtain ⟨record, hrecord, hgrant⟩ := hasEffect_iff.mp hgranted
    exact sees_of_grant hpermission hchain hrecord hgrant
  · intro after passed
    have hpassed : s.PassesBy inTable p.key ↔ passed := passesBy_table_iff hschema
    refine ⟨fun h => sees_apply_of_passesBy (hpassed.mpr h),
      fun h => sees_apply_of_grant (mt hpassed.mp h), fun hgrant hsees => ?_,
      fun hdeny hsees => ?_⟩
    · by_cases h : s.PassesBy inTable p.key
      · rwa [sees_apply_of_passesBy h]
      · exact sees_apply_of_grant h hgrant
    · rw [Bool.eq_false_iff] at hsees ⊢
      exact mt (sees_of_sees_apply hdeny) hsees

/-- A table in a schema that may be written but not read: it is hidden by a denial of its own, which
a GRANT further out does not reach. A GRANT to read the schema shows it, as no closer record is for
reading; and the table beside it, which has no records, is seen like the schema. -/
theorem sees_by_most_specific_of_hidden_table :
    let s : PrivilegeSet := .ofList
      [⟨.grant, ⟨.dql, .cluster⟩, "crate"⟩, ⟨.deny, ⟨.dql, .schema "doc"⟩, "crate"⟩,
        ⟨.grant, ⟨.dml, .schema "doc"⟩, "crate"⟩, ⟨.deny, ⟨.dml, .table "doc.log.old"⟩, "crate"⟩]
    let hidden := Scope.table "doc.log.old"
    s.sees hidden = false ∧
      (s.apply ⟨.grant, ⟨.dml, .cluster⟩, "crate"⟩).1.sees hidden = false ∧
      (s.apply ⟨.grant, ⟨.dql, .schema "doc"⟩, "crate"⟩).1.sees hidden = true ∧
      (s.apply ⟨.deny, ⟨.ddl, .table "doc.log.old"⟩, "crate"⟩).1.sees hidden = false ∧
      s.sees (.table "doc.log") = s.sees (.schema "doc") ∧ s.sees (.table "doc.log") = true := by
  intro s hidden
  have hschema : '.' ∉ (TableName.mk "doc" "log.old").schema.toList := by decide
  have hnone : ∀ permission ≠ .dcl, s.get? ⟨permission, .table "doc.log"⟩ = none := by
    intro permission _
    cases permission <;> decide +kernel
  have hsees : s.sees hidden = false := by decide +kernel
  obtain ⟨-, -, -, -, hwritten⟩ := sees_by_most_specific hschema s
  obtain ⟨-, hlike, -, -, -⟩ := @sees_by_most_specific ⟨"doc", "log"⟩ (by decide) s
  have hfree : s.sees (.table "doc.log") = s.sees (.schema "doc") := (hlike hnone).1
  refine ⟨hsees, ?_, ?_, ?_, hfree, hfree.trans (by decide +kernel)⟩
  · exact ((hwritten ⟨.grant, ⟨.dml, .cluster⟩, "crate"⟩).1 (by decide +kernel)).trans hsees
  · exact (hwritten ⟨.grant, ⟨.dql, .schema "doc"⟩, "crate"⟩).2.1 (by decide +kernel) rfl
  · exact (hwritten ⟨.deny, ⟨.ddl, .table "doc.log.old"⟩, "crate"⟩).2.2.2 rfl hsees

end PrivilegeSet

end AccessControl
