import AccessControl.Proofs.GrantEffect
import AccessControl.Proofs.Replay
import Mathlib.Algebra.BigOperators.Group.Finset.Piecewise
import Mathlib.Algebra.BigOperators.Group.Finset.Sigma
import Mathlib.Data.Finset.Prod

/-!
# A REVOKE takes back what a GRANT gave

A GRANT and a REVOKE of the same permissions on the same target are about the same keys, and go over
the same users. The number of rows that each of them affects is that of the pairs of a user and a
key which are not yet as the statement leaves them; who or what is named several times counts once.
The REVOKE leaves nothing at these keys, and the records at other keys have not been touched by
either.

## Main definitions

* `Grant.keys` — the keys that a statement covers, each once
* `PrivilegeSection.outstanding` — the users and keys that are not as an effect leaves them
* `Store.SettledBy` — a request affects no row when it is submitted a second time

## Main results

* `PrivilegeSection.affected_applyToAll` — each user and key that is outstanding counts once
* `Store.submit_grant_revoke` — a GRANT, a REVOKE of the same right after it, and either of them
  twice in a row
-/

namespace AccessControl

/-! ### The keys of a statement, each once -/

namespace Grant

variable {g : Grant} {effect : Effect} {grantor schema : String} {k : Privilege.Key}

/-- The keys that a statement covers: each permission with each object of the target. -/
def keys (g : Grant) (schema : String) : Finset Privilege.Key :=
  (g.permissions.toFinset ×ˢ (g.target.objects schema).toFinset).image fun pair =>
    ⟨pair.1, ⟨g.target.level, pair.2⟩⟩

theorem mem_keys_iff : k ∈ g.keys schema ↔ g.Covers schema k := by
  obtain ⟨permission, ⟨level, object⟩⟩ := k
  simp only [keys, Finset.mem_image, Finset.mem_product, List.mem_toFinset, Prod.exists,
    Privilege.Key.mk.injEq, Scope.mk.injEq, Covers]
  constructor
  · rintro ⟨_, _, ⟨hpermission, hobject⟩, rfl, rfl, rfl⟩
    exact ⟨hpermission, rfl, hobject⟩
  · rintro ⟨hpermission, rfl, hobject⟩
    exact ⟨permission, object, ⟨hpermission, hobject⟩, rfl, rfl, rfl⟩

/-- The records of a statement are for its keys. -/
theorem toFinset_map_key_privileges :
    ((g.privileges effect grantor schema).map (·.key)).toFinset = g.keys schema := by
  ext k
  rw [List.mem_toFinset, mem_keys_privileges_iff, mem_keys_iff]

theorem privileges_ne_nil (h : (g.keys schema).Nonempty) :
    g.privileges effect grantor schema ≠ [] := by
  intro hnil
  rw [← toFinset_map_key_privileges, hnil] at h
  exact Finset.not_nonempty_empty h

end Grant

/-! ### Counting what is outstanding -/

/-- What is due at one more item is counted with it, and is no longer due if it comes again. -/
theorem sum_insert_eq_add {α : Type} [DecidableEq α] (items : Finset α) (a : α) (due : α → Nat) :
    ∑ b ∈ insert a items, due b = due a + ∑ b ∈ items, if b = a then 0 else due b := by
  have hrest : ∀ b ∈ items.erase a, (if b = a then 0 else due b) = due b :=
    fun b hb => if_neg (Finset.ne_of_mem_erase hb)
  calc ∑ b ∈ insert a items, due b
      = due a + ∑ b ∈ items.erase a, due b := by
        rw [← Finset.add_sum_erase _ due (Finset.mem_insert_self a items),
          Finset.erase_insert_eq_erase]
    _ = due a + ∑ b ∈ items.erase a, if b = a then 0 else due b := by
        rw [Finset.sum_congr rfl hrest]
    _ = due a + ∑ b ∈ items, if b = a then 0 else due b := by
        refine congrArg _ (Finset.sum_erase items ?_)
        exact if_pos rfl

namespace PrivilegeSet

variable {s : PrivilegeSet} {p : Privilege} {k : Privilege.Key}

theorem effectAt?_apply (s : PrivilegeSet) (p : Privilege) (k : Privilege.Key) :
    (s.apply p).1.effectAt? k = if k = p.key then p.effect.kept? else s.effectAt? k := by
  unfold effectAt?
  rw [get?_apply]
  split
  · exact map_effect_written p _
  · rfl

/-- A record changes a set if and only if its key is not as the record leaves it. -/
theorem changed_apply_iff : (s.apply p).2 = true ↔ s.effectAt? p.key ≠ p.effect.kept? := by
  unfold apply effectAt?
  cases heffect : p.effect with
  | grant | deny =>
    simp only [hasEffect_eq_any, Effect.kept?, ne_eq, ← any_effect_iff]
    split
    · next hsame => simp [hsame]
    · next hother => simp [hother]
  | revoke => cases s.get? p.key <;> simp [Effect.kept?]

end PrivilegeSet

namespace PrivilegeSection

variable {s : PrivilegeSection} {effect : Effect} {ps : List Privilege}

/-- The keys at which the privileges in force for a user are not as an effect leaves them. -/
def outstandingFor (s : PrivilegeSection) (effect : Effect) (keys : Finset Privilege.Key)
    (name : String) : Finset Privilege.Key :=
  keys.filter fun k => (s.inForce name).effectAt? k ≠ effect.kept?

/-- The users and keys that are not as an effect leaves them. -/
def outstanding (s : PrivilegeSection) (effect : Effect) (names : Finset String)
    (keys : Finset Privilege.Key) : Finset (String × Privilege.Key) :=
  (names ×ˢ keys).filter fun pair => (s.inForce pair.1).effectAt? pair.2 ≠ effect.kept?

theorem card_outstandingFor (keys : Finset Privilege.Key) (name : String) :
    (s.outstandingFor effect keys name).card =
      ∑ k ∈ keys, if (s.inForce name).effectAt? k ≠ effect.kept? then 1 else 0 :=
  Finset.card_filter ..

/-- Of records for one user, each key that is outstanding counts once. -/
theorem affected_applyAll (huniform : ∀ p ∈ ps, p.effect = effect) (name : String) :
    (s.applyAll name ps).2 = (s.outstandingFor effect (ps.map (·.key)).toFinset name).card := by
  induction ps generalizing s with
  | nil => rfl
  | cons p ps ih =>
    obtain ⟨rfl, hrest⟩ := List.forall_mem_cons.mp huniform
    have hfirst : (s.apply name p).2.toNat =
        if (s.inForce name).effectAt? p.key ≠ p.effect.kept? then 1 else 0 := by
      have hchanged : (s.apply name p).2 = true ↔ _ := PrivilegeSet.changed_apply_iff
      split
      · next h => rw [hchanged.mpr h, Bool.toNat_true]
      · next h => rw [Bool.eq_false_iff.mpr (mt hchanged.mp h), Bool.toNat_false]
    rw [applyAll_cons, ih hrest, List.map_cons, List.toFinset_cons, card_outstandingFor,
      card_outstandingFor, sum_insert_eq_add, hfirst]
    -- after the first record, its key is as the effect leaves it, and the others are as before
    refine congrArg _ (Finset.sum_congr rfl fun k _ => ?_)
    rw [inForce_apply, if_pos rfl, PrivilegeSet.effectAt?_apply]
    by_cases hk : k = p.key <;> simp [hk]

/-- **Each user and key that is outstanding counts once**, however often they are named. -/
theorem affected_applyToAll (huniform : ∀ p ∈ ps, p.effect = effect) (s : PrivilegeSection)
    (names : List String) :
    (s.applyToAll names ps).2 =
      (s.outstanding effect names.toFinset (ps.map (·.key)).toFinset).card := by
  rw [outstanding, Finset.card_filter, Finset.sum_product]
  simp only [← card_outstandingFor]
  induction names generalizing s with
  | nil => rfl
  | cons name names ih =>
    rw [applyToAll_cons, ih, affected_applyAll huniform, List.toFinset_cons, sum_insert_eq_add]
    -- after the records for the first user, nothing is outstanding for this user
    refine congrArg _ (Finset.sum_congr rfl fun other _ => ?_)
    unfold outstandingFor
    rw [inForce_applyAll]
    by_cases hother : other = name
    · rw [if_pos hother, if_pos hother, Finset.card_eq_zero, Finset.filter_eq_empty_iff]
      intro k hk
      rw [PrivilegeSet.effectAt?_applyEach_of_uniform huniform, if_pos (List.mem_toFinset.mp hk)]
      exact not_not_intro rfl
    · rw [if_neg hother, if_neg hother]

/-- After records of one effect, none of their users and keys is outstanding. -/
theorem outstanding_applyToAll (huniform : ∀ p ∈ ps, p.effect = effect) (s : PrivilegeSection)
    (names : List String) :
    (s.applyToAll names ps).1.outstanding effect names.toFinset (ps.map (·.key)).toFinset = ∅ := by
  refine Finset.filter_eq_empty_iff.mpr ?_
  rintro ⟨name, k⟩ hpair
  obtain ⟨hname, hk⟩ := Finset.mem_product.mp hpair
  rw [inForce_applyToAll, if_pos (List.mem_toFinset.mp hname),
    PrivilegeSet.effectAt?_applyEach_of_uniform huniform, if_pos (List.mem_toFinset.mp hk)]
  exact not_not_intro rfl

end PrivilegeSection

namespace Grant

variable (g : Grant) (effect : Effect) (grantor grantor' schema : String)

theorem effect_of_mem_privileges : ∀ p ∈ g.privileges effect grantor schema, p.effect = effect :=
  fun _ hp => (mem_privileges_iff.mp hp).1

/-- What is granted and then revoked is gone, and the rest is as it was before the two. -/
theorem get?_applyEach_applyEach (before : PrivilegeSet) (k : Privilege.Key) :
    ((before.applyEach (g.privileges .grant grantor schema)).applyEach
        (g.privileges .revoke grantor' schema)).get? k =
      if k ∈ g.keys schema then none else before.get? k := by
  split
  · next hk =>
    have hgone : ((before.applyEach (g.privileges .grant grantor schema)).applyEach
        (g.privileges .revoke grantor' schema)).effectAt? k = none :=
      (effectAt?_applyEach_privileges _ k).trans (if_pos (mem_keys_iff.mp hk))
    exact Option.map_eq_none_iff.mp hgone
  · next hk =>
    have hother {effect grantor} : k ∉ (g.privileges effect grantor schema).map (·.key) :=
      fun h => hk (mem_keys_iff.mpr (mem_keys_privileges_iff.mp h))
    rw [PrivilegeSet.get?_applyEach_of_not_mem hother,
      PrivilegeSet.get?_applyEach_of_not_mem hother]

/-- After a GRANT, all of its keys are there to be revoked. -/
theorem outstanding_applyToAll_privileges (s : PrivilegeSection) (names : List String) :
    (s.applyToAll names (g.privileges .grant grantor schema)).1.outstanding .revoke names.toFinset
      (g.keys schema) = names.toFinset ×ˢ g.keys schema := by
  refine Finset.filter_true_of_mem ?_
  rintro ⟨name, k⟩ hpair
  obtain ⟨hname, hk⟩ := Finset.mem_product.mp hpair
  rw [PrivilegeSection.inForce_applyToAll, if_pos (List.mem_toFinset.mp hname),
    effectAt?_applyEach_privileges, if_pos (mem_keys_iff.mp hk)]
  exact nofun

end Grant

/-! ### Statements, one after the other -/

/-- The request for a change of privileges. -/
def PrivilegeChange.request (c : PrivilegeChange) : WriteRequest :=
  .applyPrivileges c.users c.privileges

namespace Store

variable {s : Store} {names : List String} {ps : List Privilege} {effect : Effect}

/-- A request that is submitted twice in a row affects no row and makes no version the second
time. -/
def SettledBy (s : Store) (r : WriteRequest) : Prop :=
  ((s.submit r).1.submit r).2 = .ok 0 ∧
    ((s.submit r).1.submit r).1.version = (s.submit r).1.version

/-- Records of one effect for users are settled at once. -/
theorem settledBy_of_uniform (huniform : ∀ p ∈ ps, p.effect = effect)
    (hnames : ∀ name ∈ names, s.metadata.users.contains name = true) :
    s.SettledBy (.applyPrivileges names ps) := by
  have hfirst := (submit_applyPrivileges hnames ps).1
  have hsecond := (submit_applyPrivileges (contains_of_applyPrivileges hnames ps) ps).2
  have hanswer : ((s.submit (.applyPrivileges names ps)).1.submit (.applyPrivileges names ps)).2 =
      .ok 0 := by
    rw [hsecond, hfirst, PrivilegeSection.affected_applyToAll huniform,
      PrivilegeSection.outstanding_applyToAll huniform, Finset.card_empty]
  exact ⟨hanswer, (submit_of_unaffected hanswer).1⟩

/-- **A REVOKE takes back what a GRANT gave.** For users of any store, a GRANT affects the pairs of
a user and a key of the statement where no GRANT was kept, and a REVOKE of the same right after it
affects all pairs, whoever issues the two. Each of the users is left with the records at other keys
as they were at first, and with none at these keys; if that is no record at all, nothing is kept for
the user. Everybody else, and who is a user, is as at first. Either statement affects nothing when
it is submitted a second time in a row. -/
theorem submit_grant_revoke (s : Store) (g : Grant) (grantor grantor' schema : String)
    (hnames : ∀ name ∈ g.users, s.metadata.users.contains name = true) :
    let grant := (g.toGrant grantor schema).request
    let revoke := (g.toRevoke grantor' schema).request
    let granted := s.submit grant
    let revoked := granted.1.submit revoke
    granted.2 = .ok ((g.users.toFinset ×ˢ g.keys schema).filter fun pair =>
      (s.metadata.privileges.inForce pair.1).effectAt? pair.2 ≠ some .grant).card ∧
    revoked.2 = .ok (g.users.toFinset.card * (g.keys schema).card) ∧
    (∀ name ∈ g.users, ∀ k, (revoked.1.metadata.privileges.inForce name).get? k =
      if k ∈ g.keys schema then none else (s.metadata.privileges.inForce name).get? k) ∧
    (∀ name ∈ g.users, (g.keys schema).Nonempty →
      revoked.1.metadata.privileges.get? name =
        (revoked.1.metadata.privileges.inForce name).stored?) ∧
    (∀ name ∉ g.users,
      revoked.1.metadata.privileges.get? name = s.metadata.privileges.get? name) ∧
    revoked.1.metadata.users = s.metadata.users ∧
    s.SettledBy grant ∧ s.SettledBy revoke ∧ granted.1.SettledBy revoke := by
  intro grant revoke granted revoked
  have hgranting := g.effect_of_mem_privileges .grant grantor schema
  have hrevoking := g.effect_of_mem_privileges .revoke grantor' schema
  obtain ⟨hgranted, hanswer⟩ := submit_applyPrivileges hnames (g.privileges .grant grantor schema)
  have hnames' := contains_of_applyPrivileges hnames (g.privileges .grant grantor schema)
  obtain ⟨hrevoked, hanswer'⟩ :=
    submit_applyPrivileges hnames' (g.privileges .revoke grantor' schema)
  refine ⟨?_, ?_, fun name hname k => ?_, fun name hname hkeys => ?_, fun name hname => ?_, ?_,
    settledBy_of_uniform hgranting hnames, settledBy_of_uniform hrevoking hnames,
    settledBy_of_uniform hrevoking hnames'⟩
  · rw [PrivilegeSection.affected_applyToAll hgranting, Grant.toFinset_map_key_privileges]
      at hanswer
    exact hanswer
  · rw [hgranted, PrivilegeSection.affected_applyToAll hrevoking,
      Grant.toFinset_map_key_privileges, g.outstanding_applyToAll_privileges,
      Finset.card_product] at hanswer'
    exact hanswer'
  · have hsections : revoked.1.metadata = _ := hrevoked
    rw [hsections, hgranted, PrivilegeSection.inForce_applyToAll, if_pos hname,
      PrivilegeSection.inForce_applyToAll, if_pos hname]
    exact g.get?_applyEach_applyEach ..
  · have hsections : revoked.1.metadata = _ := hrevoked
    rw [hsections]
    exact PrivilegeSection.get?_applyToAll_of_mem (Grant.privileges_ne_nil hkeys) hname
  · exact (get?_submit (r := revoke) hname).trans (get?_submit (r := grant) hname)
  · have hsections : revoked.1.metadata = _ := hrevoked
    rw [hsections, hgranted]

/-- A table is named three times over, with and without its schema, and one of two users twice. One
of the keys is granted already and stays so until the REVOKE; another one is denied. -/
theorem submit_grant_revoke_repeated_names :
    let reading : Privilege.Key := ⟨.dql, .table "doc.t"⟩
    let writing : Privilege.Key := ⟨.dml, .table "doc.t"⟩
    let elsewhere : Privilege := ⟨.grant, ⟨.dql, .cluster⟩, "crate"⟩
    let s : Store := .ofMetadata ⟨.ofList ["arthur", "ford"], .ofList [("ford", .ofList
      [⟨.deny, reading, "crate"⟩, ⟨.grant, writing, "zaphod"⟩, elsewhere])]⟩
    let g : Grant :=
      ⟨[.dml, .dql, .dql], ["ford", "arthur", "ford"], .tables ["t", "doc.t", "u", "t"]⟩
    (s.submit (g.toGrant "crate" "doc").request).2 = .ok 7 ∧
      ((s.submit (g.toGrant "crate" "doc").request).1.submit
        (g.toRevoke "arthur" "doc").request).2 = .ok 8 ∧
      (((s.submit (g.toGrant "crate" "doc").request).1.submit
        (g.toRevoke "arthur" "doc").request).1.metadata.privileges.inForce "ford").get? reading =
          none ∧
      (((s.submit (g.toGrant "crate" "doc").request).1.submit
        (g.toRevoke "arthur" "doc").request).1.metadata.privileges.inForce "ford").get?
          elsewhere.key = some elsewhere ∧
      (s.submit (g.toGrant "crate" "doc").request).1.SettledBy
        (g.toRevoke "arthur" "doc").request := by
  intro reading writing elsewhere s g
  have hnames : ∀ name ∈ g.users, s.metadata.users.contains name = true := by decide +kernel
  obtain ⟨hgranted, hrevoked, hkept, -, -, -, -, -, hsettled⟩ :=
    s.submit_grant_revoke g "crate" "arthur" "doc" hnames
  refine ⟨hgranted.trans ?_, hrevoked.trans ?_, ?_, ?_, hsettled⟩
  · exact congrArg _ (by decide +kernel)
  · exact congrArg _ (by decide +kernel)
  · exact (hkept "ford" (.head _) reading).trans (if_pos (by decide +kernel))
  · rw [hkept "ford" (.head _) elsewhere.key, if_neg (by decide +kernel)]
    decide +kernel

end Store

end AccessControl
