import AccessControl.Proofs.GrantEffect
import AccessControl.Proofs.History
import Mathlib.Data.List.Find

/-!
# What a change of privileges can do to a statement

A statement asks for grants at some keys, and nothing else in the records of its user matters. A
record for another key, be it for a wider scope or for access control, leaves the answer as it is,
down to the reason of a refusal. At the keys that matter, a GRANT never takes a permission away, and
a DENY or a REVOKE never gives one. So answers change in one direction only, as long as only the one
or only the other is written.

## Main definitions

* `Statement.Requires` — a statement asks for a grant at a key
* `User.afterRecords` — a user for whom records are written

## Main results

* `Demand.judge_congr` — users who meet the same demands are given the same answer
* `Statement.authorize_after_records` — what records can do to the answer to a statement
-/

namespace AccessControl

/-- The user, after records are written for the user. -/
def User.afterRecords (user : User) (ps : List Privilege) : User :=
  { user with privileges := user.privileges.applyEach ps }

namespace PrivilegeSet

variable {s : PrivilegeSet} {ps : List Privilege} {k : Privilege.Key}

theorem effectAt?_applyEach_of_not_mem (h : k ∉ ps.map (·.key)) :
    (s.applyEach ps).effectAt? k = s.effectAt? k :=
  congrArg (Option.map _) (get?_applyEach_of_not_mem h)

/-- GRANTs leave the GRANTs that are there. -/
theorem effectAt?_applyEach_of_grants (hgrants : ∀ p ∈ ps, p.effect = .grant)
    (h : s.effectAt? k = some .grant) : (s.applyEach ps).effectAt? k = some .grant := by
  rw [effectAt?_applyEach_of_uniform hgrants]
  split
  · rfl
  · exact h

/-- Without GRANTs, no GRANT is there afterwards that was not there before. -/
theorem effectAt?_of_applyEach (hgrants : ∀ p ∈ ps, p.effect ≠ .grant)
    (h : (s.applyEach ps).effectAt? k = some .grant) : s.effectAt? k = some .grant := by
  rw [effectAt?_applyEach] at h
  -- a last record at the key would have left a GRANT
  cases hlast : (ps.filter (·.key = k)).getLast? with
  | none =>
    rw [hlast] at h
    exact h
  | some last =>
    rw [hlast] at h
    have hmem : last ∈ ps := (List.mem_filter.mp (List.mem_of_getLast? hlast)).1
    exact absurd (Effect.eq_of_kept?_eq_some h) (hgrants last hmem)

end PrivilegeSet

namespace Demand

variable {user user' : User} {d : Demand} {ds : List Demand}

/-- Only a demand for a grant is met, and it is by a GRANT at the key. -/
theorem metBy_iff :
    d.MetBy user ↔ ∃ key, d = .requirement (.grant key) ∧
      user.privileges.effectAt? key = some .grant := by
  constructor
  · intro h
    match d, h with
    | .requirement (.grant key), h => exact ⟨key, rfl, metBy_grant_iff.mp h⟩
  · rintro ⟨key, rfl, h⟩
    exact metBy_grant_iff.mpr h

/-- Users of the same name who meet the same demands are given the same answer. -/
theorem judge_congr (hname : user'.name = user.name)
    (h : ∀ d ∈ ds, d.MetBy user' ↔ d.MetBy user) : judge user' ds = judge user ds := by
  have hfirst : (ds.find? fun d => ¬ d.MetBy user') = ds.find? fun d => ¬ d.MetBy user :=
    List.find?_congr fun d hd => decide_eq_decide.mpr (not_congr (h d hd))
  -- a refusal is worded with the name of the user, and with nothing else of the user
  have hrefusal : ∀ d : Demand, d.refusal user' = d.refusal user := by
    intro d
    unfold refusal
    rw [hname]
  simp only [judge, hfirst, hrefusal]

end Demand

namespace Statement

variable {s : Statement} {session session' : Session} {user user' : User}

/-- The statement asks for a grant at a key. -/
def Requires (s : Statement) (k : Privilege.Key) : Prop := .requirement (.grant k) ∈ s.demands

instance : DecidablePred s.Requires := fun _ => inferInstanceAs (Decidable (_ ∈ _))

/-- Users of the same name with GRANTs at the same of the keys that a statement asks for are given
the same answer. -/
theorem authorize_congr (huser : session.restricted? = some user)
    (huser' : session'.restricted? = some user') (hname : user'.name = user.name)
    (h : ∀ k, s.Requires k →
      (user'.privileges.effectAt? k = some .grant ↔ user.privileges.effectAt? k = some .grant)) :
    s.authorize session' = s.authorize session := by
  rw [s.authorize_eq_judge huser, s.authorize_eq_judge huser']
  refine Demand.judge_congr hname fun d hd => ?_
  rw [Demand.metBy_iff, Demand.metBy_iff]
  refine exists_congr fun key => and_congr_right ?_
  rintro rfl
  exact h key hd

/-- Whoever has a GRANT at those of the keys where another user has one may run the statement if the
other user may. -/
theorem authorize_mono (huser : session.restricted? = some user)
    (huser' : session'.restricted? = some user')
    (h : ∀ k, s.Requires k → user.privileges.effectAt? k = some .grant →
      user'.privileges.effectAt? k = some .grant)
    (hok : s.authorize session = .ok ()) : s.authorize session' = .ok () := by
  refine (authorize_eq_ok_iff huser').mpr fun d hd => ?_
  obtain ⟨key, rfl, hgrant⟩ := Demand.metBy_iff.mp ((authorize_eq_ok_iff huser).mp hok d hd)
  exact Demand.metBy_iff.mpr ⟨key, rfl, h key hd hgrant⟩

/-- Either a statement is allowed, or there is a reason for which it is refused. -/
theorem refused_iff : (∃ e, s.authorize session = .error e) ↔ s.authorize session ≠ .ok () := by
  cases s.authorize session <;> simp

/-! ### The user of a session is written to -/

variable {ps : List Privilege}

theorem authorize_afterRecords_of_not_requires (huser : session.restricted? = some user)
    (huser' : session'.restricted? = some (user.afterRecords ps))
    (h : ∀ p ∈ ps, ¬ s.Requires p.key) : s.authorize session' = s.authorize session := by
  refine authorize_congr huser huser' rfl fun k hk => ?_
  have hother : k ∉ ps.map (·.key) := by
    rintro hmem
    obtain ⟨p, hp, rfl⟩ := List.mem_map.mp hmem
    exact h p hp hk
  rw [User.afterRecords, PrivilegeSet.effectAt?_applyEach_of_not_mem hother]

theorem authorize_afterRecords_of_grants (huser : session.restricted? = some user)
    (huser' : session'.restricted? = some (user.afterRecords ps))
    (h : ∀ p ∈ ps, p.effect = .grant) (hok : s.authorize session = .ok ()) :
    s.authorize session' = .ok () :=
  authorize_mono huser huser' (fun _ _ => PrivilegeSet.effectAt?_applyEach_of_grants h) hok

theorem refused_afterRecords_of_no_grants (huser : session.restricted? = some user)
    (huser' : session'.restricted? = some (user.afterRecords ps))
    (h : ∀ p ∈ ps, p.effect ≠ .grant) (hrefused : ∃ e, s.authorize session = .error e) :
    ∃ e, s.authorize session' = .error e := by
  rw [refused_iff] at hrefused ⊢
  -- whoever may run the statement with the records may run it without them
  exact mt (authorize_mono huser' huser fun _ _ => PrivilegeSet.effectAt?_of_applyEach h) hrefused

/-- **Records act on their own keys, and in one direction.** Take any user without a role, with any
privileges, and any statement. A record for a key that the statement does not ask for leaves the
answer as it is, with the reason of a refusal. After a GRANT, what was allowed is still allowed;
after a DENY or a REVOKE, what was refused is still refused. The same goes for lists of records,
each of which is of this kind. -/
theorem authorize_after_records (s : Statement) {session : Session} {user : User}
    (huser : session.user = some user) (hregular : user.superuser = false) :
    (∀ p : Privilege,
      let session' : Session :=
        { session with user := some { user with privileges := (user.privileges.apply p).1 } }
      (¬ s.Requires p.key → s.authorize session' = s.authorize session) ∧
      (p.effect = .grant → s.authorize session = .ok () → s.authorize session' = .ok ()) ∧
      (p.effect = .deny ∨ p.effect = .revoke → (∃ e, s.authorize session = .error e) →
        ∃ e, s.authorize session' = .error e)) ∧
    ∀ ps : List Privilege,
      let session' : Session := { session with user := some (user.afterRecords ps) }
      ((∀ p ∈ ps, ¬ s.Requires p.key) → s.authorize session' = s.authorize session) ∧
      ((∀ p ∈ ps, p.effect = .grant) → s.authorize session = .ok () →
        s.authorize session' = .ok ()) ∧
      ((∀ p ∈ ps, p.effect = .deny ∨ p.effect = .revoke) →
        (∃ e, s.authorize session = .error e) → ∃ e, s.authorize session' = .error e) := by
  have hrestricted := Session.restricted?_eq_some_iff.mpr ⟨huser, hregular⟩
  have hrestricted' (ps : List Privilege) :
      Session.restricted? { session with user := some (user.afterRecords ps) } =
        some (user.afterRecords ps) :=
    Session.restricted?_eq_some_iff.mpr ⟨rfl, hregular⟩
  have hno {effect : Effect} (h : effect = .deny ∨ effect = .revoke) : effect ≠ .grant := by
    rcases h with rfl | rfl
    · exact nofun
    · exact nofun
  refine ⟨fun p => ⟨fun h => ?_, fun h => ?_, fun h => ?_⟩, fun ps => ⟨fun h => ?_, fun h => ?_,
    fun h => ?_⟩⟩
  -- one record is a list of records
  · exact authorize_afterRecords_of_not_requires hrestricted (hrestricted' [p])
      (List.forall_mem_singleton.mpr h)
  · exact authorize_afterRecords_of_grants hrestricted (hrestricted' [p])
      (List.forall_mem_singleton.mpr h)
  · exact refused_afterRecords_of_no_grants hrestricted (hrestricted' [p])
      (List.forall_mem_singleton.mpr (hno h))
  · exact authorize_afterRecords_of_not_requires hrestricted (hrestricted' ps) h
  · exact authorize_afterRecords_of_grants hrestricted (hrestricted' ps) h
  · exact refused_afterRecords_of_no_grants hrestricted (hrestricted' ps) fun p hp => hno (h p hp)

/-- Of two joined tables, one user may read one and another user both, and the rows are inserted
into a third table. A record for the schema leaves the answer to the first user as it is, and after
a REVOKE and a DENY that user is refused still. The second user is allowed still after more
GRANTs. -/
theorem authorize_after_records_join :
    let source := Relation.join
      [(.parse "a", .documentTable ⟨"doc", "a"⟩), (.parse "b", .documentTable ⟨"doc", "b"⟩)]
    let insertion := Statement.explain (.insertQuery ⟨"doc", "log"⟩ source)
    let reading (name : String) : Privilege.Key := ⟨.dql, .table name⟩
    let writing : Privilege.Key := ⟨.dml, .table "doc.log"⟩
    let ford := User.regular "ford" (.ofList
      [⟨.grant, writing, "crate"⟩, ⟨.grant, reading "doc.a", "crate"⟩])
    let trillian := User.regular "trillian" (.ofList
      [⟨.grant, writing, "crate"⟩, ⟨.grant, reading "doc.a", "crate"⟩,
        ⟨.grant, reading "doc.b", "crate"⟩])
    let schemaWide : Privilege := ⟨.grant, ⟨.dql, .schema "doc"⟩, "crate"⟩
    (insertion.authorize
        ⟨some { ford with privileges := (ford.privileges.apply schemaWide).1 }, "doc"⟩ =
      .error (.permissionDenied "ford" (some .dql))) ∧
    (∃ e, insertion.authorize ⟨some (ford.afterRecords
        [⟨.revoke, reading "doc.a", "crate"⟩, ⟨.deny, writing, "zaphod"⟩]), "doc"⟩ = .error e) ∧
    insertion.authorize ⟨some (trillian.afterRecords
        [⟨.grant, writing, "zaphod"⟩, schemaWide]), "doc"⟩ = .ok () := by
  intro source insertion reading writing ford trillian schemaWide
  have hford : insertion.authorize ⟨some ford, "doc"⟩ =
      .error (.permissionDenied "ford" (some .dql)) := by decide +kernel
  have htrillian : insertion.authorize ⟨some trillian, "doc"⟩ = .ok () := by decide +kernel
  obtain ⟨hone, hmany⟩ := @authorize_after_records insertion ⟨some ford, "doc"⟩ ford rfl rfl
  obtain ⟨-, hmany'⟩ := @authorize_after_records insertion ⟨some trillian, "doc"⟩ trillian rfl rfl
  exact ⟨((hone schemaWide).1 (by decide +kernel)).trans hford,
    (hmany _).2.2 (by decide +kernel) ⟨_, hford⟩,
    (hmany' _).2.1 (by decide +kernel) htrillian⟩

end Statement

end AccessControl
