import AccessControl.Proofs.Authentication

/-!
# Exactly whom a certificate lets in

A client is let in as the user whom its certificate names, if it asks for that user or may leave the
name out and does. This file states the rule by the connection alone, without the order in which
it is checked, and shows that nobody else is let in and whom a refusal names.

The user who is found is the directory's own: the look-up may be that of a snapshot, whose entries
tell apart users that are merely equal.

## Main definitions

* `Connection.Presents` — a client presents a certificate of a common name
* `Connection.LeavesNameOut` — the certificate is to say who the client is
* `Connection.Blames` — whom a refusal names

## Main results

* `Connection.authenticate_eq_ok_iff` — who is let in
* `Connection.authenticate_eq_ok_or_refused` — everybody else is refused, under which name
* `Connection.authenticate_congr` — of a certificate nothing counts but its common name
* `Connection.authenticate_exact` — all of this for the users of a directory
-/

namespace AccessControl

namespace Connection

/-- The connection is encrypted, and the client presents a certificate with this common name. A bare
public key has none. -/
def Presents (c : Connection) (commonName : String) : Prop :=
  c.tls = true ∧ ∃ der, c.certificate = some (.x509 der) ∧
    Certificate.commonNameOf? der = some commonName

/-- The client asks for nobody, over the protocol in which the certificate tells who it is then. -/
def LeavesNameOut (c : Connection) (requested : String) : Prop :=
  requested = "" ∧ c.protocol = .http

/-- Whom a refusal names: the user of the certificate if the client left its name out, and the user
it asked for otherwise. -/
inductive Blames (c : Connection) (requested : String) : String → Prop where
  | certified {commonName : String} (hpresents : c.Presents commonName)
      (hout : c.LeavesNameOut requested) : Blames c requested commonName
  | requested (h : ∀ commonName, c.Presents commonName → ¬ c.LeavesNameOut requested) :
      Blames c requested requested

variable {α : Type} {c c' : Connection} {lookup : String → Option α} {requested commonName : String}
  {found : α}

theorem presents_iff : c.Presents commonName ↔ c.commonName? = some commonName :=
  commonName?_eq_some_iff.symm

theorem Presents.unique {other : String} (h : c.Presents commonName) (h' : c.Presents other) :
    commonName = other :=
  Option.some.inj ((presents_iff.mp h).symm.trans (presents_iff.mp h'))

theorem leavesNameOut_iff :
    c.LeavesNameOut requested ↔ (requested.isEmpty && c.protocol.allowsEmptyUser) = true := by
  simp [LeavesNameOut, Protocol.allowsEmptyUser, String.isEmpty_iff]

/-! ### The three ways to be answered -/

/-- Without a common name nobody is let in. -/
theorem authenticate_of_not_presents (h : ∀ commonName, ¬ c.Presents commonName) :
    c.authenticate lookup requested = .error (.authenticationFailed requested) := by
  have hnone : c.commonName? = none :=
    Option.eq_none_iff_forall_ne_some.mpr fun commonName hname => h commonName (presents_iff.mpr hname)
  rw [authenticate, hnone]

/-- A client that asks for its certificate's user, or leaves the name out, is who is found. -/
theorem authenticate_of_named (hpresents : c.Presents commonName)
    (hnamed : requested = commonName ∨ c.LeavesNameOut requested) :
    c.authenticate lookup requested =
      (lookup commonName).elim (.error (.authenticationFailed commonName)) .ok := by
  have huser : (if requested.isEmpty && c.protocol.allowsEmptyUser then commonName
      else requested) = commonName := by
    rcases hnamed with rfl | hout
    · exact ite_self _
    · exact if_pos (leavesNameOut_iff.mp hout)
  rw [authenticate, presents_iff.mp hpresents]
  simp only [huser]
  rw [if_neg (not_not_intro rfl)]
  cases lookup commonName <;> rfl

/-- A client that asks for somebody else is refused, whoever is found. -/
theorem authenticate_of_other (hpresents : c.Presents commonName) (hne : requested ≠ commonName)
    (hout : ¬ c.LeavesNameOut requested) :
    c.authenticate lookup requested = .error (.authenticationFailed requested) := by
  rw [authenticate, presents_iff.mp hpresents]
  simp only [if_neg (mt leavesNameOut_iff.mpr hout)]
  exact if_pos hne

/-! ### Who is let in -/

theorem authenticate_eq_ok_iff :
    c.authenticate lookup requested = .ok found ↔
      ∃ commonName, c.Presents commonName ∧
        (requested = commonName ∨ c.LeavesNameOut requested) ∧ lookup commonName = some found := by
  constructor
  · intro h
    obtain ⟨commonName, hname, hfound⟩ := authenticate_eq_ok h
    have hpresents := presents_iff.mpr hname
    by_cases hnamed : requested = commonName ∨ c.LeavesNameOut requested
    · exact ⟨commonName, hpresents, hnamed, hfound⟩
    · -- whoever asks for somebody else is not let in
      obtain ⟨hne, hout⟩ := not_or.mp hnamed
      cases h.symm.trans (authenticate_of_other hpresents hne hout)
  · rintro ⟨commonName, hpresents, hnamed, hfound⟩
    rw [authenticate_of_named hpresents hnamed, hfound]
    rfl

/-- Whoever is not let in is refused, and the refusal names one user. -/
theorem authenticate_eq_ok_or_refused (c : Connection) (lookup : String → Option α)
    (requested : String) :
    (∃ found, c.authenticate lookup requested = .ok found) ∨
      ∃ user, c.Blames requested user ∧
        c.authenticate lookup requested = .error (.authenticationFailed user) := by
  by_cases hpresents : ∃ commonName, c.Presents commonName
  · obtain ⟨commonName, hpresents⟩ := hpresents
    by_cases hnamed : requested = commonName ∨ c.LeavesNameOut requested
    · have hanswer : c.authenticate lookup requested = _ := authenticate_of_named hpresents hnamed
      cases hfound : lookup commonName with
      | some found => exact .inl ⟨found, by rw [hanswer, hfound]; rfl⟩
      | none =>
        refine .inr ⟨commonName, ?_, by rw [hanswer, hfound]; rfl⟩
        by_cases hout : c.LeavesNameOut requested
        · exact .certified hpresents hout
        · obtain rfl := hnamed.resolve_right hout
          exact .requested fun _ _ => hout
    · obtain ⟨hne, hout⟩ := not_or.mp hnamed
      exact .inr ⟨requested, .requested fun _ _ => hout, authenticate_of_other hpresents hne hout⟩
  · have habsent := not_exists.mp hpresents
    exact .inr ⟨requested, .requested fun _ h => absurd h (habsent _),
      authenticate_of_not_presents habsent⟩

/-- Of a certificate nothing counts but its common name. -/
theorem authenticate_congr (hprotocol : c.protocol = c'.protocol)
    (hpresents : ∀ commonName, c.Presents commonName ↔ c'.Presents commonName) :
    c.authenticate lookup requested = c'.authenticate lookup requested := by
  have hname : c.commonName? = c'.commonName? :=
    Option.ext fun commonName =>
      presents_iff.symm.trans ((hpresents commonName).trans presents_iff)
  rw [authenticate, authenticate, hname, hprotocol]

/-! ### The users of a directory -/

/-- **A certificate lets in its own user, and nobody else.** Over a directory rebuilt from any two
sections, in whichever snapshot it is published, a client is let in exactly if the connection is
encrypted and its certificate has a common name that it asks for, or leaves out over HTTP, and that
is in the directory. It is let in as the directory's own entry for the common name, which has that
name. Everybody else is refused, under the common name if the name was left out, and under the name
that was asked for otherwise. So of the certificate nothing counts but its common name, and with it
no other name is ever let in. -/
theorem authenticate_exact {s : Snapshot} {users : Option UserSection}
    {privileges : Option PrivilegeSection} (hs : s.directory = .rebuild users privileges)
    (c : Connection) (requested : String) :
    (∀ entry, c.authenticate s.get? requested = .ok entry ↔
      ∃ commonName, c.Presents commonName ∧
        (requested = commonName ∨ c.LeavesNameOut requested) ∧ s.get? commonName = some entry) ∧
    (∀ entry commonName, c.authenticate s.get? requested = .ok entry → c.Presents commonName →
      entry.user.name = commonName) ∧
    ((∃ entry, c.authenticate s.get? requested = .ok entry) ∨
      ∃ user, c.Blames requested user ∧
        c.authenticate s.get? requested = .error (.authenticationFailed user)) ∧
    (∀ c' : Connection, c.protocol = c'.protocol →
      (∀ commonName, c.Presents commonName ↔ c'.Presents commonName) →
        c.authenticate s.get? requested = c'.authenticate s.get? requested) ∧
    ∀ commonName, c.Presents commonName → requested ≠ commonName → requested ≠ "" →
      c.authenticate s.get? requested = .error (.authenticationFailed requested) := by
  refine ⟨fun entry => authenticate_eq_ok_iff, ?name, authenticate_eq_ok_or_refused c _ requested,
    fun c' => authenticate_congr, ?other⟩
  case name =>
    intro entry commonName hok hpresents
    obtain ⟨found, hfound, -, hentry⟩ := authenticate_eq_ok_iff.mp hok
    obtain rfl := hfound.unique hpresents
    have huser : (Directory.rebuild users privileges).get? found = some entry.user := by
      rw [← hs, ← Snapshot.find?_eq, Snapshot.find?, hentry]
      rfl
    exact (Directory.get?_rebuild_eq_some huser).1
  case other =>
    intro commonName hpresents hne hempty
    exact authenticate_of_other hpresents hne fun hout => hempty hout.1

/-- A client that leaves its name out is let in as the very user who was there before the directory
was last published; with the same certificate nobody gets in as a user who has come since. -/
theorem authenticate_exact_ford :
    let users : UserSection := .ofList ["ford"]
    let later : UserSection := .ofList ["arthur", "ford"]
    let s := (Snapshot.first (.rebuild users none)).advance (.rebuild later none)
    let c : Connection := ⟨.http, true, some (.x509 Config.fordCertificate)⟩
    s.directory = .rebuild later none ∧
      c.authenticate s.get? "" = .ok ⟨0, .regular "ford" .empty⟩ ∧
      s.get? "arthur" = some ⟨1, .regular "arthur" .empty⟩ ∧
      c.authenticate s.get? "arthur" = .error (.authenticationFailed "arthur") := by
  intro users later s c
  have hs : s.directory = .rebuild later none := Snapshot.directory_advance ..
  have hpresents : c.Presents "ford" := ⟨rfl, Config.fordCertificate, rfl, by decide +kernel⟩
  have hford : s.get? "ford" = some ⟨0, .regular "ford" .empty⟩ := by decide +kernel
  have harthur : s.get? "arthur" = some ⟨1, .regular "arthur" .empty⟩ := by decide +kernel
  obtain ⟨hok, -⟩ := authenticate_exact hs c ""
  obtain ⟨-, -, -, -, hother⟩ := authenticate_exact hs c "arthur"
  exact ⟨hs, (hok _).mpr ⟨"ford", hpresents, .inr ⟨rfl, rfl⟩, hford⟩, harthur,
    hother "ford" hpresents (by decide) (by decide)⟩

end Connection

end AccessControl
