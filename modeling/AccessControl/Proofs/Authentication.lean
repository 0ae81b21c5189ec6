import AccessControl.Authentication
import AccessControl.Proofs.Authorization
import AccessControl.Proofs.Directory

/-!
# Who a session is opened for

While authentication is on, a session is opened for the user whose name is the common name of the
client's certificate, found in the directory of that moment. This file follows such a session to
the statements that are for superusers only: no content of the metadata makes anybody a superuser
whose certificate does not say so, and no privilege stands in for being one.

## Main definitions

* `Statement.core` — a statement without the EXPLAINs around it
* `Statement.IsAdministrative` — the statements that are for superusers only

## Main results

* `Config.openSession_eq_ok` — a session that is opened is that of the certificate's user
* `Config.openSession_never_escalates` — only the superuser's certificate opens a superuser's
  session, and no other session runs an administrative statement
-/

namespace AccessControl

namespace Statement

/-- The statement without the EXPLAINs around it. -/
def core : Statement → Statement
  | .explain inner => inner.core
  | s => s

/-- Statements that change users, privileges or the whole cluster. -/
inductive IsAdministrative : Statement → Prop where
  | createUser (name : String) : IsAdministrative (.createUser name)
  | dropUser (name : String) (ifExists : Bool) : IsAdministrative (.dropUser name ifExists)
  | changePrivileges (change : PrivilegeChange) : IsAdministrative (.changePrivileges change)
  | optimizeTable (tables : List TableName) : IsAdministrative (.optimizeTable tables)
  | reset : IsAdministrative .reset
  | kill (job : Option String) : IsAdministrative (.kill job)
  | setGlobal : IsAdministrative (.set .global)

theorem demands_core (s : Statement) : s.core.demands = s.demands := by
  induction s with
  | explain inner ih => exact ih
  | _ => rfl

theorem IsAdministrative.demands_eq {s : Statement} (h : s.IsAdministrative) :
    s.demands = [.requirement .superuser] := by
  cases h <;> rfl

variable {s : Statement} {session : Session} {user : User}

/-- A user without a role may not run an administrative statement, explained or not. -/
theorem authorize_of_isAdministrative (hrestricted : session.restricted? = some user)
    (h : s.core.IsAdministrative) : s.authorize session = .error (.unauthorized user.name) := by
  rw [s.authorize_eq_judge hrestricted, ← s.demands_core, h.demands_eq, Demand.judge_singleton]
  exact if_neg id

theorem authorize_of_unsupported {kind : String} (hrestricted : session.restricted? = some user)
    (h : s.core = .unsupported kind) :
    s.authorize session = .error (.unsupportedStatement kind) := by
  rw [s.authorize_eq_judge hrestricted, ← s.demands_core, h, demands, Demand.judge_singleton]
  exact if_neg id

end Statement

namespace Connection

/-- A common name is that of the certificate that a client presents on an encrypted connection. -/
theorem commonName?_eq_some_iff {c : Connection} {commonName : String} :
    c.commonName? = some commonName ↔
      c.tls = true ∧ ∃ der, c.certificate = some (.x509 der) ∧
        Certificate.commonNameOf? der = some commonName := by
  unfold commonName?
  cases c.tls with
  | false => simp
  | true =>
    match c.certificate with
    | none | some (.rawKey _) => simp
    | some (.x509 der) => simp

/-- Whoever authenticates is found under the common name. -/
theorem authenticate_eq_ok {α : Type} {c : Connection} {lookup : String → Option α}
    {requested : String} {found : α} (h : c.authenticate lookup requested = .ok found) :
    ∃ commonName, c.commonName? = some commonName ∧ lookup commonName = some found := by
  unfold authenticate at h
  split at h
  · cases h
  · next commonName hname =>
    -- whichever name is asked for, given or left out, it has to be the common name
    dsimp only at h
    generalize (if requested.isEmpty && c.protocol.allowsEmptyUser then commonName
      else requested) = user at h
    by_cases huser : user = commonName
    · subst huser
      rw [if_neg (by simp)] at h
      refine ⟨user, hname, ?_⟩
      split at h
      · next hfound => rwa [Except.ok.inj h] at hfound
      · cases h
    · rw [if_pos huser] at h
      cases h

end Connection

namespace Config

/-- A session that is opened while authentication is on is that of the user found under the common
name of the client's certificate. -/
theorem openSession_eq_ok {config : Config} {lookup : String → Option User} {requested : String}
    {connection : Connection} {session : Session} (hauth : config.authEnabled = true)
    (h : config.openSession lookup requested connection = .ok session) :
    ∃ user der commonName, session = ⟨some user, config.schema⟩ ∧
      connection.certificate = some (.x509 der) ∧
      Certificate.commonNameOf? der = some commonName ∧ lookup commonName = some user := by
  rw [openSession, if_pos hauth] at h
  split at h
  · next user huser =>
    obtain ⟨commonName, hname, hfound⟩ := Connection.authenticate_eq_ok huser
    obtain ⟨-, der, hcertificate, hcommon⟩ := Connection.commonName?_eq_some_iff.mp hname
    exact ⟨user, der, commonName, (Except.ok.inj h).symm, hcertificate, hcommon, hfound⟩
  · cases h

/-- **No escalation.** Whatever the two sections of the metadata hold, a session that is opened
while authentication is on has a user, who is a superuser exactly if the certificate's common name
is the superuser's. Every other session is refused all administrative statements and all
statements without a policy, under any number of EXPLAINs. -/
theorem openSession_never_escalates {users : Option UserSection}
    {privileges : Option PrivilegeSection} {config : Config} {requested : String}
    {connection : Connection} {session : Session} (hauth : config.authEnabled = true)
    (h : config.openSession (Directory.rebuild users privileges).get? requested connection =
      .ok session) :
    ∃ user der commonName, session.user = some user ∧
      connection.certificate = some (.x509 der) ∧
      Certificate.commonNameOf? der = some commonName ∧
      (user.superuser = true ↔ commonName = User.superuserName) ∧
      (commonName ≠ User.superuserName → ∀ s : Statement,
        (s.core.IsAdministrative → s.authorize session = .error (.unauthorized commonName)) ∧
        ∀ kind, s.core = .unsupported kind →
          s.authorize session = .error (.unsupportedStatement kind)) := by
  obtain ⟨user, der, commonName, rfl, hcertificate, hcommon, hfound⟩ := openSession_eq_ok hauth h
  obtain ⟨rfl, hsuper⟩ := Directory.get?_rebuild_eq_some hfound
  refine ⟨user, der, user.name, rfl, hcertificate, hcommon, hsuper, fun hname s => ?_⟩
  have hregular : user.superuser = false := by simpa using mt hsuper.mp hname
  have hrestricted : Session.restricted? ⟨some user, config.schema⟩ = some user :=
    Session.restricted?_eq_some_iff.mpr ⟨rfl, hregular⟩
  exact ⟨Statement.authorize_of_isAdministrative hrestricted,
    fun _ => Statement.authorize_of_unsupported hrestricted⟩

/-- A certificate of the common name `ford`, with nothing in it that may be left out. -/
def fordCertificate : List UInt8 :=
  [0x30, 0x55, 0x30, 0x49, 0x02, 0x01, 0x01, 0x30, 0x05, 0x06, 0x03, 0x2a, 0x03, 0x04, 0x30, 0x00,
    0x30, 0x1e, 0x17, 0x0d, 0x32, 0x34, 0x30, 0x31, 0x30, 0x31, 0x30, 0x30, 0x30, 0x30, 0x30, 0x30,
    0x5a, 0x17, 0x0d, 0x33, 0x34, 0x30, 0x31, 0x30, 0x31, 0x30, 0x30, 0x30, 0x30, 0x30, 0x30, 0x5a,
    0x30, 0x0f, 0x31, 0x0d, 0x30, 0x0b, 0x06, 0x03, 0x55, 0x04, 0x03, 0x0c, 0x04, 0x66, 0x6f, 0x72,
    0x64, 0x30, 0x0a, 0x30, 0x05, 0x06, 0x03, 0x2a, 0x03, 0x04, 0x03, 0x01, 0x00, 0x30, 0x05, 0x06,
    0x03, 0x2a, 0x03, 0x04, 0x03, 0x01, 0x00]

/-- A stored user of the superuser's name and a record for access control help nobody: the session
is that of a user who may not create users, however often the statement is explained. -/
theorem openSession_ford_never_escalates :
    let privileges : PrivilegeSet := .ofList [⟨.grant, ⟨.dcl, .cluster⟩, "crate"⟩]
    let users : UserSection := .ofList ["crate", "ford"]
    let kept : PrivilegeSection := .ofList [("crate", privileges), ("ford", privileges)]
    let connection : Connection := ⟨.http, true, some (.x509 fordCertificate)⟩
    let session : Session := ⟨some (.regular "ford" privileges), "doc"⟩
    initial.openSession (Directory.rebuild users kept).get? "" connection = .ok session ∧
      (Statement.explain (.explain (.createUser "x"))).authorize session =
        .error (.unauthorized "ford") := by
  intro privileges users kept connection session
  have hford : Certificate.commonNameOf? fordCertificate = some "ford" := by decide +kernel
  have hfound : (Directory.rebuild users kept).get? "ford" =
      some (.regular "ford" privileges) := by decide +kernel
  have hopen : initial.openSession (Directory.rebuild users kept).get? "" connection =
      .ok session := by
    have hname : connection.commonName? = some "ford" :=
      Connection.commonName?_eq_some_iff.mpr ⟨rfl, fordCertificate, rfl, hford⟩
    simp [openSession, initial, Connection.authenticate, hname, hfound,
      show connection.protocol = .http from rfl, Protocol.allowsEmptyUser, session, defaultSchema]
  obtain ⟨user, der, commonName, -, hcertificate, hcommon, -, hrefused⟩ :=
    openSession_never_escalates rfl hopen
  obtain rfl : fordCertificate = der := by simpa [connection] using hcertificate
  obtain rfl : "ford" = commonName := Option.some.inj (hford.symm.trans hcommon)
  exact ⟨hopen, (hrefused (by decide) _).1 (.createUser "x")⟩

end Config

end AccessControl
