import AccessControl.Manager.Node
import AccessControl.Proofs.Vetting

/-!
# The superuser cannot be touched

A call to the manager is checked at once, by the snapshot of that moment, and is submitted to the
store at some later moment. In between, other calls and the listener take turns in any order, so the
snapshot of the check may be of a version long gone. The superuser is safe all the same: whatever a
snapshot is of, it rules out everything about the superuser but what the store refuses anyway.

## Main definitions

* `Service`, `Service.Turn`, `Service.take` — a node with the calls under way, and who is next
* `Service.run` — the service after a list of turns
* `Service.Guarded` — the invariant: nothing about the superuser has changed, or is about to

## Main results

* `Service.Guarded.take` — every turn preserves the invariant
* `Service.superuser_untouched` — every call about the superuser fails, what the store has under the
  superuser's name never changes, and every snapshot has the superuser and no other one
-/

namespace AccessControl

/-- A node with the calls that are under way. -/
structure Service where
  node : Node
  /-- The requests that passed the manager's check, and are yet to be submitted. -/
  pending : List WriteRequest

/-- A step of the listener does not touch the store, and at most has the manager apply a value. -/
theorem Node.listen_of_manager {n : Node} {m : Manager} (hm : n.manager = some m) :
    n.listen.store = n.store ∧ ∃ m', n.listen.manager = some m' ∧ (m' = m ∨ ∃ c, m' = m.apply c) := by
  obtain ⟨store, owned, manager, listener⟩ := n
  obtain rfl : manager = some m := hm
  cases listener with
  | none => exact ⟨rfl, m, rfl, .inl rfl⟩
  | some l =>
    cases hphase : l.phase with
    | reading | finished => exact ⟨rfl, m, by simp [listen, Listener.step, hphase], .inl rfl⟩
    | applying c =>
      exact ⟨rfl, m.apply c, by simp [listen, Listener.step, hphase], .inr ⟨c, rfl⟩⟩
    | waiting =>
      -- whether it wakes up, waits on or ends, nothing is applied in this step
      refine ⟨rfl, m, ?_, .inl rfl⟩
      simp only [listen, Listener.step, hphase]
      repeat' split
      all_goals rfl

namespace Service

/-- Who is next. -/
inductive Turn where
  /-- The manager is called, and checks the request by its current snapshot. -/
  | call (r : WriteRequest)
  /-- One of the requests that passed the check is submitted. -/
  | commit (i : Nat)
  /-- The listener takes a step. -/
  | listen

/-- The service after a turn, and the request that is answered in it, with the answer. -/
def take (v : Service) : Turn → Service × Option (WriteRequest × Except AccessError Nat)
  | .call r =>
    match v.node.manager with
    | none => (v, none)
    | some m =>
      match m.vet r with
      | .error e => (v, some (r, .error e))
      | .ok () => ({ v with pending := v.pending ++ [r] }, none)
  | .commit i =>
    match v.pending[i]? with
    | none => (v, none)
    | some r =>
      let (node, answer) := v.node.submit r
      (⟨node, v.pending.eraseIdx i⟩, some (r, answer))
  | .listen => ({ v with node := v.node.listen }, none)

/-- A service that starts on a store, with or without a listener. -/
def start (s : Store) (listening : Bool) : Service := ⟨.start s listening, []⟩

/-- The service after turns that are taken one after the other. -/
def run (v : Service) (turns : List Turn) : Service := turns.foldl (fun v t => (v.take t).1) v

variable {v : Service} {m : Manager}

/-- A call with nobody in between is a request through the manager. -/
theorem take_call_take_commit {n : Node} {r : WriteRequest} (hm : n.manager = some m)
    (hvet : m.vet r = .ok ()) :
    (take ⟨n, []⟩ (.call r)).1.take (.commit 0) =
      (⟨(n.request m r).1, []⟩, some (r, (n.request m r).2)) := by
  simp [take, hm, hvet, Node.request]

theorem take_commit {i : Nat} {r : WriteRequest} (hr : v.pending[i]? = some r) :
    v.take (.commit i) =
      (⟨(v.node.submit r).1, v.pending.eraseIdx i⟩, some (r, (v.node.submit r).2)) := by
  simp only [take, hr]

/-- Everything that can happen in a turn: a call is refused or is under way, a request is submitted,
the listener takes a step, or there was nothing to submit. -/
theorem take_cases (hm : v.node.manager = some m) (t : Turn) :
    (∃ r e, m.vet r = .error e ∧ v.take t = (v, some (r, .error e))) ∨
    (∃ r, m.vet r = .ok () ∧ v.take t = ({ v with pending := v.pending ++ [r] }, none)) ∨
    (∃ i, ∃ r ∈ v.pending, v.take t =
      (⟨(v.node.submit r).1, v.pending.eraseIdx i⟩, some (r, (v.node.submit r).2))) ∨
    v.take t = ({ v with node := v.node.listen }, none) ∨
    v.take t = (v, none) := by
  cases t with
  | call r =>
    cases hvet : m.vet r with
    | error e => exact .inl ⟨r, e, hvet, by simp [take, hm, hvet]⟩
    | ok => exact .inr (.inl ⟨r, hvet, by simp [take, hm, hvet]⟩)
  | commit i =>
    cases hr : v.pending[i]? with
    | none => exact .inr (.inr (.inr (.inr (by simp [take, hr]))))
    | some r =>
      exact .inr (.inr (.inl ⟨i, r, List.mem_of_getElem? hr, take_commit hr⟩))
  | listen => exact .inr (.inr (.inr (.inl rfl)))

/-! ### The invariant -/

/-- Nothing about the superuser has changed since the store was `s`, and nothing is about to: the
snapshot rules it out, and what is under way about the superuser is bound to fail. -/
structure Guarded (s : Store) (v : Service) : Prop where
  contains : v.node.store.metadata.users.contains User.superuserName =
    s.metadata.users.contains User.superuserName
  privileges : v.node.store.metadata.privileges.get? User.superuserName =
    s.metadata.privileges.get? User.superuserName
  published : ∃ m, v.node.manager = some m ∧ m.snapshot.directory.HasOneSuperuser
  pending : ∀ r ∈ v.pending, User.superuserName ∈ r.names → r = .createUser User.superuserName

variable {s : Store}

theorem guarded_start (s : Store) (listening : Bool) : (start s listening).Guarded s := by
  have hone : (Manager.ofStore s).snapshot.directory.HasOneSuperuser := by
    rw [Manager.ofStore, Snapshot.directory_first]
    exact Directory.hasOneSuperuser_rebuild _ _
  cases listening with
  | true | false => exact ⟨rfl, rfl, ⟨_, rfl, hone⟩, nofun⟩

/-- A request that is submitted is not about the superuser, or is refused. -/
theorem Guarded.submit (h : v.Guarded s) {r : WriteRequest} (hr : r ∈ v.pending) (i : Nat) :
    Guarded s ⟨(v.node.submit r).1, v.pending.eraseIdx i⟩ := by
  have hpending : ∀ r' ∈ v.pending.eraseIdx i, User.superuserName ∈ r'.names →
      r' = .createUser User.superuserName :=
    fun r' hr' => h.pending r' (List.mem_of_mem_eraseIdx hr')
  by_cases hname : User.superuserName ∈ r.names
  · -- the store refuses to create the superuser, and stays as it is
    obtain rfl := h.pending r hr hname
    exact { h with pending := hpending }
  · exact {
      contains := (Store.contains_submit hname).trans h.contains
      privileges := (Store.get?_submit hname).trans h.privileges
      published := h.published
      pending := hpending }

theorem Guarded.listen (h : v.Guarded s) : Guarded s { v with node := v.node.listen } := by
  obtain ⟨m, hm, hone⟩ := h.published
  obtain ⟨hstore, m', hm', hsnapshot⟩ := Node.listen_of_manager hm
  -- a snapshot that the listener publishes is computed afresh, whatever it took from the channel
  have hone' : m'.snapshot.directory.HasOneSuperuser := by
    rcases hsnapshot with rfl | ⟨c, rfl⟩
    · exact hone
    · rw [Manager.apply, Snapshot.directory_advance]
      exact Directory.hasOneSuperuser_rebuild _ _
  refine ⟨?_, ?_, ⟨m', hm', hone'⟩, h.pending⟩
  · dsimp only
    rw [hstore]
    exact h.contains
  · dsimp only
    rw [hstore]
    exact h.privileges

/-- **Step lemma.** Every turn preserves the invariant. -/
theorem Guarded.take (h : v.Guarded s) (t : Turn) : (v.take t).1.Guarded s := by
  obtain ⟨m, hm, hone⟩ := h.published
  rcases take_cases hm t with ⟨r, e, -, ht⟩ | ⟨r, hvet, ht⟩ | ⟨i, r, hr, ht⟩ | ht | ht
  · rw [ht]
    exact h
  · -- what passed the check is under way now
    rw [ht]
    refine { h with pending := ?_ }
    intro r' hr' hname
    rcases List.mem_append.mp hr' with hbefore | hnew
    · exact h.pending r' hbefore hname
    · obtain rfl := List.mem_singleton.mp hnew
      rcases Manager.vet_superuser hone hname with hcreate | ⟨e, hrefused⟩
      · exact hcreate
      · cases hvet.symm.trans hrefused
  · rw [ht]
    exact h.submit hr i
  · rw [ht]
    exact h.listen
  · rw [ht]
    exact h

/-- **Run lemma.** The invariant holds throughout every run. -/
theorem guarded_run (s : Store) (listening : Bool) (turns : List Turn) :
    ((start s listening).run turns).Guarded s := by
  -- by induction on the turns, which go on from any service that is guarded
  suffices hrun : ∀ v : Service, v.Guarded s → (v.run turns).Guarded s from
    hrun _ (guarded_start s listening)
  induction turns with
  | nil => exact fun v h => h
  | cons t turns ih => exact fun v h => ih _ (h.take t)

/-! ### Answers -/

/-- A call about the superuser is refused at once, or is to create it and gets under way. -/
theorem Guarded.call_superuser (h : v.Guarded s) {r : WriteRequest}
    (hname : User.superuserName ∈ r.names) :
    (∃ e, v.take (.call r) = (v, some (r, .error e))) ∨
      r = .createUser User.superuserName ∧
        v.take (.call r) = ({ v with pending := v.pending ++ [r] }, none) := by
  obtain ⟨m, hm, hone⟩ := h.published
  rcases Manager.vet_superuser hone hname with rfl | ⟨e, hrefused⟩
  · exact .inr ⟨rfl, by simp only [Service.take, hm, Manager.vet]⟩
  · exact .inl ⟨e, by simp only [Service.take, hm, hrefused]⟩

/-- What is submitted about the superuser is refused, and the node stays as it is. -/
theorem Guarded.commit_superuser (h : v.Guarded s) {i : Nat} {r : WriteRequest}
    (hr : v.pending[i]? = some r) (hname : User.superuserName ∈ r.names) :
    ∃ e, v.take (.commit i) = ({ v with pending := v.pending.eraseIdx i }, some (r, .error e)) := by
  -- it is to create the superuser, and the name is reserved
  obtain rfl := h.pending r (List.mem_of_getElem? hr) hname
  exact ⟨_, take_commit hr⟩

/-- Privileges are written only for users that the store has at this moment. -/
theorem contains_of_answer_applyPrivileges (hm : v.node.manager = some m) {t : Turn}
    {names : List String} {ps : List Privilege} {affected : Nat}
    (hanswer : (v.take t).2 = some (.applyPrivileges names ps, .ok affected)) {name : String}
    (hchanged : (v.take t).1.node.store.metadata.privileges.get? name ≠
      v.node.store.metadata.privileges.get? name) :
    name ∈ names ∧ v.node.store.metadata.users.contains name = true := by
  rcases take_cases hm t with ⟨r, e, -, ht⟩ | ⟨r, -, ht⟩ | ⟨i, r, -, ht⟩ | ht | ht
  all_goals
    rw [ht] at hanswer hchanged
    simp only [Option.some.injEq, Prod.mk.injEq, reduceCtorEq, and_false] at hanswer
  -- rows are affected in no other turn than the one in which the request is submitted
  · obtain ⟨rfl, -⟩ := hanswer
    constructor
    · exact Decidable.byContradiction fun hname => hchanged (Store.get?_submit hname)
    · cases hcontains : v.node.store.metadata.users.contains name with
      | true => rfl
      | false => exact absurd (Store.get?_submit_of_absent hcontains) hchanged

/-- **The superuser cannot be touched.** Calls to the manager of any store, each submitted at any
moment after its check, and the listener take turns in any order. At every moment: a call about the
superuser is refused at once, unless it is to create it; what is submitted about the superuser is
refused, too, and neither changes anything but the list of calls under way; whether the store has a
user of the superuser's name, and what privileges it keeps for it, is as in the beginning; the
snapshot has the superuser, without records, and no other superuser; and whatever privileges are
changed are those of users whom the store has at that moment. -/
theorem superuser_untouched (s : Store) (listening : Bool) (turns : List Turn) :
    let v := (start s listening).run turns
    (∀ r : WriteRequest, User.superuserName ∈ r.names →
      (∃ e, v.take (.call r) = (v, some (r, .error e))) ∨
        r = .createUser User.superuserName ∧
          v.take (.call r) = ({ v with pending := v.pending ++ [r] }, none)) ∧
    (∀ (i : Nat) (r : WriteRequest), v.pending[i]? = some r → User.superuserName ∈ r.names →
      ∃ e, v.take (.commit i) =
        ({ v with pending := v.pending.eraseIdx i }, some (r, .error e))) ∧
    (v.node.store.metadata.users.contains User.superuserName =
        s.metadata.users.contains User.superuserName ∧
      v.node.store.metadata.privileges.get? User.superuserName =
        s.metadata.privileges.get? User.superuserName) ∧
    (∃ m, v.node.manager = some m ∧ m.snapshot.find? User.superuserName = some .builtin ∧
      ∀ name user, m.snapshot.find? name = some user → user.superuser = true →
        name = User.superuserName) ∧
    ∀ t names ps affected, (v.take t).2 = some (.applyPrivileges names ps, .ok affected) →
      ∀ name, (v.take t).1.node.store.metadata.privileges.get? name ≠
          v.node.store.metadata.privileges.get? name →
        name ∈ names ∧ v.node.store.metadata.users.contains name = true := by
  intro v
  have h : v.Guarded s := guarded_run s listening turns
  obtain ⟨m, hm, hone⟩ := h.published
  refine ⟨fun r => h.call_superuser, fun i r => h.commit_superuser,
    ⟨h.contains, h.privileges⟩, ⟨m, hm, ?_, ?_⟩, ?_⟩
  · rw [Snapshot.find?_eq, hone.builtin]
  · intro name user huser hsuperuser
    rw [Snapshot.find?_eq] at huser
    exact hone.only huser hsuperuser
  · intro t names ps affected hanswer name
    exact contains_of_answer_applyPrivileges hm hanswer

/-- The store has a user of the superuser's name, with privileges, while records are about to be
written for a user, another one is dropped, and a call to create the superuser is under way. -/
theorem superuser_untouched_amid_calls :
    let granted : Privilege := ⟨.grant, ⟨.dql, .cluster⟩, "crate"⟩
    let s := Store.ofMetadata
      ⟨.ofList ["arthur", "crate", "ford"], .ofList [("crate", .ofList [granted])]⟩
    let turns : List Turn := [.call (.applyPrivileges ["arthur"] [granted]),
      .call (.createUser "crate"), .call (.dropUser "ford" false), .commit 2, .listen, .listen]
    let v := (start s true).run turns
    (∃ e, v.take (.call (.dropUser "crate" true)) = (v, some (.dropUser "crate" true, .error e))) ∧
      (∃ e, (v.take (.commit 1)).2 = some (.createUser "crate", .error e)) ∧
      v.node.store.metadata.users.contains "crate" = true ∧
      v.node.store.metadata.users.contains "arthur" = true := by
  intro granted s turns v
  have hrun : v = (start s true).run turns := rfl
  have hcreate : v.pending[1]? = some (.createUser "crate") := by decide +kernel
  have hwrite : v.pending[0]? = some (.applyPrivileges ["arthur"] [granted]) := by decide +kernel
  have hstored : s.metadata.users.contains "crate" = true := by decide +kernel
  have hpresent : ∀ name ∈ ["arthur"], v.node.store.metadata.users.contains name = true := by
    decide +kernel
  have hchanged : (v.take (.commit 0)).1.node.store.metadata.privileges.get? "arthur" ≠
      v.node.store.metadata.privileges.get? "arthur" := by decide +kernel
  have huntouched := superuser_untouched s true turns
  -- from here on it does not matter what the run comes to
  rw [← hrun] at huntouched
  clear_value v
  obtain ⟨hcall, hcommit, ⟨hcontains, -⟩, -, hwritten⟩ := huntouched
  obtain ⟨affected, haccepted⟩ : ∃ affected,
      (v.node.submit (.applyPrivileges ["arthur"] [granted])).2 = .ok affected :=
    ⟨_, (Store.submit_of_commits (.applyPrivileges hpresent)).2⟩
  refine ⟨?_, ?_, hcontains.trans hstored, ?_⟩
  · exact (hcall (.dropUser "crate" true) (.head _)).resolve_right fun h => nomatch h.1
  · obtain ⟨e, hrefused⟩ := hcommit 1 (.createUser "crate") hcreate (.head _)
    exact ⟨e, congrArg Prod.snd hrefused⟩
  · refine (hwritten (.commit 0) ["arthur"] [granted] affected ?_ "arthur" hchanged).2
    rw [take_commit hwrite, ← haccepted]

end Service

end AccessControl
