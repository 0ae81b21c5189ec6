import Mathlib.Logic.Function.Iterate
import Mathlib.Order.Monotone.Basic
import AccessControl.Manager.Node
import AccessControl.Proofs.Store

/-!
# The snapshot converges

Writers, the start of the manager, the listener and readers take turns in any order. The snapshot
that readers are given is at every moment the directory of the metadata at one version of the store;
that version only grows, and it is the present one whenever the listener has nothing left to do.

## Main definitions

* `Node.Turn`, `Node.take` — who is next, and what that does to the node
* `Node.after` — the node after a number of turns of a schedule
* `Node.shownVersion` — the version whose directory readers are given
* `Node.Consistent` — the invariant: what store, channel, listener and snapshot know of each other

## Main results

* `Node.Consistent.take` — every turn preserves the invariant
* `Node.consistent_after` — the invariant holds throughout every run on a fresh store
* `Node.snapshot_converges` — the snapshot shows one version, never an older one than before, and
  the present one when the listener waits without news
* `Node.listen_catches_up` — four steps of the listener show the present metadata
-/

namespace AccessControl

/-! ### Runs -/

/-- The version whose directory is shown after a step of the listener in this phase, if it was
`shown` before. -/
def Listener.Phase.versionAfter (shown : ℕ) : Listener.Phase → ℕ
  | .applying c => c.version
  | .reading | .waiting | .finished => shown

namespace Node

/-- Who is next. -/
inductive Turn where
  /-- A writer submits a request. -/
  | submit (r : WriteRequest)
  /-- The manager is started a step further: the listener subscribes, then the seed is read. -/
  | start
  /-- The listener takes a step; there is none to take before the manager runs. -/
  | listen
  /-- A reader loads the snapshot. -/
  | load

/-- The node after a turn. -/
def take (n : Node) : Turn → Node
  | .submit r => (n.submit r).1
  | .start =>
    match n.listener, n.manager with
    | none, _ => n.attachListener
    | some _, none => n.attachManager
    | some _, some _ => n
  | .listen => if n.manager.isSome then n.listen else n
  | .load => n

/-- The two steps of the start, with nobody in between, start the node. -/
theorem take_start_take_start (s : Store) :
    ((ofStore s).take .start).take .start = start s true := rfl

/-- The node after the first `k` turns of a schedule. -/
def after (s : Store) (turns : ℕ → Turn) : ℕ → Node
  | 0 => .ofStore s
  | k + 1 => (after s turns k).take (turns k)

/-- The version whose directory is shown after a turn, if it was `shown` before: the seed and a
value that is applied bring theirs. -/
def versionAfter (n : Node) (shown : ℕ) : Turn → ℕ
  | .start =>
    match n.listener, n.manager with
    | some _, none => n.store.channel.value.version
    | _, _ => shown
  | .listen =>
    match n.manager, n.listener with
    | some _, some l => l.phase.versionAfter shown
    | _, _ => shown
  | .submit _ | .load => shown

/-- The version whose directory is shown after the first `k` turns of a schedule. -/
def shownVersion (s : Store) (turns : ℕ → Turn) : ℕ → ℕ
  | 0 => 0
  | k + 1 => (after s turns k).versionAfter (shownVersion s turns k) (turns k)

/-- Within the first `k` turns the store held, at version `v`, metadata of the given directory. -/
def Held (s : Store) (turns : ℕ → Turn) (k v : ℕ) (d : Directory) : Prop :=
  ∃ j ≤ k, (after s turns j).store.version = v ∧
    d = .ofMetadata (after s turns j).store.metadata

/-- Everything that a step can do to the listener of a manager: it takes the latest value, has it
applied, wakes up or waits on. -/
theorem listen_cases {n : Node} {m : Manager} {l : Listener} (hm : n.manager = some m)
    (hl : n.listener = some l) (hrunning : l.phase ≠ .finished) :
    (l.phase = .reading ∧ n.listen = { n with
      listener := some ⟨n.store.channel.subscribe, .applying n.store.channel.value⟩ }) ∨
    (∃ c, l.phase = .applying c ∧ n.listen = { n with
      manager := some (m.apply c), listener := some { l with phase := .waiting } }) ∨
    (l.phase = .waiting ∧ n.store.channel.hasNews l.receiver = true ∧ n.listen = { n with
      listener := some ⟨n.store.channel.subscribe, .reading⟩ }) ∨
    (l.phase = .waiting ∧ n.store.channel.hasNews l.receiver = false ∧ n.listen = n) := by
  -- the manager holds the store, so the channel stays open
  have hlive : n.live = true := by simp [live, hm]
  obtain ⟨store, owned, manager, listener⟩ := n
  obtain rfl : manager = some m := hm
  obtain rfl : listener = some l := hl
  unfold listen
  dsimp only
  rw [hlive]
  cases hphase : l.phase with
  | reading => exact .inl ⟨rfl, by simp [Listener.step, hphase]⟩
  | applying c => exact .inr (.inl ⟨c, rfl, by simp [Listener.step, hphase]⟩)
  | waiting =>
    cases hnews : store.channel.hasNews l.receiver with
    | true => exact .inr (.inr (.inl ⟨rfl, rfl, by simp [Listener.step, hphase, hnews]⟩))
    | false => exact .inr (.inr (.inr ⟨rfl, rfl, by simp [Listener.step, hphase, hnews]⟩))
  | finished => exact absurd hphase hrunning

end Node

/-! ### The invariant -/

variable {held held' : ℕ → Directory → Prop} {shown : ℕ} {n : Node}

/-- A value that the listener took is of a version between the one shown and the present one, and
calls for the directory of that version; unless there is news, this is the present directory. -/
structure Listener.Consistent (held : ℕ → Directory → Prop) (shown : ℕ) (s : Store)
    (l : Listener) : Prop where
  seen_le : l.receiver.seen ≤ s.channel.sent
  running : l.phase ≠ .finished
  shown_le : ∀ c, l.phase = .applying c → shown ≤ c.version
  version_le : ∀ c, l.phase = .applying c → c.version ≤ s.version
  taken : ∀ c, l.phase = .applying c → held c.version (.ofChange c)
  latest : ∀ c, l.phase = .applying c → s.channel.hasNews l.receiver = false →
    Directory.ofChange c = .ofMetadata s.metadata

/-- The snapshot is of a version that was held; what is behind the present version is made up for by
the value that the listener is about to take, took, or has news of. -/
structure Node.Consistent (held : ℕ → Directory → Prop) (shown : ℕ) (n : Node) : Prop where
  announced : n.store.Announced
  present : held n.store.version (.ofMetadata n.store.metadata)
  shown_le : shown ≤ n.store.version
  published : ∀ m, n.manager = some m → held shown m.snapshot.directory
  listening : ∀ l, n.listener = some l → l.Consistent held shown n.store
  subscribed : ∀ l, n.listener = some l → n.manager = none → l.phase = .reading
  started : ∀ m, n.manager = some m → ∃ l, n.listener = some l
  rested : ∀ l m, n.listener = some l → n.manager = some m → l.phase = .waiting →
    n.store.channel.hasNews l.receiver = false →
      m.snapshot.directory = .ofMetadata n.store.metadata

theorem Listener.Consistent.mono {s : Store} {l : Listener} (h : l.Consistent held shown s)
    (hle : ∀ v d, held v d → held' v d) : l.Consistent held' shown s :=
  { h with taken := fun c hc => hle _ _ (h.taken c hc) }

/-- A listener that takes no value has nothing to answer for. -/
theorem Listener.Consistent.of_not_applying {s : Store} {l : Listener}
    (hseen : l.receiver.seen ≤ s.channel.sent) (hrunning : l.phase ≠ .finished)
    (hphase : ∀ c, l.phase ≠ .applying c) : l.Consistent held shown s where
  seen_le := hseen
  running := hrunning
  shown_le c hc := absurd hc (hphase c)
  version_le c hc := absurd hc (hphase c)
  taken c hc := absurd hc (hphase c)
  latest c hc := absurd hc (hphase c)

namespace Node.Consistent

theorem mono (h : n.Consistent held shown) (hle : ∀ v d, held v d → held' v d) :
    n.Consistent held' shown :=
  { h with
    present := hle _ _ h.present
    published := fun m hm => hle _ _ (h.published m hm)
    listening := fun l hl => (h.listening l hl).mono hle }

/-! ### What a turn preserves -/

/-- A write that changes no directory goes unnoticed, and any other one is news to the listener. -/
theorem submit (h : n.Consistent held shown) (r : WriteRequest)
    (hnext : held (n.submit r).1.store.version (.ofMetadata (n.submit r).1.store.metadata)) :
    (n.submit r).1.Consistent held shown := by
  have hannounced := h.announced.submit r
  unfold Node.submit at hnext ⊢
  rcases n.store.submit_cases r with ⟨e, hs⟩ | ⟨m, hs, hsame⟩ | ⟨m, affected, -, hs⟩
  · rw [hs]
    exact h
  · -- the change is not shown in any directory, so what was up to date stays so
    rw [hs] at hannounced hnext ⊢
    refine { h with
      announced := hannounced, present := hnext, listening := ?_, rested := ?_ }
    · intro l hl
      have hlistener := h.listening l hl
      exact { hlistener with
        latest := fun c hc hnone => (hlistener.latest c hc hnone).trans hsame.symm }
    · intro l m hl hm hw hnone
      exact (h.rested l m hl hm hw hnone).trans hsame.symm
  · -- the listener has news, and need not be up to date until it has read them
    rw [hs] at hannounced hnext ⊢
    have hnews : ∀ l, n.listener = some l →
        (n.store.channel.send (.ofMetadata (n.store.version + 1) m)).hasNews l.receiver = true :=
      fun l hl => Channel.hasNews_send (h.listening l hl).seen_le _
    refine { h with
      announced := hannounced, present := hnext, shown_le := ?_, listening := ?_, rested := ?_ }
    · exact h.shown_le.trans n.store.version.le_succ
    · intro l hl
      have hlistener := h.listening l hl
      exact { hlistener with
        seen_le := hlistener.seen_le.trans n.store.channel.sent.le_succ
        version_le := fun c hc => (hlistener.version_le c hc).trans n.store.version.le_succ
        latest := fun c hc hnone => absurd (hnews l hl) (Bool.eq_false_iff.mp hnone) }
    · intro l m hl hm hw hnone
      exact absurd (hnews l hl) (Bool.eq_false_iff.mp hnone)

/-- The value that the channel holds is of the present version and directory. -/
theorem held_value (h : n.Consistent held shown) :
    held n.store.channel.value.version (.ofChange n.store.channel.value) := by
  rw [h.announced.version, h.announced.directory]
  exact h.present

/-- A listener that has just taken the latest value has all there is to know in hand. -/
theorem taken_value (h : n.Consistent held shown) :
    Listener.Consistent held shown n.store
      ⟨n.store.channel.subscribe, .applying n.store.channel.value⟩ where
  seen_le := le_rfl
  running := by simp
  shown_le := by
    rintro c ⟨⟩
    exact h.shown_le.trans h.announced.version.ge
  version_le := by
    rintro c ⟨⟩
    exact h.announced.version.le
  taken := by
    rintro c ⟨⟩
    exact h.held_value
  latest := by
    rintro c ⟨⟩ _
    exact h.announced.directory

/-- A listener that has yet to read has everything before it. -/
theorem attachListener (h : n.Consistent held shown) :
    n.attachListener.Consistent held shown where
  announced := h.announced
  present := h.present
  shown_le := h.shown_le
  published := h.published
  listening := by
    rintro l ⟨⟩
    exact .of_not_applying le_rfl (by simp [Listener.subscribed]) (by simp [Listener.subscribed])
  subscribed := by
    rintro l ⟨⟩ _
    rfl
  started := fun _ _ => ⟨_, rfl⟩
  rested := by
    rintro l m ⟨⟩ _ hw
    cases hw

/-- The seed may grow old before the listener reads, which is about to do so. -/
theorem attachManager (h : n.Consistent held shown) {l : Listener} (hl : n.listener = some l)
    (hm : n.manager = none) :
    n.attachManager.Consistent held n.store.channel.value.version where
  announced := h.announced
  present := h.present
  shown_le := h.announced.version.le
  published := by
    rintro m ⟨⟩
    rw [Manager.ofStore, Snapshot.directory_first]
    exact h.held_value
  listening := by
    intro l' hl'
    have hreading := h.subscribed l' hl' hm
    exact .of_not_applying (h.listening l' hl').seen_le (by simp [hreading]) (by simp [hreading])
  subscribed := by
    rintro _ _ ⟨⟩
  started := fun _ _ => ⟨l, hl⟩
  rested := by
    intro l' m hl' _ hw
    rw [h.subscribed l' hl' hm] at hw
    cases hw

theorem listen (h : n.Consistent held shown) {m : Manager} {l : Listener}
    (hm : n.manager = some m) (hl : n.listener = some l) :
    n.listen.Consistent held (l.phase.versionAfter shown) := by
  have hlistener := h.listening l hl
  rcases listen_cases hm hl hlistener.running with
    ⟨hphase, hlisten⟩ | ⟨c, hphase, hlisten⟩ | ⟨hphase, -, hlisten⟩ | ⟨hphase, -, hlisten⟩
  · -- the latest value is taken, and the snapshot stays as it is
    rw [hlisten, hphase]
    refine { h with listening := ?_, subscribed := ?_, started := ?_, rested := ?_ }
    · rintro l' ⟨⟩
      exact h.taken_value
    · intro _ _ hnone
      cases hm.symm.trans hnone
    · exact fun _ _ => ⟨_, rfl⟩
    · rintro l' m' ⟨⟩ _ ⟨⟩
  · -- whether or not a new snapshot is published, its directory is that of the value
    have hshown : (m.apply c).snapshot.directory = .ofChange c := Snapshot.directory_advance ..
    rw [hlisten, hphase]
    refine { h with
      shown_le := ?_, published := ?_, listening := ?_, subscribed := ?_, started := ?_,
      rested := ?_ }
    · exact hlistener.version_le c hphase
    · rintro m' ⟨⟩
      rw [hshown]
      exact hlistener.taken c hphase
    · rintro l' ⟨⟩
      exact .of_not_applying hlistener.seen_le (by simp) (by simp)
    · rintro _ _ ⟨⟩
    · exact fun _ _ => ⟨_, rfl⟩
    · rintro l' m' ⟨⟩ ⟨⟩ _ hnews
      rw [hshown]
      exact hlistener.latest c hphase hnews
  · -- woken up, the listener is about to read what it has news of
    rw [hlisten, hphase]
    refine { h with listening := ?_, subscribed := ?_, started := ?_, rested := ?_ }
    · rintro l' ⟨⟩
      exact .of_not_applying le_rfl (by simp) (by simp)
    · rintro l' ⟨⟩ _
      rfl
    · exact fun _ _ => ⟨_, rfl⟩
    · rintro l' m' ⟨⟩ _ ⟨⟩
  · -- waiting on changes nothing
    rw [hlisten, hphase]
    exact h

/-- **Step lemma.** Every turn preserves the invariant, at the version that is shown after it. -/
theorem take (h : n.Consistent held shown) (t : Turn)
    (hnext : held (n.take t).store.version (.ofMetadata (n.take t).store.metadata)) :
    (n.take t).Consistent held (n.versionAfter shown t) := by
  cases t with
  | submit r => exact h.submit r hnext
  | start =>
    unfold Node.take versionAfter
    cases hl : n.listener with
    | none => exact h.attachListener
    | some l =>
      cases hm : n.manager with
      | none => exact h.attachManager hl hm
      | some m => exact h
  | listen =>
    unfold Node.take versionAfter
    cases hm : n.manager with
    | none => exact h
    | some m =>
      obtain ⟨l, hl⟩ := h.started m hm
      rw [hl]
      exact h.listen hm hl
  | load => exact h

theorem le_versionAfter (h : n.Consistent held shown) (t : Turn) :
    shown ≤ n.versionAfter shown t := by
  cases t with
  | submit r => exact le_rfl
  | start =>
    unfold versionAfter
    dsimp only
    split
    · exact h.shown_le.trans h.announced.version.ge
    · exact le_rfl
  | listen =>
    unfold versionAfter
    dsimp only
    split
    · next l _ hl =>
      cases hphase : l.phase with
      | applying c => exact (h.listening l hl).shown_le c hphase
      | reading | waiting | finished => exact le_rfl
    · exact le_rfl
  | load => exact le_rfl

end Node.Consistent

namespace Node

variable {s : Store} {turns : ℕ → Turn}

theorem consistent_ofStore (hs : s.IsFresh) : (ofStore s).Consistent (Held s turns 0) 0 where
  announced := hs.announced
  present := ⟨0, le_rfl, rfl, rfl⟩
  shown_le := Nat.zero_le _
  published := by rintro m ⟨⟩
  listening := by rintro l ⟨⟩
  subscribed := by rintro l ⟨⟩
  started := by rintro m ⟨⟩
  rested := by rintro l m ⟨⟩

/-- **Run lemma.** Throughout every run on a fresh store, the node is consistent with what the store
has held so far. -/
theorem consistent_after (hs : s.IsFresh) (turns : ℕ → Turn) (k : ℕ) :
    (after s turns k).Consistent (Held s turns k) (shownVersion s turns k) := by
  -- by induction on the number of turns; what was held remains so when a turn is added
  induction k with
  | zero => exact consistent_ofStore hs
  | succ k ih =>
    have hle : ∀ v d, Held s turns k v d → Held s turns (k + 1) v d := by
      rintro v d ⟨j, hj, hheld⟩
      exact ⟨j, hj.trans k.le_succ, hheld⟩
    exact (ih.mono hle).take (turns k) ⟨k + 1, le_rfl, rfl, rfl⟩

theorem monotone_shownVersion (hs : s.IsFresh) (turns : ℕ → Turn) :
    Monotone (shownVersion s turns) :=
  monotone_nat_of_le_succ fun k => (consistent_after hs turns k).le_versionAfter (turns k)

/-- **The snapshot converges.** On a store as it is made, however writers, the start of the manager,
the listener and readers take turns: the snapshot is at every moment the directory of the two
sections that the store held together at some version. This version never decreases, is never ahead
of the store, and gives the store's present sections whenever the listener waits without news. -/
theorem snapshot_converges (hs : s.IsFresh) (turns : ℕ → Turn) :
    ∃ shown : ℕ → ℕ, Monotone shown ∧
      ∀ k m, (after s turns k).manager = some m →
        (∃ j ≤ k, (after s turns j).store.version = shown k ∧
          m.snapshot.directory = .rebuild (some (after s turns j).store.metadata.users)
            (some (after s turns j).store.metadata.privileges)) ∧
        shown k ≤ (after s turns k).store.version ∧
        ∀ l, (after s turns k).listener = some l → l.phase = .waiting →
          (after s turns k).store.channel.hasNews l.receiver = false →
            m.snapshot.directory = .rebuild (some (after s turns k).store.metadata.users)
              (some (after s turns k).store.metadata.privileges) := by
  refine ⟨shownVersion s turns, monotone_shownVersion hs turns, ?_⟩
  intro k m hm
  have h := consistent_after hs turns k
  refine ⟨h.published m hm, h.shown_le, ?_⟩
  intro l hl hwaiting hnews
  exact h.rested l m hl hm hwaiting hnews

/-- Writes at the awkward moments: one after the listener subscribes and before the seed is read,
one while the listener has the notification of the first in hand. -/
def racingTurns (k : ℕ) : Turn :=
  [.start, .submit (.createUser "arthur"), .start, .listen, .submit (.createUser "trillian"),
    .load, .listen, .listen, .listen, .listen].getD k .load

theorem snapshot_converges_racingTurns :
    ∃ m, (after (.ofMetadata ⟨.ofList ["ford"], .empty⟩) racingTurns 10).manager = some m ∧
      m.snapshot.directory = .rebuild (some (.ofList ["arthur", "ford", "trillian"]))
        (some .empty) := by
  obtain ⟨m, hm⟩ : ∃ m, (after (.ofMetadata ⟨.ofList ["ford"], .empty⟩) racingTurns 10).manager =
      some m := Option.isSome_iff_exists.mp (by decide +kernel)
  obtain ⟨_, -, hshown⟩ :=
    snapshot_converges (.ofMetadata ⟨.ofList ["ford"], .empty⟩) racingTurns
  obtain ⟨-, -, hrests⟩ := hshown 10 m hm
  have hl : (after (.ofMetadata ⟨.ofList ["ford"], .empty⟩) racingTurns 10).listener =
      some ⟨⟨3⟩, .waiting⟩ := by decide +kernel
  refine ⟨m, hm, (hrests _ hl rfl (by decide +kernel)).trans ?_⟩
  decide +kernel

/-! ### Catching up -/

/-- How many steps the listener is away from rest, unless there are further writes. -/
def backlog (n : Node) : ℕ :=
  match n.listener with
  | none => 0
  | some l =>
    match l.phase with
    | .reading => 2
    | .applying _ => if n.store.channel.hasNews l.receiver then 4 else 1
    | .waiting => if n.store.channel.hasNews l.receiver then 3 else 0
    | .finished => 0

theorem backlog_le_four (n : Node) : n.backlog ≤ 4 := by
  unfold backlog
  repeat' split
  all_goals omega

/-- A step of the listener works off the backlog. It does not touch the store, and the manager
stays. -/
theorem backlog_listen (h : n.Consistent held shown) {m : Manager} {l : Listener}
    (hm : n.manager = some m) (hl : n.listener = some l) :
    n.listen.backlog = n.backlog - 1 ∧ n.listen.store = n.store ∧
      ∃ m', n.listen.manager = some m' := by
  rcases listen_cases hm hl (h.listening l hl).running with
    ⟨hphase, hlisten⟩ | ⟨c, hphase, hlisten⟩ | ⟨hphase, hnews, hlisten⟩ | ⟨hphase, hnews, hlisten⟩
  · rw [hlisten]
    refine ⟨?_, rfl, m, hm⟩
    simp [backlog, hl, hphase, Channel.hasNews_subscribe]
  · rw [hlisten]
    refine ⟨?_, rfl, _, rfl⟩
    simp only [backlog, hl, hphase]
    split <;> rfl
  · rw [hlisten]
    refine ⟨?_, rfl, m, hm⟩
    simp [backlog, hl, hphase, hnews]
  · rw [hlisten]
    refine ⟨?_, rfl, m, hm⟩
    simp [backlog, hl, hphase, hnews]

theorem directory_of_backlog_eq_zero (h : n.Consistent held shown) {m : Manager}
    (hm : n.manager = some m) (hbacklog : n.backlog = 0) :
    m.snapshot.directory = .ofMetadata n.store.metadata := by
  obtain ⟨l, hl⟩ := h.started m hm
  simp only [backlog, hl] at hbacklog
  cases hphase : l.phase with
  | reading => simp [hphase] at hbacklog
  | applying c =>
    simp only [hphase] at hbacklog
    split at hbacklog <;> cases hbacklog
  | waiting =>
    cases hnews : n.store.channel.hasNews l.receiver with
    | true => simp [hphase, hnews] at hbacklog
    | false => exact h.rested l m hl hm hphase hnews
  | finished => exact absurd hphase (h.listening l hl).running

theorem directory_listen_iterate {k : ℕ} {m : Manager} (h : n.Consistent held shown)
    (hm : n.manager = some m) (hk : n.backlog ≤ k) :
    ∃ m', (listen^[k] n).manager = some m' ∧
      m'.snapshot.directory = .ofMetadata n.store.metadata := by
  induction k generalizing n shown m with
  | zero => exact ⟨m, hm, directory_of_backlog_eq_zero h hm (Nat.le_zero.mp hk)⟩
  | succ k ih =>
    obtain ⟨l, hl⟩ := h.started m hm
    obtain ⟨hbacklog, hstore, m', hm'⟩ := backlog_listen h hm hl
    have hrest : n.listen.backlog ≤ k := by omega
    rw [Function.iterate_succ_apply, ← hstore]
    exact ih (h.listen hm hl) hm' hrest

/-- **No update is lost.** Whenever the manager runs, four steps of the listener without further
writes bring the snapshot up to date. -/
theorem listen_catches_up (hs : s.IsFresh) (turns : ℕ → Turn) {k : ℕ} {m : Manager}
    (hm : (after s turns k).manager = some m) :
    ∃ m', (listen^[4] (after s turns k)).manager = some m' ∧
      m'.snapshot.directory = .ofMetadata (after s turns k).store.metadata :=
  directory_listen_iterate (consistent_after hs turns k) hm (backlog_le_four _)

end Node

end AccessControl
