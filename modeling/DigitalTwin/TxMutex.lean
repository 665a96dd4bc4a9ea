/-
`graphWRMutex` (`src/neo4jengine/lock.go`) and the two places the engine takes it.

`graphWRMutex` is a `sync.RWMutex` with its two sides swapped: `WLock` is the `RWMutex`'s
shared `RLock`, so any number of `Apply` calls hold it at once, and `Lock` is its exclusive
`Lock`. `Apply` takes `WLock` before its write transaction and releases it, deferred, once
`ExecuteWrite` has returned, the transaction committed or rolled back; each `GraphWriter`
call inside it taints the nodes it touched as it returns. `fetchTaintedAssemblies` takes
`Lock`, drains the taints with `ClearTaints`, reads their assemblies with
`fetchPartialAssemblies`, and releases the lock, deferred.

A `TxEvent` is one such step of one caller, and a schedule is any interleaving of them, run
by `TxState.run` from the zero mutex and no taints. A caller that would block is a step that
is not enabled yet. `sync.RWMutex` also holds back a new `RLock` while a `Lock` waits; that
only removes schedules, so every result here holds of it too.

Over every schedule that runs: no caller releases a side of the mutex it does not hold,
which would be `sync`'s fatal error, and the lock is held by one `WhatChanged` at a time and
never while an `Apply` is in its transaction (`txState_run_inv`); once a `WhatChanged` holds
the lock, exactly its own `ClearTaints` and read happen before it releases it
(`fetch_phase_atomic`); and every node an `Apply` taints goes to the first `ClearTaints`
after it, which comes after that `Apply`'s transaction has ended (`taint_handed_off`), so the
read that follows never sees the transaction in flight. Nor can the callers deadlock: from
every state a schedule reaches, the callers in flight can all finish, and leave the mutex
free (`txState_run_finish`).
-/
import DigitalTwin.Engine

set_option autoImplicit false

namespace DigitalTwin

/-! ## `graphWRMutex` -/

/-- `graphWRMutex`, the `sync.RWMutex` it converts to: how many hold its shared side
(`WLock`), and whether its exclusive side (`Lock`) is held. -/
structure GraphWRMutex where
  writers : Nat
  locked : Bool

namespace GraphWRMutex

/-- The zero value, an unlocked mutex. -/
def zero : GraphWRMutex := ⟨0, false⟩

/-- `WLock`, that is `RLock`: `none` while the mutex is locked, as the caller waits. -/
def wLock (m : GraphWRMutex) : Option GraphWRMutex :=
  if m.locked then none else some { m with writers := m.writers + 1 }

/-- `WUnlock`, that is `RUnlock`: `sync`'s fatal error when no one holds the shared side. -/
def wUnlock (m : GraphWRMutex) : Except String GraphWRMutex :=
  if m.writers = 0 then .error "fatal error: sync: RUnlock of unlocked RWMutex"
  else .ok { m with writers := m.writers - 1 }

/-- `Lock`: `none` while either side is held, as the caller waits. -/
def lock (m : GraphWRMutex) : Option GraphWRMutex :=
  if m.locked || m.writers != 0 then none else some { m with locked := true }

/-- `Unlock`: `sync`'s fatal error when the mutex is not locked. -/
def unlock (m : GraphWRMutex) : Except String GraphWRMutex :=
  if m.locked then .ok { m with locked := false }
  else .error "fatal error: sync: Unlock of unlocked RWMutex"

theorem wLock_eq_some {m m' : GraphWRMutex} (h : m.wLock = some m') :
    m.locked = false ∧ m' = { m with writers := m.writers + 1 } := by
  unfold wLock at h
  split at h
  · cases h
  · exact ⟨by simpa using ‹¬m.locked = true›, (Option.some.inj h).symm⟩

theorem lock_eq_some {m m' : GraphWRMutex} (h : m.lock = some m') :
    m.locked = false ∧ m.writers = 0 ∧ m' = { m with locked := true } := by
  unfold lock at h
  split at h
  · cases h
  · rename_i hc
    simp only [Bool.or_eq_true, bne_iff_ne, ne_eq, not_or, not_not] at hc
    exact ⟨by simpa using hc.1, hc.2, (Option.some.inj h).symm⟩

theorem wUnlock_of_pos {m : GraphWRMutex} (h : 0 < m.writers) :
    m.wUnlock = .ok { m with writers := m.writers - 1 } := by
  simp [wUnlock, Nat.pos_iff_ne_zero.1 h]

theorem unlock_of_locked {m : GraphWRMutex} (h : m.locked = true) :
    m.unlock = .ok { m with locked := false } := by
  simp [unlock, h]

end GraphWRMutex

/-! ## The engine's callers -/

/-- One step of one caller of an engine, as the mutex and the taints see it. -/
inductive TxEvent
  | /-- `Apply` call `apply` takes `WLock`. -/
    wLock (apply : Nat)
  | /-- A `GraphWriter` call of `Apply` call `apply` returns, having tainted `taints`. -/
    write (apply : Nat) (taints : List RawNode)
  | /-- `ExecuteWrite` of `Apply` call `apply` has returned, committed or rolled back; the
    deferred `WUnlock`. -/
    wUnlock (apply : Nat)
  | /-- `fetchTaintedAssemblies` of `WhatChanged` call `caller` takes `Lock`. -/
    lock (caller : Nat)
  | /-- It drains the taints with `ClearTaints`. -/
    clearTaints (caller : Nat)
  | /-- It reads their assemblies with `fetchPartialAssemblies`. -/
    read (caller : Nat)
  | /-- The deferred `Unlock`. -/
    unlock (caller : Nat)
deriving DecidableEq

/-- How far the `fetchTaintedAssemblies` holding the lock has got. -/
inductive FetchStage
  | locked
  | drained
  | read
deriving DecidableEq

/-- The steps a `fetchTaintedAssemblies` still has to take, from a stage, before its
`Unlock`. -/
def FetchStage.rest (caller : Nat) : FetchStage → List TxEvent
  | .locked => [.clearTaints caller, .read caller]
  | .drained => [.read caller]
  | .read => []

/-- The engine's mutex and taints, the `Apply` calls in their transactions, and the
`WhatChanged` call in its locked phase, if any, with its stage. -/
structure TxState where
  mutex : GraphWRMutex
  taintedNodes : AList fun _ : NodeHash => RawNode
  applying : List Nat
  fetching : Option (Nat × FetchStage)

/-- A new engine: the zero mutex, no taints, no caller. -/
def TxState.init : TxState := ⟨GraphWRMutex.zero, ∅, [], none⟩

/-- One step: `none` while its caller waits or when it is not that caller's next step,
`sync`'s fatal error, or the state after it. -/
def TxState.step (s : TxState) : TxEvent → Option (Except String TxState)
  | .wLock i =>
    if i ∈ s.applying then none
    else s.mutex.wLock.map fun m => .ok { s with mutex := m, applying := i :: s.applying }
  | .write i ts =>
    if i ∈ s.applying then some (.ok { s with taintedNodes := taint s.taintedNodes ts }) else none
  | .wUnlock i =>
    if i ∈ s.applying then
      some (s.mutex.wUnlock.map fun m => { s with mutex := m, applying := s.applying.erase i })
    else none
  | .lock j => s.mutex.lock.map fun m => .ok { s with mutex := m, fetching := some (j, .locked) }
  | .clearTaints j =>
    if s.fetching = some (j, .locked) then
      some (.ok { s with taintedNodes := ∅, fetching := some (j, .drained) })
    else none
  | .read j =>
    if s.fetching = some (j, .drained) then some (.ok { s with fetching := some (j, .read) })
    else none
  | .unlock j =>
    if s.fetching = some (j, .read) then
      some (s.mutex.unlock.map fun m => { s with mutex := m, fetching := none })
    else none

/-- Run a schedule: `none` when some step of it cannot be taken, else the fatal error or the
state at its end. -/
def TxState.run (s : TxState) : List TxEvent → Option (Except String TxState)
  | [] => some (.ok s)
  | e :: es =>
    match s.step e with
    | some (.ok s') => s'.run es
    | r => r

/-- A schedule that runs to a state goes on, after it, as the rest runs from that state. -/
theorem TxState.run_append_of_ok {s s' : TxState} {xs : List TxEvent}
    (h : s.run xs = some (.ok s')) (ys : List TxEvent) : s.run (xs ++ ys) = s'.run ys := by
  induction xs generalizing s with
  | nil => cases Except.ok.inj (Option.some.inj h); rfl
  | cons e xs ih =>
    simp only [List.cons_append, TxState.run] at h ⊢
    rcases he : s.step e with _ | _ | s₁ <;> rw [he] at h
    · cases h
    · cases h
    · exact ih h

/-! ## What each step does -/

section StepInversion

variable {s : TxState} {r : Except String TxState}

theorem TxState.step_wLock {i : Nat} (h : s.step (.wLock i) = some r) :
    i ∉ s.applying ∧ s.mutex.locked = false ∧
      r = .ok { s with
        mutex := { s.mutex with writers := s.mutex.writers + 1 }, applying := i :: s.applying } := by
  obtain ⟨hi, h⟩ := Option.ite_none_left_eq_some.1 h
  obtain ⟨m, hm, rfl⟩ := Option.map_eq_some'.1 h
  obtain ⟨hl, rfl⟩ := GraphWRMutex.wLock_eq_some hm
  exact ⟨hi, hl, rfl⟩

theorem TxState.step_write {i : Nat} {ts : List RawNode} (h : s.step (.write i ts) = some r) :
    i ∈ s.applying ∧ r = .ok { s with taintedNodes := taint s.taintedNodes ts } :=
  (Option.ite_none_right_eq_some.1 h).imp_right fun h => (Option.some.inj h).symm

theorem TxState.step_wUnlock {i : Nat} (h : s.step (.wUnlock i) = some r) :
    i ∈ s.applying ∧
      r = s.mutex.wUnlock.map fun m => { s with mutex := m, applying := s.applying.erase i } :=
  (Option.ite_none_right_eq_some.1 h).imp_right fun h => (Option.some.inj h).symm

theorem TxState.step_lock {j : Nat} (h : s.step (.lock j) = some r) :
    s.mutex.locked = false ∧ s.mutex.writers = 0 ∧
      r = .ok { s with mutex := { s.mutex with locked := true }, fetching := some (j, .locked) } := by
  obtain ⟨m, hm, rfl⟩ := Option.map_eq_some'.1 h
  obtain ⟨hl, hw, rfl⟩ := GraphWRMutex.lock_eq_some hm
  exact ⟨hl, hw, rfl⟩

theorem TxState.step_clearTaints {j : Nat} (h : s.step (.clearTaints j) = some r) :
    s.fetching = some (j, .locked) ∧
      r = .ok { s with taintedNodes := ∅, fetching := some (j, .drained) } :=
  (Option.ite_none_right_eq_some.1 h).imp_right fun h => (Option.some.inj h).symm

theorem TxState.step_read {j : Nat} (h : s.step (.read j) = some r) :
    s.fetching = some (j, .drained) ∧ r = .ok { s with fetching := some (j, .read) } :=
  (Option.ite_none_right_eq_some.1 h).imp_right fun h => (Option.some.inj h).symm

theorem TxState.step_unlock {j : Nat} (h : s.step (.unlock j) = some r) :
    s.fetching = some (j, .read) ∧
      r = s.mutex.unlock.map fun m => { s with mutex := m, fetching := none } :=
  (Option.ite_none_right_eq_some.1 h).imp_right fun h => (Option.some.inj h).symm

end StepInversion

/-! ## What every reachable state keeps -/

/-- The mutex counts the `Apply` calls in their transactions, each once; it is locked exactly
when a `WhatChanged` is in its locked phase, and then no `Apply` is in its transaction; and
every taint is filed under its node's content address. -/
structure TxState.Inv (s : TxState) : Prop where
  writers_eq : s.mutex.writers = s.applying.length
  nodup : s.applying.Nodup
  locked_eq : s.mutex.locked = s.fetching.isSome
  exclusive : s.fetching.isSome → s.applying = []
  keyed : TaintsKeyed s.taintedNodes

theorem TxState.inv_init : TxState.init.Inv :=
  ⟨rfl, List.nodup_nil, rfl, fun _ => rfl, fun _ _ h => by cases h⟩

section Inv

variable {s : TxState} (hs : s.Inv)
include hs

theorem TxState.Inv.locked_of_fetching {p : Nat × FetchStage} (hf : s.fetching = some p) :
    s.mutex.locked = true := by
  rw [hs.locked_eq, hf]; rfl

theorem TxState.Inv.applying_of_fetching {p : Nat × FetchStage} (hf : s.fetching = some p) :
    s.applying = [] :=
  hs.exclusive (by rw [hf]; rfl)

/-- **One step keeps the invariant and never ends in the fatal error.** -/
theorem TxState.Inv.step {e : TxEvent} {r : Except String TxState} (h : s.step e = some r) :
    ∃ s', r = .ok s' ∧ s'.Inv := by
  cases e with
  | wLock i =>
    obtain ⟨hi, hl, rfl⟩ := TxState.step_wLock h
    refine ⟨_, rfl, ⟨by simp [hs.writers_eq], List.nodup_cons.2 ⟨hi, hs.nodup⟩, ?_, ?_,
      hs.keyed⟩⟩
    · simpa [hl] using hs.locked_eq
    · intro hf
      rw [← hs.locked_eq, hl] at hf
      cases hf
  | write i ts =>
    obtain ⟨-, rfl⟩ := TxState.step_write h
    exact ⟨_, rfl, hs.writers_eq, hs.nodup, hs.locked_eq, hs.exclusive, hs.keyed.taint ts⟩
  | wUnlock i =>
    obtain ⟨hi, rfl⟩ := TxState.step_wUnlock h
    rw [GraphWRMutex.wUnlock_of_pos (hs.writers_eq ▸ List.length_pos_of_mem hi)]
    refine ⟨_, rfl, ⟨?_, hs.nodup.erase i, hs.locked_eq, fun hf => ?_, hs.keyed⟩⟩
    · simp [hs.writers_eq, List.length_erase_of_mem hi]
    · simp [hs.exclusive hf]
  | lock j =>
    obtain ⟨-, hw, rfl⟩ := TxState.step_lock h
    have hempty : s.applying = [] := List.length_eq_zero.1 (hs.writers_eq ▸ hw)
    exact ⟨_, rfl, ⟨by simp [hempty, hw], by simp [hempty], rfl, fun _ => hempty, hs.keyed⟩⟩
  | clearTaints j =>
    obtain ⟨hf, rfl⟩ := TxState.step_clearTaints h
    exact ⟨_, rfl, hs.writers_eq, hs.nodup, by simpa using hs.locked_of_fetching hf,
      fun _ => hs.applying_of_fetching hf, fun _ _ h => by cases h⟩
  | read j =>
    obtain ⟨hf, rfl⟩ := TxState.step_read h
    exact ⟨_, rfl, hs.writers_eq, hs.nodup, by simpa using hs.locked_of_fetching hf,
      fun _ => hs.applying_of_fetching hf, hs.keyed⟩
  | unlock j =>
    obtain ⟨hf, rfl⟩ := TxState.step_unlock h
    rw [GraphWRMutex.unlock_of_locked (hs.locked_of_fetching hf)]
    exact ⟨_, rfl, hs.writers_eq, hs.nodup, rfl, (fun h => by cases h), hs.keyed⟩

/-- A schedule that runs from a state keeping the invariant takes its first step, to a state
keeping it, and runs on from there. -/
theorem TxState.Inv.run_cons {e : TxEvent} {es : List TxEvent} {r : Except String TxState}
    (h : s.run (e :: es) = some r) :
    ∃ s', s.step e = some (.ok s') ∧ s'.Inv ∧ s'.run es = some r := by
  simp only [TxState.run] at h
  rcases he : s.step e with _ | r'
  · rw [he] at h
    cases h
  · obtain ⟨s', rfl, hs'⟩ := hs.step he
    rw [he] at h
    exact ⟨s', rfl, hs', h⟩

end Inv

/-- A schedule made of two that runs from a state keeping the invariant runs the first to a
state keeping it, and the second from there. -/
theorem TxState.Inv.run_append {s : TxState} (hs : s.Inv) {xs ys : List TxEvent}
    {r : Except String TxState} (h : s.run (xs ++ ys) = some r) :
    ∃ s', s.run xs = some (.ok s') ∧ s'.Inv ∧ s'.run ys = some r := by
  induction xs generalizing s with
  | nil => exact ⟨s, rfl, hs, h⟩
  | cons e xs ih =>
    obtain ⟨s₁, he, hs₁, h₁⟩ := hs.run_cons h
    obtain ⟨s', hxs, hs', hys⟩ := ih hs₁ h₁
    refine ⟨s', ?_, hs', hys⟩
    simp only [TxState.run, he, hxs]

/-- Every run from a state that keeps the invariant ends in a state that keeps it. -/
theorem TxState.Inv.run {s : TxState} (hs : s.Inv) {es : List TxEvent}
    {r : Except String TxState} (h : s.run es = some r) : ∃ s', r = .ok s' ∧ s'.Inv := by
  obtain ⟨s', -, hs', h'⟩ := @TxState.Inv.run_append s hs es [] r (by rwa [List.append_nil])
  exact ⟨s', (Option.some.inj h').symm, hs'⟩

/-- **No schedule misuses the mutex, and the lock is exclusive**: every schedule of the
engine's callers that runs, from a new engine, ends without `sync`'s fatal error, in a state
where the mutex counts the `Apply` calls in their transactions and is locked by at most one
`WhatChanged`, and only when no `Apply` is in its transaction. -/
theorem txState_run_inv (es : List TxEvent) {r : Except String TxState}
    (h : TxState.init.run es = some r) : ∃ s, r = .ok s ∧ s.Inv :=
  TxState.inv_init.run h

theorem txState_run_inv_apply_then_fetch :
    ∃ r, TxState.init.run [.wLock 1, .write 1 [⟨"A", ⟨.fill 1⟩⟩], .wUnlock 1, .lock 7,
      .clearTaints 7, .read 7, .unlock 7] = some r ∧ ∃ s, r = .ok s ∧ s.Inv := by
  refine ⟨_, (Option.some_get ?_).symm, txState_run_inv _ (Option.some_get ?_).symm⟩ <;> decide

/-! ## The locked phase -/

/-- While a `WhatChanged` holds the lock, the only step that can be taken is its own next
one: its `ClearTaints` or its read, which move it on, or, once it has read, its `Unlock`. -/
theorem TxState.Inv.step_of_fetching {s : TxState} (hs : s.Inv) {j : Nat} {st : FetchStage}
    (hf : s.fetching = some (j, st)) {e : TxEvent} {s' : TxState}
    (h : s.step e = some (.ok s')) :
    (e = .unlock j ∧ st = .read) ∨
      ∃ st', st.rest j = e :: st'.rest j ∧ s'.fetching = some (j, st') := by
  have hl := hs.locked_of_fetching hf
  have happ := hs.applying_of_fetching hf
  cases e with
  | wLock i => cases hl.symm.trans (TxState.step_wLock h).2.1
  | write i ts => exact absurd (TxState.step_write h).1 (by simp [happ])
  | wUnlock i => exact absurd (TxState.step_wUnlock h).1 (by simp [happ])
  | lock j' => cases hl.symm.trans (TxState.step_lock h).1
  | clearTaints j' =>
    obtain ⟨hj, ⟨⟩⟩ := TxState.step_clearTaints h
    cases hf.symm.trans hj
    exact .inr ⟨.drained, rfl, rfl⟩
  | read j' =>
    obtain ⟨hj, ⟨⟩⟩ := TxState.step_read h
    cases hf.symm.trans hj
    exact .inr ⟨.read, rfl, rfl⟩
  | unlock j' =>
    cases hf.symm.trans (TxState.step_unlock h).1
    exact .inl ⟨rfl, rfl⟩

/-- From a stage of the locked phase, a run that reaches the `Unlock` takes exactly the
steps left to the phase before it. -/
theorem TxState.Inv.rest_of_run {s : TxState} (hs : s.Inv) {j : Nat} {st : FetchStage}
    (hf : s.fetching = some (j, st)) {mid post : List TxEvent} {r : Except String TxState}
    (h : s.run (mid ++ .unlock j :: post) = some r) (hmid : .unlock j ∉ mid) :
    mid = st.rest j := by
  induction mid generalizing s st with
  | nil =>
    obtain ⟨s', he, -, -⟩ := hs.run_cons h
    rcases hs.step_of_fetching hf he with ⟨-, rfl⟩ | ⟨st', hr, -⟩
    · rfl
    · cases st <;> simp [FetchStage.rest] at hr
  | cons e mid ih =>
    obtain ⟨s', he, hs', h'⟩ := hs.run_cons h
    rcases hs.step_of_fetching hf he with ⟨rfl, -⟩ | ⟨st', hr, hf'⟩
    · exact absurd (List.mem_cons_self _ _) hmid
    · rw [hr, ih hs' hf' h' fun hm => hmid (List.mem_cons_of_mem _ hm)]

/-- **The locked phase of `WhatChanged` is atomic**: in every schedule that runs from a new
engine, between a `WhatChanged`'s `Lock` and its `Unlock` exactly its own `ClearTaints` and
read happen, and no step of any other caller. -/
theorem fetch_phase_atomic (pre mid post : List TxEvent) (j : Nat) {r : Except String TxState}
    (h : TxState.init.run (pre ++ .lock j :: (mid ++ .unlock j :: post)) = some r)
    (hmid : .unlock j ∉ mid) : mid = [.clearTaints j, .read j] := by
  obtain ⟨s, -, hs, h₁⟩ := TxState.inv_init.run_append h
  obtain ⟨s', he, hs', h₂⟩ := hs.run_cons h₁
  obtain ⟨-, -, ⟨⟩⟩ := TxState.step_lock he
  exact hs'.rest_of_run rfl h₂ hmid

theorem fetch_phase_atomic_after_apply :
    (∃ r, TxState.init.run ([.wLock 1, .write 1 [⟨"A", ⟨.fill 1⟩⟩], .wUnlock 1] ++
      .lock 7 :: ([.clearTaints 7, .read 7] ++ .unlock 7 :: [.wLock 2])) = some r) ∧
    TxEvent.unlock 7 ∉ [.clearTaints 7, .read 7] ∧
    [TxEvent.clearTaints 7, .read 7] = [.clearTaints 7, .read 7] := by
  refine ⟨⟨_, (Option.some_get ?_).symm⟩, by decide,
    fetch_phase_atomic [.wLock 1, .write 1 [⟨"A", ⟨.fill 1⟩⟩], .wUnlock 1] _ [.wLock 2] 7
      (Option.some_get ?_).symm (by decide)⟩ <;> decide

/-! ## The taints -/

theorem exceptMap_eq_ok {ε α β : Type} {f : α → β} {x : Except ε α} {b : β}
    (h : x.map f = .ok b) : ∃ a, x = .ok a ∧ f a = b := by
  cases x with
  | error e => cases h
  | ok a => exact ⟨a, rfl, Except.ok.inj h⟩

section Frame

variable {s s' : TxState} {e : TxEvent} (h : s.step e = some (.ok s'))
include h

/-- A step other than its `WUnlock` leaves an `Apply` in its transaction. -/
theorem TxState.mem_applying_step {i : Nat} (he : e ≠ .wUnlock i) (hi : i ∈ s.applying) :
    i ∈ s'.applying := by
  cases e with
  | wLock _ => obtain ⟨-, -, ⟨⟩⟩ := TxState.step_wLock h; exact List.mem_cons_of_mem _ hi
  | write _ _ => obtain ⟨-, ⟨⟩⟩ := TxState.step_write h; exact hi
  | wUnlock _ =>
    obtain ⟨m, -, rfl⟩ := exceptMap_eq_ok (TxState.step_wUnlock h).2.symm
    exact (List.mem_erase_of_ne fun h => he (by rw [h])).2 hi
  | lock _ => obtain ⟨-, -, ⟨⟩⟩ := TxState.step_lock h; exact hi
  | clearTaints _ => obtain ⟨-, ⟨⟩⟩ := TxState.step_clearTaints h; exact hi
  | read _ => obtain ⟨-, ⟨⟩⟩ := TxState.step_read h; exact hi
  | unlock _ => obtain ⟨m, -, rfl⟩ := exceptMap_eq_ok (TxState.step_unlock h).2.symm; exact hi

/-- A step other than a `ClearTaints` keeps every content address tainted. -/
theorem TxState.mem_taintedNodes_step (he : ∀ j, e ≠ .clearTaints j) {k : NodeHash}
    (hk : k ∈ s.taintedNodes) : k ∈ s'.taintedNodes := by
  cases e with
  | wLock _ => obtain ⟨-, -, ⟨⟩⟩ := TxState.step_wLock h; exact hk
  | write _ ts => obtain ⟨-, ⟨⟩⟩ := TxState.step_write h; exact mem_taint_of_mem ts hk
  | wUnlock _ => obtain ⟨m, -, rfl⟩ := exceptMap_eq_ok (TxState.step_wUnlock h).2.symm; exact hk
  | lock _ => obtain ⟨-, -, ⟨⟩⟩ := TxState.step_lock h; exact hk
  | clearTaints j => exact absurd rfl (he j)
  | read _ => obtain ⟨-, ⟨⟩⟩ := TxState.step_read h; exact hk
  | unlock _ => obtain ⟨m, -, rfl⟩ := exceptMap_eq_ok (TxState.step_unlock h).2.symm; exact hk

end Frame

/-- A run with no `WUnlock` of an `Apply` in its transaction leaves it there, and a run with
no `ClearTaints` keeps every content address tainted. -/
theorem TxState.run_keeps {s s' : TxState} {es : List TxEvent} (h : s.run es = some (.ok s')) :
    (∀ i, .wUnlock i ∉ es → i ∈ s.applying → i ∈ s'.applying) ∧
      ((∀ j, .clearTaints j ∉ es) → ∀ k, k ∈ s.taintedNodes → k ∈ s'.taintedNodes) := by
  induction es generalizing s with
  | nil => cases Option.some.inj h; exact ⟨fun _ _ => id, fun _ _ => id⟩
  | cons e es ih =>
    simp only [TxState.run] at h
    rcases he : s.step e with _ | _ | s₁ <;> rw [he] at h
    · cases h
    · cases h
    refine ⟨fun i hi hmem => (ih h).1 i (fun hm => hi (List.mem_cons_of_mem _ hm))
        (TxState.mem_applying_step he (fun he' => hi (he' ▸ List.mem_cons_self _ _)) hmem),
      fun hc k hk => (ih h).2 (fun j hj => hc j (List.mem_cons_of_mem _ hj)) k
        (TxState.mem_taintedNodes_step he (fun j he' => hc j (he' ▸ List.mem_cons_self _ _)) hk)⟩

/-- **Every taint reaches the next read, after its transaction.** In every schedule that
runs from a new engine, a node a `GraphWriter` call of an `Apply` taints is handed out, by
content address, by the first `ClearTaints` after it; and that `Apply` has released its
`WLock`, its transaction committed or rolled back, before that `ClearTaints`. -/
theorem taint_handed_off (pre mid post : List TxEvent) (i j : Nat) (ts : List RawNode)
    {r : Except String TxState}
    (h : TxState.init.run (pre ++ .write i ts :: (mid ++ .clearTaints j :: post)) = some r)
    (hmid : ∀ j', .clearTaints j' ∉ mid) :
    .wUnlock i ∈ mid ∧ ∃ s, TxState.init.run (pre ++ .write i ts :: mid) = some (.ok s) ∧
      ∀ n ∈ ts, ∃ n' ∈ clearTaints s.taintedNodes, n'.contentAddress = n.contentAddress := by
  obtain ⟨s₀, h₀, hs₀, h₁⟩ := TxState.inv_init.run_append h
  obtain ⟨s₁, hw, hs₁, h₂⟩ := hs₀.run_cons h₁
  obtain ⟨s₂, hmid', hs₂, h₃⟩ := hs₁.run_append h₂
  obtain ⟨_, hc, -⟩ := hs₂.run_cons h₃
  -- the write: `Apply` `i` is in its transaction, and it taints `ts`
  obtain ⟨hi, he⟩ := TxState.step_write hw
  cases Except.ok.inj he
  -- the `ClearTaints`: the lock is held, so no `Apply` is in its transaction
  have happ : s₂.applying = [] := hs₂.exclusive (by rw [(TxState.step_clearTaints hc).1]; rfl)
  have hkeep := TxState.run_keeps hmid'
  refine ⟨by_contra fun hu => ?_, s₂, ?_, fun n hn => ?_⟩
  · exact List.not_mem_nil _ (happ ▸ hkeep.1 i hu hi)
  · simp only [TxState.run_append_of_ok h₀, TxState.run, hw]
    exact hmid'
  · exact hs₂.keyed.exists_mem_clearTaints (hkeep.2 hmid _ (mem_taint_self hn))

theorem taint_handed_off_interleaved :
    (∃ r, TxState.init.run ([.wLock 1] ++ .write 1 [⟨"A", ⟨.fill 1⟩⟩] ::
      ([.wLock 2, .write 2 [⟨"B", ⟨.fill 2⟩⟩], .wUnlock 1, .wUnlock 2, .lock 7] ++
        .clearTaints 7 :: [.read 7, .unlock 7])) = some r) ∧
    (∀ j', TxEvent.clearTaints j' ∉
      [.wLock 2, .write 2 [⟨"B", ⟨.fill 2⟩⟩], .wUnlock 1, .wUnlock 2, .lock 7]) ∧
    TxEvent.wUnlock 1 ∈ [.wLock 2, .write 2 [⟨"B", ⟨.fill 2⟩⟩], .wUnlock 1, .wUnlock 2, .lock 7] ∧
    ∃ s, TxState.init.run ([.wLock 1] ++ .write 1 [⟨"A", ⟨.fill 1⟩⟩] ::
      [.wLock 2, .write 2 [⟨"B", ⟨.fill 2⟩⟩], .wUnlock 1, .wUnlock 2, .lock 7]) = some (.ok s) ∧
      ∀ n ∈ [(⟨"A", ⟨.fill 1⟩⟩ : RawNode)],
        ∃ n' ∈ clearTaints s.taintedNodes, n'.contentAddress = n.contentAddress := by
  have hmid : ∀ j', TxEvent.clearTaints j' ∉
      [.wLock 2, .write 2 [⟨"B", ⟨.fill 2⟩⟩], .wUnlock 1, .wUnlock 2, .lock 7] := by simp
  refine ⟨⟨_, (Option.some_get ?_).symm⟩, hmid,
    taint_handed_off _ _ [.read 7, .unlock 7] 1 7 _ (Option.some_get ?_).symm hmid⟩ <;> decide

/-! ## No caller in flight is stuck -/

/-- The steps that finish every caller in flight: the `WhatChanged` in its locked phase takes
the rest of its steps and its `Unlock`, and every `Apply` in its transaction its `WUnlock`. -/
def TxState.finish (s : TxState) : List TxEvent :=
  (match s.fetching with
    | some (j, st) => st.rest j ++ [.unlock j]
    | none => []) ++ s.applying.map .wUnlock

/-- The `Apply` calls in their transactions release their side of the mutex one after the
other, the mutex counting them. -/
theorem TxState.run_wUnlocks : ∀ {s : TxState} {l : List Nat}, s.applying = l →
    s.mutex.writers = l.length →
    s.run (l.map .wUnlock) =
      some (.ok { s with mutex := { s.mutex with writers := 0 }, applying := [] })
  | s, [], ha, hw => by
    cases s with
    | mk m t a f => cases m; cases ha; cases hw; rfl
  | s, i :: l, ha, hw => by
    have hi : i ∈ s.applying := ha ▸ List.mem_cons_self i l
    have hstep : s.step (.wUnlock i) = some (.ok { s with
        mutex := { s.mutex with writers := l.length }, applying := l }) := by
      simp only [TxState.step, if_pos hi]
      rw [GraphWRMutex.wUnlock_of_pos (hw ▸ Nat.succ_pos _), ha, List.erase_cons_head, hw]
      rfl
    simp only [List.map_cons, TxState.run, hstep]
    exact TxState.run_wUnlocks rfl rfl

/-- The `WhatChanged` holding the lock takes the rest of its steps and releases the lock. -/
theorem TxState.run_rest_unlock {s : TxState} {j : Nat} {st : FetchStage}
    (hf : s.fetching = some (j, st)) (hl : s.mutex.locked = true) :
    ∃ s', s.run (st.rest j ++ [.unlock j]) = some (.ok s') ∧ s'.applying = s.applying ∧
      s'.fetching = none ∧ s'.mutex = { s.mutex with locked := false } := by
  cases st <;>
    simp [FetchStage.rest, TxState.run, TxState.step, hf, GraphWRMutex.unlock, hl, Except.map]

/-- **No caller in flight is stuck.** From every state a schedule reaches from a new engine,
the callers in flight can all finish: the `WhatChanged` holding the lock takes the rest of
its steps and releases the lock, and every `Apply` in its transaction releases its side, with
no fatal error and no step that has to wait. The mutex is then free again. -/
theorem txState_run_finish {es : List TxEvent} {s : TxState}
    (h : TxState.init.run es = some (.ok s)) :
    ∃ s', s.run s.finish = some (.ok s') ∧ s'.mutex = GraphWRMutex.zero ∧ s'.applying = [] ∧
      s'.fetching = none := by
  obtain ⟨_, he, hs⟩ := TxState.inv_init.run h
  cases Except.ok.inj he
  rcases hf : s.fetching with _ | ⟨j, st⟩
  · -- no `WhatChanged` holds the lock: every `Apply` releases its side
    have hl : s.mutex.locked = false := by rw [hs.locked_eq, hf]; rfl
    refine ⟨{ s with mutex := { s.mutex with writers := 0 }, applying := [] }, ?_, ?_, rfl, hf⟩
    · simp only [TxState.finish, hf, List.nil_append]
      simpa only [hf] using TxState.run_wUnlocks rfl hs.writers_eq
    · show (⟨0, s.mutex.locked⟩ : GraphWRMutex) = ⟨0, false⟩
      rw [hl]
  · -- the `WhatChanged` holding the lock finishes; no `Apply` is in its transaction
    have happ := hs.applying_of_fetching hf
    obtain ⟨s', hr, ha, hf', hm⟩ := TxState.run_rest_unlock hf (hs.locked_of_fetching hf)
    refine ⟨s', ?_, ?_, ha.trans happ, hf'⟩
    · simpa only [TxState.finish, hf, happ, List.map_nil, List.append_nil] using hr
    · rw [hm]
      show (⟨s.mutex.writers, false⟩ : GraphWRMutex) = ⟨0, false⟩
      rw [hs.writers_eq, happ]
      rfl

theorem txState_run_finish_two_applies :
    TxState.init.run [.wLock 1, .wLock 2, .write 1 [⟨"A", ⟨.fill 1⟩⟩]] =
      some (.ok ⟨⟨2, false⟩, taint ∅ [⟨"A", ⟨.fill 1⟩⟩], [2, 1], none⟩) ∧
    ∃ s', TxState.run ⟨⟨2, false⟩, taint ∅ [⟨"A", ⟨.fill 1⟩⟩], [2, 1], none⟩
        (TxState.finish ⟨⟨2, false⟩, taint ∅ [⟨"A", ⟨.fill 1⟩⟩], [2, 1], none⟩) = some (.ok s') ∧
      s'.mutex = GraphWRMutex.zero ∧ s'.applying = [] ∧ s'.fetching = none :=
  have h : TxState.init.run [.wLock 1, .wLock 2, .write 1 [⟨"A", ⟨.fill 1⟩⟩]] =
      some (.ok ⟨⟨2, false⟩, taint ∅ [⟨"A", ⟨.fill 1⟩⟩], [2, 1], none⟩) := rfl
  ⟨h, txState_run_finish h⟩

end DigitalTwin
