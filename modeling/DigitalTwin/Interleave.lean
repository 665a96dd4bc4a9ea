/-
Concurrent callers of the engine.

`WhatChanged` holds the graph's read lock only inside `fetchTaintedAssemblies`: it drains
the taints and reads their assemblies there, then releases the lock and does the rest (the
diff, the changeset, `Update`, `GraphHash`) with no lock at all. `Apply` holds the write
lock for its whole transaction, which excludes the read lock. So a schedule is a list of
atomic steps: an `Apply`, the locked phase of some caller's `WhatChanged`, or the unlocked
phase of it. `System.run` executes a schedule, keeping each call's drained taints and read
between its two phases.

Two calls in flight at once can lose an update: the call that fetched first can sweep last
and write the older hash over the newer one (`overlapping_whatChanged_not_serializable`).
With at most one `WhatChanged` in flight at a time every schedule is serializable: `settle`
maps a state of the system to the state of the serial engine in which the call in flight,
if any, has already finished; each step of the system is then one step, or none, of the
serial engine (`settle_step`), and a whole schedule is the serial run of its calls, each
`WhatChanged` at its locked phase (`oneAtATime_serializable`).
-/
import Mathlib.Data.List.Permutation
import DigitalTwin.World

set_option autoImplicit false

namespace DigitalTwin

/-! ## The two phases of `WhatChanged` -/

/-- What `fetchTaintedAssemblies` hands to the rest of `WhatChanged`: the drained taints
and the read's answer. -/
abbrev Fetched (Value : Type) := List RawNode × Except Failure (List (AssemblyGraph Value))

section Phases

variable (sha1 : List UInt8 → ContentAddress) {Value : Type} (codec : Codec Value)

/-- The locked phase of `WhatChanged`: drain the taints and read. -/
def Engine.fetchPhase (e : Engine)
    (fetch : List RawNode → Except Failure (List (AssemblyGraph Value))) :
    Fetched Value × Engine :=
  let taints := clearTaints e.taintedNodes
  ((taints, fetch taints), { e with taintedNodes := ∅ })

/-- The unlocked phase of `WhatChanged`: report a failed read, or sweep. -/
def Engine.finish (e : Engine) (p : Fetched Value) : Outcome (GraphChanged Value) × Engine :=
  match p.2 with
  | .error (.panic m) => (.panic m, e)
  | .error (.error m) => (.ret .empty (some ("fetch tainted assemblies: " ++ m)), e)
  | .ok assemblies => e.sweep sha1 codec p.1 assemblies

/-- `WhatChanged` is its locked phase followed by its unlocked one. -/
theorem whatChanged_eq_finish (e : Engine)
    (fetch : List RawNode → Except Failure (List (AssemblyGraph Value))) :
    e.whatChanged sha1 codec fetch =
      (e.fetchPhase fetch).2.finish sha1 codec (e.fetchPhase fetch).1 := rfl

/-- The unlocked phase reads and writes the snapshot only: it keeps whatever taints the
engine holds, and what it computes does not depend on them. -/
theorem finish_taintedNodes (e : Engine) (t : AList fun _ : NodeHash => RawNode)
    (p : Fetched Value) :
    Engine.finish sha1 codec { e with taintedNodes := t } p =
      ((e.finish sha1 codec p).1, { (e.finish sha1 codec p).2 with taintedNodes := t }) := by
  simp only [Engine.finish, Engine.sweep]
  split
  · rfl
  · rfl
  · split
    · rfl
    · split <;> rfl

/-- The unlocked phase writes nothing but the snapshot. -/
theorem finish_eq_snapshot (e : Engine) (p : Fetched Value) :
    (e.finish sha1 codec p).2 = { e with snapshot := (e.finish sha1 codec p).2.snapshot } := by
  simp only [Engine.finish, Engine.sweep]
  split
  · rfl
  · rfl
  · split
    · rfl
    · split <;> rfl

end Phases

/-! ## `Apply` and the snapshot -/

/-- `Apply` writes the graph and the taints, never the snapshot. -/
theorem apply_engine (w : World) (ops : List Op) (commit : Bool) :
    (w.apply ops commit).2.engine =
      { w.engine with taintedNodes := (w.apply ops commit).2.engine.taintedNodes } := by
  simp only [World.apply]
  split
  · rfl
  · split <;> rfl

/-- What `Apply` does to the graph and the taints does not depend on the snapshot. -/
theorem apply_snapshot (w : World) (ops : List Op) (commit : Bool) (S : Snapshot) :
    World.apply ⟨w.graph, { w.engine with snapshot := S }⟩ ops commit =
      ((w.apply ops commit).1,
        ⟨(w.apply ops commit).2.graph, { (w.apply ops commit).2.engine with snapshot := S }⟩) := by
  simp only [World.apply]
  split
  · rfl
  · split <;> rfl

section Commute

variable (sha1 : List UInt8 → ContentAddress) {Value : Type} (codec : Codec Value)

/-- **An `Apply` commutes with the unlocked phase of a `WhatChanged`.** Finishing the call
after the `Apply` reports what finishing it before would have, and both orders end in the
same graph, snapshot and taints. -/
theorem apply_finish_comm (w : World) (ops : List Op) (commit : Bool) (p : Fetched Value) :
    let w1 := (w.apply ops commit).2
    let F := w.engine.finish sha1 codec p
    w1.engine.finish sha1 codec p = (F.1, { F.2 with taintedNodes := w1.engine.taintedNodes }) ∧
      (World.apply ⟨w.graph, F.2⟩ ops commit).2 =
        ⟨w1.graph, { F.2 with taintedNodes := w1.engine.taintedNodes }⟩ := by
  intro w1 F
  refine ⟨by rw [apply_engine, finish_taintedNodes], ?_⟩
  rw [finish_eq_snapshot, apply_snapshot]

end Commute

/-! ## Schedules -/

/-- One atomic step of a schedule. -/
inductive Step
  | /-- A whole `Apply`, under the write lock. -/
    apply (ops : List Op) (commit : Bool)
  | /-- The locked phase of caller `caller`'s `WhatChanged`. -/
    fetch (caller : Nat)
  | /-- The unlocked phase of caller `caller`'s `WhatChanged`. -/
    sweep (caller : Nat)

/-- The engine, the graph, each caller's call between its phases, and the outcomes the
`WhatChanged` calls returned so far, with their callers. -/
structure System (Value : Type) where
  world : World
  inFlight : AList fun _ : Nat => Fetched Value
  returned : List (Nat × Outcome (GraphChanged Value))

/-- Nothing in flight, nothing returned yet. -/
def System.start {Value : Type} (w : World) : System Value := ⟨w, ∅, []⟩

section Schedule

variable (sha1 : List UInt8 → ContentAddress) {Value : Type} (codec : Codec Value)

/-- Run one step. A caller starts a `WhatChanged` only when it has none in flight, and
finishes only the one it has; any other step is not part of a schedule. -/
def System.step (s : System Value) : Step → Option (System Value)
  | .apply ops commit => some { s with world := (s.world.apply ops commit).2 }
  | .fetch i =>
    if i ∈ s.inFlight then none
    else
      let r := s.world.engine.fetchPhase (fetchPartialAssemblies sha1 codec s.world.graph)
      some { s with world := { s.world with engine := r.2 }, inFlight := s.inFlight.insert i r.1 }
  | .sweep i =>
    match s.inFlight.lookup i with
    | none => none
    | some p =>
      let r := s.world.engine.finish sha1 codec p
      some ⟨{ s.world with engine := r.2 }, s.inFlight.erase i, s.returned ++ [(i, r.1)]⟩

/-- Run a schedule. -/
def System.run (s : System Value) (steps : List Step) : Option (System Value) :=
  steps.foldlM (System.step sha1 codec) s

/-! ## Serial executions -/

/-- A call as a serial caller makes it. -/
inductive Call
  | apply (ops : List Op) (commit : Bool)
  | whatChanged (caller : Nat)

/-- The serial engine: every call runs whole, the outcomes of `WhatChanged` are collected. -/
def serialStep (st : World × List (Nat × Outcome (GraphChanged Value))) :
    Call → World × List (Nat × Outcome (GraphChanged Value))
  | .apply ops commit => ((st.1.apply ops commit).2, st.2)
  | .whatChanged i =>
    let r := st.1.whatChanged sha1 codec
    (r.2, st.2 ++ [(i, r.1)])

/-- A serial execution of `calls` from `w`. -/
def serialRun (w : World) (calls : List Call) : World × List (Nat × Outcome (GraphChanged Value)) :=
  calls.foldl (serialStep sha1 codec) (w, [])

end Schedule

/-- The call a step starts: an `Apply`, or the `WhatChanged` whose locked phase it is. -/
def Step.call : Step → Option Call
  | .apply ops commit => some (.apply ops commit)
  | .fetch i => some (.whatChanged i)
  | .sweep _ => none

/-- The calls of a schedule, in the order they start. -/
def calls (steps : List Step) : List Call := steps.filterMap Step.call

/-- The caller with a `WhatChanged` in flight, after one more step, when at most one is in
flight at a time; `none` for a step that would start a second or finish another's. -/
def Step.track : Option Nat → Step → Option (Option Nat)
  | o, .apply _ _ => some o
  | none, .fetch i => some (some i)
  | some _, .fetch _ => none
  | some i, .sweep j => if i = j then some none else none
  | none, .sweep _ => none

/-- At most one `WhatChanged` in flight at a time, and none left in flight at the end. -/
def oneAtATime (steps : List Step) : Prop := steps.foldlM Step.track none = some none

instance (steps : List Step) : Decidable (oneAtATime steps) :=
  inferInstanceAs (Decidable (_ = _))

/-- The graph hashes of the changeset caller `i` got: `none` if it got nothing, `some none`
if its call failed. -/
def hashesOf {Value : Type} (rs : List (Nat × Outcome (GraphChanged Value))) (i : Nat) :
    Option (Option (ForestHash × ForestHash)) :=
  (rs.lookup i).map fun o => o.succeeded.map fun c => (c.graphBefore, c.graphAfter)

/-- **Overlapping calls are not serializable.** From the empty graph: an `Apply` adds the
edge `R → B`; caller 1 fetches (it reads `R → B`); an `Apply` adds `R → C`; caller 2 fetches
(it reads `R → B, C`), sweeps, then caller 1 sweeps. Caller 2 gets the changeset from the
empty snapshot's hash `h₀` to `h₂`, and caller 1 the one from `h₂` to `h₁`: it writes its
older hash of `R`'s component over caller 2's newer one, and the stored snapshot no longer
matches the graph. No serial order of the four calls hands both callers what they got. -/
theorem overlapping_whatChanged_not_serializable :
    let R : RawNode := ⟨"R", ⟨.fill 1⟩⟩
    let schedule : List Step := [.apply [.assertEdge R ⟨"B", ⟨.fill 2⟩⟩] true, .fetch 1,
      .apply [.assertEdge R ⟨"C", ⟨.fill 3⟩⟩] true, .fetch 2, .sweep 2, .sweep 1]
    let h₀ : ForestHash := ⟨.fill 0⟩
    let h₁ : ForestHash := ⟨.fill 6⟩
    let h₂ : ForestHash := ⟨.fill 12⟩
    ∃ e s full, newEngine blockDigest rawCodec Graph.empty = .ok e ∧
      (System.start ⟨Graph.empty, e⟩).run blockDigest rawCodec schedule = some s ∧
      hashesOf s.returned 1 = some (some (h₂, h₁)) ∧ hashesOf s.returned 2 = some (some (h₀, h₂)) ∧
      captureSnapshot blockDigest rawCodec s.world.graph = .ok full ∧
      full.entries ≠ s.world.engine.snapshot.entries ∧
      ∀ cs : List Call, cs.Perm (calls schedule) →
        let r := serialRun blockDigest rawCodec ⟨Graph.empty, e⟩ cs
        hashesOf r.2 1 ≠ some (some (h₂, h₁)) ∨ hashesOf r.2 2 ≠ some (some (h₀, h₂)) := by
  refine ⟨⟨∅, ∅⟩, _, _, rfl, rfl, by decide, by decide, rfl, by decide, fun cs hcs => ?_⟩
  have hmem := List.mem_permutations'.mpr hcs
  clear hcs
  revert cs
  decide

/-! ## One call at a time -/

section Settle

variable (sha1 : List UInt8 → ContentAddress) {Value : Type} (codec : Codec Value)

/-- The serial state a system with at most one call in flight stands for: that call, if
any, finished now. -/
def System.settle (s : System Value) : World × List (Nat × Outcome (GraphChanged Value)) :=
  match s.inFlight.entries with
  | [] => (s.world, s.returned)
  | ⟨i, p⟩ :: _ =>
    let r := s.world.engine.finish sha1 codec p
    ({ s.world with engine := r.2 }, s.returned ++ [(i, r.1)])

/-- With exactly the caller `o` in flight, the entries are that caller's call. -/
theorem entries_of_keys {s : System Value} {o : Option Nat} (h : s.inFlight.keys = o.toList) :
    (o = none ∧ s.inFlight.entries = []) ∨
      ∃ i p, o = some i ∧ s.inFlight.entries = [⟨i, p⟩] := by
  rcases o with _ | i
  · exact .inl ⟨rfl, List.eq_nil_of_map_eq_nil h⟩
  · obtain ⟨⟨j, p⟩, l, he, rfl, hl⟩ := List.map_eq_cons_iff.mp h
    exact .inr ⟨j, p, rfl, by rw [he, List.eq_nil_of_map_eq_nil hl]⟩

/-- **One step of a one-at-a-time schedule is a serial step, or none, of the state it
stands for.** The step is possible; the caller in flight afterwards is the one `track`
says; and settling after the step is settling before it, then running the call the step
starts. -/
theorem settle_step (s : System Value) (o o' : Option Nat) (st : Step)
    (hk : s.inFlight.keys = o.toList) (ht : Step.track o st = some o') :
    ∃ s', s.step sha1 codec st = some s' ∧ s'.inFlight.keys = o'.toList ∧
      s'.settle sha1 codec = st.call.toList.foldl (serialStep sha1 codec) (s.settle sha1 codec) := by
  rcases entries_of_keys hk with ⟨rfl, he⟩ | ⟨i, p, rfl, he⟩ <;> cases st
  case inl.intro.apply ops commit =>
    obtain rfl : o' = none := (Option.some.inj ht).symm
    refine ⟨_, rfl, hk, ?_⟩
    simp only [System.settle, he]
    rfl
  case inl.intro.fetch j =>
    obtain rfl : o' = some j := (Option.some.inj ht).symm
    have hj : j ∉ s.inFlight := by rw [AList.mem_keys, hk]; exact List.not_mem_nil _
    refine ⟨_, if_neg hj, ?_, ?_⟩
    · simp [AList.keys_insert, hk]
    · simp only [System.settle, AList.insert_entries, he, List.kerase_nil, Step.call,
        Option.toList_some, List.foldl_cons, List.foldl_nil, serialStep, World.whatChanged,
        whatChanged_eq_finish]
  case inl.intro.sweep j => exact absurd ht (by simp [Step.track])
  case inr.intro.intro.intro.apply ops commit =>
    obtain rfl : o' = some i := (Option.some.inj ht).symm
    refine ⟨_, rfl, hk, ?_⟩
    obtain ⟨h1, h2⟩ := apply_finish_comm sha1 codec s.world ops commit p
    simp only [System.settle, he, Step.call, Option.toList_some, List.foldl_cons, List.foldl_nil,
      serialStep, h1, h2]
  case inr.intro.intro.intro.fetch j => exact absurd ht (by simp [Step.track])
  case inr.intro.intro.intro.sweep j =>
    obtain ⟨rfl, rfl⟩ : i = j ∧ o' = none := by
      simp only [Step.track] at ht
      split at ht <;> simp_all
    have hl : s.inFlight.lookup i = some p := by simp [AList.lookup, he]
    refine ⟨_, by simp only [System.step, hl]; exact rfl, by simp [AList.keys_erase, hk], ?_⟩
    have hx : (s.inFlight.erase i).entries = [] :=
      show List.kerase i s.inFlight.entries = [] by rw [he]; exact List.kerase_cons_eq rfl
    simp only [System.settle, hx, he, Step.call, Option.toList_none, List.foldl_nil]

/-- **A one-at-a-time schedule settles to the serial run of its calls**, from any state
with the caller `o` in flight: it runs to the end, leaves no call in flight, and what it
stands for then is the serial run of its calls from what it stood for at the start. -/
theorem settle_run (s : System Value) (o : Option Nat) (steps : List Step)
    (hk : s.inFlight.keys = o.toList) (h : steps.foldlM Step.track o = some none) :
    ∃ s', s.run sha1 codec steps = some s' ∧ s'.inFlight.keys = [] ∧
      s'.settle sha1 codec = (calls steps).foldl (serialStep sha1 codec) (s.settle sha1 codec) := by
  induction steps generalizing s o with
  | nil =>
    obtain rfl : o = none := Option.some.inj h
    exact ⟨s, rfl, hk, rfl⟩
  | cons st steps ih =>
    obtain ⟨o', ht, hrest⟩ := Option.bind_eq_some.mp h
    obtain ⟨s1, hs1, hk1, hset1⟩ := settle_step sha1 codec s o o' st hk ht
    obtain ⟨s', hs', hk', hset'⟩ := ih s1 o' hk1 hrest
    refine ⟨s', by simpa [System.run, hs1] using hs', hk', ?_⟩
    rw [hset', hset1]
    simp only [calls, List.filterMap_cons]
    cases st.call <;> rfl

/-- **With one `WhatChanged` in flight at a time, every schedule is serializable.** However
the `Apply` calls fall around the two phases of each `WhatChanged`, the schedule runs to
the end, and the engine, the graph and the changeset each caller got are those of the serial
run of the same calls, each `WhatChanged` at its locked phase. -/
theorem oneAtATime_serializable (w : World) (steps : List Step) (h : oneAtATime steps) :
    ∃ s, (System.start w).run sha1 codec steps = some s ∧ s.inFlight.entries = [] ∧
      (s.world, s.returned) = serialRun sha1 codec w (calls steps) := by
  obtain ⟨s, hs, hk, hset⟩ := settle_run sha1 codec (System.start w) none steps rfl h
  have he : s.inFlight.entries = [] := List.eq_nil_of_map_eq_nil hk
  refine ⟨s, hs, he, ?_⟩
  simpa [System.settle, he] using hset

end Settle

/-- The schedule of `overlapping_whatChanged_not_serializable` with caller 2 waiting for
caller 1 to finish: the second `Apply` still falls between caller 1's two phases. -/
theorem oneAtATime_serializable_apply_mid_call :
    let R : RawNode := ⟨"R", ⟨.fill 1⟩⟩
    let steps : List Step := [.apply [.assertEdge R ⟨"B", ⟨.fill 2⟩⟩] true, .fetch 1,
      .apply [.assertEdge R ⟨"C", ⟨.fill 3⟩⟩] true, .sweep 1, .fetch 2, .sweep 2]
    oneAtATime steps ∧ ∃ s, (System.start ⟨Graph.empty, ⟨∅, ∅⟩⟩).run blockDigest rawCodec steps =
      some s ∧ s.inFlight.entries = [] ∧
      (s.world, s.returned) = serialRun blockDigest rawCodec ⟨Graph.empty, ⟨∅, ∅⟩⟩ (calls steps) :=
  ⟨by decide, oneAtATime_serializable blockDigest rawCodec _ _ (by decide)⟩

end DigitalTwin
