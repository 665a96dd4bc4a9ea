/-
Runs of the engine against a backend that may answer anything.

An `Apply` reaches the engine only through the taints its writer records; its writes go to
the backend, which this module does not look at. A `WhatChanged` drains the taints and gets
some answer to its read: assemblies, an error, or a panic. A run is any sequence of the
two, and every result here holds for every run from every engine state, whatever the
backend answers each time.

`whatChanged_cases` says once everything one call can do to the snapshot and the taints;
the rest is induction over the run. The main result, `run_linked`, is the hash chain the
subscribers of `GraphChanged` check: the successful changesets of a run link up from the
starting snapshot's hash, failed calls in between or not.
-/
import DigitalTwin.Engine

set_option autoImplicit false

namespace DigitalTwin

/-- One call, as the engine sees it. -/
inductive Event (Value : Type)
  | /-- An `Apply`, committed or not: its writer tainted these nodes. -/
    apply (taints : List RawNode)
  | /-- A `WhatChanged`, whose read of the drained taints the backend answered with
    `fetch`. -/
    whatChanged (fetch : List RawNode → Except Failure (List (AssemblyGraph Value)))

/-- The chain of graph hashes: each changeset starts where the previous one ended, and the
first where `h` says. -/
def LinkedFrom {Value : Type} : ForestHash → List (GraphChanged Value) → Prop
  | _, [] => True
  | h, c :: cs => c.graphBefore = h ∧ LinkedFrom c.graphAfter cs

section Run

variable (sha1 : List UInt8 → ContentAddress) {Value : Type} (codec : Codec Value)

/-- **Everything a sweep can do**: fail and leave the engine as it was, or succeed with a
changeset that starts at the stored snapshot's hash and ends at the new snapshot's. -/
theorem sweep_cases (e : Engine) (ts : List RawNode) (as : List (AssemblyGraph Value)) :
    let r := e.sweep sha1 codec ts as
    (r.1.succeeded = none ∧ r.2 = e) ∨
      ∃ c, r.1 = .ret c none ∧ c.graphBefore = Snapshot.graphHash sha1 e.snapshot ∧
        c.graphAfter = Snapshot.graphHash sha1 r.2.snapshot ∧ r.2.taintedNodes = e.taintedNodes := by
  simp only [Engine.sweep]
  split
  · exact .inl ⟨rfl, rfl⟩
  · split
    · exact .inl ⟨rfl, rfl⟩
    · exact .inr ⟨_, rfl, rfl, rfl, rfl⟩

/-- **Everything a `WhatChanged` can do**: drain the taints; then either fail with the
snapshot untouched, or succeed with a changeset from the old snapshot's hash to the new
one's. -/
theorem whatChanged_cases (e : Engine)
    (fetch : List RawNode → Except Failure (List (AssemblyGraph Value))) :
    let r := e.whatChanged sha1 codec fetch
    r.2.taintedNodes = ∅ ∧
      ((r.1.succeeded = none ∧ r.2.snapshot = e.snapshot) ∨
        ∃ c, r.1 = .ret c none ∧ c.graphBefore = Snapshot.graphHash sha1 e.snapshot ∧
          c.graphAfter = Snapshot.graphHash sha1 r.2.snapshot) := by
  simp only [Engine.whatChanged]
  split
  · exact ⟨rfl, .inl ⟨rfl, rfl⟩⟩
  · exact ⟨rfl, .inl ⟨rfl, rfl⟩⟩
  · rcases sweep_cases sha1 codec { e with taintedNodes := ∅ } _ _ with ⟨h1, h2⟩ | ⟨c, h1, h2, h3, h4⟩
    · exact ⟨by rw [h2], .inl ⟨h1, by rw [h2]⟩⟩
    · exact ⟨h4, .inr ⟨c, h1, h2, h3⟩⟩

/-- **A failed call loses its taints.** The taints are drained before the read; when the
read then fails the snapshot is kept but the taints are not put back, so the next call,
with no `Apply` in between, reads nothing: here it reports no created assembly where the
failed call, had its read succeeded, would have reported one. -/
theorem whatChanged_failure_drops_taints :
    let A : RawNode := ⟨"A", ⟨.fill 1⟩⟩
    let e : Engine := ⟨∅, taint ∅ [A]⟩
    let read := fetchPartialAssemblies blockDigest rawCodec ⟨[A], []⟩
    let failed := e.whatChanged blockDigest rawCodec
      fun _ => .error (.error "execute read: connection reset")
    failed.2.snapshot = e.snapshot ∧ failed.2.taintedNodes.entries ≠ e.taintedNodes.entries ∧
      ((failed.2.whatChanged blockDigest rawCodec read).1.succeeded.map
        fun c => c.created.length) = some 0 ∧
      ((e.whatChanged blockDigest rawCodec read).1.succeeded.map
        fun c => c.created.length) = some 1 :=
  ⟨rfl, by decide, by decide, by decide⟩

/-- One call: an `Apply` adds its taints; a `WhatChanged` reports its outcome. -/
def Engine.step (e : Engine) : Event Value → Option (Outcome (GraphChanged Value)) × Engine
  | .apply ts => (none, { e with taintedNodes := taint e.taintedNodes ts })
  | .whatChanged fetch =>
    let r := e.whatChanged sha1 codec fetch
    (some r.1, r.2)

/-- A run: the outcome of each `WhatChanged` with the engine right after it, and the
engine at the end. -/
def Engine.run (e : Engine) : List (Event Value) →
    List (Outcome (GraphChanged Value) × Engine) × Engine
  | [] => ([], e)
  | ev :: evs =>
    let r := e.step sha1 codec ev
    let rest := r.2.run evs
    ((r.1.map fun o => (o, r.2)).toList ++ rest.1, rest.2)

/-- The successful `WhatChanged` calls of a run: each changeset, with the engine after it. -/
def successes (os : List (Outcome (GraphChanged Value) × Engine)) :
    List (GraphChanged Value × Engine) :=
  os.filterMap fun p => p.1.succeeded.map fun c => (c, p.2)

/-- **The hash chain over every run.** From any engine state and whatever the backend
answers, the successful changesets link up: the first starts at the hash of the snapshot
the run started from, each later one where the previous ended, and each ends at the hash
of the snapshot it left behind. -/
theorem run_linked (e : Engine) (evs : List (Event Value)) :
    let s := successes ((e.run sha1 codec evs).1)
    LinkedFrom (Snapshot.graphHash sha1 e.snapshot) (s.map (·.1)) ∧
      ∀ p ∈ s, p.1.graphAfter = Snapshot.graphHash sha1 p.2.snapshot := by
  induction evs generalizing e with
  | nil => exact ⟨trivial, fun _ h => by simp [Engine.run, successes] at h⟩
  | cons ev evs ih =>
    cases ev with
    | apply ts => simpa [Engine.run, Engine.step] using ih { e with taintedNodes := taint e.taintedNodes ts }
    | whatChanged fetch =>
      obtain ⟨ihl, iha⟩ := ih (e.whatChanged sha1 codec fetch).2
      rcases (whatChanged_cases sha1 codec e fetch).2 with ⟨hf, hs⟩ | ⟨c, ho, hb, ha⟩
      · simp only [Engine.run, Engine.step, Option.map_some', Option.toList_some,
          List.singleton_append, successes, List.filterMap_cons, hf, Option.map_none']
        rw [← hs]
        exact ⟨ihl, iha⟩
      · simp only [Engine.run, Engine.step, Option.map_some', Option.toList_some,
          List.singleton_append, successes, List.filterMap_cons, ho, Outcome.succeeded,
          List.map_cons, LinkedFrom, List.mem_cons, forall_eq_or_imp]
        exact ⟨⟨hb, ha ▸ ihl⟩, ha, iha⟩

end Run

end DigitalTwin
