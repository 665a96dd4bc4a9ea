/-
The engine running against the Neo4j model: `Apply` writes the graph in one transaction,
`WhatChanged` reads it with `fetchPartialAssemblies`.

A compilation is a function over a `GraphWriter`, free to choose its next call from the
counts `RetractEdges` returns; whatever it chooses, what reaches the graph is the list of
calls it made and whether it returned `nil`. That list and that flag are what `apply`
takes. The writer taints the engine as each call runs, inside the transaction but outside
its rollback, so a compilation that fails still leaves its taints behind.

The results here are about the per-taint query. Its first branch is `(root)-[*]->(target)`,
a walk of at least one edge, and its second only matches a root with no edges at all, so a
tainted node that is a root with children matches neither: `taintQuery_root_with_children`.
`WhatChanged` then reads nothing for it, and since it is still a dirty root that the stored
snapshot holds, `PartialDiff` reports its component removed though the graph still has it.
-/
import DigitalTwin.Sweep

set_option autoImplicit false

namespace DigitalTwin

/-- One `GraphWriter` call of a compilation, after `FormatNode`. -/
inductive Op
  | assertNode (node : RawNode)
  | retractNode (node : RawNode)
  | assertEdge (source target : RawNode)
  | retractEdges (node : RawNode) (label : String)

/-- Run one writer call: the graph after it and the nodes it tainted, or its panic. -/
def Graph.runOp (g : Graph) : Op → Except String (Graph × List RawNode)
  | .assertNode n => g.assertNode n
  | .retractNode n => g.retractNode n
  | .assertEdge s t => g.assertEdge s t
  | .retractEdges n l => let r := g.retractEdges n l; .ok (r.1, r.2.1)

/-- The engine and the graph it maintains. -/
structure World where
  graph : Graph
  engine : Engine

section World

variable (sha1 : List UInt8 → ContentAddress) {Value : Type} (codec : Codec Value)

/-- The transaction of `Apply`: run the calls in order, tainting as each returns; stop at
the first panic. The result is the graph the transaction would commit, or the panic, each
with the taints recorded by then. -/
def transact (g : Graph) (m : AList fun _ : NodeHash => RawNode) :
    List Op → (Except String Graph) × (AList fun _ : NodeHash => RawNode)
  | [] => (.ok g, m)
  | op :: ops =>
    match g.runOp op with
    | .error p => (.error p, m)
    | .ok (g', ts) => transact g' (taint m ts) ops

/-- `Engine.Apply`: the compilation's calls in one transaction, committed if it returned
`nil` and rolled back otherwise. The taints stay either way. -/
def World.apply (w : World) (ops : List Op) (commit : Bool) : Outcome Unit × World :=
  let t := transact w.graph w.engine.taintedNodes ops
  let e := { w.engine with taintedNodes := t.2 }
  match t.1 with
  | .error p => (.panic p, ⟨w.graph, e⟩)
  | .ok g =>
    if commit then (.ret () none, ⟨g, e⟩)
    else (.ret () (some "neo4j execute: the compilation failed"), ⟨w.graph, e⟩)

/-- `Engine.WhatChanged` against the current graph. -/
def World.whatChanged (w : World) : Outcome (GraphChanged Value) × World :=
  let r := w.engine.whatChanged sha1 codec (fetchPartialAssemblies sha1 codec w.graph)
  (r.1, { w with engine := r.2 })

/-! ## The per-taint query misses a root with children -/

/-- A root is no edge's target, so no walk reaches it. -/
theorem not_mem_successors_of_isRoot (g : Graph) (t : RawNode) (ht : g.isRoot t = true)
    (xs : List RawNode) : t ∉ g.successors xs := by
  simp only [Graph.successors, List.mem_map, List.mem_filter, not_exists, not_and]
  intro e he het
  simp only [Graph.isRoot, List.all_eq_true, bne_iff_ne, ne_eq] at ht
  exact ht e he.1 het

/-- **The per-taint query finds nothing for a root with children**: no walk of one edge
or more reaches a root, and the isolated-root branch wants no edges at all. -/
theorem taintQuery_root_with_children (g : Graph) (t : RawNode) (ht : g.isRoot t = true)
    (hout : g.hasOut t = true) : g.taintQuery t = [] := by
  have hr : ∀ r, g.reaches r t = false := fun r => by
    simpa [Graph.reaches] using not_mem_successors_of_isRoot g t ht _
  simp [Graph.taintQuery, hr, hout]

/-- A fold over taints that meets only empty query results leaves its accumulator alone. -/
theorem foldlM_nested_nil {ε σ α β : Type} (q : α → List β) (f : σ → β → Except ε σ)
    (ts : List α) (h : ∀ t ∈ ts, q t = []) (acc : σ) :
    ts.foldlM (fun acc t => (q t).foldlM f acc) acc = .ok acc := by
  induction ts generalizing acc with
  | nil => rfl
  | cons t ts ih =>
    rw [List.foldlM_cons, h t (List.mem_cons_self t ts)]
    exact ih (fun t' ht' => h t' (List.mem_cons_of_mem t ht')) acc

/-- A read whose every taint has an empty query returns no assemblies. -/
theorem fetchPartialAssemblies_of_empty (g : Graph) (ts : List RawNode)
    (h : ∀ t ∈ ts, g.taintQuery t = []) : fetchPartialAssemblies sha1 codec g ts = .ok [] := by
  simp only [fetchPartialAssemblies, foldlM_nested_nil g.taintQuery _ ts h]

/-- **Every tainted root with children is reported removed.** When every drained taint is a
root with edges below it, `WhatChanged` reads no assembly; it succeeds, reports as removed
every dirty root the stored snapshot holds, and deletes it from the snapshot. The graph is
not consulted about whether the root is still there, and here it always is. -/
theorem whatChanged_removes_roots_with_children (w : World) (D : List ComponentID)
    (hroots : ∀ t ∈ clearTaints w.engine.taintedNodes,
      w.graph.isRoot t = true ∧ w.graph.hasOut t = true)
    (hD : dirtyRootsOf sha1 codec (clearTaints w.engine.taintedNodes) = .ok D) :
    ∃ c, (w.whatChanged sha1 codec).1 = .ret c none ∧
      ∀ id ∈ D, id ∈ w.engine.snapshot →
        id ∈ c.removed.map (·.id) ∧ id ∉ (w.whatChanged sha1 codec).2.engine.snapshot := by
  have hread := fetchPartialAssemblies_of_empty sha1 codec w.graph _
    fun t ht => taintQuery_root_with_children w.graph t (hroots t ht).1 (hroots t ht).2
  have hl := lookup_update_buildChanges sha1 w.engine.snapshot ([] : List (AssemblyGraph Value)) D
  simp only [collectAssemblies, List.foldl_nil] at hl
  simp only [World.whatChanged, Engine.whatChanged, hread, Engine.sweep, hD, collectAssemblies,
    List.foldl_nil, gt_iff_lt, lt_self_iff_false, if_false]
  refine ⟨_, rfl, fun id hd hs => ?_⟩
  have hrm : id ∈ (w.engine.snapshot.partialDiff ∅ D).2.2 :=
    (Snapshot.mem_partialDiff_removed _ _ _ _).mpr ⟨hd, AList.not_mem_empty _, hs⟩
  refine ⟨by simpa [buildChanges] using hrm, ?_⟩
  rw [← AList.lookup_eq_none, hl, if_pos hrm]

/-- **A run that loses a component.** The graph is one assembly, the root `A` with the
child `B`, captured by `NewEngine`. An `Apply` that re-asserts `A` commits and leaves the
graph as it was, with `A` tainted. The next `WhatChanged` succeeds and reports `A`'s
component removed, where `Diff` against a full recapture of the graph reports nothing, and
the stored snapshot is left empty while the recapture still holds the component. -/
theorem whatChanged_misses_root_with_children :
    let A : RawNode := ⟨"A", ⟨.fill 1⟩⟩
    let G : Graph := ⟨[A, ⟨"B", ⟨.fill 2⟩⟩], [(A, ⟨"B", ⟨.fill 2⟩⟩)]⟩
    ∃ e full, newEngine blockDigest rawCodec G = .ok e ∧
      captureSnapshot blockDigest rawCodec G = .ok full ∧
      let w := (World.apply ⟨G, e⟩ [.assertNode A] true)
      w.1 = .ret () none ∧ w.2.graph = G ∧ e.snapshot.diff full = ([], [], []) ∧
      ∃ c, (w.2.whatChanged blockDigest rawCodec).1 = .ret c none ∧
        c.removed.map (·.id) = full.keys ∧ full.keys ≠ [] ∧
        (w.2.whatChanged blockDigest rawCodec).2.engine.snapshot.keys = [] :=
  ⟨_, _, rfl, rfl, rfl, rfl, by decide, _, rfl, by decide, by decide, by decide⟩

end World

end DigitalTwin
