/-
`neo4jengine.Engine`: the snapshot, the taint set, and `WhatChanged`.

`WhatChanged` is split where the Go code releases its lock. `fetchTaintedAssemblies` (drain
the taints, run one read query per taint) is the locked part; `Engine.sweep` is the rest,
which reads and writes only the stored snapshot. The read itself is an argument `fetch`,
the backend's answer to the drained taints: `fetchPartialAssemblies` on a graph when the
engine runs against the Neo4j model, anything at all when a theorem quantifies over every
backend outcome.

`ParseNode` belongs to the node registry, which this module sees only through a `Codec`:
the parse function and the content address of what it returns. `ParseNode` recomputes
that address and fails on a mismatch; the codec carries that check as a field.
-/
import DigitalTwin.Graph
import DigitalTwin.Snapshot
import DigitalTwin.ContentAddressText

set_option autoImplicit false

namespace DigitalTwin

/-- How a Go call returning `(α, error)` ends: both results, or a panic. -/
inductive Outcome (α : Type)
  | ret (value : α) (err : Option String)
  | panic (msg : String)

/-- The value of a call that returned a nil error. -/
def Outcome.succeeded {α : Type} : Outcome α → Option α
  | .ret v none => some v
  | _ => none

/-- What the engine needs of the node registry. -/
structure Codec (Value : Type) where
  /-- `ParseNode`. -/
  parseNode : RawNode → Except String Value
  /-- `MustContentAddress`, on the values `ParseNode` returns. -/
  contentAddress : Value → NodeHash
  /-- `ParseNode`'s defensive check: what it returns has the raw node's address. -/
  parseNode_contentAddress : ∀ n v, parseNode n = .ok v → contentAddress v = n.contentAddress

/-- The codec of a registry in which every node parses, to itself: a stand-in for running
the engine on concrete graphs. -/
def rawCodec : Codec RawNode := ⟨.ok, RawNode.contentAddress, fun _ _ h => by cases h; rfl⟩

/-- `errFoundRootlessAssemblies`. -/
def errFoundRootlessAssemblies : String := "found rootless assemblies while sweeping the graph"

/-- `nodeMap.Taint`: file each node under its content address, the later one winning. -/
def taint (m : AList fun _ : NodeHash => RawNode) (nodes : List RawNode) :
    AList fun _ : NodeHash => RawNode :=
  nodes.foldl (fun m n => m.insert n.contentAddress n) m

/-- `nodeMap.ClearTaints`'s result: the tainted nodes; the map is then emptied. -/
def clearTaints (m : AList fun _ : NodeHash => RawNode) : List RawNode := m.entries.map (·.2)

section Taints

variable {m : AList fun _ : NodeHash => RawNode}

/-- Tainting never drops a content address already tainted. -/
theorem mem_taint_of_mem {k : NodeHash} (ts : List RawNode) (h : k ∈ m) : k ∈ taint m ts := by
  induction ts generalizing m with
  | nil => exact h
  | cons n ts ih => exact ih ((AList.mem_insert _).2 (.inr h))

/-- A tainted node's content address is tainted. -/
theorem mem_taint_self {ts : List RawNode} {n : RawNode} (h : n ∈ ts) :
    n.contentAddress ∈ taint m ts := by
  induction ts generalizing m with
  | nil => cases h
  | cons n' ts ih =>
    rcases List.mem_cons.1 h with rfl | h
    · exact mem_taint_of_mem ts ((AList.mem_insert _).2 (.inl rfl))
    · exact ih h

/-- Every tainted node is filed under its own content address. -/
def TaintsKeyed (m : AList fun _ : NodeHash => RawNode) : Prop :=
  ∀ k n, m.lookup k = some n → n.contentAddress = k

theorem TaintsKeyed.taint (h : TaintsKeyed m) (ts : List RawNode) :
    TaintsKeyed (DigitalTwin.taint m ts) := by
  induction ts generalizing m with
  | nil => exact h
  | cons n ts ih =>
    refine ih fun k n' hk => ?_
    by_cases hkn : k = n.contentAddress
    · subst hkn
      rw [AList.lookup_insert, Option.some.injEq] at hk
      rw [← hk]
    · rw [AList.lookup_insert_ne hkn] at hk
      exact h k n' hk

/-- `ClearTaints` hands out a node for every content address tainted. -/
theorem TaintsKeyed.exists_mem_clearTaints (h : TaintsKeyed m) {k : NodeHash} (hk : k ∈ m) :
    ∃ n ∈ clearTaints m, n.contentAddress = k := by
  obtain ⟨n, hn⟩ := Option.isSome_iff_exists.1 (AList.lookup_isSome.2 hk)
  exact ⟨n, List.mem_map.2 ⟨⟨k, n⟩, AList.mem_lookup_iff.1 hn, rfl⟩, h k n hn⟩

end Taints

/-- `Engine`, without the driver and database name: the stored snapshot and the taints. -/
structure Engine where
  snapshot : Snapshot
  taintedNodes : AList fun _ : NodeHash => RawNode

section Parse

variable (sha1 : List UInt8 → ContentAddress) {Value : Type} (codec : Codec Value)

/-! ## Reading assemblies -/

/-- `parseNeighbours`: skip the null tuple, parse both ends of every other and `Connect`. -/
def parseNeighbours (b : AssemblyBuilder Value) (tuples : List (Option (RawNode × RawNode))) :
    Except String (AssemblyBuilder Value) :=
  tuples.enum.foldlM (fun b t => match t.2 with
    | none => .ok b
    | some (f, d) => do
      let i := t.1
      let source ← (codec.parseNode f).mapError
        fun e => s!"neighbour #{i}: source node: parse raw node: {e}"
      let target ← (codec.parseNode d).mapError
        fun e => s!"neighbour #{i}: target node: parse raw node: {e}"
      pure (b.connect codec.contentAddress source target)) b

/-- `parseAssembly`: the record's root is the assembly's only root; its tuples are its
edges. -/
def parseAssembly (r : Graph.Record) : Except String (AssemblyGraph Value) := do
  let root ← (codec.parseNode r.root).mapError fun e => "root: parse raw node: " ++ e
  let b := AssemblyBuilder.zero.setRoots codec.contentAddress [root]
  let b ← (parseNeighbours codec b r.tuples).mapError fun e => "parse neighbours: " ++ e
  pure b.assemble

/-- The body of `fetchPartialAssemblies`' record loop: keep the first assembly of each id;
one more with the same id and another hash means the read saw a write, and the code
panics. -/
def seenStep (acc : Snapshot × List (AssemblyGraph Value)) (a : AssemblyGraph Value) :
    Except Failure (Snapshot × List (AssemblyGraph Value)) :=
  let id := a.assemblyID sha1
  match acc.1.lookup id with
  | none => .ok (acc.1.insert id (a.assemblyHash sha1), acc.2 ++ [a])
  | some h =>
    if h ≠ a.assemblyHash sha1 then
      .error (.panic "seek developer attention: a neo4j transaction isolation was violated")
    else .ok acc

/-- `fetchPartialAssemblies`: for each taint, parse every record of its query, in one read
transaction. -/
def fetchPartialAssemblies (g : Graph) (taints : List RawNode) :
    Except Failure (List (AssemblyGraph Value)) :=
  let work := taints.foldlM (fun acc t => (g.taintQuery t).foldlM (fun acc r =>
    match parseAssembly codec r with
    | .error e => Except.error (Failure.error ("parse assembly: " ++ e))
    | .ok a => seenStep sha1 acc a) acc) (∅, [])
  match work with
  | .ok (_, assemblies) => .ok assemblies
  | .error (.error e) => .error (.error ("execute read: " ++ e))
  | .error (.panic m) => .error (.panic m)

/-- `captureSnapshot`: every record of the full scan, parsed, filed by id. -/
def captureSnapshot (g : Graph) : Except String Snapshot :=
  g.fetchAssemblies.foldlM (fun ss r =>
    match parseAssembly codec r with
    | .error e => Except.error ("parse assembly: " ++ e)
    | .ok a => Except.ok (ss.insert (a.assemblyID sha1) (a.assemblyHash sha1))) ∅

/-- `NewEngine`: the full scan becomes the stored snapshot; no taints. -/
def newEngine (g : Graph) : Except String Engine :=
  match captureSnapshot sha1 codec g with
  | .error e => .error ("capture initial snapshot: " ++ e)
  | .ok s => .ok ⟨s, ∅⟩

/-- `componentID`: the id of the assembly whose only root is the taint. -/
def componentID (t : RawNode) : Except String ComponentID := do
  let v ← (codec.parseNode t).mapError fun e => "parse taint: " ++ e
  pure ((AssemblyBuilder.zero.setRoots codec.contentAddress [v]).assemble.assemblyID sha1)

end Parse

/-! ## `WhatChanged` -/

section WhatChanged

variable (sha1 : List UInt8 → ContentAddress) {Value : Type} (codec : Codec Value)

/-- The body of `WhatChanged`'s first loop: file the assembly in the partial snapshot
`next`, remember it if the stored snapshot does not contain it, count it if rootless. -/
def collectStep (snapshot : Snapshot)
    (acc : Snapshot × (AList fun _ : ComponentID => AssemblyGraph Value) × Nat)
    (a : AssemblyGraph Value) :
    Snapshot × (AList fun _ : ComponentID => AssemblyGraph Value) × Nat :=
  (acc.1.insert (a.assemblyID sha1) (a.assemblyHash sha1),
   if !snapshot.containsAssembly sha1 a then acc.2.1.insert (a.assemblyID sha1) a else acc.2.1,
   if a.root.length = 0 then acc.2.2 + 1 else acc.2.2)

/-- `WhatChanged`'s first loop: the partial snapshot, the changed assemblies by id, and the
number of rootless assemblies. -/
def collectAssemblies (snapshot : Snapshot) (assemblies : List (AssemblyGraph Value)) :
    Snapshot × (AList fun _ : ComponentID => AssemblyGraph Value) × Nat :=
  assemblies.foldl (collectStep sha1 snapshot) (∅, ∅, 0)

/-- `WhatChanged`'s second loop: the dirty roots, one `componentID` per taint. -/
def dirtyRootsOf (taints : List RawNode) : Except String (List ComponentID) :=
  taints.mapM fun n => (componentID sha1 codec n).mapError
    fun e => n.label ++ " component from " ++ nodeHashString n.contentAddress ++ ": " ++ e

/-- How `WhatChanged` populates its result from `PartialDiff`: created and updated ids
take their assembly from the changed ones, updated and removed ids their old hash from the
stored snapshot. `GraphAfter` is filled in later. -/
def buildChanges (snapshot : Snapshot)
    (changed : AList fun _ : ComponentID => AssemblyGraph Value)
    (created updated removed : List ComponentID) : GraphChanged Value :=
  { graphBefore := Snapshot.graphHash sha1 snapshot
    created := created.map fun id => ⟨(changed.lookup id).getD default⟩
    updated := updated.map fun id => ⟨(snapshot.lookup id).getD default, (changed.lookup id).getD default⟩
    removed := removed.map fun id => ⟨id, (snapshot.lookup id).getD default⟩
    graphAfter := default }

/-- The part of `WhatChanged` after `fetchTaintedAssemblies` returns: diff, populate the
result, and unless an assembly was rootless, update the stored snapshot and hash it. -/
def Engine.sweep (e : Engine) (taints : List RawNode) (assemblies : List (AssemblyGraph Value)) :
    Outcome (GraphChanged Value) × Engine :=
  let c := collectAssemblies sha1 e.snapshot assemblies
  match dirtyRootsOf sha1 codec taints with
  | .error m => (.ret .empty (some m), e)
  | .ok dirtyRoots =>
    let d := e.snapshot.partialDiff c.1 dirtyRoots
    let changes := buildChanges sha1 e.snapshot c.2.1 d.1 d.2.1 d.2.2
    if c.2.2 > 0 then (.ret changes (some errFoundRootlessAssemblies), e)
    else
      let s := e.snapshot.update sha1 changes
      (.ret { changes with graphAfter := Snapshot.graphHash sha1 s } none, { e with snapshot := s })

/-- `WhatChanged`: drain the taints, read their assemblies with `fetch`, then sweep. The
taints are drained before the read, whatever the read then does. -/
def Engine.whatChanged (e : Engine)
    (fetch : List RawNode → Except Failure (List (AssemblyGraph Value))) :
    Outcome (GraphChanged Value) × Engine :=
  let taints := clearTaints e.taintedNodes
  let e := { e with taintedNodes := ∅ }
  match fetch taints with
  | .error (.panic m) => (.panic m, e)
  | .error (.error m) => (.ret .empty (some ("fetch tainted assemblies: " ++ m)), e)
  | .ok assemblies => e.sweep sha1 codec taints assemblies

end WhatChanged

end DigitalTwin
