/-
Assemblies: `AssemblyGraph`, its two digests, the `AssemblyBuilder` that makes one, and the
change records `GraphChanged` carries.

Go's maps are association lists (`AList`) here. A Go map iterates in an unspecified order;
the `AList`'s entry order is one such order, and nothing below depends on which. The payload
type `Value` is a parameter, and so is `MustContentAddress`, which the builder calls on every
value it is given: the builder files a value under that address and never looks inside it.

`AssemblyID` and `AssemblyHash` sort `Root` and the neighbour slices in place, which in Go
reorders the caller's slices; here the sort is local, so only the digest is modelled and
the reordering is not.
-/
import DigitalTwin.ContentAddress

set_option autoImplicit false

namespace DigitalTwin

/-- `bytes.Compare(a[:], b[:]) < 0` on node hashes. -/
def NodeHash.less (a b : NodeHash) : Bool := bytesLess a.bytes b.bytes

/-! ## `AssemblyGraph` -/

/-- `AssemblyGraph`: `Root []NodeHash`, `Vertices map[NodeHash]Value` and
`Neighbours map[NodeHash][]NodeHash`. -/
structure AssemblyGraph (Value : Type) where
  root : List NodeHash
  vertices : AList fun _ : NodeHash => Value
  neighbours : AList fun _ : NodeHash => List NodeHash

instance {Value : Type} : Inhabited (AssemblyGraph Value) := ⟨⟨[], ∅, ∅⟩⟩

/-- `AssemblyRemoved`: what is left of an assembly once it is gone, its id and last hash. -/
structure AssemblyRemoved where
  id : ComponentID
  hash : ComponentHash
deriving DecidableEq

/-- `AssemblyCreated`: a new component, carried whole. -/
structure AssemblyCreated (Value : Type) where
  assembly : AssemblyGraph Value

/-- `AssemblyUpdated`: a changed component, carried whole, with its hash before the change. -/
structure AssemblyUpdated (Value : Type) where
  baseline : ComponentHash
  assembly : AssemblyGraph Value

/-- `GraphChanged`, without its `Timestamp`: the clock is not modelled. -/
structure GraphChanged (Value : Type) where
  graphBefore : ForestHash
  created : List (AssemblyCreated Value)
  updated : List (AssemblyUpdated Value)
  removed : List AssemblyRemoved
  graphAfter : ForestHash

/-- `GraphChanged{}`: zero hashes and no changes. -/
def GraphChanged.empty {Value : Type} : GraphChanged Value :=
  ⟨default, [], [], [], default⟩

/-- `GraphChanged.IsEmpty`: the graph hash did not move. -/
def GraphChanged.isEmpty {Value : Type} (c : GraphChanged Value) : Bool :=
  c.graphAfter == c.graphBefore

section Digest

variable (sha1 : List UInt8 → ContentAddress) {Value : Type}

/-- `AssemblyGraph.AssemblyID`: the digest of the roots, in byte order. -/
def AssemblyGraph.assemblyID (a : AssemblyGraph Value) : ComponentID :=
  ⟨sha1 ((sortSlice NodeHash.less a.root).flatMap NodeHash.bytes)⟩

/-- `AssemblyGraph.AssemblyHash`: the id, then every vertex in byte order, each followed by
its neighbours in byte order. Nothing separates a vertex from its neighbours. -/
def AssemblyGraph.assemblyHash (a : AssemblyGraph Value) : ComponentHash :=
  ⟨sha1 ((a.assemblyID sha1).bytes ++ (sortSlice NodeHash.less a.vertices.keys).flatMap
    fun v => v.bytes ++ (sortSlice NodeHash.less ((a.neighbours.lookup v).getD [])).flatMap
      NodeHash.bytes)⟩

end Digest

/-! ## `AssemblyBuilder` -/

/-- `AssemblyBuilder`: the roots, the nodes by address, and the edges as a map of sets. The
`addr` field, which only detects copies by value, is left out. -/
structure AssemblyBuilder (Value : Type) where
  roots : List NodeHash
  nodes : AList fun _ : NodeHash => Value
  neighbours : AList fun _ : NodeHash => AList fun _ : NodeHash => Unit

namespace AssemblyBuilder

variable {Value : Type} (contentAddress : Value → NodeHash)

/-- The zero `AssemblyBuilder`, ready to use. -/
def zero : AssemblyBuilder Value := ⟨[], ∅, ∅⟩

/-- `Nodes`: file each value under its content address. -/
def addNodes (b : AssemblyBuilder Value) (vs : List Value) : AssemblyBuilder Value :=
  { b with nodes := vs.foldl (fun m v => m.insert (contentAddress v) v) b.nodes }

/-- `Connect`: add both values, then the edge between their addresses. -/
def connect (b : AssemblyBuilder Value) (source target : Value) : AssemblyBuilder Value :=
  let b := b.addNodes contentAddress [source, target]
  let src := contentAddress source
  let dst := contentAddress target
  let targets := ((b.neighbours.lookup src).getD ∅).insert dst ()
  { b with neighbours := b.neighbours.insert src targets }

/-- `Roots`: add the values, then replace the root list by their addresses. -/
def setRoots (b : AssemblyBuilder Value) (rs : List Value) : AssemblyBuilder Value :=
  { b.addNodes contentAddress rs with roots := rs.map contentAddress }

/-- `Reset`. -/
def reset (_ : AssemblyBuilder Value) : AssemblyBuilder Value := zero

/-- The neighbour sets of a builder as neighbour slices: keys unchanged, so still unique. -/
def neighbourSlices (m : AList fun _ : NodeHash => AList fun _ : NodeHash => Unit) :
    AList fun _ : NodeHash => List NodeHash :=
  ⟨m.entries.map fun e => ⟨e.1, e.2.keys⟩, by
    simpa [List.NodupKeys, List.keys, Function.comp_def] using m.nodupKeys⟩

/-- `Assemble`: copy the accumulated roots, nodes and edges into an `AssemblyGraph`. -/
def assemble (b : AssemblyBuilder Value) : AssemblyGraph Value :=
  ⟨b.roots, b.nodes, neighbourSlices b.neighbours⟩

end AssemblyBuilder

end DigitalTwin
