/-
`AssemblyGraph.AssemblyID` and `AssemblyGraph.AssemblyHash` (`src/unnamed/part_000`) as
functions of sets.

Both digests sort before they write, so they depend on the roots, the vertices and the edges
only as sets (`assemblyID_eq_of_sameRoots`, `assemblyHash_eq_of_sameTriple`); the sorting
argument is `sortSlice_eq_of_perm` on byte order, a strict total order. The converse needs
the digest to be injective on the inputs it is given, and a parse of the stream: after the
id, `AssemblyHash` writes each vertex and then its neighbours, twenty bytes each, with
nothing between one vertex's neighbours and the next vertex. The vertices are exactly the
nodes that occur, since every edge end is a vertex; reading from the end, the last vertex's
segment starts at that vertex's last occurrence, because no vertex is its own neighbour
(`blockStream_inj`). With a self-loop the parse is lost: `a → b` and `b → b` over the
vertices `a < b` both write `a b b`.

`WellFormed` is the shape `AssemblyBuilder` gives an assembly (`Abstracts.wellFormed`), the
roots and the connected pairs having distinct addresses. Distinct values are not enough for
that, since `ContentAddress` gives some distinct values one address: `Roots` of two such
values writes their address twice into `AssemblyID` (`assemblyID_roots_collide`).
-/
import DigitalTwin.Builder
import DigitalTwin.Reflect

set_option autoImplicit false

namespace DigitalTwin

namespace AssemblyGraph

variable {Value : Type}

/-- `t` is among the neighbours of `s`. -/
def Edge (a : AssemblyGraph Value) (s t : NodeHash) : Prop :=
  ∃ ts, a.neighbours.lookup s = some ts ∧ t ∈ ts

/-- An assembly as `AssemblyBuilder` makes one from roots without repeats and edges without
self-loops: no root twice, no neighbour twice, edge ends among the vertices, and no edge
from a node to itself (which an acyclic edge relation rules out). -/
structure WellFormed (a : AssemblyGraph Value) : Prop where
  root_nodup : a.root.Nodup
  neighbours_nodup : ∀ s ts, a.neighbours.lookup s = some ts → ts.Nodup
  edge_ends : ∀ s t, a.Edge s t → s ∈ a.vertices ∧ t ∈ a.vertices
  no_self_loop : ∀ s, ¬a.Edge s s

/-- Two assemblies with the same set of roots. -/
def SameRoots (a a' : AssemblyGraph Value) : Prop := ∀ r, r ∈ a.root ↔ r ∈ a'.root

/-- Two assemblies with the same roots, vertices and edges, as sets. -/
def SameTriple (a a' : AssemblyGraph Value) : Prop :=
  a.SameRoots a' ∧ (∀ v, v ∈ a.vertices ↔ v ∈ a'.vertices) ∧ ∀ s t, a.Edge s t ↔ a'.Edge s t

/-- The vertices in byte order. -/
def sortedVertices (a : AssemblyGraph Value) : List NodeHash :=
  sortSlice NodeHash.less a.vertices.keys

/-- The neighbours of `v` in byte order. -/
def sortedNeighbours (a : AssemblyGraph Value) (v : NodeHash) : List NodeHash :=
  sortSlice NodeHash.less ((a.neighbours.lookup v).getD [])

end AssemblyGraph

/-- The nodes `AssemblyHash` writes after the id: each vertex, then its neighbours. -/
def blockStream (vs : List NodeHash) (nbr : NodeHash → List NodeHash) : List NodeHash :=
  vs.flatMap fun v => v :: nbr v


/-! ## Parsing the stream -/

@[simp] theorem NodeHash.length_bytes (h : NodeHash) : h.bytes.length = 20 :=
  h.toContentAddress.size_eq

/-- Twenty-byte blocks written one after another can be read back. -/
theorem flatMap_bytes_injective {xs ys : List NodeHash}
    (h : xs.flatMap NodeHash.bytes = ys.flatMap NodeHash.bytes) : xs = ys :=
  flatMap_inj_of_length NodeHash.bytes_injective NodeHash.length_bytes (by decide) h

/-- The first occurrence of `x` splits a list in one way only. -/
theorem append_cons_inj_of_not_mem_left {α : Type} {P Q R S : List α} {x : α} (hP : x ∉ P)
    (hQ : x ∉ Q) (h : P ++ x :: R = Q ++ x :: S) : P = Q ∧ R = S := by
  induction P generalizing Q with
  | nil =>
    cases Q with
    | nil => simpa using h
    | cons q Q =>
      simp only [List.nil_append, List.cons_append, List.cons.injEq] at h
      exact absurd (h.1 ▸ List.mem_cons_self x Q) hQ
  | cons p P ih =>
    cases Q with
    | nil =>
      simp only [List.nil_append, List.cons_append, List.cons.injEq] at h
      exact absurd (h.1 ▸ List.mem_cons_self p P) hP
    | cons q Q =>
      simp only [List.cons_append, List.cons.injEq] at h
      obtain ⟨rfl, h⟩ := h
      obtain ⟨rfl, rfl⟩ := ih (List.not_mem_of_not_mem_cons hP) (List.not_mem_of_not_mem_cons hQ) h
      exact ⟨rfl, rfl⟩

/-- The last occurrence of `x` splits a list in one way only. -/
theorem append_cons_inj_of_not_mem_right {α : Type} {A B C D : List α} {x : α} (hB : x ∉ B)
    (hD : x ∉ D) (h : A ++ x :: B = C ++ x :: D) : A = C ∧ B = D := by
  have hr := congrArg List.reverse h
  simp only [List.reverse_append, List.reverse_cons, List.append_assoc, List.singleton_append]
    at hr
  obtain ⟨h₁, h₂⟩ := append_cons_inj_of_not_mem_left (by simpa using hB) (by simpa using hD) hr
  exact ⟨List.reverse_injective h₂, List.reverse_injective h₁⟩

theorem mem_blockStream {vs : List NodeHash} {nbr : NodeHash → List NodeHash} {x : NodeHash} :
    x ∈ blockStream vs nbr ↔ ∃ v ∈ vs, x = v ∨ x ∈ nbr v := by
  simp [blockStream]

/-- **The stream parses uniquely.** Over one vertex list, when no vertex is among its own
neighbours, the stream fixes every neighbour list: the last vertex's segment starts at that
vertex's last occurrence, and so on backwards. -/
theorem blockStream_inj {vs : List NodeHash} {nbr nbr' : NodeHash → List NodeHash}
    (h : ∀ v ∈ vs, v ∉ nbr v) (h' : ∀ v ∈ vs, v ∉ nbr' v)
    (heq : blockStream vs nbr = blockStream vs nbr') : ∀ v ∈ vs, nbr v = nbr' v := by
  induction vs using List.reverseRecOn with
  | nil => simp
  | append_singleton ws v ih =>
    simp only [blockStream, List.flatMap_append, List.flatMap_singleton] at heq
    obtain ⟨hws, hv⟩ := append_cons_inj_of_not_mem_right (h v (by simp)) (h' v (by simp)) heq
    intro u hu
    rcases List.mem_append.1 hu with hu | hu
    · exact ih (fun w hw => h w (by simp [hw])) (fun w hw => h' w (by simp [hw])) hws u hu
    · rw [List.mem_singleton.1 hu]
      exact hv

/-- Without the hypothesis on self-loops the parse fails: over the vertices `1 < 2`, the edge
`1 → 2` and the self-loop `2 → 2` write the same stream. -/
example : blockStream [⟨.fill 1⟩, ⟨.fill 2⟩] (fun v => if v = ⟨.fill 1⟩ then [⟨.fill 2⟩] else []) =
    blockStream [⟨.fill 1⟩, ⟨.fill 2⟩] (fun v => if v = ⟨.fill 2⟩ then [⟨.fill 2⟩] else []) := by
  decide

namespace AssemblyGraph

variable {Value : Type} (sha1 : List UInt8 → ContentAddress)

/-- What `AssemblyID` digests. -/
def idInput (a : AssemblyGraph Value) : List UInt8 :=
  (sortSlice NodeHash.less a.root).flatMap NodeHash.bytes

/-- What `AssemblyHash` digests. -/
def hashInput (a : AssemblyGraph Value) : List UInt8 :=
  (a.assemblyID sha1).bytes ++ (blockStream a.sortedVertices a.sortedNeighbours).flatMap NodeHash.bytes

theorem assemblyID_eq (a : AssemblyGraph Value) : a.assemblyID sha1 = ⟨sha1 a.idInput⟩ := rfl

theorem assemblyHash_eq (a : AssemblyGraph Value) :
    a.assemblyHash sha1 = ⟨sha1 (a.hashInput sha1)⟩ := by
  simp [assemblyHash, hashInput, blockStream, sortedVertices, sortedNeighbours, List.flatMap_assoc]


/-- Sorting node hashes: one result for all orders of the same elements. -/
theorem sortSlice_less_eq_of_perm {l l' : List NodeHash} (h : l.Perm l') :
    sortSlice NodeHash.less l = sortSlice NodeHash.less l' :=
  sortSlice_eq_of_perm NodeHash.bytes_injective h

theorem mem_sortedVertices {a : AssemblyGraph Value} {v : NodeHash} :
    v ∈ a.sortedVertices ↔ v ∈ a.vertices :=
  (sortSlice_perm _ _).mem_iff.trans AList.mem_keys

theorem mem_getD_lookup {a : AssemblyGraph Value} {v t : NodeHash} :
    t ∈ (a.neighbours.lookup v).getD [] ↔ a.Edge v t := by
  rw [Edge]
  cases a.neighbours.lookup v <;> simp

theorem mem_sortedNeighbours {a : AssemblyGraph Value} {v t : NodeHash} :
    t ∈ a.sortedNeighbours v ↔ a.Edge v t :=
  (sortSlice_perm _ _).mem_iff.trans mem_getD_lookup

/-- With edge ends among the vertices, the stream holds exactly the vertices. -/
theorem mem_blockStream_iff {a : AssemblyGraph Value} (ha : a.WellFormed) {x : NodeHash} :
    x ∈ blockStream a.sortedVertices a.sortedNeighbours ↔ x ∈ a.vertices := by
  simp only [mem_blockStream, mem_sortedVertices, mem_sortedNeighbours]
  constructor
  · rintro ⟨v, hv, rfl | hx⟩
    · exact hv
    · exact (ha.edge_ends v x hx).2
  · exact fun hx => ⟨x, hx, .inl rfl⟩

theorem sortedVertices_eq {a a' : AssemblyGraph Value} (h : ∀ v, v ∈ a.vertices ↔ v ∈ a'.vertices) :
    a.sortedVertices = a'.sortedVertices :=
  sortSlice_less_eq_of_perm ((List.perm_ext_iff_of_nodup a.vertices.keys_nodup
    a'.vertices.keys_nodup).2 h)

theorem getD_lookup_nodup {a : AssemblyGraph Value} (ha : a.WellFormed) (v : NodeHash) :
    ((a.neighbours.lookup v).getD []).Nodup := by
  cases h : a.neighbours.lookup v
  · exact List.nodup_nil
  · exact ha.neighbours_nodup v _ h

theorem sortedNeighbours_eq {a a' : AssemblyGraph Value} {v : NodeHash} (ha : a.WellFormed)
    (ha' : a'.WellFormed)
    (h : ∀ t, a.Edge v t ↔ a'.Edge v t) : a.sortedNeighbours v = a'.sortedNeighbours v := by
  refine sortSlice_less_eq_of_perm ((List.perm_ext_iff_of_nodup (getD_lookup_nodup ha v)
    (getD_lookup_nodup ha' v)).2 fun t => ?_)
  rw [mem_getD_lookup, mem_getD_lookup]
  exact h t

/-- **`AssemblyID` depends on the set of roots only.** -/
theorem assemblyID_eq_of_sameRoots {a a' : AssemblyGraph Value} (ha : a.root.Nodup)
    (ha' : a'.root.Nodup) (h : a.SameRoots a') : a.assemblyID sha1 = a'.assemblyID sha1 := by
  rw [assemblyID_eq, assemblyID_eq, idInput, idInput,
    sortSlice_less_eq_of_perm ((List.perm_ext_iff_of_nodup ha ha').2 h)]

/-- **`AssemblyHash` depends on the roots, vertices and edges as sets only.** -/
theorem assemblyHash_eq_of_sameTriple {a a' : AssemblyGraph Value} (ha : a.WellFormed)
    (ha' : a'.WellFormed) (h : a.SameTriple a') : a.assemblyHash sha1 = a'.assemblyHash sha1 := by
  obtain ⟨hr, hv, he⟩ := h
  have hn : a.sortedNeighbours = a'.sortedNeighbours :=
    funext fun v => sortedNeighbours_eq ha ha' (he v)
  rw [assemblyHash_eq, assemblyHash_eq, hashInput, hashInput,
    assemblyID_eq_of_sameRoots sha1 ha.root_nodup ha'.root_nodup hr, sortedVertices_eq hv, hn]


/-- Equal digests of twenty-byte prefixes: the id parts and the streams agree. -/
theorem hashInput_inj {a a' : AssemblyGraph Value} (h : a.hashInput sha1 = a'.hashInput sha1) :
    (a.assemblyID sha1).bytes = (a'.assemblyID sha1).bytes ∧
      blockStream a.sortedVertices a.sortedNeighbours =
        blockStream a'.sortedVertices a'.sortedNeighbours := by
  obtain ⟨h₁, h₂⟩ := List.append_inj h (by simp [ComponentID.bytes, ContentAddress.size_eq])
  exact ⟨h₁, flatMap_bytes_injective h₂⟩

/-- **Collision resistance carries over.** If `sha1` is injective on the inputs of the two
digests, equal assembly hashes mean equal roots, vertices and edges. -/
theorem sameTriple_of_assemblyHash_eq {a a' : AssemblyGraph Value} (ha : a.WellFormed)
    (ha' : a'.WellFormed) (hid : sha1 a.idInput = sha1 a'.idInput → a.idInput = a'.idInput)
    (hhash : sha1 (a.hashInput sha1) = sha1 (a'.hashInput sha1) →
      a.hashInput sha1 = a'.hashInput sha1)
    (h : a.assemblyHash sha1 = a'.assemblyHash sha1) : a.SameTriple a' := by
  rw [assemblyHash_eq, assemblyHash_eq, ComponentHash.mk.injEq] at h
  obtain ⟨hidb, hs⟩ := hashInput_inj sha1 (hhash h)
  have hroots : sortSlice NodeHash.less a.root = sortSlice NodeHash.less a'.root :=
    flatMap_bytes_injective (hid (ContentAddress.ext_bytes hidb))
  have hv : ∀ v, v ∈ a.vertices ↔ v ∈ a'.vertices := fun v => by
    rw [← mem_blockStream_iff ha, ← mem_blockStream_iff ha', hs]
  rw [sortedVertices_eq hv] at hs
  have hn := blockStream_inj (fun v _ h => ha.no_self_loop v (mem_sortedNeighbours.1 h))
    (fun v _ h => ha'.no_self_loop v (mem_sortedNeighbours.1 h)) hs
  refine ⟨fun r => ?_, hv, fun s t => ?_⟩
  · rw [← (sortSlice_perm NodeHash.less a.root).mem_iff, hroots,
      (sortSlice_perm NodeHash.less a'.root).mem_iff]
  · have hsn : ∀ s ∈ a.vertices, a.sortedNeighbours s = a'.sortedNeighbours s := fun s hs' =>
      hn s (mem_sortedVertices.2 ((hv s).1 hs'))
    constructor
    · intro hst
      rw [← mem_sortedNeighbours, ← hsn s (ha.edge_ends s t hst).1, mem_sortedNeighbours]
      exact hst
    · intro hst
      rw [← mem_sortedNeighbours, hsn s ((hv s).2 (ha'.edge_ends s t hst).1),
        mem_sortedNeighbours]
      exact hst

/-- **The assembly digests see sets.** For two well-formed assemblies: equal root sets give
equal `AssemblyID`s, whatever the order of `Root`; equal roots, vertices and edges give equal
`AssemblyHash`es, whatever the order of `Root`, of the neighbour slices and of the maps; and,
when the digest is injective on the inputs it is given, equal `AssemblyHash`es mean equal
roots, vertices and edges. -/
theorem assemblyHash_determines_triple {a a' : AssemblyGraph Value} (ha : a.WellFormed)
    (ha' : a'.WellFormed) :
    (a.SameRoots a' → a.assemblyID sha1 = a'.assemblyID sha1) ∧
    (a.SameTriple a' → a.assemblyHash sha1 = a'.assemblyHash sha1) ∧
    ((sha1 a.idInput = sha1 a'.idInput → a.idInput = a'.idInput) →
      (sha1 (a.hashInput sha1) = sha1 (a'.hashInput sha1) →
        a.hashInput sha1 = a'.hashInput sha1) →
      a.assemblyHash sha1 = a'.assemblyHash sha1 → a.SameTriple a') :=
  ⟨assemblyID_eq_of_sameRoots sha1 ha.root_nodup ha'.root_nodup,
    assemblyHash_eq_of_sameTriple sha1 ha ha', sameTriple_of_assemblyHash_eq sha1 ha ha'⟩

end AssemblyGraph

namespace AssemblyBuilder

variable {Value : Type} {mustContentAddress : Value → Except Failure NodeHash}

/-- **`AssemblyBuilder` makes well-formed assemblies** when the values of the last `Roots`
call have distinct addresses and no `Connect` joins two values of one address. -/
theorem Abstracts.wellFormed {b : AssemblyBuilder Value} {acc : List (BuilderCall Value)}
    (ha : Abstracts mustContentAddress b acc)
    (hroots : ((BuilderCall.lastRoots acc).map (addressOf mustContentAddress)).Nodup)
    (hloops : ∀ s t, .connect s t ∈ acc →
      addressOf mustContentAddress s ≠ addressOf mustContentAddress t) :
    b.assemble.WellFormed := by
  obtain ⟨-, hends, -, hroot, hnodup, hedge⟩ := ha.assemble_shape
  refine ⟨by rw [(mapM_eq_ok_iff.1 hroot).2]; exact hroots, hnodup,
    fun s t ⟨ts, hs, ht⟩ => hends s ts hs t ht, fun s hss => ?_⟩
  obtain ⟨x, y, hxy, hx, hy⟩ := (hedge s s).1 hss
  exact hloops x y hxy ((addressOf_eq hx).trans (addressOf_eq hy).symm)

/-- An instance: the same assembly built in two orders. -/
theorem assemblyHash_determines_triple_two_orders :
    let ca : Nat → Except Failure NodeHash := fun n => .ok ⟨.fill n.toUInt8⟩
    ∃ b b', zero.runCalls ca [.connect 1 2, .connect 1 3, .roots [1]] = .ok b ∧
      zero.runCalls ca [.roots [1], .connect 1 3, .connect 1 2] = .ok b' ∧
      let a := b.assemble
      let a' := b'.assemble
      (a.WellFormed ∧ a'.WellFormed) ∧ ∀ sha1 : List UInt8 → ContentAddress,
        (a.SameRoots a' → a.assemblyID sha1 = a'.assemblyID sha1) ∧
        (a.SameTriple a' → a.assemblyHash sha1 = a'.assemblyHash sha1) ∧
        ((sha1 a.idInput = sha1 a'.idInput → a.idInput = a'.idInput) →
          (sha1 (a.hashInput sha1) = sha1 (a'.hashInput sha1) →
            a.hashInput sha1 = a'.hashInput sha1) →
          a.assemblyHash sha1 = a'.assemblyHash sha1 → a.SameTriple a') := by
  intro ca
  have hloops : ∀ cs : List (BuilderCall Nat), (∀ c ∈ cs, c = .connect 1 2 ∨ c = .connect 1 3 ∨
      c = .roots [1]) → ∀ s t, .connect s t ∈ cs → addressOf ca s ≠ addressOf ca t :=
    fun cs hcs s t h => by
    rcases hcs _ h with h | h | h <;> cases h <;> decide
  have ha := ((abstracts_zero ca).runCalls
    (show zero.runCalls ca [.connect 1 2, .connect 1 3, .roots [1]] = .ok _ from rfl)).wellFormed (by decide) (hloops _ (by simp [BuilderCall.record]))
  have ha' := ((abstracts_zero ca).runCalls
    (show zero.runCalls ca [.roots [1], .connect 1 3, .connect 1 2] = .ok _ from rfl)).wellFormed (by decide) (hloops _ (by simp [BuilderCall.record]))
  exact ⟨_, _, rfl, rfl, ⟨ha, ha'⟩,
    fun sha1 => AssemblyGraph.assemblyHash_determines_triple sha1 ha ha'⟩

/-- **Distinct `Roots` values do not make distinct roots.** The two values below differ, but
`ContentAddress` writes both as `A x B B`, so `MustContentAddress` gives them one address
`h`. `Roots(v₁, v₂)` then assembles the root list `[h, h]` and `Roots(v₁)` the list `[h]`:
one root set, but `AssemblyID` writes `h` twice for the first and once for the second. -/
theorem assemblyID_roots_collide :
    let env : Env :=
      [(("p", "T"), ⟨.struct [("A", false, .string), ("B", false, .string)], .none, .none⟩)]
    let ca : GoValue → Except Failure NodeHash := fun v =>
      ((DigitalTwin.mustContentAddress blockDigest env 2 (.named "p" "T") v).run).getD
        (.error (.panic "stack overflow"))
    let v₁ : GoValue := .struct [.string "xB", .string ""]
    let v₂ : GoValue := .struct [.string "x", .string "B"]
    ∃ b b', zero.runCalls ca [.roots [v₁, v₂]] = .ok b ∧ zero.runCalls ca [.roots [v₁]] = .ok b' ∧
      v₁ ≠ v₂ ∧ b.assemble.SameRoots b'.assemble ∧
      b.assemble.assemblyID blockDigest ≠ b'.assemble.assemblyID blockDigest := by
  refine ⟨_, _, rfl, rfl, by simp, fun r => ⟨?_, ?_⟩, by decide⟩ <;> revert r <;> decide

end AssemblyBuilder

end DigitalTwin
