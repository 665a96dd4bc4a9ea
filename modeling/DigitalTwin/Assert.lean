/-
The relationship assertions of package `assert`, run against the Neo4j writer.

`relationshipWriter` builds each relationship from two kinds of writer call: `RetractEdges`,
whose count says how many edges it removed, and `AssertEdge`. A count above one means, by
the package's own account, that the graph already broke the relationship, and the assertion
panics with `newGraphIntegrityError`. The Neo4j writer implements none of the specialised
`...Asserter` interfaces, so the generic path below is the one that runs.

`RetractEdges(n, K)` removes every edge between `n` and a node of type `K`, in either
direction. The assertions call it for one direction only: "edges to the target from nodes
of the source's type" is `RetractEdges(target, typeof source)`, which also counts, and
removes, the target's own edges out to nodes of that type
(`oneToMany_panics_of_out_edges`). So when source and target share a type, a graph that
keeps every relationship can still make the count exceed one
(`oneToMany_panics_on_consistent_graph`).
-/
import DigitalTwin.Graph

set_option autoImplicit false

namespace DigitalTwin

/-- `newGraphIntegrityError`: the message of the error an assertion panics with, or the
message of the panic the function raises itself on an unknown relationship or direction. -/
def newGraphIntegrityError (relationship direction : String) (affectedEdges : Nat) : String :=
  if relationship ∉ ["one-to-one", "one-to-many", "many-to-one"] then
    "github.com/go-digitaltwin/go-digitaltwin/assert: unknown relationship: " ++ relationship
  else if direction ∉ ["from source", "to target"] then
    "github.com/go-digitaltwin/go-digitaltwin/assert: unknown direction: " ++ direction
  else
    s!"inconsistent graph detected: relationship {relationship} was violated with {affectedEdges} affected edges {direction}"

/-- The message an assertion panics with when a retraction removed two edges. -/
example : newGraphIntegrityError "one-to-many" "to target" 2 =
    "inconsistent graph detected: relationship one-to-many was violated with 2 affected edges to target" := by
  decide

/-! ## `relationshipWriter` over any `GraphWriter` -/

/-- A `digitaltwin.GraphWriter` as the code above it sees one: a state `σ`, nodes `N`, node
kinds `K`, and the four calls, each of which returns the new state (and `RetractEdges` its
count), an error, or a panic. -/
structure GraphWriter (σ N K : Type) where
  assertNode : σ → N → Except Failure σ
  retractNode : σ → N → Except Failure σ
  assertEdge : σ → N → N → Except Failure σ
  retractEdges : σ → N → K → Except Failure (σ × Nat)

/-- `fmt.Errorf(prefix + "%w", err)` on a returned error; a panic goes through. -/
def wrapErr {α : Type} (pre : String) : Except Failure α → Except Failure α
  | .error (.error e) => .error (.error (pre ++ e))
  | r => r

namespace GraphWriter

variable {σ N K : Type} (w : GraphWriter σ N K) (typeOf : N → K)

/-- One retraction of an assertion, made when the relationship bounds that end:
`RetractEdges(n, reflect.TypeOf(other))`, its error wrapped, and a panic when it removed more
than one edge. -/
def retractAtMostOne (bounded : Bool) (relationship direction pre : String) (s : σ) (n : N)
    (kind : K) : Except Failure σ :=
  if bounded then
    match wrapErr pre (w.retractEdges s n kind) with
    | .error f => .error f
    | .ok (s, count) =>
      if count > 1 then .error (.panic (newGraphIntegrityError relationship direction count))
      else .ok s
  else .ok s

/-- The generic body of `OneToOne`, `OneToMany` and `ManyToOne`: retract from the source
when the relationship bounds the source's edges, retract to the target when it bounds the
target's, then assert the edge. -/
def assertRelationship (relationship : String) (fromSource toTarget : Bool) (s : σ)
    (source target : N) : Except Failure σ := do
  let s ← w.retractAtMostOne fromSource relationship "from source" "retract edges from: " s
    source (typeOf target)
  let s ← w.retractAtMostOne toTarget relationship "to target" "retract edges to: " s
    target (typeOf source)
  wrapErr "assert edge: " (w.assertEdge s source target)

/-- A retraction that reports at most one edge goes on from the writer's new state, or from
the old one when the relationship does not bound that end. -/
theorem retractAtMostOne_of_le_one {s s' : σ} {n : N} {kind : K} {count : Nat}
    (h : w.retractEdges s n kind = .ok (s', count)) (hc : count ≤ 1) (bounded : Bool)
    (relationship direction pre : String) :
    w.retractAtMostOne bounded relationship direction pre s n kind =
      .ok (if bounded then s' else s) := by
  cases bounded <;> simp [retractAtMostOne, wrapErr, h, Nat.not_lt.mpr hc]

/-- `relationshipWriter.OneToOne`. -/
def oneToOne : σ → N → N → Except Failure σ := w.assertRelationship typeOf "one-to-one" true true

/-- `relationshipWriter.OneToMany`. -/
def oneToMany : σ → N → N → Except Failure σ :=
  w.assertRelationship typeOf "one-to-many" false true

/-- `relationshipWriter.ManyToOne`. -/
def manyToOne : σ → N → N → Except Failure σ :=
  w.assertRelationship typeOf "many-to-one" true false

/-- `relationshipWriter.ManyToMany`: the edge alone, with no retraction and no panic of its
own. -/
def manyToMany (s : σ) (source target : N) : Except Failure σ :=
  wrapErr "assert edge: " (w.assertEdge s source target)

end GraphWriter

/-! ## The Neo4j writer -/

/-- A call of the Neo4j model: a panic, or the new graph with the call's taints appended to
those recorded so far. -/
def liftNeo4j (ts : List RawNode) : Except String (Graph × List RawNode) →
    Except Failure (Graph × List RawNode)
  | .error p => .error (.panic p)
  | .ok (g, ts') => .ok (g, ts ++ ts')

/-- `graphWriter`, the Neo4j writer: its state is the graph and the taints it has recorded,
its nodes raw nodes, and a node kind the label of a type. -/
def neo4jWriter : GraphWriter (Graph × List RawNode) RawNode String where
  assertNode s n := liftNeo4j s.2 (s.1.assertNode n)
  retractNode s n := liftNeo4j s.2 (s.1.retractNode n)
  assertEdge s a b := liftNeo4j s.2 (s.1.assertEdge a b)
  retractEdges s n l :=
    let r := s.1.retractEdges n l
    .ok ((r.1, s.2 ++ r.2.1), r.2.2)

/-- The four relationships of package `assert`. -/
inductive Relationship
  | oneToOne
  | oneToMany
  | manyToOne
  | manyToMany
deriving DecidableEq

namespace Relationship

/-- The assertion of a relationship, over any writer. -/
def assert {σ N K : Type} (w : GraphWriter σ N K) (typeOf : N → K) :
    Relationship → σ → N → N → Except Failure σ
  | oneToOne => w.oneToOne typeOf
  | oneToMany => w.oneToMany typeOf
  | manyToOne => w.manyToOne typeOf
  | manyToMany => w.manyToMany

/-- The relationship allows a source at most one edge to nodes of the target's type. -/
def boundsSource : Relationship → Bool
  | oneToOne | manyToOne => true
  | oneToMany | manyToMany => false

/-- The relationship allows a target at most one edge from nodes of the source's type. -/
def boundsTarget : Relationship → Bool
  | oneToOne | oneToMany => true
  | manyToOne | manyToMany => false

end Relationship

namespace Graph

/-- The edges from `n` to nodes labelled `label`. -/
def outTo (g : Graph) (n : RawNode) (label : String) : List (RawNode × RawNode) :=
  g.edges.filter fun e => e.1 = n ∧ e.2.label = label

/-- The edges into `n` from nodes labelled `label`. -/
def inFrom (g : Graph) (n : RawNode) (label : String) : List (RawNode × RawNode) :=
  g.edges.filter fun e => e.2 = n ∧ e.1.label = label

/-- The graph keeps relationship `k` between the types `A` and `B`: every `A` node has at
most one edge to `B` nodes if `k` bounds sources, every `B` node at most one edge from `A`
nodes if `k` bounds targets. -/
def keeps (g : Graph) (k : Relationship) (A B : String) : Bool :=
  (!k.boundsSource || g.nodes.all fun n => n.label != A || (g.outTo n B).length ≤ 1) &&
    (!k.boundsTarget || g.nodes.all fun n => n.label != B || (g.inFrom n A).length ≤ 1)

/-- A sequence of assertions run on the Neo4j graph from `g`: the graph after the last, or
the first failure. -/
def assertAll (g : Graph) : List (Relationship × RawNode × RawNode) → Except Failure Graph
  | [] => .ok g
  | (k, s, t) :: calls =>
    match k.assert neo4jWriter RawNode.label (g, []) s t with
    | .error f => .error f
    | .ok (g', _) => assertAll g' calls

end Graph

/-- Every pair of types is asserted with one relationship throughout: the precondition
`Graph` documents. -/
def oneKindPerPair (calls : List (Relationship × RawNode × RawNode)) : Bool :=
  calls.all fun c => calls.all fun d =>
    c.2.1.label != d.2.1.label || c.2.2.label != d.2.2.label || c.1 == d.1

/-! ## What a retraction counts -/

/-- `RetractEdges` counts the edges out of `n` to nodes of the type among those it removes. -/
theorem outTo_length_le_retractEdges (g : Graph) (n : RawNode) (label : String) :
    (g.outTo n label).length ≤ (g.retractEdges n label).2.2 :=
  (List.monotone_filter_right _ fun e h => by simp_all).length_le

/-- **`OneToMany` panics on a target with two edges out to the source's type**, however
many edges come into it: the "to target" retraction counts both directions. -/
theorem oneToMany_panics_of_out_edges (g : Graph) (ts : List RawNode) (s t : RawNode)
    (h : 1 < (g.outTo t s.label).length) :
    ∃ k, 1 < k ∧ neo4jWriter.oneToMany RawNode.label (g, ts) s t =
      .error (.panic (newGraphIntegrityError "one-to-many" "to target" k)) := by
  have hk := Nat.lt_of_lt_of_le h (outTo_length_le_retractEdges g t s.label)
  refine ⟨_, hk, ?_⟩
  simp only [GraphWriter.oneToMany, GraphWriter.assertRelationship,
    GraphWriter.retractAtMostOne, neo4jWriter, wrapErr, gt_iff_lt, Bool.false_eq_true, if_false,
    if_true, ok_bind, hk]
  rfl

/-- **`OneToMany` panics on a graph that keeps it.** Four nodes of one type `S`, every call
one-to-many. Asserting `s` with `t₁` and then with `t₂` gives a graph that keeps the
relationship: no `S` node has more than one edge in from an `S` node. Asserting `u` with `s`
then panics with the integrity error: it counted `s`'s two edges out as edges in. -/
theorem oneToMany_panics_on_consistent_graph :
    let s : RawNode := ⟨"S", ⟨.fill 1⟩⟩
    let calls : List (Relationship × RawNode × RawNode) :=
      [(.oneToMany, s, ⟨"S", ⟨.fill 2⟩⟩), (.oneToMany, s, ⟨"S", ⟨.fill 3⟩⟩),
        (.oneToMany, ⟨"S", ⟨.fill 4⟩⟩, s)]
    oneKindPerPair calls ∧
      (∃ g, Graph.empty.assertAll (calls.take 2) = .ok g ∧ g.keeps .oneToMany "S" "S") ∧
      Graph.empty.assertAll calls =
        .error (.panic (newGraphIntegrityError "one-to-many" "to target" 2)) :=
  ⟨by decide, ⟨_, rfl, by decide⟩, rfl⟩

end DigitalTwin
