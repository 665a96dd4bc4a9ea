/-
The Neo4j graph the engine writes to and reads from, and the Cypher it runs there.

A node is a `RawNode` reduced to what the Cypher matches on: its label and its
`_contentAddress` (the `NODE KEY` of `BootstrapDatabase`). Business properties and the
`_created_at` / `_last_modified` metadata are left out: no query of the engine filters on
them, and the engine reads them back only through `ParseNode`, which is a parameter of the
engine. Edges are the `CONNECTS` relationships, as ordered pairs.

Each writer query of `writer.go` is one function returning the new graph and the nodes the
writer then taints, in the order it taints them; its one failure is
`panicWithCorruptedGraph`, raised when the row count the query reports is impossible. The
read queries of `fetchAssemblies` and `fetchPartialAssemblies` return their records, one per
root: `[*0..5]` is the bounded walk `within 5`, and the unbounded `[*]` of the per-taint query
is a walk of at least one edge, so it never starts and ends at the same node of a DAG.
-/
import DigitalTwin.Assembly

set_option autoImplicit false

namespace DigitalTwin

/-- `RawNode`: the label that names the node's Go type and its content address. -/
structure RawNode where
  label : String
  contentAddress : NodeHash
deriving DecidableEq

/-- The graph: its nodes and its `CONNECTS` edges. -/
structure Graph where
  nodes : List RawNode
  edges : List (RawNode × RawNode)
deriving DecidableEq

namespace Graph

/-- The empty graph. -/
def empty : Graph := ⟨[], []⟩

/-! ## Shapes the queries match -/

/-- `NOT ()-->(n)`: no edge ends at `n`. -/
def isRoot (g : Graph) (n : RawNode) : Bool := g.edges.all fun e => e.2 != n

/-- `()<--(n)`: some edge starts at `n`. -/
def hasOut (g : Graph) (n : RawNode) : Bool := g.edges.any fun e => e.1 == n

/-- The nodes one edge away from some node of `xs`. -/
def successors (g : Graph) (xs : List RawNode) : List RawNode :=
  (g.edges.filter fun e => e.1 ∈ xs).map (·.2)

/-- `(r)-[*0..k]->(n)`: the nodes at the end of a walk of at most `k` edges from `r`. -/
def within (g : Graph) : Nat → RawNode → List RawNode
  | 0, r => [r]
  | k + 1, r => r :: g.successors (g.within k r)

/-- `(r)-[*]->(t)`: a walk of at least one edge leads from `r` to `t`. No shortest walk is
longer than the graph has edges, so the bound loses nothing. -/
def reaches (g : Graph) (r t : RawNode) : Bool := t ∈ g.successors (g.within g.edges.length r)

/-- `MATCH (root)-[*0..5]->(path_node)-[]->(adjacent_path_node)`: the edges leaving a node
at most five edges below `r`. -/
def tuples (g : Graph) (r : RawNode) : List (RawNode × RawNode) :=
  g.edges.filter fun e => e.1 ∈ g.within 5 r

/-! ## The read queries -/

/-- One record of the assembly queries: a `root` and its `tuples`, where `none` is the
`{from: null, to: null}` tuple of an isolated root. -/
structure Record where
  root : RawNode
  tuples : List (Option (RawNode × RawNode))

/-- The record of a root with edges below it. -/
def treeRecord (g : Graph) (r : RawNode) : Record := ⟨r, (g.tuples r).map some⟩

/-- `fetchAssemblies`: one record per root; a root with edges gets its bounded tuples, an
isolated root the null tuple. -/
def fetchAssemblies (g : Graph) : List Record :=
  let roots := g.nodes.filter g.isRoot
  (roots.filter g.hasOut).map g.treeRecord ++
    (roots.filter fun r => !g.hasOut r).map fun r => ⟨r, [none]⟩

/-- The query `fetchPartialAssemblies` runs for one taint: every root from which a walk of
at least one edge reaches the taint, and the taint itself if it is an isolated root. -/
def taintQuery (g : Graph) (t : RawNode) : List Record :=
  (g.nodes.filter fun r => g.isRoot r && g.reaches r t).map g.treeRecord ++
    if t ∈ g.nodes ∧ g.isRoot t ∧ !g.hasOut t then [⟨t, [none]⟩] else []

/-! ## The writer queries -/

/-- `panicWithCorruptedGraph`'s message. -/
def corrupted (reason : String) : String :=
  "neo4j graph violates digital-twin axioms: " ++ reason

/-- `graphWriter.assertNode`: `MERGE` the node and count it; taint it. -/
def assertNode (g : Graph) (n : RawNode) : Except String (Graph × List RawNode) :=
  let nodes := if n ∈ g.nodes then g.nodes else g.nodes ++ [n]
  let count := (nodes.filter (· = n)).length
  if count ≠ 1 then .error (corrupted s!"assert-node modified {count} nodes instead of 1")
  else .ok (⟨nodes, g.edges⟩, [n])

/-- `graphWriter.retractNode`: `DETACH DELETE` the node; taint it, then its former
neighbours in either direction. -/
def retractNode (g : Graph) (n : RawNode) : Except String (Graph × List RawNode) :=
  let count := (g.nodes.filter (· = n)).length
  let neighbours := (g.edges.filterMap fun e =>
    if e.1 = n then some e.2 else if e.2 = n then some e.1 else none).dedup
  if count ≠ 1 ∧ count ≠ 0 then
    .error (corrupted s!"retract-node modified {count} nodes instead of 0/1")
  else .ok (⟨g.nodes.filter (· ≠ n), g.edges.filter fun e => e.1 ≠ n ∧ e.2 ≠ n⟩,
    n :: neighbours)

/-- `graphWriter.assertEdge`: `MERGE` both nodes and the edge, count the edge; taint both. -/
def assertEdge (g : Graph) (source target : RawNode) : Except String (Graph × List RawNode) :=
  let nodes := if source ∈ g.nodes then g.nodes else g.nodes ++ [source]
  let nodes := if target ∈ nodes then nodes else nodes ++ [target]
  let edges := if (source, target) ∈ g.edges then g.edges else g.edges ++ [(source, target)]
  let count := (edges.filter (· = (source, target))).length
  if count ≠ 1 then .error (corrupted s!"assert-edge modified {count} edges instead of 1")
  else .ok (⟨nodes, edges⟩, [source, target])

/-- The edges `(n)-[e]-(taint:label)` that `retractEdges` matches: either direction, the
other end labelled `label`. -/
def edgesBetween (g : Graph) (n : RawNode) (label : String) : List (RawNode × RawNode) :=
  g.edges.filter fun e => (e.1 = n ∧ e.2.label = label) ∨ (e.2 = n ∧ e.1.label = label)

/-- `graphWriter.retractEdges`: delete every edge between `n` and a node labelled `label`,
in either direction, and return how many; taint `n`, then the nodes it lost an edge to. -/
def retractEdges (g : Graph) (n : RawNode) (label : String) :
    Graph × List RawNode × Nat :=
  let matched := g.edgesBetween n label
  let others := (matched.map fun e => if e.1 = n then e.2 else e.1).dedup
  (⟨g.nodes, g.edges.filter (· ∉ matched)⟩, n :: others, matched.length)

end Graph

end DigitalTwin
