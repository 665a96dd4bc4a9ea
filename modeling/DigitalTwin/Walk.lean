/-
`Walk`, `WalkSubtree` and `Inspect` (`src/unnamed/part_000`): depth-first traversal of an
assembly.

A `Visitor` is a Go interface and its `Visit` may do anything; here a visitor is a value of a
type `σ` and a function that, from the state `ω` of everything it can change, gives the
visitor for the node's children (`none` for nil) and the new state. `Value(n)` is
`Vertices[n]`, nil when the map lacks `n`; `EdgesOf(n)` is `Neighbours[n]`.

`WalkSubtree` follows the edges with no visited set, so it stops only because the edge
relation has no cycle. The model runs on fuel and is `none` when the fuel is out. From a node
with no path of `fuel` edges the walk returns whatever the visitor does
(`walkSubtree_isSome`); in an acyclic assembly the first nodes of a path are distinct nodes
with neighbours, so no path is as long as `walkFuel` (`not_longPath_walkFuel`), and more
fuel never changes a result (`walkSubtree_succ`).

For a visitor that returns itself, the calls do not depend on what `Visit` does, and the
walk is the fold of its visits over `tour`, the depth-first tour of the root-to-node paths
(`walk_eq_visitAll`). The tour is what the traversal promises: it enters exactly the
root-to-node paths (`mem_tour_enter`), brackets the tour of each path's descendants between
its entry and its exit (`tour_block`), and holds each path once when no root and no child is
listed twice (`nodup_tour`). A root listed twice, which `AssemblyBuilder.Roots` accepts, is
walked twice.
-/
import Mathlib.Data.List.Perm.Subperm
import DigitalTwin.AssemblyDigest

set_option autoImplicit false

namespace DigitalTwin

/-- A `Visitor`: a visitor value of type `σ` whose `Visit`, given a node's value (`none` for
Go's nil) and the state `ω` of everything it may change, returns the visitor for the node's
children (`none` for nil) and the new state. -/
abbrev Visit (Value σ ω : Type) := σ → Option Value → ω → Option σ × ω

namespace AssemblyGraph

variable {Value : Type} (a : AssemblyGraph Value)

/-- `Value(n)`: `Vertices[n]`, nil when the map lacks `n`. -/
def value (n : NodeHash) : Option Value := a.vertices.lookup n

/-- `EdgesOf(n)`: `Neighbours[n]`, the nil slice when the map lacks `n`. -/
def edgesOf (n : NodeHash) : List NodeHash := (a.neighbours.lookup n).getD []

theorem mem_edgesOf {s t : NodeHash} : t ∈ a.edgesOf s ↔ a.Edge s t := by
  unfold edgesOf Edge
  cases a.neighbours.lookup s <;> simp

theorem mem_keys_of_edge {s t : NodeHash} (he : a.Edge s t) : s ∈ a.neighbours.keys := by
  obtain ⟨ts, hts, -⟩ := he
  exact AList.mem_keys.2 (AList.lookup_isSome.1 (by simp [hts]))

/-- No path of one edge or more leads from a node back to itself. -/
def Acyclic : Prop := ∀ n, ¬Relation.TransGen a.Edge n n

end AssemblyGraph

section Walk

variable {Value σ ω : Type} (visit : Visit Value σ ω) (tree : AssemblyGraph Value)

/-- `WalkSubtree`, with fuel (`none` when it runs out): visit the node; if the visitor it
returns is not nil, walk each child with it, then visit nil with it. -/
def walkSubtree : Nat → σ → NodeHash → ω → Option ω
  | 0, _, _, _ => none
  | fuel + 1, v, node, s =>
    match visit v (tree.value node) s with
    | (none, s) => some s
    | (some w, s) =>
      ((tree.edgesOf node).foldlM (fun s child => walkSubtree fuel w child s) s).map
        fun s => (visit w none s).2

/-- `Walk`: `WalkSubtree` from each root in turn. -/
def walk (fuel : Nat) (v : σ) (s : ω) : Option ω :=
  tree.root.foldlM (fun s root => walkSubtree visit tree fuel v root s) s

/-- `inspector(f)`: itself when `f` returns true, else nil. -/
def inspector (f : Option Value → ω → Bool × ω) : Visit Value Unit ω := fun _ x s =>
  let r := f x s
  (if r.1 then some () else none, r.2)

/-- `Inspect`: `Walk` with `inspector(f)`. -/
def inspect (fuel : Nat) (f : Option Value → ω → Bool × ω) (s : ω) : Option ω :=
  walk (inspector f) tree fuel () s

end Walk

/-! ## Termination -/

section Termination

variable {Value : Type} (tree : AssemblyGraph Value)

/-- A path of `k` edges starts at `n`. -/
def LongPath : Nat → NodeHash → Prop
  | 0, _ => True
  | k + 1, n => ∃ c ∈ tree.edgesOf n, LongPath k c

/-- The fuel `Walk` needs on an acyclic assembly: one more than the number of nodes with
an entry in `Neighbours`. -/
def walkFuel : Nat := tree.neighbours.keys.length + 1

variable {tree}

/-- In an acyclic assembly, the first `k` nodes of a path of `k` edges are distinct nodes
with neighbours, each reachable from the start. -/
theorem exists_sources_of_longPath (hacyc : tree.Acyclic) :
    ∀ k n, LongPath tree k n → ∃ L : List NodeHash, L.length = k ∧ L.Nodup ∧
      (∀ x ∈ L, x ∈ tree.neighbours.keys) ∧ ∀ x ∈ L, Relation.ReflTransGen tree.Edge n x
  | 0, _, _ => ⟨[], rfl, List.nodup_nil, by simp, by simp⟩
  | k + 1, n, ⟨c, hc, hp⟩ => by
    have he := (tree.mem_edgesOf).1 hc
    obtain ⟨L, hlen, hnd, hkeys, hreach⟩ := exists_sources_of_longPath hacyc k c hp
    refine ⟨n :: L, by simp [hlen], List.nodup_cons.2 ⟨fun hn => ?_, hnd⟩, ?_, ?_⟩
    · exact hacyc n (Relation.TransGen.head' he (hreach n hn))
    · rintro x (_ | ⟨_, hx⟩)
      · exact tree.mem_keys_of_edge he
      · exact hkeys x hx
    · rintro x (_ | ⟨_, hx⟩)
      · exact Relation.ReflTransGen.refl
      · exact Relation.ReflTransGen.head he (hreach x hx)

/-- **No path is longer than the number of sources.** -/
theorem not_longPath_walkFuel (hacyc : tree.Acyclic) (n : NodeHash) :
    ¬LongPath tree (walkFuel tree) n := fun hp => by
  obtain ⟨L, hlen, hnd, hkeys, -⟩ := exists_sources_of_longPath hacyc _ n hp
  have := (hnd.subperm hkeys).length_le
  simp only [walkFuel] at hlen
  omega

/-- A child of a node with no path of `k + 1` edges has no path of `k`. -/
theorem not_longPath_child {k : Nat} {n c : NodeHash} (h : ¬LongPath tree (k + 1) n)
    (hc : c ∈ tree.edgesOf n) : ¬LongPath tree k c := fun hp => h ⟨c, hc, hp⟩

/-- An acyclic assembly: each edge climbs in some rank. -/
theorem acyclic_of_rank (rank : NodeHash → Nat)
    (h : ∀ s ∈ tree.neighbours.keys, ∀ t ∈ tree.edgesOf s, rank s < rank t) : tree.Acyclic := by
  have step : ∀ s t, tree.Edge s t → rank s < rank t := fun s t he =>
    h s (tree.mem_keys_of_edge he) t ((tree.mem_edgesOf).2 he)
  have climb : ∀ {a b}, Relation.TransGen tree.Edge a b → rank a < rank b := fun hab => by
    induction hab with
    | single he => exact step _ _ he
    | tail _ he ih => exact ih.trans (step _ _ he)
  exact fun n hn => lt_irrefl _ (climb hn)

/-! ### One run of `WalkSubtree` -/

theorem foldlM_eq_some {α β : Type} {f : β → α → Option β} {g : β → α → β} :
    ∀ {l : List α}, (∀ x ∈ l, ∀ s, f s x = some (g s x)) → ∀ s, l.foldlM f s = some (l.foldl g s)
  | [], _, _ => rfl
  | x :: l, h, s => by
    rw [List.foldlM_cons, h x (List.mem_cons_self x l)]
    exact foldlM_eq_some (fun y hy => h y (List.mem_cons_of_mem x hy)) _

theorem foldlM_isSome {α β : Type} {f : β → α → Option β} {l : List α}
    (h : ∀ x ∈ l, ∀ s, (f s x).isSome) (s : β) : (l.foldlM f s).isSome := by
  rw [foldlM_eq_some (g := fun s x => (f s x).getD s) (fun x hx s => ?_)]
  · rfl
  · obtain ⟨y, hy⟩ := Option.isSome_iff_exists.1 (h x hx s)
    simp [hy]

theorem foldlM_mono {α β : Type} {f f' : β → α → Option β}
    (h : ∀ x s s', f s x = some s' → f' s x = some s') :
    ∀ {l : List α} {s r : β}, l.foldlM f s = some r → l.foldlM f' s = some r
  | [], _, _, hr => hr
  | x :: l, s, r, hr => by
    rw [List.foldlM_cons] at hr ⊢
    obtain ⟨s', hs', hr⟩ := Option.bind_eq_some.1 hr
    rw [h x s s' hs']
    exact foldlM_mono h hr

variable {σ ω : Type} (visit : Visit Value σ ω)

/-- **Termination of one `WalkSubtree`**: from a node with no path of `fuel` edges, the walk
returns, whatever the visitor. -/
theorem walkSubtree_isSome : ∀ {fuel : Nat} {n : NodeHash}, ¬LongPath tree fuel n →
    ∀ (v : σ) (s : ω), (walkSubtree visit tree fuel v n s).isSome
  | 0, _, h, _, _ => absurd trivial h
  | fuel + 1, n, h, v, s => by
    unfold walkSubtree
    rcases hv : visit v (tree.value n) s with ⟨_ | w, s⟩
    · rfl
    · simpa using foldlM_isSome (fun c hc s => walkSubtree_isSome (not_longPath_child h hc) w s) s

/-- More fuel changes nothing once the walk has returned. -/
theorem walkSubtree_succ : ∀ {fuel : Nat} {v : σ} {n : NodeHash} {s r : ω},
    walkSubtree visit tree fuel v n s = some r → walkSubtree visit tree (fuel + 1) v n s = some r
  | 0, _, _, _, _, h => by cases h
  | fuel + 1, v, n, s, r, h => by
    unfold walkSubtree at h ⊢
    rcases hv : visit v (tree.value n) s with ⟨_ | w, s⟩ <;> simp only [hv] at h ⊢
    · exact h
    · obtain ⟨r', hr', rfl⟩ := Option.map_eq_some'.1 h
      rw [foldlM_mono (fun c s s' => walkSubtree_succ) hr']
      rfl

theorem walk_succ {fuel : Nat} {v : σ} {s r : ω} (h : walk visit tree fuel v s = some r) :
    walk visit tree (fuel + 1) v s = some r :=
  foldlM_mono (fun _ _ _ => walkSubtree_succ visit) h

/-- **`Walk` terminates on an acyclic assembly**, for every visitor: with `walkFuel` it
returns, and more fuel gives the same result. -/
theorem walk_terminates (hacyc : tree.Acyclic) (v : σ) (s : ω) :
    ∃ r, ∀ fuel, walkFuel tree ≤ fuel → walk visit tree fuel v s = some r := by
  obtain ⟨r, hr⟩ := Option.isSome_iff_exists.1 (foldlM_isSome (fun root _ s =>
    walkSubtree_isSome visit (not_longPath_walkFuel hacyc root) v s) s)
  refine ⟨r, fun fuel hle => ?_⟩
  induction fuel, hle using Nat.le_induction with
  | base => exact hr
  | succ fuel _ ih => exact walk_succ visit ih

end Termination

/-! ## The tour of a visitor that returns itself -/

/-- One `Visit` call of `WalkSubtree`: entering the path that ends at `node`, whose earlier
nodes, nearest first, are `ancestors` (the visit of the node's value), or leaving it (the
visit of nil). -/
inductive WalkEvent
  | enter (node : NodeHash) (ancestors : List NodeHash)
  | exit (node : NodeHash) (ancestors : List NodeHash)
deriving DecidableEq

namespace WalkEvent

/-- The path, from its last node back to its root. -/
def path : WalkEvent → List NodeHash
  | enter n anc => n :: anc
  | exit n anc => n :: anc

/-- What `Visit` is given: the node's value on entering, nil on leaving. -/
def arg {Value : Type} (tree : AssemblyGraph Value) : WalkEvent → Option Value
  | enter n _ => tree.value n
  | exit _ _ => none

end WalkEvent

section Tour

variable {Value : Type} (tree : AssemblyGraph Value)

/-- The depth-first tour below a path: enter it, tour each extension by a child in
`EdgesOf` order, leave it. -/
def tourFrom : Nat → List NodeHash → NodeHash → List WalkEvent
  | 0, _, _ => []
  | fuel + 1, anc, n =>
    .enter n anc :: ((tree.edgesOf n).flatMap (tourFrom fuel (n :: anc)) ++ [.exit n anc])

/-- The tour from each root in turn. -/
def tour (fuel : Nat) : List WalkEvent := tree.root.flatMap (tourFrom tree fuel [])

/-- A path down from the one that ends at `n` to the one that ends at `m`: the same path, or
a step to a child and a path down from there. -/
inductive PathFrom : NodeHash → List NodeHash → NodeHash → List NodeHash → Prop
  | refl (n : NodeHash) (anc : List NodeHash) : PathFrom n anc n anc
  | child {n c m : NodeHash} {anc anc' : List NodeHash} :
      c ∈ tree.edgesOf n → PathFrom c (n :: anc) m anc' → PathFrom n anc m anc'

/-- A path from a root to `n`, whose earlier nodes, nearest first, are `anc`. -/
def RootPath (n : NodeHash) (anc : List NodeHash) : Prop :=
  ∃ r ∈ tree.root, PathFrom tree r [] n anc

variable {tree}

theorem pathFrom_iff {n m : NodeHash} {anc anc' : List NodeHash} :
    PathFrom tree n anc m anc' ↔
      (m = n ∧ anc' = anc) ∨ ∃ c ∈ tree.edgesOf n, PathFrom tree c (n :: anc) m anc' := by
  constructor
  · rintro (_ | ⟨hc, hp⟩)
    · exact .inl ⟨rfl, rfl⟩
    · exact .inr ⟨_, hc, hp⟩
  · rintro (⟨rfl, rfl⟩ | ⟨c, hc, hp⟩)
    · exact .refl _ _
    · exact .child hc hp

/-- Every event below a path is on an extension of it. -/
theorem suffix_path_of_mem_tourFrom : ∀ {fuel : Nat} {n : NodeHash} (anc : List NodeHash)
    {e : WalkEvent}, e ∈ tourFrom tree fuel anc n → (n :: anc) <:+ e.path
  | 0, _, _, _, he => by simp [tourFrom] at he
  | fuel + 1, n, anc, e, he => by
    simp only [tourFrom, List.mem_cons, List.mem_append, List.mem_flatMap,
      List.not_mem_nil, or_false] at he
    rcases he with rfl | ⟨c, -, he⟩ | rfl
    · exact List.suffix_refl _
    · exact (List.suffix_cons c _).trans (suffix_path_of_mem_tourFrom (n :: anc) he)
    · exact List.suffix_refl _

/-- The tours below two different children of one path share no event. -/
theorem tourFrom_disjoint {f f' : Nat} {t : List NodeHash} {c c' : NodeHash} (hne : c ≠ c') :
    (tourFrom tree f t c).Disjoint (tourFrom tree f' t c') := fun e h h' => hne <| by
  have hs := List.suffix_of_suffix_length_le (suffix_path_of_mem_tourFrom t h)
    (suffix_path_of_mem_tourFrom t h') (by simp)
  simpa using hs.eq_of_length (by simp)

/-- The events below a path's children are on longer paths. -/
theorem length_lt_of_mem_children {fuel : Nat} {n : NodeHash} {anc : List NodeHash}
    {e : WalkEvent} (he : e ∈ (tree.edgesOf n).flatMap (tourFrom tree fuel (n :: anc))) :
    (n :: anc).length < e.path.length := by
  obtain ⟨c, -, he⟩ := List.mem_flatMap.1 he
  have := (suffix_path_of_mem_tourFrom (n :: anc) he).length_le
  simp only [List.length_cons] at this ⊢
  omega

theorem nodup_tourFrom (hnb : ∀ n, (tree.edgesOf n).Nodup) :
    ∀ {fuel : Nat} {n : NodeHash} (anc : List NodeHash), (tourFrom tree fuel anc n).Nodup
  | 0, _, _ => List.nodup_nil
  | fuel + 1, n, anc => by
    have hlong := @length_lt_of_mem_children _ tree fuel n anc
    rw [tourFrom, List.nodup_cons, List.nodup_append]
    refine ⟨fun he => ?_, List.nodup_flatMap.2 ⟨fun c _ => nodup_tourFrom hnb (n :: anc),
      (hnb n).imp tourFrom_disjoint⟩, List.nodup_singleton _, fun e he he' => ?_⟩
    · rcases List.mem_append.1 he with he | he
      · exact lt_irrefl _ (hlong he)
      · cases List.mem_singleton.1 he
    · cases List.mem_singleton.1 he'
      exact lt_irrefl _ (hlong he)

/-- **Each path is toured once** when no root and no child is listed twice. -/
theorem nodup_tour (hroot : tree.root.Nodup) (hnb : ∀ n, (tree.edgesOf n).Nodup) (fuel : Nat) :
    (tour tree fuel).Nodup :=
  List.nodup_flatMap.2 ⟨fun _ _ => nodup_tourFrom hnb [], hroot.imp tourFrom_disjoint⟩

/-- With enough fuel, the tour below a path enters and leaves exactly the paths down from
it. -/
theorem mem_tourFrom : ∀ {fuel : Nat} {n : NodeHash} (anc : List NodeHash),
    ¬LongPath tree fuel n → ∀ m anc',
      (.enter m anc' ∈ tourFrom tree fuel anc n ↔ PathFrom tree n anc m anc') ∧
        (.exit m anc' ∈ tourFrom tree fuel anc n ↔ PathFrom tree n anc m anc')
  | 0, _, _, h, _, _ => absurd trivial h
  | fuel + 1, n, anc, h, m, anc' => by
    have ih := fun c (hc : c ∈ tree.edgesOf n) =>
      mem_tourFrom (n :: anc) (not_longPath_child h hc) m anc'
    rw [pathFrom_iff]
    simp only [tourFrom, List.mem_cons, List.mem_append, List.mem_flatMap, List.not_mem_nil,
      WalkEvent.enter.injEq, WalkEvent.exit.injEq, reduceCtorEq, false_or, or_false]
    exact ⟨or_congr Iff.rfl ⟨fun ⟨c, hc, he⟩ => ⟨c, hc, (ih c hc).1.1 he⟩,
        fun ⟨c, hc, hp⟩ => ⟨c, hc, (ih c hc).1.2 hp⟩⟩,
      or_comm.trans (or_congr Iff.rfl ⟨fun ⟨c, hc, he⟩ => ⟨c, hc, (ih c hc).2.1 he⟩,
        fun ⟨c, hc, hp⟩ => ⟨c, hc, (ih c hc).2.2 hp⟩⟩)⟩

/-- With enough fuel, the tour below a path is: enter it, the events of the paths down from
its children, leave it. -/
theorem tourFrom_block {fuel : Nat} {n : NodeHash} (anc : List NodeHash)
    (h : ¬LongPath tree fuel n) : ∃ inner, tourFrom tree fuel anc n =
      .enter n anc :: (inner ++ [.exit n anc]) ∧ ∀ m anc',
        (.enter m anc' ∈ inner ↔ ∃ c ∈ tree.edgesOf n, PathFrom tree c (n :: anc) m anc') ∧
          (.exit m anc' ∈ inner ↔ ∃ c ∈ tree.edgesOf n, PathFrom tree c (n :: anc) m anc') := by
  cases fuel with
  | zero => exact absurd trivial h
  | succ fuel =>
    refine ⟨_, rfl, fun m anc' => ?_⟩
    simp only [List.mem_flatMap]
    exact ⟨⟨fun ⟨c, hc, he⟩ => ⟨c, hc, ((mem_tourFrom _ (not_longPath_child h hc) m anc').1).1 he⟩,
        fun ⟨c, hc, hp⟩ => ⟨c, hc, ((mem_tourFrom _ (not_longPath_child h hc) m anc').1).2 hp⟩⟩,
      ⟨fun ⟨c, hc, he⟩ => ⟨c, hc, ((mem_tourFrom _ (not_longPath_child h hc) m anc').2).1 he⟩,
        fun ⟨c, hc, hp⟩ => ⟨c, hc, ((mem_tourFrom _ (not_longPath_child h hc) m anc').2).2 hp⟩⟩⟩

/-- The tour below a path holds, whole and in one piece, the tour below every path down
from it. -/
theorem tourFrom_infix {n m : NodeHash} {anc anc' : List NodeHash}
    (hp : PathFrom tree n anc m anc') : ∀ {fuel : Nat}, ¬LongPath tree fuel n →
      ∃ k, ¬LongPath tree k m ∧ tourFrom tree k anc' m <:+: tourFrom tree fuel anc n := by
  induction hp with
  | refl n anc => exact fun h => ⟨_, h, List.infix_refl _⟩
  | child hc _ ih =>
    intro fuel h
    cases fuel with
    | zero => exact absurd trivial h
    | succ fuel =>
      obtain ⟨k, hk, hi⟩ := ih (not_longPath_child h hc)
      refine ⟨k, hk, hi.trans ((List.infix_of_mem_flatten (List.mem_map_of_mem _ hc)).trans ?_)⟩
      exact List.infix_cons (List.prefix_append _ _).isInfix

/-- With enough fuel, the tour enters exactly the root-to-node paths. -/
theorem mem_tour_enter {fuel : Nat} (hfuel : ∀ r ∈ tree.root, ¬LongPath tree fuel r)
    (n : NodeHash) (anc : List NodeHash) :
    WalkEvent.enter n anc ∈ tour tree fuel ↔ RootPath tree n anc := by
  simp only [tour, List.mem_flatMap, RootPath]
  exact ⟨fun ⟨r, hr, he⟩ => ⟨r, hr, ((mem_tourFrom [] (hfuel r hr) n anc).1).1 he⟩,
    fun ⟨r, hr, hp⟩ => ⟨r, hr, ((mem_tourFrom [] (hfuel r hr) n anc).1).2 hp⟩⟩

/-- **Brackets.** With enough fuel, each root-to-node path is entered, then come exactly the
events of the paths down from its children, then it is left. -/
theorem tour_block {fuel : Nat} (hfuel : ∀ r ∈ tree.root, ¬LongPath tree fuel r)
    {n : NodeHash} {anc : List NodeHash} (hn : RootPath tree n anc) :
    ∃ pre inner post, tour tree fuel = pre ++ .enter n anc :: (inner ++ .exit n anc :: post) ∧
      ∀ m anc',
        (.enter m anc' ∈ inner ↔ ∃ c ∈ tree.edgesOf n, PathFrom tree c (n :: anc) m anc') ∧
          (.exit m anc' ∈ inner ↔ ∃ c ∈ tree.edgesOf n, PathFrom tree c (n :: anc) m anc') := by
  obtain ⟨r, hr, hp⟩ := hn
  obtain ⟨k, hk, hi⟩ := tourFrom_infix hp (hfuel r hr)
  obtain ⟨inner, hblock, hmem⟩ := tourFrom_block anc hk
  obtain ⟨pre, post, heq⟩ := hi.trans (List.infix_of_mem_flatten (List.mem_map_of_mem _ hr))
  refine ⟨pre, inner, post, ?_, hmem⟩
  rw [tour, List.flatMap, ← heq, hblock]
  simp

end Tour

/-! ## `Walk` does the tour -/

section Trace

variable {Value σ ω : Type} (visit : Visit Value σ ω) (tree : AssemblyGraph Value) (v : σ)

/-- The visits of `v` for a list of events, one after the other. -/
def visitAll (es : List WalkEvent) (s : ω) : ω :=
  es.foldl (fun s e => (visit v (e.arg tree) s).2) s

theorem foldl_flatMap {α β γ : Type} (f : α → List β) (g : γ → β → γ) :
    ∀ (l : List α) (s : γ), (l.flatMap f).foldl g s = l.foldl (fun s a => (f a).foldl g s) s
  | [], _ => rfl
  | a :: l, s => by simp [List.foldl_append, foldl_flatMap f g l]

variable {visit tree v}

/-- **One `WalkSubtree` of a visitor that returns itself** does the visits of the tour below
the node, when no path from the node has `fuel` edges. -/
theorem walkSubtree_eq_visitAll (hself : ∀ x s, (visit v x s).1 = some v) :
    ∀ {fuel : Nat} {n : NodeHash} (anc : List NodeHash) (s : ω), ¬LongPath tree fuel n →
      walkSubtree visit tree fuel v n s = some (visitAll visit tree v (tourFrom tree fuel anc n) s)
  | 0, _, _, _, h => absurd trivial h
  | fuel + 1, n, anc, s, h => by
    have hv : visit v (tree.value n) s = (some v, (visit v (tree.value n) s).2) :=
      Prod.ext (hself _ _) rfl
    unfold walkSubtree
    rw [hv]
    dsimp only
    rw [foldlM_eq_some (fun c hc s => walkSubtree_eq_visitAll hself (n :: anc) s
      (not_longPath_child h hc))]
    simp [tourFrom, visitAll, List.foldl_append, foldl_flatMap, WalkEvent.arg]

/-- **`Walk` of a visitor that returns itself** does the visits of the tour. -/
theorem walk_eq_visitAll (hself : ∀ x s, (visit v x s).1 = some v) {fuel : Nat}
    (hfuel : ∀ r ∈ tree.root, ¬LongPath tree fuel r) (s : ω) :
    walk visit tree fuel v s = some (visitAll visit tree v (tour tree fuel) s) := by
  rw [walk, foldlM_eq_some (fun r hr s => walkSubtree_eq_visitAll hself [] s (hfuel r hr))]
  simp [tour, visitAll, foldl_flatMap]

end Trace

/-! ## `Walk` on an acyclic assembly -/

section Acyclic

variable {Value : Type}

/-- **`Walk` on an acyclic assembly.** Whatever the visitor, `Walk` returns, and any fuel
from `walkFuel` on gives the same result. A visitor that returns itself gets exactly the
visits of the tour, in order: every root-to-node path is entered, with a visit of its node's
value, and left, with a visit of nil; between the two come exactly the visits of the paths
down from the node's children, so a path is entered after its parent path and left after
all of its descendants. When no root and no child is listed twice, each path is entered and
left once. -/
theorem walk_tours_acyclic (tree : AssemblyGraph Value) (hacyc : tree.Acyclic) :
    (∀ {σ ω : Type} (visit : Visit Value σ ω) (v : σ) (s : ω),
      ∃ r, ∀ fuel, walkFuel tree ≤ fuel → walk visit tree fuel v s = some r) ∧
    (∀ {σ ω : Type} (visit : Visit Value σ ω) (v : σ), (∀ x s, (visit v x s).1 = some v) →
      ∀ s, walk visit tree (walkFuel tree) v s =
        some (visitAll visit tree v (tour tree (walkFuel tree)) s)) ∧
    (∀ n anc, WalkEvent.enter n anc ∈ tour tree (walkFuel tree) ↔ RootPath tree n anc) ∧
    (∀ n anc, RootPath tree n anc → ∃ pre inner post,
      tour tree (walkFuel tree) = pre ++ .enter n anc :: (inner ++ .exit n anc :: post) ∧
      ∀ m anc',
        (.enter m anc' ∈ inner ↔ ∃ c ∈ tree.edgesOf n, PathFrom tree c (n :: anc) m anc') ∧
          (.exit m anc' ∈ inner ↔ ∃ c ∈ tree.edgesOf n, PathFrom tree c (n :: anc) m anc')) ∧
    (tree.root.Nodup → (∀ n, (tree.edgesOf n).Nodup) → (tour tree (walkFuel tree)).Nodup) := by
  have hfuel := fun r (_ : r ∈ tree.root) => not_longPath_walkFuel hacyc r
  exact ⟨fun visit v s => walk_terminates visit hacyc v s,
    fun _ _ hself s => walk_eq_visitAll hself hfuel s, mem_tour_enter hfuel,
    fun _ _ hn => tour_block hfuel hn, fun hroot hnb => nodup_tour hroot hnb _⟩

/-- A diamond: `Roots(1)`, `Connect(1, 2)`, `Connect(1, 3)`, `Connect(2, 3)`, on naturals
filed under `fill`; node 3 is reached by two paths. -/
theorem walk_tours_acyclic_diamond :
    let ca : Nat → NodeHash := fun n => ⟨.fill n.toUInt8⟩
    let tree := ((((AssemblyBuilder.zero.setRoots ca [1]).connect ca 1 2).connect ca 1 3).connect
      ca 2 3).assemble
    tree.Acyclic ∧
    (∀ {σ ω : Type} (visit : Visit Nat σ ω) (v : σ) (s : ω),
      ∃ r, ∀ fuel, walkFuel tree ≤ fuel → walk visit tree fuel v s = some r) ∧
    (∀ {σ ω : Type} (visit : Visit Nat σ ω) (v : σ), (∀ x s, (visit v x s).1 = some v) →
      ∀ s, walk visit tree (walkFuel tree) v s =
        some (visitAll visit tree v (tour tree (walkFuel tree)) s)) ∧
    (∀ n anc, WalkEvent.enter n anc ∈ tour tree (walkFuel tree) ↔ RootPath tree n anc) ∧
    (∀ n anc, RootPath tree n anc → ∃ pre inner post,
      tour tree (walkFuel tree) = pre ++ .enter n anc :: (inner ++ .exit n anc :: post) ∧
      ∀ m anc',
        (.enter m anc' ∈ inner ↔ ∃ c ∈ tree.edgesOf n, PathFrom tree c (n :: anc) m anc') ∧
          (.exit m anc' ∈ inner ↔ ∃ c ∈ tree.edgesOf n, PathFrom tree c (n :: anc) m anc')) ∧
    (tree.root.Nodup → (∀ n, (tree.edgesOf n).Nodup) → (tour tree (walkFuel tree)).Nodup) :=
  have hacyc := acyclic_of_rank (fun h => (h.bytes.headD 0).toNat) (by decide)
  ⟨hacyc, walk_tours_acyclic _ hacyc⟩

/-- **A repeated root is walked twice.** `Roots(1, 1)` is accepted by the builder; its one
root-to-node path is visited twice. -/
theorem walk_visits_repeated_root_twice :
    let ca : Nat → NodeHash := fun n => ⟨.fill n.toUInt8⟩
    let tree := (AssemblyBuilder.zero.setRoots ca [1, 1]).assemble
    let record : Visit Nat Unit (List (Option Nat)) := fun _ x log => (some (), log ++ [x])
    tree.Acyclic ∧ (∀ n anc, RootPath tree n anc ↔ n = ca 1 ∧ anc = []) ∧
      walk record tree (walkFuel tree) () [] = some [some 1, none, some 1, none] := by
  refine ⟨acyclic_of_rank (fun _ => 0) (by decide), fun n anc => ⟨?_, ?_⟩, rfl⟩
  · rintro ⟨r, hr, _ | ⟨hc, _⟩⟩
    · rcases hr with _ | ⟨_, _ | ⟨_, ⟨⟩⟩⟩ <;> exact ⟨rfl, rfl⟩
    · exact absurd hc (List.not_mem_nil _)
  · rintro ⟨rfl, rfl⟩
    exact ⟨_, List.mem_cons_self _ _, .refl _ _⟩

end Acyclic

end DigitalTwin
