/-
`AssemblyBuilder` (`src/unnamed/part_000`) over whole call sequences: `Nodes`, `Connect`,
`Roots`, `Hint` and `Reset`, on one builder, in any order and any number.

`Nodes`, `Connect` and `Roots` file each value under `MustContentAddress` of it, which panics
on a value `ContentAddress` cannot hash, and `Hint` panics on a negative count. A run of
calls stops at the first panic, and runs to its end exactly when neither happens
(`runCalls_eq_ok_iff`). On the values it can hash, `MustContentAddress` is a function
(`addressOf`), and a call that does not panic does what the total operations of
`AssemblyBuilder` do with it (`call_eq_ok`).

What a builder holds is stated over the calls made since the last `Reset` (`sinceReset`):
the root list is the addresses of the last `Roots` call among them, the keys are the
addresses of every value they passed, and the edges are the pairs of addresses of their
`Connect` calls. `Abstracts` relates a builder to that list, each call keeps it
(`Abstracts.call`), and so does every run (`Abstracts.runCalls`). `Assemble` copies the
builder into an `AssemblyGraph`, and `assemble_runCalls` reads the graph's shape off it.

The copy check (`addr`) and the map capacity that `Hint` grows are not modelled: the calls
are made on one builder, and capacity is not observable. Nor is what a panicking `Nodes` has
already filed: a panic ends the run here.
-/
import DigitalTwin.Assembly

set_option autoImplicit false

namespace DigitalTwin

/-- One call on an `AssemblyBuilder`. -/
inductive BuilderCall (Value : Type)
  | nodes (vs : List Value)
  | connect (source target : Value)
  | roots (rs : List Value)
  | hint (n e : Int)
  | reset

namespace BuilderCall

variable {Value : Type}

/-- The values a call passes to the builder. -/
def values : BuilderCall Value → List Value
  | .nodes vs => vs
  | .connect s t => [s, t]
  | .roots rs => rs
  | .hint _ _ => []
  | .reset => []

/-- The calls a builder holds after one more: none after `Reset`, else one more. -/
def record (acc : List (BuilderCall Value)) : BuilderCall Value → List (BuilderCall Value)
  | .nodes vs => acc ++ [.nodes vs]
  | .connect s t => acc ++ [.connect s t]
  | .roots rs => acc ++ [.roots rs]
  | .hint n e => acc ++ [.hint n e]
  | .reset => []

/-- A call that does not panic: `Hint` with counts that are not negative, any other call
whose values `MustContentAddress` can all hash. -/
def Valid (mustContentAddress : Value → Except Failure NodeHash) : BuilderCall Value → Prop
  | .hint n e => 0 ≤ n ∧ 0 ≤ e
  | c => ∀ v ∈ c.values, ∃ h, mustContentAddress v = .ok h

/-- The root list after one more call: a `Roots` call's values, else unchanged. -/
def rootsAfter (r : List Value) : BuilderCall Value → List Value
  | .roots rs => rs
  | _ => r

/-- The root list the last `Roots` call among `acc` set, or none. -/
def lastRoots (acc : List (BuilderCall Value)) : List Value := acc.foldl rootsAfter []

end BuilderCall

/-- The calls since the last `Reset`. -/
def sinceReset {Value : Type} (cs : List (BuilderCall Value)) : List (BuilderCall Value) :=
  cs.foldl BuilderCall.record []

namespace AssemblyBuilder

variable {Value : Type} (contentAddress : Value → NodeHash)

/-- `Hint`: a negative count panics; otherwise only the maps' capacity grows. -/
def hint (b : AssemblyBuilder Value) (n e : Int) : Except Failure (AssemblyBuilder Value) :=
  if n < 0 then .error (.panic "digitaltwin.AssemblyBuilder.Grow: negative node count")
  else if e < 0 then .error (.panic "digitaltwin.AssemblyBuilder.Grow: negative edge count")
  else .ok b

/-- The edge `s → t` is in the builder's neighbour sets. -/
def HasEdge (b : AssemblyBuilder Value) (s t : NodeHash) : Prop :=
  ∃ m, b.neighbours.lookup s = some m ∧ t ∈ m

/-! ### The total operations, one at a time -/

@[simp] theorem addNodes_roots (b : AssemblyBuilder Value) (vs : List Value) :
    (b.addNodes contentAddress vs).roots = b.roots := rfl

@[simp] theorem addNodes_neighbours (b : AssemblyBuilder Value) (vs : List Value) :
    (b.addNodes contentAddress vs).neighbours = b.neighbours := rfl

theorem mem_addNodes {b : AssemblyBuilder Value} {vs : List Value} {k : NodeHash} :
    k ∈ (b.addNodes contentAddress vs).nodes ↔ k ∈ b.nodes ∨ ∃ v ∈ vs, contentAddress v = k := by
  induction vs generalizing b with
  | nil => simp [addNodes]
  | cons v vs ih =>
    have : (b.addNodes contentAddress (v :: vs)).nodes =
        ({ b with nodes := b.nodes.insert (contentAddress v) v }.addNodes contentAddress vs).nodes :=
      rfl
    rw [this, ih]
    simp only [AList.mem_insert, List.mem_cons, exists_eq_or_imp]
    tauto

/-- Every entry `Nodes` leaves is an old one or a value filed under its address. -/
theorem lookup_addNodes {b : AssemblyBuilder Value} {vs : List Value}
    {P : NodeHash → Value → Prop} (hb : ∀ k v, b.nodes.lookup k = some v → P k v)
    (hvs : ∀ v ∈ vs, P (contentAddress v) v) :
    ∀ k v, (b.addNodes contentAddress vs).nodes.lookup k = some v → P k v := by
  induction vs generalizing b with
  | nil => exact hb
  | cons v vs ih =>
    refine @ih { b with nodes := b.nodes.insert (contentAddress v) v } (fun k w hw => ?_)
      fun w hw => hvs w (List.mem_cons_of_mem v hw)
    by_cases hk : k = contentAddress v
    · subst hk
      simp only [AList.lookup_insert, Option.some.injEq] at hw
      exact hw ▸ hvs v (List.mem_cons_self v vs)
    · exact hb k w (by simpa [AList.lookup_insert_ne hk] using hw)

theorem hasEdge_connect {b : AssemblyBuilder Value} {s t : Value} {x y : NodeHash} :
    (b.connect contentAddress s t).HasEdge x y ↔
      b.HasEdge x y ∨ (x = contentAddress s ∧ y = contentAddress t) := by
  by_cases hx : x = contentAddress s
  · subst hx
    simp only [HasEdge, connect, addNodes_neighbours, AList.lookup_insert, Option.some.injEq,
      exists_eq_left', AList.mem_insert, true_and]
    cases b.neighbours.lookup (contentAddress s) <;> simp [eq_comm, or_comm]
  · simp [HasEdge, connect, AList.lookup_insert_ne hx, hx]

@[simp] theorem connect_nodes (b : AssemblyBuilder Value) (s t : Value) :
    (b.connect contentAddress s t).nodes = (b.addNodes contentAddress [s, t]).nodes := rfl

@[simp] theorem connect_roots (b : AssemblyBuilder Value) (s t : Value) :
    (b.connect contentAddress s t).roots = b.roots := rfl

@[simp] theorem setRoots_roots (b : AssemblyBuilder Value) (rs : List Value) :
    (b.setRoots contentAddress rs).roots = rs.map contentAddress := rfl

@[simp] theorem setRoots_nodes (b : AssemblyBuilder Value) (rs : List Value) :
    (b.setRoots contentAddress rs).nodes = (b.addNodes contentAddress rs).nodes := rfl

@[simp] theorem setRoots_neighbours (b : AssemblyBuilder Value) (rs : List Value) :
    (b.setRoots contentAddress rs).neighbours = b.neighbours := rfl

/-! ### The calls, with `MustContentAddress` -/

section Calls

variable (mustContentAddress : Value → Except Failure NodeHash)

/-- `Nodes`: file each value under `MustContentAddress` of it, one after the other. -/
def addNodesM (b : AssemblyBuilder Value) (vs : List Value) :
    Except Failure (AssemblyBuilder Value) :=
  vs.foldlM (fun b v => do
    let id ← mustContentAddress v
    pure { b with nodes := b.nodes.insert id v }) b

/-- `Connect`: `Nodes` of both values, then the edge between their addresses. -/
def connectM (b : AssemblyBuilder Value) (source target : Value) :
    Except Failure (AssemblyBuilder Value) := do
  let b ← b.addNodesM mustContentAddress [source, target]
  let src ← mustContentAddress source
  let dst ← mustContentAddress target
  let targets := ((b.neighbours.lookup src).getD ∅).insert dst ()
  pure { b with neighbours := b.neighbours.insert src targets }

/-- `Roots`: `Nodes` of the values, then the root list set to their addresses. -/
def setRootsM (b : AssemblyBuilder Value) (rs : List Value) :
    Except Failure (AssemblyBuilder Value) := do
  let b ← b.addNodesM mustContentAddress rs
  let roots ← rs.mapM mustContentAddress
  pure { b with roots := roots }

/-- One call on the builder. -/
def call (b : AssemblyBuilder Value) : BuilderCall Value → Except Failure (AssemblyBuilder Value)
  | .nodes vs => b.addNodesM mustContentAddress vs
  | .connect s t => b.connectM mustContentAddress s t
  | .roots rs => b.setRootsM mustContentAddress rs
  | .hint n e => b.hint n e
  | .reset => .ok b.reset

/-- A sequence of calls on one builder, up to the first panic. -/
def runCalls (cs : List (BuilderCall Value)) (b : AssemblyBuilder Value) :
    Except Failure (AssemblyBuilder Value) :=
  cs.foldlM (call mustContentAddress) b

/-- The address `MustContentAddress` gives a value it can hash. -/
def addressOf (v : Value) : NodeHash :=
  match mustContentAddress v with
  | .ok h => h
  | .error _ => ⟨ContentAddress.zero⟩

variable {mustContentAddress}

theorem addressOf_eq {v : Value} {h : NodeHash} (hv : mustContentAddress v = .ok h) :
    addressOf mustContentAddress v = h := by
  simp [addressOf, hv]

/-- A value `MustContentAddress` hashes is hashed to `addressOf` it. -/
theorem eq_ok_addressOf {v : Value} {h : NodeHash} (hv : mustContentAddress v = .ok h) :
    mustContentAddress v = .ok (addressOf mustContentAddress v) := by
  rw [addressOf_eq hv, hv]

/-- `MustContentAddress` over a list: the addresses, exactly when it hashes every value. -/
theorem mapM_eq_ok_iff {vs : List Value} {hs : List NodeHash} :
    vs.mapM mustContentAddress = .ok hs ↔
      (∀ v ∈ vs, ∃ h, mustContentAddress v = .ok h) ∧
        hs = vs.map (addressOf mustContentAddress) := by
  induction vs generalizing hs with
  | nil => rw [List.mapM_nil]; simp [eq_comm]
  | cons v vs ih =>
    simp only [List.mapM_cons, bind_eq_ok, except_pure, Except.ok.injEq, ih,
      List.forall_mem_cons, List.map_cons]
    constructor
    · rintro ⟨h, hv, _, ⟨hall, rfl⟩, rfl⟩
      exact ⟨⟨⟨h, hv⟩, hall⟩, by rw [addressOf_eq hv]⟩
    · rintro ⟨⟨⟨h, hv⟩, hall⟩, rfl⟩
      exact ⟨h, hv, _, ⟨hall, rfl⟩, by rw [addressOf_eq hv]⟩

theorem addNodesM_cons (b : AssemblyBuilder Value) (v : Value) (vs : List Value) :
    b.addNodesM mustContentAddress (v :: vs) = (mustContentAddress v >>= fun id =>
      { b with nodes := b.nodes.insert id v }.addNodesM mustContentAddress vs) := by
  simp only [addNodesM, List.foldlM_cons, bind_assoc, except_pure, ok_bind]

/-- **`Nodes` panics exactly at a value it cannot hash**, and otherwise does what the total
operation does with `addressOf`. -/
theorem addNodesM_eq_ok {b b' : AssemblyBuilder Value} {vs : List Value} :
    b.addNodesM mustContentAddress vs = .ok b' ↔
      (∀ v ∈ vs, ∃ h, mustContentAddress v = .ok h) ∧
        b' = b.addNodes (addressOf mustContentAddress) vs := by
  induction vs generalizing b with
  | nil => simp [addNodesM, addNodes, eq_comm]
  | cons v vs ih =>
    simp only [addNodesM_cons, bind_eq_ok, ih, List.forall_mem_cons]
    constructor
    · rintro ⟨h, hv, hall, rfl⟩
      exact ⟨⟨⟨h, hv⟩, hall⟩, by simp [addNodes, addressOf_eq hv]⟩
    · rintro ⟨⟨⟨h, hv⟩, hall⟩, rfl⟩
      exact ⟨h, hv, hall, by simp [addNodes, addressOf_eq hv]⟩

/-- **`Connect` panics exactly at a value it cannot hash.** -/
theorem connectM_eq_ok {b b' : AssemblyBuilder Value} {s t : Value} :
    b.connectM mustContentAddress s t = .ok b' ↔
      ((∃ h, mustContentAddress s = .ok h) ∧ ∃ h, mustContentAddress t = .ok h) ∧
        b' = b.connect (addressOf mustContentAddress) s t := by
  simp only [connectM, bind_eq_ok, except_pure, Except.ok.injEq, addNodesM_eq_ok,
    List.forall_mem_cons, List.not_mem_nil, false_implies, implies_true, and_true]
  constructor
  · rintro ⟨_, ⟨⟨hs, ht⟩, rfl⟩, x, hx, y, hy, rfl⟩
    obtain rfl := addressOf_eq hx
    obtain rfl := addressOf_eq hy
    exact ⟨⟨hs, ht⟩, rfl⟩
  · rintro ⟨⟨⟨x, hx⟩, ⟨y, hy⟩⟩, rfl⟩
    exact ⟨_, ⟨⟨⟨x, hx⟩, ⟨y, hy⟩⟩, rfl⟩, _, eq_ok_addressOf hx, _, eq_ok_addressOf hy, rfl⟩

/-- **`Roots` panics exactly at a value it cannot hash.** -/
theorem setRootsM_eq_ok {b b' : AssemblyBuilder Value} {rs : List Value} :
    b.setRootsM mustContentAddress rs = .ok b' ↔
      (∀ v ∈ rs, ∃ h, mustContentAddress v = .ok h) ∧
        b' = b.setRoots (addressOf mustContentAddress) rs := by
  simp only [setRootsM, bind_eq_ok, except_pure, Except.ok.injEq, addNodesM_eq_ok,
    mapM_eq_ok_iff]
  constructor
  · rintro ⟨_, ⟨hall, rfl⟩, _, ⟨-, rfl⟩, rfl⟩
    exact ⟨hall, rfl⟩
  · rintro ⟨hall, rfl⟩
    exact ⟨_, ⟨hall, rfl⟩, _, ⟨hall, rfl⟩, rfl⟩

/-- **What one call does**: it does not panic exactly when it is valid, and then it is the
total operation with `addressOf`. -/
theorem call_eq_ok {b b' : AssemblyBuilder Value} {c : BuilderCall Value} :
    b.call mustContentAddress c = .ok b' ↔ c.Valid mustContentAddress ∧
      b' = match c with
        | .nodes vs => b.addNodes (addressOf mustContentAddress) vs
        | .connect s t => b.connect (addressOf mustContentAddress) s t
        | .roots rs => b.setRoots (addressOf mustContentAddress) rs
        | .hint _ _ => b
        | .reset => b.reset := by
  cases c with
  | nodes vs => exact addNodesM_eq_ok
  | connect s t =>
    rw [call, connectM_eq_ok]
    simp [BuilderCall.Valid, BuilderCall.values]
  | roots rs => exact setRootsM_eq_ok
  | hint n e =>
    simp only [call, hint, BuilderCall.Valid]
    split_ifs <;> simp [eq_comm] <;> omega
  | reset => simp [call, BuilderCall.Valid, BuilderCall.values, eq_comm]

theorem call_eq_ok_iff (b : AssemblyBuilder Value) (c : BuilderCall Value) :
    (∃ b', b.call mustContentAddress c = .ok b') ↔ c.Valid mustContentAddress :=
  ⟨fun ⟨_, h⟩ => (call_eq_ok.1 h).1, fun h => ⟨_, call_eq_ok.2 ⟨h, rfl⟩⟩⟩

/-- **A run panics exactly at a negative `Hint` or a value `MustContentAddress` cannot
hash.** -/
theorem runCalls_eq_ok_iff (b : AssemblyBuilder Value) (cs : List (BuilderCall Value)) :
    (∃ b', b.runCalls mustContentAddress cs = .ok b') ↔
      ∀ c ∈ cs, c.Valid mustContentAddress := by
  induction cs generalizing b with
  | nil => exact ⟨fun _ _ h => absurd h (List.not_mem_nil _), fun _ => ⟨b, rfl⟩⟩
  | cons c cs ih =>
    rw [List.forall_mem_cons, ← call_eq_ok_iff b c]
    constructor
    · rintro ⟨b', hr⟩
      obtain ⟨b₁, hc, hr⟩ := bind_eq_ok.1 hr
      exact ⟨⟨b₁, hc⟩, (ih b₁).1 ⟨b', hr⟩⟩
    · rintro ⟨⟨b₁, hc⟩, hcs⟩
      obtain ⟨b', hr⟩ := (ih b₁).2 hcs
      exact ⟨b', bind_eq_ok.2 ⟨b₁, hc, hr⟩⟩

/-! ### What a builder holds -/

variable (mustContentAddress)

/-- `b` holds what the calls `acc` made: the addresses of the last `Roots` call's values, a
key for the address of every value passed, each value filed under its own address, and an
edge for each `Connect`. -/
structure Abstracts (b : AssemblyBuilder Value) (acc : List (BuilderCall Value)) : Prop where
  roots_eq : (BuilderCall.lastRoots acc).mapM mustContentAddress = .ok b.roots
  mem_nodes : ∀ k, k ∈ b.nodes ↔ ∃ c ∈ acc, ∃ v ∈ c.values, mustContentAddress v = .ok k
  lookup_nodes : ∀ k v, b.nodes.lookup k = some v → mustContentAddress v = .ok k
  hasEdge_iff : ∀ x y, b.HasEdge x y ↔
    ∃ s t, .connect s t ∈ acc ∧ mustContentAddress s = .ok x ∧ mustContentAddress t = .ok y

theorem abstracts_zero : Abstracts mustContentAddress (zero : AssemblyBuilder Value) [] :=
  ⟨rfl, by simp [zero], by simp [zero], by simp [zero, HasEdge]⟩

variable {mustContentAddress}

theorem lastRoots_append (acc : List (BuilderCall Value)) (c : BuilderCall Value) :
    BuilderCall.lastRoots (acc ++ [c]) = BuilderCall.rootsAfter (BuilderCall.lastRoots acc) c := by
  simp [BuilderCall.lastRoots, List.foldl_append]

/-- On the values a call hashed, an address is what `MustContentAddress` returned. -/
theorem addressOf_eq_iff {vs : List Value} (hvs : ∀ v ∈ vs, ∃ h, mustContentAddress v = .ok h)
    {v : Value} (hv : v ∈ vs) {k : NodeHash} :
    addressOf mustContentAddress v = k ↔ mustContentAddress v = .ok k := by
  obtain ⟨h, hh⟩ := hvs v hv
  rw [addressOf_eq hh, hh, Except.ok.injEq]

/-- A call that adds the values `vs` to the nodes keeps the key and lookup facts. -/
theorem Abstracts.nodes_addNodes {b : AssemblyBuilder Value} {acc : List (BuilderCall Value)}
    (h : Abstracts mustContentAddress b acc) {c : BuilderCall Value}
    (hvs : ∀ v ∈ c.values, ∃ h, mustContentAddress v = .ok h) :
    (∀ k, k ∈ (b.addNodes (addressOf mustContentAddress) c.values).nodes ↔
      ∃ c' ∈ acc ++ [c], ∃ v ∈ c'.values, mustContentAddress v = .ok k) ∧
    ∀ k v, (b.addNodes (addressOf mustContentAddress) c.values).nodes.lookup k = some v →
      mustContentAddress v = .ok k := by
  refine ⟨fun k => ?_, lookup_addNodes _ h.lookup_nodes fun v hv =>
    (hvs v hv).elim fun _ => eq_ok_addressOf⟩
  rw [mem_addNodes, h.mem_nodes]
  simp only [List.mem_append, List.mem_singleton, or_and_right, exists_or, exists_eq_left]
  exact or_congr Iff.rfl (exists_congr fun v => and_congr_right fun hv => addressOf_eq_iff hvs hv)

/-- **Each call keeps `Abstracts`**, with the call recorded, or everything forgotten on
`Reset`. -/
theorem Abstracts.call {b b' : AssemblyBuilder Value} {acc : List (BuilderCall Value)}
    {c : BuilderCall Value} (h : Abstracts mustContentAddress b acc)
    (hc : b.call mustContentAddress c = .ok b') :
    Abstracts mustContentAddress b' (BuilderCall.record acc c) := by
  obtain ⟨hv, rfl⟩ := call_eq_ok.1 hc
  cases c with
  | reset => exact abstracts_zero mustContentAddress
  | hint n e =>
    refine ⟨by rw [BuilderCall.record, lastRoots_append]; exact h.roots_eq, fun k => ?_,
      h.lookup_nodes, fun x y => ?_⟩
    · simp only [BuilderCall.record, h.mem_nodes, List.mem_append, List.mem_singleton,
        or_and_right, exists_or, exists_eq_left]
      simp [BuilderCall.values]
    · simp [BuilderCall.record, h.hasEdge_iff]
  | nodes vs =>
    obtain ⟨hk, hl⟩ := h.nodes_addNodes (c := .nodes vs) hv
    exact ⟨by rw [BuilderCall.record, lastRoots_append]; exact h.roots_eq, hk, hl,
      fun x y => by simp [BuilderCall.record, HasEdge, ← h.hasEdge_iff x y]⟩
  | connect s t =>
    obtain ⟨hk, hl⟩ := h.nodes_addNodes (c := .connect s t) hv
    refine ⟨by rw [BuilderCall.record, lastRoots_append]; exact h.roots_eq, hk, hl,
      fun x y => ?_⟩
    rw [hasEdge_connect, h.hasEdge_iff, @eq_comm _ x, @eq_comm _ y,
      addressOf_eq_iff hv (v := s) (by simp [BuilderCall.values]),
      addressOf_eq_iff hv (v := t) (by simp [BuilderCall.values])]
    simp [BuilderCall.record, or_and_right, exists_or, and_assoc]
  | roots rs =>
    obtain ⟨hk, hl⟩ := h.nodes_addNodes (c := .roots rs) hv
    exact ⟨by rw [BuilderCall.record, lastRoots_append]; exact mapM_eq_ok_iff.2 ⟨hv, rfl⟩, hk,
      hl, fun x y => by simp [BuilderCall.record, HasEdge, ← h.hasEdge_iff x y]⟩

/-- **Every run keeps `Abstracts`.** -/
theorem Abstracts.runCalls {b b' : AssemblyBuilder Value} {acc : List (BuilderCall Value)}
    {cs : List (BuilderCall Value)} (h : Abstracts mustContentAddress b acc)
    (hr : b.runCalls mustContentAddress cs = .ok b') :
    Abstracts mustContentAddress b' (cs.foldl BuilderCall.record acc) := by
  induction cs generalizing b acc with
  | nil => cases hr; exact h
  | cons c cs ih =>
    obtain ⟨b₁, hc, hr⟩ := bind_eq_ok.1 hr
    exact ih (h.call hc) hr

end Calls

/-! ### The assembled graph -/

theorem dlookup_map_keys (es : List (Σ _ : NodeHash, AList fun _ : NodeHash => Unit))
    (s : NodeHash) :
    (es.map fun e => (⟨e.1, e.2.keys⟩ : Σ _ : NodeHash, List NodeHash)).dlookup s =
      (es.dlookup s).map AList.keys := by
  induction es with
  | nil => rfl
  | cons e es ih =>
    obtain ⟨k, m⟩ := e
    by_cases hs : s = k
    · subst hs
      simp [List.dlookup_cons_eq]
    · simp [List.dlookup_cons_ne _ ⟨k, _⟩ hs, ih]

/-- `Assemble`'s neighbour slices are the keys of the builder's neighbour sets. -/
theorem lookup_neighbourSlices (m : AList fun _ : NodeHash => AList fun _ : NodeHash => Unit)
    (s : NodeHash) : (neighbourSlices m).lookup s = (m.lookup s).map AList.keys :=
  dlookup_map_keys m.entries s

theorem mem_foldl_rootsAfter {acc : List (BuilderCall Value)} {r : List Value} {v : Value}
    (hv : v ∈ acc.foldl BuilderCall.rootsAfter r) : v ∈ r ∨ ∃ c ∈ acc, v ∈ c.values := by
  induction acc generalizing r with
  | nil => exact .inl hv
  | cons c acc ih =>
    rcases ih hv with h | ⟨c', hc', hv'⟩
    · cases c <;> first
        | exact .inr ⟨_, List.mem_cons_self _ _, h⟩
        | exact .inl h
    · exact .inr ⟨c', List.mem_cons_of_mem _ hc', hv'⟩

section Assemble

variable {mustContentAddress : Value → Except Failure NodeHash}

/-- What `Assemble` copies out of a builder that holds the calls `acc`. -/
theorem Abstracts.assemble_shape {b : AssemblyBuilder Value} {acc : List (BuilderCall Value)}
    (ha : Abstracts mustContentAddress b acc) :
    let g := b.assemble
    (∀ r ∈ g.root, r ∈ g.vertices) ∧
    (∀ s ts, g.neighbours.lookup s = some ts → ∀ t ∈ ts, s ∈ g.vertices ∧ t ∈ g.vertices) ∧
    (∀ k v, g.vertices.lookup k = some v → mustContentAddress v = .ok k) ∧
    (BuilderCall.lastRoots acc).mapM mustContentAddress = .ok g.root ∧
    (∀ s ts, g.neighbours.lookup s = some ts → ts.Nodup) ∧
    ∀ x y, (∃ ts, g.neighbours.lookup x = some ts ∧ y ∈ ts) ↔
      ∃ s t, .connect s t ∈ acc ∧ mustContentAddress s = .ok x ∧ mustContentAddress t = .ok y := by
  have hedge : ∀ x y, (∃ ts, b.assemble.neighbours.lookup x = some ts ∧ y ∈ ts) ↔
      b.HasEdge x y := by
    simp [assemble, lookup_neighbourSlices, HasEdge, AList.mem_keys]
  have hends : ∀ x y, b.HasEdge x y → x ∈ b.nodes ∧ y ∈ b.nodes := by
    intro x y hxy
    obtain ⟨s, t, hst, hs, ht⟩ := (ha.hasEdge_iff x y).1 hxy
    exact ⟨(ha.mem_nodes _).2 ⟨_, hst, s, by simp [BuilderCall.values], hs⟩,
      (ha.mem_nodes _).2 ⟨_, hst, t, by simp [BuilderCall.values], ht⟩⟩
  refine ⟨fun r hr => ?_, fun s ts hs => ?_, ha.lookup_nodes, ha.roots_eq, fun s ts hs => ?_,
    fun x y => (hedge x y).trans (ha.hasEdge_iff x y)⟩
  · obtain ⟨hall, hroots⟩ := mapM_eq_ok_iff.1 ha.roots_eq
    have hr' : r ∈ b.roots := hr
    rw [hroots] at hr'
    obtain ⟨v, hv, rfl⟩ := List.mem_map.1 hr'
    obtain ⟨c, hc, hvc⟩ := (mem_foldl_rootsAfter hv).resolve_left (List.not_mem_nil v)
    exact (ha.mem_nodes _).2 ⟨c, hc, v, hvc, (addressOf_eq_iff hall hv).1 rfl⟩
  · exact fun t ht => hends s t ((hedge s t).1 ⟨ts, hs, ht⟩)
  · simp only [assemble, lookup_neighbourSlices, Option.map_eq_some'] at hs
    obtain ⟨m, -, rfl⟩ := hs
    exact m.keys_nodup

/-- **What `Assemble` returns after any calls.** When the calls run without a panic, the
assembled graph's roots and edge ends are vertices, every vertex is filed under its own
address, the root list is the addresses of the last `Roots` call since the last `Reset`,
no neighbour list repeats an address, and the edges are exactly the `Connect` calls since
the last `Reset`. -/
theorem assemble_runCalls {cs : List (BuilderCall Value)} {b : AssemblyBuilder Value}
    (h : zero.runCalls mustContentAddress cs = .ok b) :
    let g := b.assemble
    (∀ r ∈ g.root, r ∈ g.vertices) ∧
    (∀ s ts, g.neighbours.lookup s = some ts → ∀ t ∈ ts, s ∈ g.vertices ∧ t ∈ g.vertices) ∧
    (∀ k v, g.vertices.lookup k = some v → mustContentAddress v = .ok k) ∧
    (BuilderCall.lastRoots (sinceReset cs)).mapM mustContentAddress = .ok g.root ∧
    (∀ s ts, g.neighbours.lookup s = some ts → ts.Nodup) ∧
    ∀ x y, (∃ ts, g.neighbours.lookup x = some ts ∧ y ∈ ts) ↔
      ∃ s t, .connect s t ∈ sinceReset cs ∧ mustContentAddress s = .ok x ∧
        mustContentAddress t = .ok y :=
  ((abstracts_zero mustContentAddress).runCalls h).assemble_shape

end Assemble

/-- An instance: `Roots(1)` then `Connect(1, 2)`, on naturals filed under `fill`. -/
theorem assemble_runCalls_roots_connect :
    let ca : Nat → Except Failure NodeHash := fun n => .ok ⟨.fill n.toUInt8⟩
    let cs : List (BuilderCall Nat) := [.roots [1], .connect 1 2]
    ∃ b, zero.runCalls ca cs = .ok b ∧
      let g := b.assemble
      (∀ r ∈ g.root, r ∈ g.vertices) ∧
      (∀ s ts, g.neighbours.lookup s = some ts → ∀ t ∈ ts, s ∈ g.vertices ∧ t ∈ g.vertices) ∧
      (∀ k v, g.vertices.lookup k = some v → ca v = .ok k) ∧
      (BuilderCall.lastRoots (sinceReset cs)).mapM ca = .ok g.root ∧
      (∀ s ts, g.neighbours.lookup s = some ts → ts.Nodup) ∧
      ∀ x y, (∃ ts, g.neighbours.lookup x = some ts ∧ y ∈ ts) ↔
        ∃ s t, .connect s t ∈ sinceReset cs ∧ ca s = .ok x ∧ ca t = .ok y :=
  ⟨_, rfl, assemble_runCalls rfl⟩

/-- **`Reset` forgets the roots.** After `Roots(1)` and then `Reset`, the last `Roots` call
had the argument `1`, but the assembled root list is empty. -/
theorem assemble_root_after_reset :
    let ca : Nat → Except Failure NodeHash := fun n => .ok ⟨.fill n.toUInt8⟩
    zero.runCalls ca [.roots [1], .reset] = .ok zero ∧
      BuilderCall.lastRoots [.roots [1], .reset] = [1] ∧
      (zero : AssemblyBuilder Nat).assemble.root = [] :=
  ⟨rfl, rfl, rfl⟩

/-- **A value that cannot be hashed makes the run panic**, as `MustContentAddress` does:
`Connect(1, 2)` where `2` has no address. -/
example :
    let ca : Nat → Except Failure NodeHash := fun n =>
      if n = 2 then .error (.panic "digitaltwin: un-hashable node") else .ok ⟨.fill n.toUInt8⟩
    zero.runCalls ca [.roots [1], .connect 1 2] = .error (.panic "digitaltwin: un-hashable node") :=
  rfl

end AssemblyBuilder

end DigitalTwin
