/-
`AttributeMap` and `TrackAttribute`: a subscriber's view of one attribute of every component,
kept up to date from the `GraphChanged` messages a subscription delivers.

An `AttributeFunc` is a parameter: it maps an assembly to `some v` when the attribute is
valid for it. `Update` stores the value under the assembly's id, or deletes the id when
the attribute is invalid. The lock of the map and `Iter` are left out; `Find` is a lookup.

`TrackAttribute` receives one delivery per iteration: a receive error (logged, then the loop
goes on), a cancellation (the procedure returns), or a message body, which gob either
decodes into a `GraphChanged` or not (`Fatalf`, which stops the procedure). Gob's bytes are
not modelled here: a body is its decoding. The loop then checks continuity against
`trackedGraph` and feeds `Created`, then `Updated`, to `Update`.

Two things the loop does not do, each with its theorem. It never assigns `trackedGraph`, so
the continuity check compares against the zero hash and never fires
(`trackRun_trackedGraph`, `trackRun_applies_every_message`). And it never looks at
`Removed`, so a removed component keeps its last attribute value
(`trackStep_lookup_of_not_changed`).
-/
import DigitalTwin.World

set_option autoImplicit false

namespace DigitalTwin

section AttributeMap

variable (sha1 : List UInt8 → ContentAddress) {Value V : Type}
  (attributeOf : AssemblyGraph Value → Option V)

/-- `NewAttributeMap`: a copy of the given map, or an empty one. -/
def newAttributeMap (m : Option (AList fun _ : ComponentID => V)) :
    AList fun _ : ComponentID => V :=
  m.getD ∅

/-- `AttributeMap.Find`. -/
def find (m : AList fun _ : ComponentID => V) (id : ComponentID) : Option V := m.lookup id

/-- `AttributeMap.Update`: store the attribute's value under the assembly's id when it is
valid, delete the id otherwise. -/
def update (m : AList fun _ : ComponentID => V) (a : AssemblyGraph Value) :
    AList fun _ : ComponentID => V :=
  match attributeOf a with
  | some v => m.insert (a.assemblyID sha1) v
  | none => m.erase (a.assemblyID sha1)

/-- `Update` touches only the assembly's own id. -/
theorem lookup_update_of_ne (m : AList fun _ : ComponentID => V) (a : AssemblyGraph Value)
    (id : ComponentID) (h : id ≠ a.assemblyID sha1) :
    (update sha1 attributeOf m a).lookup id = m.lookup id := by
  unfold update
  split
  · exact AList.lookup_insert_ne h
  · exact AList.lookup_erase_ne h

/-- A run of `Update`s over assemblies of other ids leaves `id` alone. -/
theorem lookup_foldl_update_of_ne (l : List (AssemblyGraph Value))
    (m : AList fun _ : ComponentID => V) (id : ComponentID)
    (h : ∀ a ∈ l, id ≠ a.assemblyID sha1) :
    (l.foldl (update sha1 attributeOf) m).lookup id = m.lookup id := by
  induction l generalizing m with
  | nil => rfl
  | cons a l ih =>
    rw [List.foldl_cons, ih _ fun b hb => h b (List.mem_cons_of_mem a hb),
      lookup_update_of_ne sha1 attributeOf m a id (h a (List.mem_cons_self a l))]

end AttributeMap

/-! ## `TrackAttribute` -/

/-- What one `source.Receive` gives the loop. -/
inductive Delivery (Value : Type)
  | /-- `Receive` failed with `context.Canceled`. -/
    canceled
  | /-- `Receive` failed otherwise. -/
    failed (err : String)
  | /-- A message, with what gob decodes its body into, if anything. -/
    message (decoded : Option (GraphChanged Value))

/-- The loop's state: the map it updates and `trackedGraph`. -/
structure Tracker (V : Type) where
  attributes : AList fun _ : ComponentID => V
  trackedGraph : ForestHash

section Track

variable (sha1 : List UInt8 → ContentAddress) {Value V : Type}
  (attributeOf : AssemblyGraph Value → Option V)

/-- The continuity check: a hash has been tracked and the message does not start from it. -/
def discontinuous (trackedGraph : ForestHash) (c : GraphChanged Value) : Bool :=
  trackedGraph != default && trackedGraph != c.graphBefore

/-- What the loop does with a message that passed the check: `Update` every created
assembly, then every updated one. -/
def applyChanges (m : AList fun _ : ComponentID => V) (c : GraphChanged Value) :
    AList fun _ : ComponentID => V :=
  (c.updated.map (·.assembly)).foldl (update sha1 attributeOf)
    ((c.created.map (·.assembly)).foldl (update sha1 attributeOf) m)

/-- **A message touches only the ids it creates or updates.** An id that no created or
updated assembly has keeps its value; in particular the ids in `Removed` do. -/
theorem applyChanges_lookup_of_not_changed (m : AList fun _ : ComponentID => V)
    (c : GraphChanged Value) (id : ComponentID)
    (h : ∀ a ∈ c.created.map (·.assembly) ++ c.updated.map (·.assembly), id ≠ a.assemblyID sha1) :
    (applyChanges sha1 attributeOf m c).lookup id = m.lookup id := by
  rw [applyChanges, lookup_foldl_update_of_ne _ _ _ _ _ fun a ha => h a (List.mem_append_right _ ha),
    lookup_foldl_update_of_ne _ _ _ _ _ fun a ha => h a (List.mem_append_left _ ha)]

/-- One iteration of the loop: the state after it, and the message it applied, if any; or
`none` when the procedure stops. -/
def trackStep (t : Tracker V) : Delivery Value → Option (Tracker V × Option (GraphChanged Value))
  | .canceled => none
  | .failed _ => some (t, none)
  | .message none => none
  | .message (some c) =>
    if discontinuous t.trackedGraph c then none
    else some ({ t with attributes := applyChanges sha1 attributeOf t.attributes c }, some c)

/-- The loop over a sequence of deliveries, until it stops or the deliveries run out: the
messages it applied, in order, and its final state. -/
def trackRun (t : Tracker V) : List (Delivery Value) → List (GraphChanged Value) × Tracker V
  | [] => ([], t)
  | d :: ds =>
    match trackStep sha1 attributeOf t d with
    | none => ([], t)
    | some (t', applied) =>
      let rest := trackRun t' ds
      (applied.toList ++ rest.1, rest.2)

/-- One iteration never writes `trackedGraph`. -/
theorem trackStep_trackedGraph (t t' : Tracker V) (d : Delivery Value)
    (o : Option (GraphChanged Value)) (h : trackStep sha1 attributeOf t d = some (t', o)) :
    t'.trackedGraph = t.trackedGraph := by
  cases d with
  | canceled => cases h
  | failed _ => cases h; rfl
  | message c =>
    rcases c with _ | c
    · cases h
    · simp only [trackStep] at h
      split at h
      · cases h
      · cases h; rfl

/-- **`trackedGraph` is never written.** Whatever is delivered, the loop ends with the
`trackedGraph` it started with. -/
theorem trackRun_trackedGraph (t : Tracker V) (ds : List (Delivery Value)) :
    (trackRun sha1 attributeOf t ds).2.trackedGraph = t.trackedGraph := by
  induction ds generalizing t with
  | nil => rfl
  | cons d ds ih =>
    simp only [trackRun]
    split
    · rfl
    · next t' o h => rw [ih, trackStep_trackedGraph sha1 attributeOf t t' d o h]

/-- The bodies of a sequence of deliveries in which nothing cancels the loop and every
body decodes. -/
def decodedMessages : List (Delivery Value) → Option (List (GraphChanged Value))
  | [] => some []
  | .canceled :: _ => none
  | .failed _ :: ds => decodedMessages ds
  | .message none :: _ => none
  | .message (some c) :: ds => (decodedMessages ds).map (c :: ·)

/-- **From the zero hash, every message is applied.** As `trackedGraph` stays the zero
`ForestHash`, the continuity check never fires: when nothing cancels the loop and every
body decodes, the loop applies every message, whatever its `GraphBefore`. -/
theorem trackRun_applies_every_message (m : AList fun _ : ComponentID => V)
    (ds : List (Delivery Value)) (cs : List (GraphChanged Value))
    (h : decodedMessages ds = some cs) :
    (trackRun sha1 attributeOf ⟨m, default⟩ ds).1 = cs := by
  induction ds generalizing m cs with
  | nil => cases h; rfl
  | cons d ds ih =>
    cases d with
    | canceled => cases h
    | failed _ => exact ih m cs h
    | message c =>
      rcases c with _ | c
      · cases h
      · obtain ⟨cs', h', rfl⟩ := Option.map_eq_some'.mp h
        simp [trackRun, trackStep, discontinuous, ih _ _ h']

/-- **A discontinuous stream is applied whole.** The second message does not start where
the first ended, yet the loop applies both, and the assembly the second creates gets its
attribute. -/
theorem trackAttribute_misses_discontinuity :
    let a : AssemblyGraph RawNode := ⟨[⟨.fill 1⟩], ∅, ∅⟩
    let c₁ : GraphChanged RawNode := ⟨⟨.fill 0⟩, [], [], [], ⟨.fill 1⟩⟩
    let c₂ : GraphChanged RawNode := ⟨⟨.fill 2⟩, [⟨a⟩], [], [], ⟨.fill 3⟩⟩
    let r := trackRun blockDigest (fun _ => some ()) ⟨∅, default⟩ [.message (some c₁), .message (some c₂)]
    c₂.graphBefore ≠ c₁.graphAfter ∧ r.1.map (·.graphBefore) = [c₁.graphBefore, c₂.graphBefore] ∧
      find r.2.attributes (a.assemblyID blockDigest) = some () := by
  decide

/-- **A removed component keeps its attribute.** Two successful `WhatChanged` calls of one
engine: the first reports `A`'s component created; the second, after `A` is retracted,
starts where the first ended and reports the component removed, and the snapshot is left
empty. After the loop has applied both messages, `Find` still returns the component's
attribute. -/
theorem trackAttribute_keeps_removed :
    let A : RawNode := ⟨"A", ⟨.fill 1⟩⟩
    ∃ e, newEngine blockDigest rawCodec Graph.empty = .ok e ∧
      let r₁ := ((World.apply ⟨Graph.empty, e⟩ [.assertNode A] true).2).whatChanged blockDigest rawCodec
      let r₂ := ((r₁.2.apply [.retractNode A] true).2).whatChanged blockDigest rawCodec
      ∃ c₁ c₂ id, r₁.1 = .ret c₁ none ∧ r₂.1 = .ret c₂ none ∧ c₂.graphBefore = c₁.graphAfter ∧
        c₂.removed.map (·.id) = [id] ∧ r₂.2.engine.snapshot.keys = [] ∧
        let t := trackRun blockDigest (fun _ => some ()) ⟨∅, default⟩
          [.message (some c₁), .message (some c₂)]
        t.1.length = 2 ∧ find t.2.attributes id = some () :=
  ⟨_, rfl, _, _, _, rfl, rfl, by decide, rfl, by decide, by decide, by decide⟩

end Track

end DigitalTwin
