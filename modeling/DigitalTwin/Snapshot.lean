/-
The engine's `snapshot`: `map[ComponentID]ComponentHash`, with `Diff`, `PartialDiff` and
`Update` as `neo4jengine` writes them.

`Diff` and `PartialDiff` share their first loop word for word (classify each entry of the
newer snapshot as created, updated or unchanged), so that loop is defined once, as
`classifyNewer`, and each function keeps its own second loop: `Diff` finds removals by
scanning the old snapshot, `PartialDiff` only by checking the dirty roots. Every loop is a
`foldl` whose body is the Go loop body; the spec lemmas below say which ids each loop
collects, as membership facts, because Go's map iteration order (and so the order of the
returned slices) is unspecified.
-/
import DigitalTwin.Assembly

set_option autoImplicit false

namespace DigitalTwin

/-- `snapshot`: `map[ComponentID]ComponentHash`. -/
abbrev Snapshot := AList fun _ : ComponentID => ComponentHash

/-- One entry `id → hash` of a snapshot, as a `range` loop sees it. -/
abbrev Snapshot.Entry := Σ _ : ComponentID, ComponentHash

/-! ## Loops over Go maps and slices

Two shapes recur: a loop that appends the elements passing a test, and a loop that writes
(or deletes) one key per element. -/

/-- A loop that appends `f x` for each `x` passing `p` collects exactly those. -/
theorem foldl_append_ite {α κ : Type} (p : α → Prop) [DecidablePred p] (f : α → κ)
    (l : List α) (acc : List κ) :
    l.foldl (fun r x => if p x then r ++ [f x] else r) acc =
      acc ++ (l.filter fun x => decide (p x)).map f := by
  induction l generalizing acc with
  | nil => simp
  | cons x l ih => by_cases h : p x <;> simp [h, ih]

section Loops

variable {α κ β : Type} [DecidableEq κ]

/-- After a loop of `delete(m, k x)`, a key is absent iff some element deleted it. -/
theorem lookup_foldl_erase (k : α → κ) (l : List α) (m : AList fun _ : κ => β) (i : κ) :
    (l.foldl (fun m x => m.erase (k x)) m).lookup i = if i ∈ l.map k then none else m.lookup i := by
  induction l generalizing m with
  | nil => simp
  | cons x l ih =>
    rw [List.foldl_cons, ih]
    by_cases hx : i = k x
    · subst hx
      simp [AList.lookup_erase]
    · simp [hx, AList.lookup_erase_ne hx]

/-- After a loop of `m[k x] = v x` in which every write to key `i` writes what `o` holds,
key `i` holds `o` if some element wrote it, and its old value otherwise. -/
theorem lookup_foldl_insert (k : α → κ) (v : α → β) (l : List α) (m : AList fun _ : κ => β)
    (i : κ) (o : Option β) (hw : ∀ x ∈ l, k x = i → some (v x) = o) :
    (l.foldl (fun m x => m.insert (k x) (v x)) m).lookup i =
      if i ∈ l.map k then o else m.lookup i := by
  induction l generalizing m with
  | nil => simp
  | cons x l ih =>
    rw [List.foldl_cons, ih _ (fun y hy => hw y (List.mem_cons_of_mem x hy))]
    by_cases hx : i = k x
    · subst hx
      simp [AList.lookup_insert, hw x (List.mem_cons_self x l) rfl]
    · simp [hx, AList.lookup_insert_ne hx, eq_comm]

end Loops

namespace Snapshot

/-! ## `ContainsAssembly` and `GraphHash` -/

section Digest

variable (sha1 : List UInt8 → ContentAddress) {Value : Type}

/-- `snapshot.GraphHash`: `HashComponents` of the snapshot. -/
def graphHash (s : Snapshot) : ForestHash := hashComponents sha1 s

/-- `snapshot.ContainsAssembly`: the id is present and its hash is the assembly's hash. -/
def containsAssembly (s : Snapshot) (a : AssemblyGraph Value) : Bool :=
  s.lookup (a.assemblyID sha1) == some (a.assemblyHash sha1)

/-- `snapshot.Update`: write every created and updated assembly's hash under its id, then
delete every removed id. -/
def update (s : Snapshot) (changes : GraphChanged Value) : Snapshot :=
  let s := changes.created.foldl
    (fun s c => s.insert (c.assembly.assemblyID sha1) (c.assembly.assemblyHash sha1)) s
  let s := changes.updated.foldl
    (fun s u => s.insert (u.assembly.assemblyID sha1) (u.assembly.assemblyHash sha1)) s
  changes.removed.foldl (fun s r => s.erase r.id) s

end Digest

/-! ## `Diff` and `PartialDiff` -/

/-- The body of the first loop of `Diff` and `PartialDiff`: an id the old snapshot lacks is
created, one whose old hash differs is updated, any other is unchanged. -/
def classifyStep (s : Snapshot) (acc : List ComponentID × List ComponentID) (e : Entry) :
    List ComponentID × List ComponentID :=
  match s.lookup e.1 with
  | none => (acc.1 ++ [e.1], acc.2)
  | some oldHash => if oldHash ≠ e.2 then (acc.1, acc.2 ++ [e.1]) else acc

/-- The first loop of `Diff` and `PartialDiff`, over the newer (or partial) snapshot. -/
def classifyNewer (s newer : Snapshot) : List ComponentID × List ComponentID :=
  newer.entries.foldl (classifyStep s) ([], [])

/-- `snapshot.Diff`: created and updated from the newer snapshot, removed by scanning the old
one for ids the newer lacks. -/
def diff (s newer : Snapshot) : List ComponentID × List ComponentID × List ComponentID :=
  ((classifyNewer s newer).1, (classifyNewer s newer).2,
    s.entries.foldl (fun r e => if e.1 ∉ newer then r ++ [e.1] else r) [])

/-- `snapshot.PartialDiff`: created and updated as in `Diff`; an id is removed only if it is
a dirty root that the old snapshot has and the partial one lacks. -/
def partialDiff (s partialSnapshot : Snapshot) (dirtyRoots : List ComponentID) :
    List ComponentID × List ComponentID × List ComponentID :=
  ((classifyNewer s partialSnapshot).1, (classifyNewer s partialSnapshot).2,
    dirtyRoots.foldl (fun r id => if id ∉ partialSnapshot ∧ id ∈ s then r ++ [id] else r) [])

/-- The first loop as two filters over the entries it visits. -/
theorem foldl_classifyStep (s : Snapshot) (l : List Entry) (c u : List ComponentID) :
    l.foldl (classifyStep s) (c, u) =
      (c ++ (l.filter fun e => s.lookup e.1 = none).map (·.1),
       u ++ (l.filter fun e => (s.lookup e.1).isSome ∧ s.lookup e.1 ≠ some e.2).map (·.1)) := by
  induction l generalizing c u with
  | nil => simp
  | cons e l ih =>
    rw [List.foldl_cons]
    cases h : s.lookup e.1 with
    | none =>
      rw [show classifyStep s (c, u) e = (c ++ [e.1], u) by simp [classifyStep, h], ih]
      simp [h]
    | some old =>
      by_cases hne : old = e.2
      · rw [show classifyStep s (c, u) e = (c, u) by simp [classifyStep, h, hne], ih]
        simp [h, hne]
      · rw [show classifyStep s (c, u) e = (c, u ++ [e.1]) by simp [classifyStep, h, hne], ih]
        simp [h, hne]

/-- The entry of `id`, if `id` is a key. -/
theorem mem_entries_iff {s : Snapshot} {id : ComponentID} {h : ComponentHash} :
    (⟨id, h⟩ : Entry) ∈ s.entries ↔ s.lookup id = some h :=
  AList.mem_lookup_iff.symm

/-- An id is a key iff it looks up to some hash. -/
theorem mem_iff_lookup {s : Snapshot} {id : ComponentID} : id ∈ s ↔ ∃ h, s.lookup id = some h := by
  rw [← AList.lookup_isSome, Option.isSome_iff_exists]

/-- **Created ids.** An id is created iff the newer snapshot has it and the old one lacks it. -/
theorem mem_classifyNewer_created (s newer : Snapshot) (id : ComponentID) :
    id ∈ (classifyNewer s newer).1 ↔ id ∈ newer ∧ id ∉ s := by
  rw [classifyNewer, foldl_classifyStep, mem_iff_lookup, ← AList.lookup_eq_none]
  simp only [List.nil_append, List.mem_map, List.mem_filter, decide_eq_true_eq]
  constructor
  · rintro ⟨⟨i, h⟩, ⟨hm, hs⟩, rfl⟩
    exact ⟨⟨h, mem_entries_iff.mp hm⟩, hs⟩
  · rintro ⟨⟨h, hm⟩, hs⟩
    exact ⟨⟨id, h⟩, ⟨mem_entries_iff.mpr hm, hs⟩, rfl⟩

/-- **Updated ids.** An id is updated iff both snapshots have it, under different hashes. -/
theorem mem_classifyNewer_updated (s newer : Snapshot) (id : ComponentID) :
    id ∈ (classifyNewer s newer).2 ↔ id ∈ s ∧ id ∈ newer ∧ s.lookup id ≠ newer.lookup id := by
  rw [classifyNewer, foldl_classifyStep, ← AList.lookup_isSome, mem_iff_lookup]
  simp only [List.nil_append, List.mem_map, List.mem_filter, decide_eq_true_eq]
  constructor
  · rintro ⟨⟨i, h⟩, ⟨hm, hs, hne⟩, rfl⟩
    exact ⟨hs, ⟨h, mem_entries_iff.mp hm⟩, by rw [mem_entries_iff.mp hm]; exact hne⟩
  · rintro ⟨hs, ⟨h, hm⟩, hne⟩
    rw [hm] at hne
    exact ⟨⟨id, h⟩, ⟨mem_entries_iff.mpr hm, hs, hne⟩, rfl⟩

/-- `Diff`'s created ids: those of the newer snapshot the old one lacks. -/
theorem mem_diff_created (s newer : Snapshot) (id : ComponentID) :
    id ∈ (s.diff newer).1 ↔ id ∈ newer ∧ id ∉ s :=
  mem_classifyNewer_created s newer id

/-- `Diff`'s updated ids: those of both snapshots whose hashes differ. -/
theorem mem_diff_updated (s newer : Snapshot) (id : ComponentID) :
    id ∈ (s.diff newer).2.1 ↔ id ∈ s ∧ id ∈ newer ∧ s.lookup id ≠ newer.lookup id :=
  mem_classifyNewer_updated s newer id

/-- `PartialDiff`'s created ids: those of the partial snapshot the old one lacks. -/
theorem mem_partialDiff_created (s partialSnapshot : Snapshot) (dirtyRoots : List ComponentID)
    (id : ComponentID) :
    id ∈ (s.partialDiff partialSnapshot dirtyRoots).1 ↔ id ∈ partialSnapshot ∧ id ∉ s :=
  mem_classifyNewer_created s partialSnapshot id

/-- `PartialDiff`'s updated ids: those of both snapshots whose hashes differ. -/
theorem mem_partialDiff_updated (s partialSnapshot : Snapshot) (dirtyRoots : List ComponentID)
    (id : ComponentID) :
    id ∈ (s.partialDiff partialSnapshot dirtyRoots).2.1 ↔
      id ∈ s ∧ id ∈ partialSnapshot ∧ s.lookup id ≠ partialSnapshot.lookup id :=
  mem_classifyNewer_updated s partialSnapshot id

/-- `Diff`'s removed ids: those of the old snapshot the newer one lacks. -/
theorem mem_diff_removed (s newer : Snapshot) (id : ComponentID) :
    id ∈ (s.diff newer).2.2 ↔ id ∈ s ∧ id ∉ newer := by
  rw [diff, foldl_append_ite (fun e : Entry => e.1 ∉ newer) (·.1), mem_iff_lookup]
  simp only [List.nil_append, List.mem_map, List.mem_filter, decide_eq_true_eq]
  constructor
  · rintro ⟨⟨i, h⟩, ⟨hm, hn⟩, rfl⟩
    exact ⟨⟨h, mem_entries_iff.mp hm⟩, hn⟩
  · rintro ⟨⟨h, hm⟩, hn⟩
    exact ⟨⟨id, h⟩, ⟨mem_entries_iff.mpr hm, hn⟩, rfl⟩

/-- `PartialDiff`'s removed ids: the dirty roots the old snapshot has and the partial lacks. -/
theorem mem_partialDiff_removed (s partialSnapshot : Snapshot) (dirtyRoots : List ComponentID)
    (i : ComponentID) :
    i ∈ (s.partialDiff partialSnapshot dirtyRoots).2.2 ↔
      i ∈ dirtyRoots ∧ i ∉ partialSnapshot ∧ i ∈ s := by
  rw [partialDiff, foldl_append_ite (fun i => i ∉ partialSnapshot ∧ i ∈ s) (fun i => i)]
  simp

end Snapshot

end DigitalTwin
