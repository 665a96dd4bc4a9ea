/-
The checks of `enginetest` (`src/enginetest/checks.go`) that tie an engine's changesets to
`ComputeForestHash`: `continuousDiff`, that a changeset's `GraphBefore` is the forest hash of
the assemblies the previous one left, and `expectedGraph`, that its `GraphAfter` is the forest
hash of the assemblies now in the graph. `Checks` pairs them, one snapshot of assembly refs
before and one after. Beside them each test case checks the changeset's contents: `created`,
`updated` and `removed` compare its refs with the wanted ones, by count and as maps of id to
hash (`sameRefs`). The problem texts they all return are left out.

The Neo4j engine passes both on every sweep whose read covers what changed in the graph, the
condition under which its partial diff agrees with the full one, and the sweep leaves its
snapshot holding exactly the refs of the graph's assemblies (`sweep_passes_checks`): which is
what the next sweep's `continuousDiff` needs. On such a sweep the three content checks pass for exactly the refs
the full `Diff` reports, each id once (`sweep_passes_change_checks`), provided the dirty roots
repeat none: a removed dirty root named twice is listed twice, and `removed` counts it twice.
-/
import DigitalTwin.ForestHash
import DigitalTwin.Sweep
import Mathlib.Data.List.Dedup

set_option autoImplicit false

namespace DigitalTwin

variable (sha1 : List UInt8 → ContentAddress) {Value : Type}

/-- The comparison `created`, `updated` and `removed` share: the changeset lists as many refs
as wanted, and `cmp.Diff` finds nothing between the maps `want` and `got`, each filed as
`ComputeForestHash` files its components. -/
def sameRefs (want got : List AssemblyRef) : Bool :=
  got.length == want.length && decide ((precomputed want).entries.Perm (precomputed got).entries)

/-- `created`: the changeset's `Created`, as refs, against the wanted ones. -/
def created (components : List AssemblyRef) (changed : GraphChanged Value) : Bool :=
  sameRefs components (changed.created.map fun a => a.assembly.ref sha1)

/-- `updated`: the changeset's `Updated`, as refs, against the wanted ones. -/
def updated (components : List AssemblyRef) (changed : GraphChanged Value) : Bool :=
  sameRefs components (changed.updated.map fun a => a.assembly.ref sha1)

/-- `removed`: the changeset's `Removed`, as refs (its `ID` and `Hash`), against the wanted
ones. -/
def removed (components : List AssemblyRef) (changed : GraphChanged Value) : Bool :=
  sameRefs components (changed.removed.map fun a => ⟨a.id, a.hash⟩)

/-- `continuousDiff` of `Checks`: the changeset's `GraphBefore` is `ComputeForestHash` of the
snapshot before. -/
def continuousDiff (before : List AssemblyRef) (changed : GraphChanged Value) : Bool :=
  changed.graphBefore == computeForestHash sha1 before

/-- `expectedGraph` of `Checks`: the changeset's `GraphAfter` is `ComputeForestHash` of the
snapshot after. -/
def expectedGraph (after : List AssemblyRef) (changed : GraphChanged Value) : Bool :=
  changed.graphAfter == computeForestHash sha1 after

/-! ## What the three content checks accept -/

/-- Filing refs in a map keeps exactly their ids, a repeated one once. -/
theorem mem_foldl_insert_ref (l : List AssemblyRef) (m : Snapshot) (id : ComponentID) :
    id ∈ l.foldl (fun m c => m.insert c.id c.hash) m ↔ id ∈ m ∨ id ∈ l.map (·.id) := by
  induction l generalizing m with
  | nil => simp
  | cons c l ih =>
    rw [List.foldl_cons, ih, AList.mem_insert, List.map_cons, List.mem_cons, @or_comm (id = c.id),
      or_assoc]

/-- The map of a list of refs has one entry per distinct id. -/
theorem length_precomputed (l : List AssemblyRef) :
    (precomputed l).entries.length = (l.map (·.id)).dedup.length := by
  have hk : (precomputed l).keys.Perm (l.map (·.id)).dedup :=
    (List.perm_ext_iff_of_nodup (precomputed l).nodupKeys (List.nodup_dedup _)).2 fun id => by
      rw [List.mem_dedup]
      exact (mem_foldl_insert_ref l ∅ id).trans (or_iff_right (AList.not_mem_empty _))
  exact (List.length_map _ _).symm.trans hk.length_eq

/-- A list of refs fills a map with as many entries as it has refs exactly when it repeats no
id. -/
theorem length_precomputed_iff (l : List AssemblyRef) :
    (precomputed l).entries.length = l.length ↔ (l.map (·.id)).Nodup := by
  rw [length_precomputed, ← List.length_map l (·.id)]
  exact ⟨fun h => (List.dedup_sublist _).eq_of_length h ▸ List.nodup_dedup _,
    fun h => by rw [List.dedup_eq_self.2 h]⟩

/-- The map of refs that give each id of a list the hash `g` assigns it. -/
theorem lookup_precomputed_map (ids : List ComponentID) (g : ComponentID → ComponentHash)
    (id : ComponentID) :
    (precomputed (ids.map fun j => ⟨j, g j⟩)).lookup id =
      if id ∈ ids then some (g id) else none := by
  rw [precomputed, List.foldl_map, lookup_foldl_insert (fun j => j) g ids ∅ id (some (g id))
    fun _ _ h => h ▸ rfl, List.map_id']
  rfl

/-- **What the content checks accept.** Against a changeset that lists each id of `ids` once,
with the hash `g` gives it, `created`, `updated` and `removed` pass exactly for the wanted
refs that repeat no id and give the ids of `ids`, and only those, their hashes under `g`. -/
theorem sameRefs_map_iff {want : List AssemblyRef} {ids : List ComponentID} (hn : ids.Nodup)
    (g : ComponentID → ComponentHash) :
    sameRefs want (ids.map fun j => ⟨j, g j⟩) = true ↔ (want.map (·.id)).Nodup ∧
      ∀ id, (precomputed want).lookup id = if id ∈ ids then some (g id) else none := by
  have hg : (precomputed (ids.map fun j => ⟨j, g j⟩)).entries.length = ids.length := by
    rw [← List.length_map ids (fun j => (⟨j, g j⟩ : AssemblyRef)), length_precomputed_iff]
    simpa [Function.comp_def] using hn
  simp only [sameRefs, Bool.and_eq_true, beq_iff_eq, decide_eq_true_eq, List.length_map,
    ← lookup_precomputed_map]
  constructor
  · rintro ⟨hl, hp⟩
    exact ⟨(length_precomputed_iff want).1 (by rw [hp.length_eq, hg, hl]),
      fun id => AList.perm_lookup hp⟩
  · rintro ⟨hw, hk⟩
    have hp := perm_entries_of_lookup hk
    exact ⟨by rw [← hg, ← hp.length_eq, (length_precomputed_iff want).2 hw], hp⟩

/-! ## What a sweep reports -/

/-- `PartialDiff` repeats no id: its created and updated ids are keys of the partial
snapshot, and its removed ids are dirty roots, kept in order. -/
theorem Snapshot.nodup_partialDiff (s partialSnapshot : Snapshot) {dirtyRoots : List ComponentID}
    (hd : dirtyRoots.Nodup) :
    (s.partialDiff partialSnapshot dirtyRoots).1.Nodup ∧
      (s.partialDiff partialSnapshot dirtyRoots).2.1.Nodup ∧
      (s.partialDiff partialSnapshot dirtyRoots).2.2.Nodup := by
  rw [Snapshot.partialDiff, Snapshot.classifyNewer, Snapshot.foldl_classifyStep,
    foldl_append_ite (fun i => i ∉ partialSnapshot ∧ i ∈ s) (fun i => i)]
  simp only [List.nil_append, List.map_id']
  exact ⟨((List.filter_sublist _).map _).nodup partialSnapshot.nodupKeys,
    ((List.filter_sublist _).map _).nodup partialSnapshot.nodupKeys, hd.filter _⟩

/-- The refs of the changes `WhatChanged` populates: each created or updated id with its hash
in the partial snapshot, each removed id with its stored hash. -/
theorem refs_buildChanges (S : Snapshot) (as : List (AssemblyGraph Value)) (D : List ComponentID) :
    let col := collectAssemblies sha1 S as
    let d := S.partialDiff col.1 D
    let c := buildChanges sha1 S col.2.1 d.1 d.2.1 d.2.2
    c.created.map (fun a => a.assembly.ref sha1) =
        d.1.map (fun id => ⟨id, (col.1.lookup id).getD default⟩) ∧
      c.updated.map (fun a => a.assembly.ref sha1) =
        d.2.1.map (fun id => ⟨id, (col.1.lookup id).getD default⟩) ∧
      c.removed.map (fun a => (⟨a.id, a.hash⟩ : AssemblyRef)) =
        d.2.2.map (fun id => ⟨id, (S.lookup id).getD default⟩) := by
  intro col d c
  have hchanged : ∀ id, id ∈ d.1 ∨ id ∈ d.2.1 →
      ((col.2.1.lookup id).getD default).ref sha1 = ⟨id, (col.1.lookup id).getD default⟩ :=
    fun id h => by
      obtain ⟨hid, hh⟩ := changed_of_created_or_updated sha1 S as D id h
      rw [AssemblyGraph.ref, hid, hh]
      rfl
  simp only [c, buildChanges, List.map_map]
  exact ⟨List.map_congr_left fun id h => hchanged id (.inl h),
    List.map_congr_left fun id h => hchanged id (.inr h), rfl⟩

/-- The hash a map files under one of its ids. -/
theorem some_getD_lookup {m : Snapshot} {id : ComponentID} (h : id ∈ m) :
    some ((m.lookup id).getD default) = m.lookup id := by
  obtain ⟨x, hx⟩ := Snapshot.mem_iff_lookup.1 h
  rw [hx]
  rfl

variable (codec : Codec Value)

/-- **A covering sweep passes `enginetest`'s checks.** Let the engine's snapshot hold the refs
`before`, and let the sweep's read cover the change from them to the refs `after` of the
graph's assemblies: every assembly read is in the graph as read, every new or changed id was
read, every id gone from the graph is a dirty root, and every dirty root still in the graph
was read. Then a sweep that returns a nil error returns a changeset that passes both
`continuousDiff` and `expectedGraph`, and leaves the snapshot holding the refs `after`. -/
theorem sweep_passes_checks {e : Engine} {taints : List RawNode} {as : List (AssemblyGraph Value)}
    {D : List ComponentID} {before after : List AssemblyRef} {c : GraphChanged Value}
    (hb : ∀ id, e.snapshot.lookup id = (precomputed before).lookup id)
    (hD : dirtyRootsOf sha1 codec taints = .ok D)
    (hP : ∀ id h, (collectAssemblies sha1 e.snapshot as).1.lookup id = some h →
      (precomputed after).lookup id = some h)
    (hNew : ∀ id, id ∈ precomputed after → e.snapshot.lookup id ≠ (precomputed after).lookup id →
      id ∈ (collectAssemblies sha1 e.snapshot as).1)
    (hGone : ∀ id, id ∈ e.snapshot → id ∉ precomputed after → id ∈ D)
    (hDirty : ∀ id ∈ D, id ∈ precomputed after → id ∈ (collectAssemblies sha1 e.snapshot as).1)
    (h : (e.sweep sha1 codec taints as).1 = .ret c none) :
    continuousDiff sha1 before c = true ∧ expectedGraph sha1 after c = true ∧
      ∀ id, (e.sweep sha1 codec taints as).2.snapshot.lookup id =
        (precomputed after).lookup id := by
  have hcov := lookup_update_eq_of_covers sha1 e.snapshot (precomputed after) as D hP hNew hGone
    hDirty
  simp only [Engine.sweep, hD] at h ⊢
  split_ifs at h ⊢
  · cases h
  · cases h
    exact ⟨beq_iff_eq.2 (hashComponents_congr sha1 hb),
      beq_iff_eq.2 (hashComponents_congr sha1 hcov), hcov⟩

/-- A sweep that updates and removes. The engine holds the refs of two components, `A`
alone and `C` alone; then the edge `A → B` is written and `C` deleted, both are tainted, and
the read returns the one assembly `A → B`. -/
theorem sweep_passes_checks_update_remove :
    let A : RawNode := ⟨"A", ⟨.fill 1⟩⟩
    let B : RawNode := ⟨"B", ⟨.fill 2⟩⟩
    let C : RawNode := ⟨"C", ⟨.fill 3⟩⟩
    let root := fun n : RawNode => AssemblyBuilder.zero.setRoots rawCodec.contentAddress [n]
    let before := [(root A).assemble.ref blockDigest, (root C).assemble.ref blockDigest]
    let as := [((root A).connect rawCodec.contentAddress A B).assemble]
    let after := as.map (AssemblyGraph.ref blockDigest)
    let e : Engine := ⟨precomputed before, ∅⟩
    ∃ c, (e.sweep blockDigest rawCodec [C, A] as).1 = .ret c none ∧
      (c.created.length, c.updated.length, c.removed.length) = (0, 1, 1) ∧
      continuousDiff blockDigest before c = true ∧ expectedGraph blockDigest after c = true ∧
      ∀ id, (e.sweep blockDigest rawCodec [C, A] as).2.snapshot.lookup id =
        (precomputed after).lookup id := by
  intro A B C root before as after e
  have hc : (collectAssemblies blockDigest e.snapshot as).1 = precomputed after := rfl
  have hD : dirtyRootsOf blockDigest rawCodec [C, A] = .ok e.snapshot.keys := rfl
  exact ⟨_, rfl, by decide, sweep_passes_checks blockDigest rawCodec (fun _ => rfl) hD
    (fun _ _ h => hc ▸ h) (fun _ h _ => hc ▸ h) (fun _ h _ => AList.mem_keys.2 h)
    (fun _ _ h => hc ▸ h) rfl⟩

/-- **A covering sweep passes `created`, `updated` and `removed`, for exactly the refs `Diff`
reports.** Under the covering conditions of `sweep_passes_checks`, with a full snapshot `N` of
the graph, and dirty roots that repeat none, a sweep that returns a nil error returns a
changeset on which `created` passes for exactly the wanted refs that repeat no id and give
each id `N` adds its hash in `N`, and no other id a hash; `updated` for those that give each id
whose hash changed its new hash; and `removed` for those that give each id `N` dropped its
stored hash. Repeated dirty roots that were removed would be listed twice, and `removed`'s
length check would fail. -/
theorem sweep_passes_change_checks {e : Engine} {taints : List RawNode}
    {as : List (AssemblyGraph Value)} {D : List ComponentID} {N : Snapshot} {c : GraphChanged Value}
    (hD : dirtyRootsOf sha1 codec taints = .ok D) (hnd : D.Nodup)
    (hP : ∀ id h, (collectAssemblies sha1 e.snapshot as).1.lookup id = some h →
      N.lookup id = some h)
    (hNew : ∀ id, id ∈ N → e.snapshot.lookup id ≠ N.lookup id →
      id ∈ (collectAssemblies sha1 e.snapshot as).1)
    (hGone : ∀ id, id ∈ e.snapshot → id ∉ N → id ∈ D)
    (hDirty : ∀ id ∈ D, id ∈ N → id ∈ (collectAssemblies sha1 e.snapshot as).1)
    (h : (e.sweep sha1 codec taints as).1 = .ret c none) (want : List AssemblyRef) :
    (created sha1 want c = true ↔ (want.map (·.id)).Nodup ∧ ∀ id, (precomputed want).lookup id =
      if id ∈ N ∧ id ∉ e.snapshot then N.lookup id else none) ∧
    (updated sha1 want c = true ↔ (want.map (·.id)).Nodup ∧ ∀ id, (precomputed want).lookup id =
      if id ∈ e.snapshot ∧ id ∈ N ∧ e.snapshot.lookup id ≠ N.lookup id then N.lookup id
      else none) ∧
    (removed want c = true ↔ (want.map (·.id)).Nodup ∧ ∀ id, (precomputed want).lookup id =
      if id ∈ e.snapshot ∧ id ∉ N then e.snapshot.lookup id else none) := by
  simp only [Engine.sweep, hD] at h
  split_ifs at h
  · cases h
  cases h
  obtain ⟨hc, hu, hr⟩ := refs_buildChanges sha1 e.snapshot as D
  have hmem := Snapshot.partialDiff_mem_iff e.snapshot N _ D hP hNew hGone hDirty
  set P := (collectAssemblies sha1 e.snapshot as).1
  set d := e.snapshot.partialDiff P D
  obtain ⟨hn₁, hn₂, hn₃⟩ := Snapshot.nodup_partialDiff e.snapshot P hnd
  -- the partial snapshot agrees with the full one where it is defined
  have hPN : ∀ {id}, id ∈ P → some ((P.lookup id).getD default) = N.lookup id := fun h => by
    obtain ⟨x, hx⟩ := Snapshot.mem_iff_lookup.1 h
    rw [hx, hP _ _ hx]
    rfl
  have hcr : ∀ id, (if id ∈ d.1 then some ((P.lookup id).getD default) else none) =
      if id ∈ N ∧ id ∉ e.snapshot then N.lookup id else none := fun id =>
    ite_congr (propext ((hmem id).1.trans (Snapshot.mem_diff_created _ _ _)))
      (fun h => hPN ((Snapshot.mem_partialDiff_created _ _ _ _).1
        ((hmem id).1.2 ((Snapshot.mem_diff_created _ _ _).2 h))).1) fun _ => rfl
  have hup : ∀ id, (if id ∈ d.2.1 then some ((P.lookup id).getD default) else none) =
      if id ∈ e.snapshot ∧ id ∈ N ∧ e.snapshot.lookup id ≠ N.lookup id then N.lookup id
      else none := fun id =>
    ite_congr (propext ((hmem id).2.1.trans (Snapshot.mem_diff_updated _ _ _)))
      (fun h => hPN ((Snapshot.mem_partialDiff_updated _ _ _ _).1
        ((hmem id).2.1.2 ((Snapshot.mem_diff_updated _ _ _).2 h))).2.1) fun _ => rfl
  have hrm : ∀ id, (if id ∈ d.2.2 then some ((e.snapshot.lookup id).getD default) else none) =
      if id ∈ e.snapshot ∧ id ∉ N then e.snapshot.lookup id else none := fun id =>
    ite_congr (propext ((hmem id).2.2.trans (Snapshot.mem_diff_removed _ _ _)))
      (fun h => some_getD_lookup h.1) fun _ => rfl
  simp only [created, updated, removed]
  rw [hc, hu, hr, sameRefs_map_iff hn₁, sameRefs_map_iff hn₂, sameRefs_map_iff hn₃]
  simp only [hcr, hup, hrm, and_self]

/-- The sweep of `sweep_passes_checks_update_remove`: the checks pass for nothing created,
`A`'s component updated to its new hash, and `C`'s removed with its stored hash. -/
theorem sweep_passes_change_checks_update_remove :
    let A : RawNode := ⟨"A", ⟨.fill 1⟩⟩
    let B : RawNode := ⟨"B", ⟨.fill 2⟩⟩
    let C : RawNode := ⟨"C", ⟨.fill 3⟩⟩
    let root := fun n : RawNode => AssemblyBuilder.zero.setRoots rawCodec.contentAddress [n]
    let before := [(root A).assemble.ref blockDigest, (root C).assemble.ref blockDigest]
    let as := [((root A).connect rawCodec.contentAddress A B).assemble]
    let N := precomputed (as.map (AssemblyGraph.ref blockDigest))
    let e : Engine := ⟨precomputed before, ∅⟩
    ∃ c, (e.sweep blockDigest rawCodec [C, A] as).1 = .ret c none ∧
      (created blockDigest [] c = true ∧
        updated blockDigest (as.map (AssemblyGraph.ref blockDigest)) c = true ∧
        removed [(root C).assemble.ref blockDigest] c = true) ∧
      ∀ want : List AssemblyRef,
      (created blockDigest want c = true ↔ (want.map (·.id)).Nodup ∧ ∀ id,
        (precomputed want).lookup id = if id ∈ N ∧ id ∉ e.snapshot then N.lookup id else none) ∧
      (updated blockDigest want c = true ↔ (want.map (·.id)).Nodup ∧ ∀ id,
        (precomputed want).lookup id = if id ∈ e.snapshot ∧ id ∈ N ∧
          e.snapshot.lookup id ≠ N.lookup id then N.lookup id else none) ∧
      (removed want c = true ↔ (want.map (·.id)).Nodup ∧ ∀ id, (precomputed want).lookup id =
        if id ∈ e.snapshot ∧ id ∉ N then e.snapshot.lookup id else none) := by
  intro A B C root before as N e
  have hc : (collectAssemblies blockDigest e.snapshot as).1 = N := rfl
  have hD : dirtyRootsOf blockDigest rawCodec [C, A] = .ok e.snapshot.keys := rfl
  exact ⟨_, rfl, by decide, sweep_passes_change_checks blockDigest rawCodec hD (by decide)
    (fun _ _ h => hc ▸ h) (fun _ h _ => hc ▸ h) (fun _ h _ => AList.mem_keys.2 h)
    (fun _ _ h => hc ▸ h) rfl⟩

end DigitalTwin
