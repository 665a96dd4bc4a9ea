/-
What `WhatChanged` computes between its read and its return, over every input.

The read hands back a partial snapshot `P`: only the assemblies of the tainted nodes. The
sweep diffs it against the stored snapshot `S` with `PartialDiff`, whose only source of
removals is the list of dirty roots `D`, then writes the changes into `S` with `Update`. The
main result, `partialDiff_refines_diff`, says when that is the same as reading the whole graph
into `N` and running `Diff`: `P` must agree with `N` where it is defined, must hold every id
that `N` adds or changes, `D` must name every id `N` drops, and every dirty root that `N`
still has must be in `P`. Under those four conditions the three id sets agree, and the
updated snapshot is `N`, key by key.

The proof goes through two lemmas that need no condition at all: a loop invariant of
`WhatChanged`'s first loop (`collectAssemblies_inv`: every id the diff reports has its
assembly at hand, with the right id and hash), and the value `Update` leaves under each key
(`lookup_update_buildChanges`).
-/
import DigitalTwin.Engine

set_option autoImplicit false

namespace DigitalTwin

namespace Snapshot

/-- **`PartialDiff` reports what `Diff` reports** once the partial snapshot and the dirty
roots cover every change between the old and the new full snapshot. -/
theorem partialDiff_mem_iff (S N P : Snapshot) (D : List ComponentID)
    (hP : ∀ id h, P.lookup id = some h → N.lookup id = some h)
    (hNew : ∀ id, id ∈ N → S.lookup id ≠ N.lookup id → id ∈ P)
    (hGone : ∀ id, id ∈ S → id ∉ N → id ∈ D)
    (hDirty : ∀ id ∈ D, id ∈ N → id ∈ P) (id : ComponentID) :
    (id ∈ (S.partialDiff P D).1 ↔ id ∈ (S.diff N).1) ∧
    (id ∈ (S.partialDiff P D).2.1 ↔ id ∈ (S.diff N).2.1) ∧
    (id ∈ (S.partialDiff P D).2.2 ↔ id ∈ (S.diff N).2.2) := by
  have hsub : ∀ {id}, id ∈ P → id ∈ N ∧ P.lookup id = N.lookup id := fun hm => by
    obtain ⟨h, hl⟩ := mem_iff_lookup.mp hm
    exact ⟨mem_iff_lookup.mpr ⟨h, hP _ _ hl⟩, by rw [hl, hP _ _ hl]⟩
  refine ⟨?_, ?_, ?_⟩
  · rw [mem_partialDiff_created, mem_diff_created]
    refine ⟨fun ⟨hp, hs⟩ => ⟨(hsub hp).1, hs⟩, fun ⟨hn, hs⟩ => ⟨hNew id hn ?_, hs⟩⟩
    obtain ⟨h, hl⟩ := mem_iff_lookup.mp hn
    rw [AList.lookup_eq_none.mpr hs, hl]
    simp
  · rw [mem_partialDiff_updated, mem_diff_updated]
    constructor
    · rintro ⟨hs, hp, hne⟩
      rw [(hsub hp).2] at hne
      exact ⟨hs, (hsub hp).1, hne⟩
    · rintro ⟨hs, hn, hne⟩
      have hp := hNew id hn hne
      rw [← (hsub hp).2] at hne
      exact ⟨hs, hp, hne⟩
  · rw [mem_partialDiff_removed, mem_diff_removed]
    constructor
    · rintro ⟨hd, hp, hs⟩
      exact ⟨hs, fun hn => hp (hDirty id hd hn)⟩
    · rintro ⟨hs, hn⟩
      exact ⟨hGone id hs hn, fun hp => hn (hsub hp).1, hs⟩

end Snapshot

section Collect

variable (sha1 : List UInt8 → ContentAddress) {Value : Type}

/-- What `WhatChanged`'s first loop keeps true of the partial snapshot `next` and of the
changed assemblies: each changed assembly is filed under its own id, and each id of `next`
whose hash the stored snapshot `S` lacks is filed with an assembly of that hash. -/
structure CollectInv (S next : Snapshot)
    (changed : AList fun _ : ComponentID => AssemblyGraph Value) : Prop where
  changed_id : ∀ id a, changed.lookup id = some a → a.assemblyID sha1 = id
  changed_of_next : ∀ id h, next.lookup id = some h → S.lookup id ≠ some h →
    ∃ a, changed.lookup id = some a ∧ a.assemblyHash sha1 = h

/-- One pass of the first loop keeps `CollectInv`. -/
theorem collectStep_inv (S : Snapshot)
    (acc : Snapshot × (AList fun _ : ComponentID => AssemblyGraph Value) × Nat)
    (a : AssemblyGraph Value) (hinv : CollectInv sha1 S acc.1 acc.2.1) :
    CollectInv sha1 S (collectStep sha1 S acc a).1 (collectStep sha1 S acc a).2.1 := by
  obtain ⟨hid, hnext⟩ := hinv
  constructor
  · intro id b hb
    simp only [collectStep] at hb
    split at hb
    · by_cases he : id = a.assemblyID sha1
      · subst he
        rw [AList.lookup_insert] at hb
        cases hb
        rfl
      · rw [AList.lookup_insert_ne he] at hb
        exact hid _ _ hb
    · exact hid _ _ hb
  · intro id h hl hs
    simp only [collectStep] at hl ⊢
    by_cases he : id = a.assemblyID sha1
    · subst he
      rw [AList.lookup_insert] at hl
      cases hl
      have hc : S.containsAssembly sha1 a = false := by simp [Snapshot.containsAssembly, hs]
      simp [hc, AList.lookup_insert]
    · rw [AList.lookup_insert_ne he] at hl
      obtain ⟨b, hb, hh⟩ := hnext id h hl hs
      refine ⟨b, ?_, hh⟩
      split <;> simp [AList.lookup_insert_ne he, hb]

/-- **The first loop's invariant**, over every list of fetched assemblies. -/
theorem collectAssemblies_inv (S : Snapshot) (as : List (AssemblyGraph Value)) :
    CollectInv sha1 S (collectAssemblies sha1 S as).1 (collectAssemblies sha1 S as).2.1 := by
  suffices h : ∀ acc, CollectInv sha1 S acc.1 acc.2.1 →
      CollectInv sha1 S (as.foldl (collectStep sha1 S) acc).1
        (as.foldl (collectStep sha1 S) acc).2.1 from
    h _ ⟨fun _ _ h => by simp at h, fun _ _ h => by simp at h⟩
  induction as with
  | nil => exact fun _ h => h
  | cons a as ih => exact fun acc h => ih _ (collectStep_inv sha1 S acc a h)

/-- Every id the diff reports created or updated has its assembly among the changed ones,
filed under that id, with the id's hash in the partial snapshot. -/
theorem changed_of_created_or_updated (S : Snapshot) (as : List (AssemblyGraph Value))
    (D : List ComponentID) (id : ComponentID)
    (h : id ∈ (S.partialDiff (collectAssemblies sha1 S as).1 D).1 ∨
      id ∈ (S.partialDiff (collectAssemblies sha1 S as).1 D).2.1) :
    (((collectAssemblies sha1 S as).2.1.lookup id).getD default).assemblyID sha1 = id ∧
      (collectAssemblies sha1 S as).1.lookup id =
        some ((((collectAssemblies sha1 S as).2.1.lookup id).getD default).assemblyHash sha1) := by
  obtain ⟨hid, hnext⟩ := collectAssemblies_inv sha1 S as
  have hP : ∃ hp, (collectAssemblies sha1 S as).1.lookup id = some hp ∧ S.lookup id ≠ some hp := by
    rcases h with h | h
    · obtain ⟨hp, hs⟩ := (Snapshot.mem_partialDiff_created _ _ _ _).mp h
      obtain ⟨x, hx⟩ := Snapshot.mem_iff_lookup.mp hp
      exact ⟨x, hx, by rw [AList.lookup_eq_none.mpr hs]; simp⟩
    · obtain ⟨-, hp, hne⟩ := (Snapshot.mem_partialDiff_updated _ _ _ _).mp h
      obtain ⟨x, hx⟩ := Snapshot.mem_iff_lookup.mp hp
      exact ⟨x, hx, by rwa [hx] at hne⟩
  obtain ⟨hp, hl, hs⟩ := hP
  obtain ⟨a, ha, hh⟩ := hnext id hp hl hs
  rw [ha, Option.getD_some, hh, hid id a ha]
  exact ⟨rfl, hl⟩

/-- **What `Update` leaves under each key** after `WhatChanged`'s construction: removed ids
are gone, created and updated ids hold their hash in the partial snapshot, every other id
keeps its stored hash. -/
theorem lookup_update_buildChanges (S : Snapshot) (as : List (AssemblyGraph Value))
    (D : List ComponentID) (id : ComponentID) :
    let c := collectAssemblies sha1 S as
    let d := S.partialDiff c.1 D
    (S.update sha1 (buildChanges sha1 S c.2.1 d.1 d.2.1 d.2.2)).lookup id =
      if id ∈ d.2.2 then none else if id ∈ d.1 ∨ id ∈ d.2.1 then c.1.lookup id
      else S.lookup id := by
  intro c d
  have hF := changed_of_created_or_updated sha1 S as D
  have hmap : ∀ l : List ComponentID, (∀ j ∈ l, j ∈ d.1 ∨ j ∈ d.2.1) →
      l.map (fun j => ((c.2.1.lookup j).getD default).assemblyID sha1) = l := fun l hl => by
    conv_rhs => rw [← List.map_id l]
    exact List.map_congr_left fun j hj => (hF j (hl j hj)).1
  have hw : ∀ l : List ComponentID, (∀ j ∈ l, j ∈ d.1 ∨ j ∈ d.2.1) → ∀ j ∈ l,
      ((c.2.1.lookup j).getD default).assemblyID sha1 = id →
      some (((c.2.1.lookup j).getD default).assemblyHash sha1) = c.1.lookup id := by
    intro l hl j hj hjid
    obtain ⟨h1, h2⟩ := hF j (hl j hj)
    rw [← hjid, h1, h2]
  simp only [Snapshot.update, buildChanges, List.foldl_map]
  rw [lookup_foldl_erase (fun j => j), List.map_id',
    lookup_foldl_insert _ _ _ _ _ _ (hw d.2.1 fun j hj => Or.inr hj),
    hmap d.2.1 fun j hj => Or.inr hj,
    lookup_foldl_insert _ _ _ _ _ _ (hw d.1 fun j hj => Or.inl hj),
    hmap d.1 fun j hj => Or.inl hj]
  by_cases h1 : id ∈ d.2.2 <;> by_cases h2 : id ∈ d.2.1 <;> by_cases h3 : id ∈ d.1 <;>
    simp [h1, h2, h3]

/-- Under the conditions of `partialDiff_refines_diff`, `Update` leaves under every key the
hash of the full new snapshot. -/
theorem lookup_update_eq_of_covers (S N : Snapshot) (as : List (AssemblyGraph Value))
    (D : List ComponentID)
    (hP : ∀ id h, (collectAssemblies sha1 S as).1.lookup id = some h → N.lookup id = some h)
    (hNew : ∀ id, id ∈ N → S.lookup id ≠ N.lookup id → id ∈ (collectAssemblies sha1 S as).1)
    (hGone : ∀ id, id ∈ S → id ∉ N → id ∈ D)
    (hDirty : ∀ id ∈ D, id ∈ N → id ∈ (collectAssemblies sha1 S as).1) (id : ComponentID) :
    let c := collectAssemblies sha1 S as
    let d := S.partialDiff c.1 D
    (S.update sha1 (buildChanges sha1 S c.2.1 d.1 d.2.1 d.2.2)).lookup id = N.lookup id := by
  intro c d
  rw [lookup_update_buildChanges]
  obtain ⟨hc, hu, hr⟩ := Snapshot.partialDiff_mem_iff S N c.1 D hP hNew hGone hDirty id
  rw [Snapshot.mem_diff_created] at hc
  rw [Snapshot.mem_diff_updated] at hu
  rw [Snapshot.mem_diff_removed] at hr
  by_cases h1 : id ∈ d.2.2
  · rw [if_pos h1, eq_comm, AList.lookup_eq_none]
    exact (hr.mp h1).2
  by_cases h2 : id ∈ d.1 ∨ id ∈ d.2.1
  · rw [if_neg h1, if_pos h2]
    have hp : id ∈ c.1 := by
      rcases h2 with h | h
      · exact ((Snapshot.mem_partialDiff_created _ _ _ _).mp h).1
      · exact ((Snapshot.mem_partialDiff_updated _ _ _ _).mp h).2.1
    obtain ⟨x, hx⟩ := Snapshot.mem_iff_lookup.mp hp
    rw [hx, hP id x hx]
  · rw [if_neg h1, if_neg h2]
    rw [not_or, hc, hu] at h2
    rw [hr] at h1
    by_cases hs : id ∈ S <;> by_cases hn : id ∈ N
    · exact not_not.mp fun hne => h2.2 ⟨hs, hn, hne⟩
    · exact absurd ⟨hs, hn⟩ h1
    · exact absurd ⟨hn, hs⟩ h2.1
    · rw [AList.lookup_eq_none.mpr hs, AList.lookup_eq_none.mpr hn]

/-- **The sweep refines a full recapture followed by `Diff`.** Let `P` be the partial
snapshot `WhatChanged` builds from the fetched assemblies and `D` its dirty roots. If `P`
agrees with the full snapshot `N` where it is defined, holds every id `N` adds or changes,
`D` names every id `N` drops, and every dirty root `N` keeps is in `P`, then `PartialDiff`
reports the ids `Diff` reports, `Update` turns `S` into `N` key by key, and every baseline
and removed hash is the stored one. -/
theorem partialDiff_refines_diff (S N : Snapshot) (as : List (AssemblyGraph Value))
    (D : List ComponentID)
    (hP : ∀ id h, (collectAssemblies sha1 S as).1.lookup id = some h → N.lookup id = some h)
    (hNew : ∀ id, id ∈ N → S.lookup id ≠ N.lookup id → id ∈ (collectAssemblies sha1 S as).1)
    (hGone : ∀ id, id ∈ S → id ∉ N → id ∈ D)
    (hDirty : ∀ id ∈ D, id ∈ N → id ∈ (collectAssemblies sha1 S as).1) :
    let c := collectAssemblies sha1 S as
    let d := S.partialDiff c.1 D
    let changes := buildChanges sha1 S c.2.1 d.1 d.2.1 d.2.2
    (∀ id, (id ∈ d.1 ↔ id ∈ (S.diff N).1) ∧ (id ∈ d.2.1 ↔ id ∈ (S.diff N).2.1) ∧
      (id ∈ d.2.2 ↔ id ∈ (S.diff N).2.2)) ∧
    (∀ id, (S.update sha1 changes).lookup id = N.lookup id) ∧
    (∀ u ∈ changes.updated, S.lookup (u.assembly.assemblyID sha1) = some u.baseline) ∧
    (∀ r ∈ changes.removed, S.lookup r.id = some r.hash) := by
  intro c d changes
  have hS : ∀ {j}, j ∈ d.2.1 ∨ j ∈ d.2.2 → ∃ x, S.lookup j = some x := fun h => by
    rcases h with h | h
    · exact Snapshot.mem_iff_lookup.mp ((Snapshot.mem_partialDiff_updated _ _ _ _).mp h).1
    · exact Snapshot.mem_iff_lookup.mp ((Snapshot.mem_partialDiff_removed _ _ _ _).mp h).2.2
  refine ⟨Snapshot.partialDiff_mem_iff S N c.1 D hP hNew hGone hDirty,
    lookup_update_eq_of_covers sha1 S N as D hP hNew hGone hDirty, ?_, ?_⟩
  · intro u hu
    simp only [changes, buildChanges, List.mem_map] at hu
    obtain ⟨j, hj, rfl⟩ := hu
    obtain ⟨x, hx⟩ := hS (Or.inl hj)
    rw [(changed_of_created_or_updated sha1 S as D j (Or.inr hj)).1, hx]
    rfl
  · intro r hr
    simp only [changes, buildChanges, List.mem_map] at hr
    obtain ⟨j, hj, rfl⟩ := hr
    obtain ⟨x, hx⟩ := hS (Or.inr hj)
    rw [hx]
    rfl

/-- The refinement at one input. The stored snapshot holds two components, `A` alone and `C`
alone; then the edge `A → B` is written and `C` deleted, both `A` and `C` are dirty roots,
and the read returns the one assembly `A → B`. The partial diff updates `A`'s component
from its stored hash and removes `C`'s with its stored hash. -/
theorem partialDiff_refines_diff_update_remove :
    let A : RawNode := ⟨"A", ⟨.fill 1⟩⟩
    let B : RawNode := ⟨"B", ⟨.fill 2⟩⟩
    let C : RawNode := ⟨"C", ⟨.fill 3⟩⟩
    let root := fun n : RawNode => AssemblyBuilder.zero.setRoots RawNode.contentAddress [n]
    let S := (collectAssemblies blockDigest ∅ [(root A).assemble, (root C).assemble]).1
    let as := [((root A).connect RawNode.contentAddress A B).assemble]
    let D := S.keys
    let c := collectAssemblies blockDigest S as
    let N := c.1
    let d := S.partialDiff c.1 D
    let changes := buildChanges blockDigest S c.2.1 d.1 d.2.1 d.2.2
    (changes.created.length, changes.updated.length, changes.removed.length) = (0, 1, 1) ∧
    ((∀ id h, c.1.lookup id = some h → N.lookup id = some h) ∧
      (∀ id, id ∈ N → S.lookup id ≠ N.lookup id → id ∈ c.1) ∧
      (∀ id, id ∈ S → id ∉ N → id ∈ D) ∧ (∀ id ∈ D, id ∈ N → id ∈ c.1)) ∧
    (∀ id, (id ∈ d.1 ↔ id ∈ (S.diff N).1) ∧ (id ∈ d.2.1 ↔ id ∈ (S.diff N).2.1) ∧
      (id ∈ d.2.2 ↔ id ∈ (S.diff N).2.2)) ∧
    (∀ id, (S.update blockDigest changes).lookup id = N.lookup id) ∧
    (∀ u ∈ changes.updated, S.lookup (u.assembly.assemblyID blockDigest) = some u.baseline) ∧
    (∀ r ∈ changes.removed, S.lookup r.id = some r.hash) :=
  have hyps := ⟨fun _ _ h => h, fun _ h _ => h, fun _ h _ => AList.mem_keys.2 h, fun _ _ h => h⟩
  ⟨by decide, hyps, partialDiff_refines_diff blockDigest _ _ _ _ hyps.1 hyps.2.1 hyps.2.2.1
    hyps.2.2.2⟩

end Collect

end DigitalTwin
