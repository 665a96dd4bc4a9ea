/-
`ComputeForestHash` (`src/unnamed/part_001`), and how it agrees with the graph hash the
engine reports.

`ComputeForestHash` calls `AssemblyID` and `AssemblyHash` once per component, files each hash
under its id in a Go map, a later component replacing an earlier one of the same id, and
digests the map with `HashComponents`. `HashComponents` sorts the ids by their bytes, so what
it digests depends only on which id maps to which hash (`hashComponents_perm`): the forest
hash of components with distinct ids does not depend on their order
(`computeForestHash_perm`). With a repeated id only the last component of that id counts, so
there the order does matter.
-/
import DigitalTwin.Engine

set_option autoImplicit false

namespace DigitalTwin

variable (sha1 : List UInt8 → ContentAddress)

/-- `AssemblyRef`: what `ComputeForestHash` reads of a component, its `AssemblyID` and its
`AssemblyHash`, each called once. -/
structure AssemblyRef where
  id : ComponentID
  hash : ComponentHash

/-- An assembly as an `AssemblyRef`. -/
def AssemblyGraph.ref {Value : Type} (a : AssemblyGraph Value) : AssemblyRef :=
  ⟨a.assemblyID sha1, a.assemblyHash sha1⟩

/-- The map `ComputeForestHash` builds, `precomputed`: every component's hash filed under its
id, a later one replacing an earlier one of the same id. -/
def precomputed (components : List AssemblyRef) : Snapshot :=
  components.foldl (fun m c => m.insert c.id c.hash) ∅

/-- `ComputeForestHash`: `HashComponents` of that map. -/
def computeForestHash (components : List AssemblyRef) : ForestHash :=
  hashComponents sha1 (precomputed components)

/-! ## `HashComponents` reads a map, not its order -/

/-- Two maps with the same entries, in any order, have one `HashComponents`. -/
theorem hashComponents_perm {m m' : AList fun _ : ComponentID => ComponentHash}
    (p : m.entries.Perm m'.entries) : hashComponents sha1 m = hashComponents sha1 m' := by
  simp only [hashComponents]
  have hk : m.keys.Perm m'.keys := p.map Sigma.fst
  rw [sortSlice_eq_of_perm ComponentID.bytes_injective hk]
  simp only [AList.perm_lookup p]

/-- Maps that agree on every id have the same entries, in some order. -/
theorem perm_entries_of_lookup {m m' : Snapshot} (h : ∀ k, m.lookup k = m'.lookup k) :
    m.entries.Perm m'.entries :=
  List.lookup_ext m.nodupKeys m'.nodupKeys fun x _ => by
    rw [show m.entries.dlookup x = _ from h x]; rfl

/-- `HashComponents` reads only which id maps to which hash. -/
theorem hashComponents_congr {m m' : AList fun _ : ComponentID => ComponentHash}
    (h : ∀ k, m.lookup k = m'.lookup k) : hashComponents sha1 m = hashComponents sha1 m' :=
  hashComponents_perm sha1 (perm_entries_of_lookup h)

/-- Filing components with distinct ids, none of them in the map yet, puts each in front of
the map, the last one first. -/
theorem entries_foldl_insert {l : List AssemblyRef} (hn : (l.map (·.id)).Nodup)
    (m : AList fun _ : ComponentID => ComponentHash) (hm : ∀ c ∈ l, c.id ∉ m) :
    (l.foldl (fun m c => m.insert c.id c.hash) m).entries =
      (l.map fun c => (⟨c.id, c.hash⟩ : Σ _ : ComponentID, ComponentHash)).reverse ++ m.entries := by
  induction l generalizing m with
  | nil => rfl
  | cons c l ih =>
    obtain ⟨hc, hn⟩ := List.nodup_cons.1 hn
    have hm' : ∀ d ∈ l, d.id ∉ m.insert c.id c.hash := fun d hd hmem =>
      ((AList.mem_insert _).1 hmem).elim (fun he => hc (List.mem_map.2 ⟨d, hd, he⟩))
        (hm d (List.mem_cons_of_mem _ hd))
    rw [List.foldl_cons, ih hn _ hm', AList.insert_entries_of_neg (hm c (List.mem_cons_self _ _))]
    simp

/-- Components with distinct ids, in any order, make maps with the same entries. -/
theorem precomputed_perm {l l' : List AssemblyRef} (hp : l.Perm l') (hn : (l.map (·.id)).Nodup) :
    (precomputed l).entries.Perm (precomputed l').entries := by
  rw [precomputed, precomputed, entries_foldl_insert hn ∅ fun _ _ => AList.not_mem_empty _,
    entries_foldl_insert ((hp.map _).nodup_iff.1 hn) ∅ fun _ _ => AList.not_mem_empty _]
  exact ((List.reverse_perm _).trans ((hp.map _).trans (List.reverse_perm _).symm)).append_right _

/-- **`ComputeForestHash` does not depend on the order of its components** when their ids
are distinct. -/
theorem computeForestHash_perm {l l' : List AssemblyRef} (hp : l.Perm l')
    (hn : (l.map (·.id)).Nodup) : computeForestHash sha1 l = computeForestHash sha1 l' :=
  hashComponents_perm sha1 (precomputed_perm hp hn)

theorem computeForestHash_perm_swap :
    [(⟨⟨.fill 1⟩, ⟨.fill 3⟩⟩ : AssemblyRef), ⟨⟨.fill 2⟩, ⟨.fill 4⟩⟩].Perm
      [⟨⟨.fill 2⟩, ⟨.fill 4⟩⟩, ⟨⟨.fill 1⟩, ⟨.fill 3⟩⟩] ∧
    ([(⟨⟨.fill 1⟩, ⟨.fill 3⟩⟩ : AssemblyRef), ⟨⟨.fill 2⟩, ⟨.fill 4⟩⟩].map (·.id)).Nodup ∧
    computeForestHash blockDigest [⟨⟨.fill 1⟩, ⟨.fill 3⟩⟩, ⟨⟨.fill 2⟩, ⟨.fill 4⟩⟩] =
      computeForestHash blockDigest [⟨⟨.fill 2⟩, ⟨.fill 4⟩⟩, ⟨⟨.fill 1⟩, ⟨.fill 3⟩⟩] := by
  have hp : [(⟨⟨.fill 1⟩, ⟨.fill 3⟩⟩ : AssemblyRef), ⟨⟨.fill 2⟩, ⟨.fill 4⟩⟩].Perm
      [⟨⟨.fill 2⟩, ⟨.fill 4⟩⟩, ⟨⟨.fill 1⟩, ⟨.fill 3⟩⟩] := List.Perm.swap _ _ _
  have hn : ([(⟨⟨.fill 1⟩, ⟨.fill 3⟩⟩ : AssemblyRef), ⟨⟨.fill 2⟩, ⟨.fill 4⟩⟩].map
      (·.id)).Nodup := by
    decide
  exact ⟨hp, hn, computeForestHash_perm blockDigest hp hn⟩

end DigitalTwin
