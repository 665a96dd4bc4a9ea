/-
`GraphChanged.IsEmpty` against the change lists.

`IsEmpty` compares the two graph hashes, and `HashComponents` digests only the component
hashes, in the order of their ids. So the hash of a snapshot says nothing of its ids unless
each hash commits to its id. It does for the snapshots the engine builds: every entry is the
id and hash of an assembly the engine parsed (`Snapshot.Committed`), and `AssemblyHash`
digests the assembly's id before its blocks. With the digest injective on the inputs the
engine gave it, equal graph hashes give equal snapshots (`lookup_eq_of_componentsInput_eq`),
and a sweep leaves the snapshot unchanged exactly when its partial diff is empty
(`graphHash_update_eq_iff`).

The inputs are those of one run: the `AssemblyHash` input of each assembly of the full scan
(`captureInputs`), and, for each call that returns a changeset, the `AssemblyHash` input of
each assembly its read returned and the `HashComponents` inputs of the snapshot before and
after (`Engine.runInputs`). A run digests finitely many inputs, so the hypothesis asks of
the digest nothing beyond the absence of a collision among them. The invariant holds of the
snapshot `NewEngine` captures and is kept by every call (`whatChanged_isEmpty_iff`), so it
holds over every run: `newEngine_isEmpty_iff_no_changes`. The disassembler drops the
changesets `IsEmpty` accepts; by the same theorem it never drops one that reports a change.
-/
import DigitalTwin.Run
import DigitalTwin.Sweep
import DigitalTwin.AssemblyDigest
import DigitalTwin.Disassembler

set_option autoImplicit false

namespace DigitalTwin

section Committed

variable (sha1 : List UInt8 → ContentAddress) {Value : Type}

/-- Every entry of the snapshot is the id and hash of an assembly of `A`. -/
def Snapshot.Committed (A : AssemblyGraph Value → Prop) (S : Snapshot) : Prop :=
  ∀ id h, S.lookup id = some h → ∃ a, A a ∧ a.assemblyID sha1 = id ∧ a.assemblyHash sha1 = h

/-- What `HashComponents` digests: the component hashes, in the byte order of their ids. -/
def componentsInput (components : Snapshot) : List UInt8 :=
  (sortSlice (fun a b : ComponentID => bytesLess a.bytes b.bytes) components.keys).flatMap
    fun ref => ((components.lookup ref).getD default).bytes

theorem graphHash_eq (S : Snapshot) :
    Snapshot.graphHash sha1 S = ⟨sha1 (componentsInput S)⟩ := rfl

variable {sha1}

theorem componentsInput_eq (S : Snapshot) :
    componentsInput S = ((sortSlice (fun a b : ComponentID => bytesLess a.bytes b.bytes)
      S.keys).map fun ref => (S.lookup ref).getD default).flatMap ComponentHash.bytes := by
  simp [componentsInput, List.flatMap_map]

/-- The hashes `HashComponents` writes are those of the snapshot. -/
theorem mem_hashes_iff (S : Snapshot) (h : ComponentHash) :
    h ∈ (sortSlice (fun a b : ComponentID => bytesLess a.bytes b.bytes) S.keys).map
      (fun ref => (S.lookup ref).getD default) ↔ ∃ id, S.lookup id = some h := by
  simp only [List.mem_map, (sortSlice_perm _ _).mem_iff, AList.mem_keys]
  constructor
  · rintro ⟨id, hid, rfl⟩
    obtain ⟨x, hx⟩ := Snapshot.mem_iff_lookup.1 hid
    exact ⟨id, by rw [hx]; rfl⟩
  · rintro ⟨id, hid⟩
    exact ⟨id, Snapshot.mem_iff_lookup.2 ⟨h, hid⟩, by rw [hid]; rfl⟩

variable {A : AssemblyGraph Value → Prop} {I : Set (List UInt8)} (hinj : Set.InjOn sha1 I)
  (hAI : ∀ a, A a → a.hashInput sha1 ∈ I)
include hinj hAI

/-- Under the hypothesis on the digest, a hash commits to its id: two committed snapshots
that share a hash file it under one id. -/
theorem id_eq_of_hash_eq {S S' : Snapshot} (hS : S.Committed sha1 A) (hS' : S'.Committed sha1 A)
    {id id' : ComponentID} {h : ComponentHash} (h₁ : S.lookup id = some h)
    (h₂ : S'.lookup id' = some h) : id = id' := by
  obtain ⟨a, ha, rfl, rfl⟩ := hS id h h₁
  obtain ⟨a', ha', rfl, heq⟩ := hS' id' _ h₂
  rw [AssemblyGraph.assemblyHash_eq, AssemblyGraph.assemblyHash_eq, ComponentHash.mk.injEq] at heq
  have := hinj (hAI a' ha') (hAI a ha) heq
  exact (ComponentID.bytes_injective (List.append_inj this (by simp [ComponentID.bytes,
    ContentAddress.size_eq])).1).symm

/-- **`HashComponents` separates committed snapshots.** Two snapshots committed to `A` with
the same `HashComponents` input have the same entries. -/
theorem lookup_eq_of_componentsInput_eq {S S' : Snapshot} (hS : S.Committed sha1 A)
    (hS' : S'.Committed sha1 A) (heq : componentsInput S = componentsInput S') (id : ComponentID) :
    S.lookup id = S'.lookup id := by
  rw [componentsInput_eq, componentsInput_eq] at heq
  have hs := flatMap_inj_of_length ComponentHash.bytes_injective
    (fun h => h.toContentAddress.size_eq) (by decide) heq
  have move : ∀ {T T' : Snapshot}, T.Committed sha1 A → T'.Committed sha1 A →
      (sortSlice (fun a b : ComponentID => bytesLess a.bytes b.bytes) T.keys).map
        (fun ref => (T.lookup ref).getD default) =
      (sortSlice (fun a b : ComponentID => bytesLess a.bytes b.bytes) T'.keys).map
        (fun ref => (T'.lookup ref).getD default) →
      ∀ {h}, T.lookup id = some h → T'.lookup id = some h := by
    intro T T' hT hT' hl h hh
    obtain ⟨id', hid'⟩ := (mem_hashes_iff T' h).1 (hl ▸ (mem_hashes_iff T h).2 ⟨id, hh⟩)
    rw [id_eq_of_hash_eq hinj hAI hT hT' hh hid']
    exact hid'
  cases h₁ : S.lookup id with
  | some h => exact (move hS hS' hs h₁).symm
  | none =>
    cases h₂ : S'.lookup id with
    | none => rfl
    | some h => simpa [h₁] using move hS' hS hs.symm h₂

end Committed

/-! ## What a sweep commits to -/

section Sweep

variable (sha1 : List UInt8 → ContentAddress) {Value : Type} (codec : Codec Value)

/-- Every entry of the partial snapshot is the id and hash of a fetched assembly. -/
theorem lookup_foldl_collectStep (S : Snapshot) (as : List (AssemblyGraph Value))
    (acc : Snapshot × (AList fun _ : ComponentID => AssemblyGraph Value) × Nat)
    {id : ComponentID} {h : ComponentHash}
    (hl : (as.foldl (collectStep sha1 S) acc).1.lookup id = some h) :
    acc.1.lookup id = some h ∨ ∃ a ∈ as, a.assemblyID sha1 = id ∧ a.assemblyHash sha1 = h := by
  induction as generalizing acc with
  | nil => exact .inl hl
  | cons a as ih =>
    rcases ih _ hl with hl | ⟨b, hb, hb'⟩
    · simp only [collectStep] at hl
      by_cases he : id = a.assemblyID sha1
      · subst he
        rw [AList.lookup_insert, Option.some.injEq] at hl
        exact .inr ⟨a, List.mem_cons_self _ _, rfl, hl⟩
      · exact .inl (by rwa [AList.lookup_insert_ne he] at hl)
    · exact .inr ⟨b, List.mem_cons_of_mem _ hb, hb'⟩

variable {A : AssemblyGraph Value → Prop}

/-- **`Update` keeps the snapshot committed** to the stored assemblies and the fetched ones. -/
theorem committed_update {S : Snapshot} {as : List (AssemblyGraph Value)} (hS : S.Committed sha1 A)
    (has : ∀ a ∈ as, A a) (D : List ComponentID) :
    let c := collectAssemblies sha1 S as
    let d := S.partialDiff c.1 D
    (S.update sha1 (buildChanges sha1 S c.2.1 d.1 d.2.1 d.2.2)).Committed sha1 A := by
  intro c d id h hl
  rw [lookup_update_buildChanges] at hl
  split_ifs at hl with h₁ h₂
  · rcases lookup_foldl_collectStep sha1 S as _ hl with hl | ⟨a, ha, hid, hh⟩
    · simp at hl
    · exact ⟨a, has a ha, hid, hh⟩
  · exact hS id h hl

/-- A sweep that returns a nil error: its changeset and the snapshot it stores. -/
theorem sweep_eq_ret_none {e : Engine} {ts : List RawNode} {as : List (AssemblyGraph Value)}
    {c : GraphChanged Value} (h : (e.sweep sha1 codec ts as).1 = .ret c none) :
    ∃ D, let col := collectAssemblies sha1 e.snapshot as
      let d := e.snapshot.partialDiff col.1 D
      let changes := buildChanges sha1 e.snapshot col.2.1 d.1 d.2.1 d.2.2
      c = { changes with graphAfter := Snapshot.graphHash sha1 (e.snapshot.update sha1 changes) } ∧
        (e.sweep sha1 codec ts as).2.snapshot = e.snapshot.update sha1 changes := by
  simp only [Engine.sweep] at h ⊢
  split at h
  · cases h
  · rename_i D _
    split_ifs at h ⊢
    · cases h
    · cases h
      exact ⟨D, rfl, rfl⟩

/-- **`IsEmpty` on one sweep.** Under the hypothesis on the digest, the graph hash stays put
exactly when the diff reports nothing. -/
theorem graphHash_update_eq_iff {I : Set (List UInt8)} (hinj : Set.InjOn sha1 I)
    (hAI : ∀ a, A a → a.hashInput sha1 ∈ I) {S : Snapshot} {as : List (AssemblyGraph Value)}
    (hS : S.Committed sha1 A) (has : ∀ a ∈ as, A a) (D : List ComponentID) :
    let c := collectAssemblies sha1 S as
    let d := S.partialDiff c.1 D
    let S' := S.update sha1 (buildChanges sha1 S c.2.1 d.1 d.2.1 d.2.2)
    componentsInput S ∈ I → componentsInput S' ∈ I →
      (Snapshot.graphHash sha1 S' = Snapshot.graphHash sha1 S ↔
        d.1 = [] ∧ d.2.1 = [] ∧ d.2.2 = []) := by
  intro c d S' hin hin'
  constructor
  · intro heq
    rw [graphHash_eq, graphHash_eq, ForestHash.mk.injEq] at heq
    have hl := lookup_eq_of_componentsInput_eq hinj hAI (committed_update sha1 hS has D) hS
      (hinj hin' hin heq)
    simp only [S', lookup_update_buildChanges] at hl
    refine ⟨List.eq_nil_iff_forall_not_mem.2 fun id hid => ?_,
      List.eq_nil_iff_forall_not_mem.2 fun id hid => ?_,
      List.eq_nil_iff_forall_not_mem.2 fun id hid => ?_⟩
    · obtain ⟨hp, hs⟩ := (Snapshot.mem_partialDiff_created _ _ _ _).1 hid
      have hr : id ∉ d.2.2 := fun h => hs ((Snapshot.mem_partialDiff_removed _ _ _ _).1 h).2.2
      have := hl id
      rw [if_neg hr, if_pos (.inl hid), AList.lookup_eq_none.2 hs] at this
      exact absurd hp (AList.lookup_eq_none.1 this)
    · obtain ⟨-, hp, hne⟩ := (Snapshot.mem_partialDiff_updated _ _ _ _).1 hid
      have hr : id ∉ d.2.2 := fun h => ((Snapshot.mem_partialDiff_removed _ _ _ _).1 h).2.1 hp
      have := hl id
      rw [if_neg hr, if_pos (.inr hid)] at this
      exact hne this.symm
    · have hs := ((Snapshot.mem_partialDiff_removed _ _ _ _).1 hid).2.2
      have := hl id
      rw [if_pos hid] at this
      exact AList.lookup_eq_none.1 this.symm hs
  · rintro ⟨h₁, h₂, h₃⟩
    simp only [S', buildChanges, h₁, h₂, h₃]
    rfl

end Sweep

/-! ## The inputs of a run -/

section Inputs

variable (sha1 : List UInt8 → ContentAddress) {Value : Type} (codec : Codec Value)

/-- The `AssemblyHash` inputs `NewEngine` digests: one for each assembly of the full scan. -/
def captureInputs (g : Graph) : List (List UInt8) :=
  g.fetchAssemblies.filterMap fun r => (parseAssembly codec r).toOption.map (·.hashInput sha1)

/-- The `AssemblyHash` and `HashComponents` inputs of one call that returns a changeset with
a nil error: the input of each assembly its read returned, and the inputs of the stored
snapshot before and after. The other calls keep the snapshot as it was, and the theorems
below need nothing of what they digest. -/
def Engine.stepInputs (e : Engine) : Event Value → List (List UInt8)
  | .apply _ => []
  | .whatChanged fetch =>
    let r := e.whatChanged sha1 codec fetch
    match fetch (clearTaints e.taintedNodes), r.1 with
    | .ok as, .ret _ none =>
      as.map (·.hashInput sha1) ++ [componentsInput e.snapshot, componentsInput r.2.snapshot]
    | _, _ => []

/-- The inputs of every call of a run. -/
def Engine.runInputs (e : Engine) : List (Event Value) → List (List UInt8)
  | [] => []
  | ev :: evs => e.stepInputs sha1 codec ev ++ (e.step sha1 codec ev).2.runInputs evs

theorem mem_captureInputs {g : Graph} {r : Graph.Record} (hr : r ∈ g.fetchAssemblies)
    {a : AssemblyGraph Value} (ha : parseAssembly codec r = .ok a) :
    a.hashInput sha1 ∈ captureInputs sha1 codec g :=
  List.mem_filterMap.2 ⟨r, hr, by simp [ha, Except.toOption]⟩

/-- A digest that gives the inputs of a list distinct digests is injective on them. -/
theorem injOn_of_nodup_map {L : List (List UInt8)} (h : (L.map sha1).Nodup) :
    Set.InjOn sha1 {x | x ∈ L} :=
  fun _ hx _ hy => List.inj_on_of_nodup_map h hx hy

end Inputs

/-! ## Over every run -/

section Run

variable (sha1 : List UInt8 → ContentAddress) {Value : Type} (codec : Codec Value)
  {I : Set (List UInt8)} (hinj : Set.InjOn sha1 I)
include hinj

/-- **One `WhatChanged`.** With the digest injective on the inputs the call digests, a
snapshot committed to them stays committed, and a changeset returned with a nil error is
empty exactly when it reports nothing. -/
theorem whatChanged_isEmpty_iff {e : Engine}
    (he : e.snapshot.Committed sha1 fun a : AssemblyGraph Value => a.hashInput sha1 ∈ I)
    {fetch : List RawNode → Except Failure (List (AssemblyGraph Value))}
    (hI : ∀ x ∈ e.stepInputs sha1 codec (.whatChanged fetch), x ∈ I) :
    let r := e.whatChanged sha1 codec fetch
    r.2.snapshot.Committed sha1 (fun a : AssemblyGraph Value => a.hashInput sha1 ∈ I) ∧
      ∀ c, r.1 = .ret c none →
        (c.isEmpty = true ↔ c.created = [] ∧ c.updated = [] ∧ c.removed = []) := by
  dsimp only
  rcases (whatChanged_cases sha1 codec e fetch).2 with ⟨hf, hs⟩ | ⟨c, ho, -, -⟩
  · refine ⟨hs ▸ he, fun c h => ?_⟩
    rw [h] at hf
    cases hf
  cases hfetch : fetch (clearTaints e.taintedNodes) with
  | error f => rcases f with m | m <;> simp [Engine.whatChanged, hfetch] at ho
  | ok as =>
    have hin : ∀ x ∈ as.map (·.hashInput sha1) ++ [componentsInput e.snapshot,
        componentsInput (e.whatChanged sha1 codec fetch).2.snapshot], x ∈ I := by
      simpa [Engine.stepInputs, hfetch, ho] using hI
    have hw : e.whatChanged sha1 codec fetch = Engine.sweep sha1 codec
        { e with taintedNodes := ∅ } (clearTaints e.taintedNodes) as := by
      simp [Engine.whatChanged, hfetch]
    rw [hw] at ho hin ⊢
    obtain ⟨D, rfl, hs⟩ := sweep_eq_ret_none sha1 codec ho
    have has : ∀ a ∈ as, a.hashInput sha1 ∈ I := fun a ha =>
      hin _ (List.mem_append_left _ (List.mem_map_of_mem _ ha))
    rw [hs] at hin ⊢
    refine ⟨committed_update sha1 he has D, fun c' hc' => ?_⟩
    obtain rfl : _ = c' := (Outcome.ret.inj (ho.symm.trans hc')).1
    simp only [GraphChanged.isEmpty, beq_iff_eq, buildChanges, List.map_eq_nil_iff]
    exact graphHash_update_eq_iff sha1 hinj (fun _ h => h) he has D (hin _ (by simp))
      (hin _ (by simp))

/-- **`IsEmpty` means no change, over every run.** With the digest injective on the inputs
the run digests, from any engine whose snapshot is committed to them, every changeset
returned with a nil error has `IsEmpty()` exactly when its created, updated and removed
lists are all empty. -/
theorem run_isEmpty_iff (e : Engine)
    (he : e.snapshot.Committed sha1 fun a : AssemblyGraph Value => a.hashInput sha1 ∈ I)
    (evs : List (Event Value)) (hI : ∀ x ∈ e.runInputs sha1 codec evs, x ∈ I) :
    ∀ p ∈ successes (e.run sha1 codec evs).1,
      p.1.isEmpty = true ↔ p.1.created = [] ∧ p.1.updated = [] ∧ p.1.removed = [] := by
  induction evs generalizing e with
  | nil => simp [Engine.run, successes]
  | cons ev evs ih =>
    have hI' : ∀ x ∈ (e.step sha1 codec ev).2.runInputs sha1 codec evs, x ∈ I :=
      fun x hx => hI x (List.mem_append_right _ hx)
    cases ev with
    | apply ts =>
      simpa [Engine.run, Engine.step] using
        ih { e with taintedNodes := taint e.taintedNodes ts } he hI'
    | whatChanged fetch =>
      obtain ⟨he', hc⟩ := whatChanged_isEmpty_iff sha1 codec hinj he
        fun x hx => hI x (List.mem_append_left _ hx)
      have ih' := ih _ he' hI'
      intro p hp
      rcases ho : (e.whatChanged sha1 codec fetch).1 with ⟨c, _ | err⟩ | msg <;>
        simp only [Engine.run, Engine.step, ho, Option.map_some', Option.toList_some,
          List.singleton_append, successes, List.filterMap_cons, Outcome.succeeded,
          Option.map_none', List.mem_cons] at hp
      · rcases hp with rfl | hp
        · exact hc c ho
        · exact ih' p hp
      · exact ih' p hp
      · exact ih' p hp

end Run

section NewEngine

variable (sha1 : List UInt8 → ContentAddress) {Value : Type} (codec : Codec Value)
  {A : AssemblyGraph Value → Prop}

/-- Filing one more assembly of `A` keeps a snapshot committed. -/
theorem committed_insert {S : Snapshot} (hS : S.Committed sha1 A)
    {a : AssemblyGraph Value} (ha : A a) :
    Snapshot.Committed sha1 A (S.insert (a.assemblyID sha1) (a.assemblyHash sha1)) := by
  intro id h hl
  by_cases hid : id = a.assemblyID sha1
  · subst hid
    rw [AList.lookup_insert] at hl
    cases hl
    exact ⟨a, ha, rfl, rfl⟩
  · rw [AList.lookup_insert_ne hid] at hl
    exact hS id h hl

/-- The loop of `captureSnapshot`, from any committed snapshot, files only assemblies it
parsed from the records. -/
theorem committed_foldlM_parse {rs : List Graph.Record}
    (hrs : ∀ r ∈ rs, ∀ a, parseAssembly codec r = .ok a → A a) {S₀ S : Snapshot}
    (h₀ : S₀.Committed sha1 A)
    (h : rs.foldlM (fun ss r => match parseAssembly codec r with
      | .error e => Except.error ("parse assembly: " ++ e)
      | .ok a => Except.ok (ss.insert (a.assemblyID sha1) (a.assemblyHash sha1))) S₀ = .ok S) :
    S.Committed sha1 A := by
  induction rs generalizing S₀ with
  | nil => cases h; exact h₀
  | cons r rs ih =>
    rcases hp : parseAssembly codec r with err | a <;> simp only [List.foldlM_cons, hp] at h
    · cases h
    · exact ih (fun r' hr' => hrs r' (List.mem_cons_of_mem r hr'))
        (committed_insert sha1 h₀ (hrs r (List.mem_cons_self r rs) a hp)) h

/-- **The first snapshot is committed**: `NewEngine` files only assemblies it parsed from the
full scan. -/
theorem newEngine_committed {g : Graph} {e : Engine} (hnew : newEngine sha1 codec g = .ok e)
    (hg : ∀ r ∈ g.fetchAssemblies, ∀ a, parseAssembly codec r = .ok a → A a) :
    e.snapshot.Committed sha1 A := by
  simp only [newEngine] at hnew
  split at hnew
  · cases hnew
  · next S hS =>
    cases hnew
    exact committed_foldlM_parse sha1 codec hg (fun _ _ h => by simp at h) hS

/-- **`IsEmpty` means no change, from every reachable state.** Let the digest be injective
on the inputs the engine digests: those of `NewEngine`'s full scan and those of a run. Then
over that run of the engine `NewEngine` built, each changeset returned with a nil error is
empty by `IsEmpty()` exactly when its created, updated and removed lists are all empty; so
the disassembler, which drops the changesets `IsEmpty()` accepts, only ever drops
changesets that disassemble to nothing. -/
theorem newEngine_isEmpty_iff_no_changes (g : Graph) (e : Engine)
    (hnew : newEngine sha1 codec g = .ok e) (evs : List (Event Value))
    (hinj : Set.InjOn sha1 {x | x ∈ captureInputs sha1 codec g ++ e.runInputs sha1 codec evs}) :
    ∀ p ∈ successes (e.run sha1 codec evs).1,
      (p.1.isEmpty = true ↔ p.1.created = [] ∧ p.1.updated = [] ∧ p.1.removed = []) ∧
        (p.1.isEmpty = true → disassembleGraph p.1 = []) := by
  intro p hp
  have he : e.snapshot.Committed sha1 fun a : AssemblyGraph Value =>
      a.hashInput sha1 ∈ {x | x ∈ captureInputs sha1 codec g ++ e.runInputs sha1 codec evs} :=
    newEngine_committed sha1 codec hnew fun r hr a ha =>
      List.mem_append_left _ (mem_captureInputs sha1 codec hr ha)
  have hiff := run_isEmpty_iff sha1 codec hinj e he evs (fun x hx => List.mem_append_right _ hx)
    p hp
  refine ⟨hiff, fun he => ?_⟩
  obtain ⟨hc, hu, hr⟩ := hiff.1 he
  simp [disassembleGraph, hc, hu, hr]

/-- A graph with one node `A`; then `B` is written and tainted, and one `WhatChanged` reads
it: the changeset reports `B`'s assembly created, and `IsEmpty()` is false. The stand-in
digest writes the input's length first, so that it separates the run's inputs of different
lengths. -/
theorem newEngine_isEmpty_iff_no_changes_created :
    let sha1 : List UInt8 → ContentAddress := fun bs => blockDigest (bs.length.toUInt8 :: bs)
    let A : RawNode := ⟨"A", ⟨.fill 1⟩⟩
    let B : RawNode := ⟨"B", ⟨.fill 2⟩⟩
    let evs : List (Event RawNode) :=
      [.apply [B], .whatChanged (fetchPartialAssemblies sha1 rawCodec ⟨[A, B], []⟩)]
    ∃ e, newEngine sha1 rawCodec ⟨[A], []⟩ = .ok e ∧
      (successes (e.run sha1 rawCodec evs).1).map
          (fun p => (p.1.isEmpty, p.1.created.length)) = [(false, 1)] ∧
      ∀ p ∈ successes (e.run sha1 rawCodec evs).1,
        (p.1.isEmpty = true ↔ p.1.created = [] ∧ p.1.updated = [] ∧ p.1.removed = []) ∧
          (p.1.isEmpty = true → disassembleGraph p.1 = []) := by
  intro sha1 A B evs
  exact ⟨_, rfl, by decide, newEngine_isEmpty_iff_no_changes sha1 rawCodec ⟨[A], []⟩ _ rfl evs
    (injOn_of_nodup_map sha1 (by decide))⟩

end NewEngine

end DigitalTwin
