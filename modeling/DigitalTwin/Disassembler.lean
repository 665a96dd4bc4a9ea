/-
`disassembler`: the procedure that splits each `GraphChanged` notification into one
`ComponentChanged` per created, updated and removed assembly, and publishes them.

`handleMessage` decodes one message, skips it when `IsEmpty`, and sends its component
changes concurrently through an `errgroup`, returning nil only when every send succeeded.
The sends of one message may reach the sink in any order, and once one fails the others may
or may not have gone out, so `Handled` is a relation: what one call can have published, and
whether it returned nil. `Exec` acknowledges a message only after a nil return and panics
otherwise; the restarted process then receives the unacknowledged message again. `Exec` is
that loop over the subscription's messages, with each published change tagged by the index
of the message it came from; the tags are for stating results and are not sent.

Over every run: the tags never go back (`exec_tags_sorted`), so no change of a later message
is published before the earlier message was published whole (`exec_publishes_passed`); a
message that `IsEmpty` skips publishes nothing, whatever changes it carries
(`exec_skips_empty`); a message that does not decode is never got past
(`exec_blocked_by_undecodable`); and a stream that decodes and never fails a send is consumed
to its end (`exec_of_decodable`).
-/
import DigitalTwin.Assembly

set_option autoImplicit false

namespace DigitalTwin

/-- The `Assembly` a `ComponentChanged` carries: one of the three change types that `init`
registers with gob. -/
inductive ChangedAssembly (Value : Type)
  | created (c : AssemblyCreated Value)
  | updated (c : AssemblyUpdated Value)
  | removed (c : AssemblyRemoved)

/-- `ComponentChanged`, without its `Timestamp`: one component's change and the graph hash
after the whole change it is part of. -/
structure ComponentChanged (Value : Type) where
  assembly : ChangedAssembly Value
  graphHash : ForestHash

/-- The three change types, as the type assertions of `IsCreated`, `IsUpdated` and
`IsRemoved` tell them apart. -/
inductive ChangeKind
  | created
  | updated
  | removed
deriving DecidableEq

section Kinds

variable {Value : Type}

/-- The dynamic type of the `Assembly` field. -/
def ChangedAssembly.kind : ChangedAssembly Value → ChangeKind
  | .created _ => .created
  | .updated _ => .updated
  | .removed _ => .removed

/-- `c.Assembly.(T)`: whether the change carries an assembly of change type `k`. -/
def ComponentChanged.isKind (k : ChangeKind) (c : ComponentChanged Value) : Bool :=
  c.assembly.kind == k

/-- `ComponentChanged.IsCreated`. -/
def ComponentChanged.isCreated : ComponentChanged Value → Bool := ComponentChanged.isKind .created

/-- `ComponentChanged.IsUpdated`. -/
def ComponentChanged.isUpdated : ComponentChanged Value → Bool := ComponentChanged.isKind .updated

/-- `ComponentChanged.IsRemoved`. -/
def ComponentChanged.isRemoved : ComponentChanged Value → Bool := ComponentChanged.isKind .removed

end Kinds

/-! ## `disassembleGraph` -/

section Disassemble

variable {Value : Type}

/-- `disassembleGraph`: the created, then the updated, then the removed assemblies, each
stamped with the graph hash after the change. -/
def disassembleGraph (graph : GraphChanged Value) : List (ComponentChanged Value) :=
  graph.created.map (fun c => ⟨.created c, graph.graphAfter⟩) ++
    graph.updated.map (fun c => ⟨.updated c, graph.graphAfter⟩) ++
    graph.removed.map (fun c => ⟨.removed c, graph.graphAfter⟩)

end Disassemble

/-! ## `handleMessage` and `Exec` -/

section Exec

variable {Value : Type}

/-- What one `handleMessage` call can do with a message that decodes to `m` (`none` when gob
fails): the component changes that reached the sink, in the order they arrived, and whether
it returned nil. -/
inductive Handled : Option (GraphChanged Value) → List (ComponentChanged Value) → Bool → Prop
  | decodeFailed : Handled none [] false
  | skipped (g : GraphChanged Value) (h : g.isEmpty = true) : Handled (some g) [] true
  | sent (g : GraphChanged Value) (h : g.isEmpty = false) (sent : List (ComponentChanged Value))
      (hp : sent.Perm (disassembleGraph g)) : Handled (some g) sent true
  | failed (g : GraphChanged Value) (h : g.isEmpty = false) (sent : List (ComponentChanged Value))
      (hs : sent.Subperm (disassembleGraph g)) (hl : sent.length < (disassembleGraph g).length) :
      Handled (some g) sent false

/-- `Exec` from the first unacknowledged message `i` until the first unacknowledged message
is `j`: each iteration handles message `i`, then acknowledges it, or panics and is restarted
on the same message. The output is what the sink received, tagged with message indices. -/
inductive Exec (msgs : List (Option (GraphChanged Value))) :
    Nat → List (Nat × ComponentChanged Value) → Nat → Prop
  | stop (i : Nat) : Exec msgs i [] i
  | ack (i : Nat) (m : Option (GraphChanged Value)) (hm : msgs[i]? = some m)
      (sent : List (ComponentChanged Value)) (hh : Handled m sent true)
      (out : List (Nat × ComponentChanged Value)) (j : Nat) (hr : Exec msgs (i + 1) out j) :
      Exec msgs i (sent.map (i, ·) ++ out) j
  | restart (i : Nat) (m : Option (GraphChanged Value)) (hm : msgs[i]? = some m)
      (sent : List (ComponentChanged Value)) (hh : Handled m sent false)
      (out : List (Nat × ComponentChanged Value)) (j : Nat) (hr : Exec msgs i out j) :
      Exec msgs i (sent.map (i, ·) ++ out) j

variable {msgs : List (Option (GraphChanged Value))}

/-- A run never goes back, and every change it publishes comes from a message between where
it started and where it stopped. -/
theorem Exec.bounds {i j : Nat} {out : List (Nat × ComponentChanged Value)}
    (h : Exec msgs i out j) : i ≤ j ∧ ∀ p ∈ out, i ≤ p.1 ∧ p.1 ≤ j := by
  induction h with
  | stop i => exact ⟨le_refl i, fun _ h => absurd h (List.not_mem_nil _)⟩
  | ack i _ _ sent _ out j _ ih =>
    refine ⟨by omega, fun p hp => ?_⟩
    rcases List.mem_append.mp hp with hp | hp
    · obtain ⟨_, _, rfl⟩ := List.mem_map.mp hp
      exact ⟨le_refl i, by omega⟩
    · have := ih.2 p hp
      omega
  | restart i _ _ sent _ out j _ ih =>
    refine ⟨ih.1, fun p hp => ?_⟩
    rcases List.mem_append.mp hp with hp | hp
    · obtain ⟨_, _, rfl⟩ := List.mem_map.mp hp
      exact ⟨le_refl i, ih.1⟩
    · exact ih.2 p hp

/-- The changes of one call, tagged with its message, then those of the rest of the run,
whose tags are no smaller: the tags stay sorted. -/
theorem sorted_tags_append {i : Nat} {sent : List (ComponentChanged Value)}
    {out : List (Nat × ComponentChanged Value)} (hout : (out.map (·.1)).Sorted (· ≤ ·))
    (hge : ∀ p ∈ out, i ≤ p.1) :
    ((sent.map (i, ·) ++ out).map (·.1)).Sorted (· ≤ ·) := by
  simp only [List.map_append, List.map_map, Function.comp_def, List.Sorted, List.pairwise_append,
    List.mem_map]
  refine ⟨List.pairwise_map.mpr (List.pairwise_of_forall fun _ _ => le_refl i), hout, ?_⟩
  rintro _ ⟨_, _, rfl⟩ _ ⟨p, hp, rfl⟩
  exact hge p hp

/-- **The tags never go back**: the sink receives the changes of message after message, so
no change of a later message arrives before one of an earlier message. -/
theorem exec_tags_sorted {i j : Nat} {out : List (Nat × ComponentChanged Value)}
    (h : Exec msgs i out j) : (out.map (·.1)).Sorted (· ≤ ·) := by
  induction h with
  | stop => exact List.sorted_nil
  | ack _ _ _ _ _ _ _ hr ih =>
    exact sorted_tags_append ih fun p hp => Nat.le_of_succ_le (hr.bounds.2 p hp).1
  | restart _ _ _ _ _ _ _ hr ih => exact sorted_tags_append ih fun p hp => (hr.bounds.2 p hp).1

/-- **Every message the loop got past was published whole**: each change of a non-empty
changeset before the stopping point reached the sink, tagged with its message. With the tags
sorted, they all arrived before any change of a later message. -/
theorem exec_publishes_passed {i j : Nat} {out : List (Nat × ComponentChanged Value)}
    (h : Exec msgs i out j) (k : Nat) (hik : i ≤ k) (hkj : k < j) (g : GraphChanged Value)
    (hg : msgs[k]? = some (some g)) (hne : g.isEmpty = false) :
    ∀ c ∈ disassembleGraph g, (k, c) ∈ out := by
  induction h with
  | stop => omega
  | ack i m hm sent hh out j _ ih =>
    intro c hc
    rcases Nat.eq_or_lt_of_le hik with rfl | hlt
    · rw [hg, Option.some.injEq] at hm
      subst hm
      cases hh with
      | skipped _ he => rw [he] at hne; cases hne
      | sent _ _ _ hp => exact List.mem_append_left _ (List.mem_map_of_mem _ (hp.mem_iff.mpr hc))
    · exact List.mem_append_right _ (ih hlt hkj c hc)
  | restart i m hm sent hh out j _ ih =>
    exact fun c hc => List.mem_append_right _ (ih hik hkj c hc)

/-- **`IsEmpty` drops the whole message**: a changeset whose graph hash did not move publishes
nothing, even when it lists created, updated or removed assemblies. -/
theorem exec_skips_empty {i j : Nat} {out : List (Nat × ComponentChanged Value)}
    (h : Exec msgs i out j) (k : Nat) (g : GraphChanged Value) (hg : msgs[k]? = some (some g))
    (he : g.isEmpty = true) (c : ComponentChanged Value) : (k, c) ∉ out := by
  have hsent : ∀ {i m sent b}, msgs[i]? = some m → Handled m sent b → i = k → sent = [] :=
    fun hm hh hik => by
      subst hik
      rw [hg, Option.some.injEq] at hm
      subst hm
      cases hh with
      | skipped => rfl
      | sent _ hne | failed _ hne => rw [he] at hne; cases hne
  induction h with
  | stop => exact List.not_mem_nil _
  | ack i _ hm sent hh _ _ _ ih | restart i _ hm sent hh _ _ _ ih =>
    refine fun hmem => (List.mem_append.mp hmem).elim (fun hl => ?_) ih
    obtain ⟨_, hc, hp⟩ := List.mem_map.mp hl
    rw [hsent hm hh (congrArg Prod.fst hp)] at hc
    exact List.not_mem_nil _ hc

/-- **A message that does not decode blocks the stream**: every handling of it fails, so no
run gets past it. -/
theorem exec_blocked_by_undecodable {i j : Nat} {out : List (Nat × ComponentChanged Value)}
    (h : Exec msgs i out j) (k : Nat) (hk : msgs[k]? = some none) (hik : i ≤ k) : j ≤ k := by
  induction h with
  | stop => exact hik
  | ack i m hm sent hh _ _ _ ih =>
    rcases Nat.eq_or_lt_of_le hik with rfl | hlt
    · rw [hk, Option.some.injEq] at hm
      subst hm
      cases hh
    · exact ih hlt
  | restart _ _ _ _ _ _ _ _ ih => exact ih hik

/-- **A stream that decodes is consumed to its end** when no send fails: from any message,
some run acknowledges every message after it. -/
theorem exec_of_decodable (hd : ∀ m ∈ msgs, m.isSome) (i : Nat) (hi : i ≤ msgs.length) :
    ∃ out, Exec msgs i out msgs.length := by
  obtain ⟨n, hn⟩ : ∃ n, msgs.length - i = n := ⟨_, rfl⟩
  induction n generalizing i with
  | zero => exact ⟨[], by rw [show i = msgs.length by omega]; exact .stop _⟩
  | succ n ih =>
    have hlt : i < msgs.length := by omega
    obtain ⟨out, hout⟩ := ih (i + 1) (by omega) (by omega)
    obtain ⟨g, hg⟩ := Option.isSome_iff_exists.mp (hd _ (List.getElem_mem hlt))
    have hm : msgs[i]? = some (some g) := by rw [List.getElem?_eq_getElem hlt, hg]
    cases he : g.isEmpty
    · exact ⟨_, .ack i _ hm _ (.sent g he _ (List.Perm.refl _)) out _ hout⟩
    · exact ⟨_, .ack i _ hm _ (.skipped g he) out _ hout⟩

end Exec

end DigitalTwin
