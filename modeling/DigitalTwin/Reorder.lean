/-
Two Go programs whose struct types differ only in the order their fields are declared in, and
values of those types whose fields of one name hold the same values.

`Reordered ρ env₁ env₂ t₁ o₁ t₂ o₂` says that the type `t₂` of the second program is `t₁` with
the fields of every struct declared in another order, recursively through nested, embedded,
pointed-to, element and interface types, and with each defined type renamed by `ρ`; and that
the value `o₂` is `o₁` with its fields moved the same way (`none` for both when only the
types are compared). Defined types may refer to themselves, so the relation is read to every
finite depth (`ReorderedN`) and holds when it holds at all of them. `Reordered.step` unfolds
it by one level and `Reordered.of_step` folds it back. The inversion lemmas after them say
what each operation of the reflective path sees of two reordered types, and
`Reordered.zeroValue` that their zero values are reordered, so that the proofs about that
path in `DigitalTwin.FieldOrder` never unfold the relation again.
-/
import Mathlib.Logic.Equiv.Defs
import DigitalTwin.PermRel

set_option autoImplicit false

namespace DigitalTwin

/-! ## Types and values that differ in field order -/

/-- A renaming of defined types, from the package path and name a type has in one program to
the one it has in the other. -/
abbrev Renaming := (String × String) ≃ (String × String)

/-- The fields of a struct type, numbered as `Type.Field` numbers them, each with its value
in the struct value `o` when there is one. -/
def structSlots (fs : List (String × Bool × GoType)) :
    Option GoValue → Option (List ((Nat × String × Bool × GoType) × Option GoValue))
  | none => some (fs.enum.map (·, none))
  | some (.struct vs) => if vs.length = fs.length then some (fs.enum.zip (vs.map some)) else none
  | some _ => none

/-- A slot of a struct value is a field of its type, with that field's value. -/
theorem mem_structSlots {fs : List (String × Bool × GoType)} {v : GoValue}
    {l : List ((Nat × String × Bool × GoType) × Option GoValue)}
    (hl : structSlots fs (some v) = some l) {s : (Nat × String × Bool × GoType) × Option GoValue}
    (hs : s ∈ l) :
    ∃ vs w, v = .struct vs ∧ s.2 = some w ∧ fs[s.1.1]? = some s.1.2 ∧ vs[s.1.1]? = some w := by
  cases v <;> simp only [structSlots, reduceCtorEq] at hl
  split at hl
  · cases hl
    obtain ⟨n, hn⟩ := List.mem_iff_getElem?.1 hs
    rw [List.getElem?_zip_eq_some, List.getElem?_enum, List.getElem?_map] at hn
    obtain ⟨⟨f, hf, hf'⟩, ⟨w, hw, hw'⟩⟩ := And.intro (Option.map_eq_some'.1 hn.1)
      (Option.map_eq_some'.1 hn.2)
    rw [← hf']
    exact ⟨_, w, rfl, hw'.symm, hf, hw⟩
  · cases hl

theorem map_fst_structSlots {fs : List (String × Bool × GoType)} {o : Option GoValue}
    {l : List ((Nat × String × Bool × GoType) × Option GoValue)}
    (hl : structSlots fs o = some l) : l.map Prod.fst = fs.enum := by
  cases o with
  | none =>
    simp only [structSlots, Option.some.injEq] at hl
    rw [← hl, List.map_map]
    exact List.map_id _
  | some v =>
    cases v <;> simp only [structSlots, reduceCtorEq] at hl
    split at hl
    · cases hl
      exact List.map_fst_zip _ _ (by simp_all)
    · cases hl

/-- Building a struct value field by field fills its numbered slots in order. -/
theorem mapM_enumFrom_slots {f : String × Bool × GoType → Option GoValue} :
    ∀ (fs : List (String × Bool × GoType)) (n : Nat),
      (fs.enumFrom n).mapM (fun s => (f s.2).map fun z => (s, some z)) =
        (fs.mapM f).map fun zs => (fs.enumFrom n).zip (zs.map some)
  | [], _ => rfl
  | a :: fs, n => by
    simp only [List.enumFrom_cons, List.mapM_cons, mapM_enumFrom_slots fs (n + 1)]
    cases f a <;> cases fs.mapM f <;> rfl

theorem mapM_enum_slots (f : String × Bool × GoType → Option GoValue)
    (fs : List (String × Bool × GoType)) :
    fs.enum.mapM (fun s => (f s.2).map fun z => (s, some z)) =
      (fs.mapM f).map fun zs => fs.enum.zip (zs.map some) :=
  mapM_enumFrom_slots fs 0

/-- Two numbered fields, each with its value if any, that stand for each other: the same name,
both embedded or neither, and types and values related by `R`. -/
def SlotRel (R : GoType → Option GoValue → GoType → Option GoValue → Prop)
    (a b : (Nat × String × Bool × GoType) × Option GoValue) : Prop :=
  a.1.2.1 = b.1.2.1 ∧ a.1.2.2.1 = b.1.2.2.1 ∧ R a.1.2.2.2 a.2 b.1.2.2.2 b.2

/-- The target of a pointer value, when there is one; nothing for a nil pointer or a type
alone. -/
def deref : Option GoValue → Option GoValue
  | some (.ptr w) => w
  | _ => none

section Reorder

variable (ρ : Renaming) (env₁ env₂ : Env)

/-- One level of the reorder relation: the type `t₂` of a second program is the type `t₁` of a
first one with the fields of each struct declared in another order and each defined type
renamed by `ρ`, and the value `o₂` is `o₁` with its fields moved the same way (`none` for both
when only the types are compared); `R` relates what lies one level down. Two defined types
stand for each other when their underlying types do. -/
def ReorderStep (R : GoType → Option GoValue → GoType → Option GoValue → Prop) :
    GoType → Option GoValue → GoType → Option GoValue → Prop
  | .named p q, o₁, .named p' q', o₂ => ρ (p, q) = (p', q') ∧
    match env₁.lookup (p, q), env₂.lookup (p', q') with
    | some d₁, some d₂ => R d₁.underlying o₁ d₂.underlying o₂
    | none, none => o₁ = o₂
    | _, _ => False
  | .struct fs₁, o₁, .struct fs₂, o₂ => o₁.isSome = o₂.isSome ∧
    match structSlots fs₁ o₁, structSlots fs₂ o₂ with
    | some l₁, some l₂ => PermRel (SlotRel R) l₁ l₂
    | _, _ => False
  | .ptr e₁, o₁, .ptr e₂, o₂ =>
    match o₁, o₂ with
    | none, none | some (.ptr none), some (.ptr none) => R e₁ none e₂ none
    | some (.ptr (some w₁)), some (.ptr (some w₂)) => R e₁ (some w₁) e₂ (some w₂)
    | _, _ => False
  | .array k₁ e₁, o₁, .array k₂ e₂, o₂ => k₁ = k₂ ∧ R e₁ none e₂ none ∧
    match o₁, o₂ with
    | none, none => True
    | some (.elems vs₁), some (.elems vs₂) =>
      List.Forall₂ (fun v₁ v₂ => R e₁ (some v₁) e₂ (some v₂)) vs₁ vs₂
    | _, _ => False
  | .slice e₁, o₁, .slice e₂, o₂ => R e₁ none e₂ none ∧
    match o₁, o₂ with
    | none, none => True
    | some (.elems vs₁), some (.elems vs₂) =>
      List.Forall₂ (fun v₁ v₂ => R e₁ (some v₁) e₂ (some v₂)) vs₁ vs₂
    | _, _ => False
  | .iface, o₁, .iface, o₂ =>
    match o₁, o₂ with
    | none, none | some (.iface none), some (.iface none) => True
    | some (.iface (some (a₁, b₁))), some (.iface (some (a₂, b₂))) => R a₁ (some b₁) a₂ (some b₂)
    | _, _ => False
  | t₁, o₁, t₂, o₂ => t₁ = t₂ ∧ o₁ = o₂

/-- The reorder relation read to depth `n`. -/
def ReorderedN : Nat → GoType → Option GoValue → GoType → Option GoValue → Prop
  | 0 => fun _ _ _ _ => True
  | n + 1 => ReorderStep ρ env₁ env₂ (ReorderedN n)

/-- **Types and values that differ only in the order of struct fields** (and in the names of
defined types, by `ρ`), at every depth. -/
def Reordered (t₁ : GoType) (o₁ : Option GoValue) (t₂ : GoType) (o₂ : Option GoValue) : Prop :=
  ∀ n, ReorderedN ρ env₁ env₂ n t₁ o₁ t₂ o₂

variable {ρ env₁ env₂}

theorem ReorderStep.mono {R S : GoType → Option GoValue → GoType → Option GoValue → Prop}
    (hRS : ∀ t₁ o₁ t₂ o₂, R t₁ o₁ t₂ o₂ → S t₁ o₁ t₂ o₂) {t₁ t₂ : GoType}
    {o₁ o₂ : Option GoValue} (h : ReorderStep ρ env₁ env₂ R t₁ o₁ t₂ o₂) :
    ReorderStep ρ env₁ env₂ S t₁ o₁ t₂ o₂ := by
  have hslot : ∀ l₁ l₂, PermRel (SlotRel R) l₁ l₂ → PermRel (SlotRel S) l₁ l₂ := fun _ _ =>
    PermRel.imp fun _ _ h => ⟨h.1, h.2.1, hRS _ _ _ _ h.2.2⟩
  have helems : ∀ e₁ e₂ vs₁ vs₂, List.Forall₂ (fun v₁ v₂ => R e₁ (some v₁) e₂ (some v₂)) vs₁ vs₂ →
      List.Forall₂ (fun v₁ v₂ => S e₁ (some v₁) e₂ (some v₂)) vs₁ vs₂ := fun _ _ _ _ =>
    List.Forall₂.imp fun _ _ => hRS _ _ _ _
  unfold ReorderStep at h ⊢
  split at h
  next p q p' q' =>
    refine ⟨h.1, ?_⟩
    revert h; rintro ⟨-, h⟩; revert h
    cases env₁.lookup (p, q) <;> cases env₂.lookup (p', q') <;> first | exact id | exact hRS _ _ _ _
  next fs₁ fs₂ =>
    refine ⟨h.1, ?_⟩
    revert h; rintro ⟨-, h⟩; revert h
    cases structSlots fs₁ o₁ <;> cases structSlots fs₂ o₂ <;> first | exact id | exact hslot _ _
  next => revert h; split <;> first | exact id | exact hRS _ _ _ _
  next =>
    refine ⟨h.1, hRS _ _ _ _ h.2.1, ?_⟩
    revert h; rintro ⟨-, -, h⟩; revert h
    split <;> first | exact id | exact helems _ _ _ _
  next =>
    refine ⟨hRS _ _ _ _ h.1, ?_⟩
    revert h; rintro ⟨-, h⟩; revert h
    split <;> first | exact id | exact helems _ _ _ _
  next => revert h; split <;> first | exact id | exact hRS _ _ _ _
  next => exact h

theorem ReorderedN.succ {n : Nat} {t₁ t₂ : GoType} {o₁ o₂ : Option GoValue}
    (h : ReorderedN ρ env₁ env₂ (n + 1) t₁ o₁ t₂ o₂) : ReorderedN ρ env₁ env₂ n t₁ o₁ t₂ o₂ := by
  induction n generalizing t₁ o₁ t₂ o₂ with
  | zero => trivial
  | succ n ih => exact ReorderStep.mono (fun _ _ _ _ => ih) h

/-- One level of a relation that holds at every depth. -/
theorem Reordered.of_step {t₁ t₂ : GoType} {o₁ o₂ : Option GoValue}
    (h : ReorderStep ρ env₁ env₂ (Reordered ρ env₁ env₂) t₁ o₁ t₂ o₂) :
    Reordered ρ env₁ env₂ t₁ o₁ t₂ o₂
  | 0 => trivial
  | n + 1 => ReorderStep.mono (fun _ _ _ _ h => h n) h

/-- **The relation at every depth is one level of itself.** The struct case takes one
permutation of the fields for every depth at once (`PermRel.forall_of_antitone`). -/
theorem Reordered.step {t₁ t₂ : GoType} {o₁ o₂ : Option GoValue}
    (h : Reordered ρ env₁ env₂ t₁ o₁ t₂ o₂) :
    ReorderStep ρ env₁ env₂ (Reordered ρ env₁ env₂) t₁ o₁ t₂ o₂ := by
  have h' : ∀ n, ReorderStep ρ env₁ env₂ (ReorderedN ρ env₁ env₂ n) t₁ o₁ t₂ o₂ := fun n => h (n + 1)
  clear h
  unfold ReorderStep at h' ⊢
  split
  next p q p' q' =>
    simp only at h'
    refine ⟨(h' 0).1, ?_⟩
    have h' := fun n => (h' n).2
    revert h'
    cases env₁.lookup (p, q) <;> cases env₂.lookup (p', q') <;>
      first | exact id | exact fun h => h 0
  next fs₁ fs₂ =>
    simp only at h'
    refine ⟨(h' 0).1, ?_⟩
    have h' := fun n => (h' n).2
    revert h'
    cases structSlots fs₁ o₁ <;> cases structSlots fs₂ o₂ <;> first
      | exact fun h => h 0
      | exact fun h => (PermRel.forall_of_antitone
          (fun _ _ _ h => ⟨h.1, h.2.1, ReorderedN.succ h.2.2⟩) h).imp
          fun _ _ h => ⟨(h 0).1, (h 0).2.1, fun n => (h n).2.2⟩
  next =>
    split <;> simp only at h' <;> first
      | exact h'
      | exact False.elim (h' 0)
  next =>
    simp only at h'
    refine ⟨(h' 0).1, fun n => (h' n).2.1, ?_⟩
    have h' := fun n => (h' n).2.2
    split <;> simp only at h' <;> first
      | exact True.intro
      | exact forall₂_forall h'
      | exact False.elim (h' 0)
  next =>
    simp only at h'
    refine ⟨fun n => (h' n).1, ?_⟩
    have h' := fun n => (h' n).2
    split <;> simp only at h' <;> first
      | exact True.intro
      | exact forall₂_forall h'
      | exact False.elim (h' 0)
  next =>
    split <;> simp only at h' <;> first
      | exact True.intro
      | exact h'
      | exact False.elim (h' 0)
  next =>
    have h0 := h' 0
    clear h'
    split at h0 <;> first | exact h0 | (exfalso; solve_by_elim)

variable {o₁ o₂ : Option GoValue}

/-- Two defined types stand for each other when `ρ` renames one to the other and their
underlying types do. -/
theorem Reordered.named {p q p' q' : String} {d₁ d₂ : TypeDef} (hρ : ρ (p, q) = (p', q'))
    (h₁ : env₁.lookup (p, q) = some d₁) (h₂ : env₂.lookup (p', q') = some d₂)
    (h : Reordered ρ env₁ env₂ d₁.underlying o₁ d₂.underlying o₂) :
    Reordered ρ env₁ env₂ (.named p q) o₁ (.named p' q') o₂ :=
  .of_step ⟨hρ, by rw [h₁, h₂]; exact h⟩

/-- Two struct types stand for each other when one numbering of their fields, with their
values, is the other's in another order. -/
theorem Reordered.struct {fs₁ fs₂ : List (String × Bool × GoType)}
    {l₁ l₂ : List ((Nat × String × Bool × GoType) × Option GoValue)}
    (ho : o₁.isSome = o₂.isSome) (h₁ : structSlots fs₁ o₁ = some l₁)
    (h₂ : structSlots fs₂ o₂ = some l₂) (h : PermRel (SlotRel (Reordered ρ env₁ env₂)) l₁ l₂) :
    Reordered ρ env₁ env₂ (.struct fs₁) o₁ (.struct fs₂) o₂ :=
  .of_step ⟨ho, by rw [h₁, h₂]; exact h⟩

/-- What the walk's `embeddedType` holds: the field's value, or the target of its pointer. -/
def embeddedValue : GoType → Option GoValue → Option GoValue
  | .ptr _, o => deref o
  | _, o => o

section Inversion

variable {t₁ t₂ : GoType}

/-- Reordered types are both defined types, renamed by `ρ`, or both not. -/
theorem Reordered.namedKey (h : Reordered ρ env₁ env₂ t₁ o₁ t₂ o₂) :
    namedKey t₂ = (namedKey t₁).map ρ := by
  have hs := h.step
  unfold ReorderStep at hs
  split at hs
  next => exact congrArg some hs.1.symm
  all_goals first | rfl | skip
  obtain ⟨rfl, -⟩ := hs
  cases t₁ <;> first | rfl | (exfalso; solve_by_elim)

/-- Reordered types resolve to reordered types, or both to nothing. -/
theorem Reordered.resolve (h : Reordered ρ env₁ env₂ t₁ o₁ t₂ o₂) :
    Option.Rel (fun r₁ r₂ => Reordered ρ env₁ env₂ r₁ o₁ r₂ o₂)
      (t₁.resolve env₁) (t₂.resolve env₂) := by
  have hs := h.step
  unfold ReorderStep at hs
  split at hs
  next p q p' q' =>
    obtain ⟨-, hs⟩ := hs
    simp only [GoType.resolve]
    revert hs
    cases env₁.lookup (p, q) <;> cases env₂.lookup (p', q') <;>
      first | exact fun _ => .none | exact fun h => .some h | exact False.elim
  all_goals first | exact .some h | skip
  obtain ⟨rfl, rfl⟩ := hs
  cases t₁ <;> first | exact .some h | (exfalso; solve_by_elim)

/-- Reordered types have reordered struct fields, or neither has any. -/
theorem Reordered.structFields (h : Reordered ρ env₁ env₂ t₁ o₁ t₂ o₂) :
    Option.Rel (fun fs₁ fs₂ => ∃ l₁ l₂, structSlots fs₁ o₁ = some l₁ ∧
        structSlots fs₂ o₂ = some l₂ ∧ PermRel (SlotRel (Reordered ρ env₁ env₂)) l₁ l₂)
      (t₁.structFields env₁) (t₂.structFields env₂) := by
  have hr := h.resolve
  unfold GoType.structFields
  revert hr
  generalize t₁.resolve env₁ = x₁
  generalize t₂.resolve env₂ = x₂
  intro hr
  cases hr with
  | none => exact .none
  | @some r₁ r₂ hr =>
    have hs := hr.step
    unfold ReorderStep at hs
    split at hs
    next => exact .none
    next fs₁ fs₂ =>
      obtain ⟨-, hs⟩ := hs
      refine .some ?_
      revert hs
      rcases h₁ : structSlots fs₁ o₁ with _ | l₁ <;> rcases h₂ : structSlots fs₂ o₂ with _ | l₂ <;>
        first | exact False.elim | exact fun h => ⟨_, _, rfl, rfl, h⟩
    all_goals first | exact .none | skip
    obtain ⟨rfl, rfl⟩ := hs
    cases r₁ <;> first | exact .none | (exfalso; solve_by_elim)

/-- Reordered values of a type `scalarBytes` writes give the same bytes; of any other type
neither gives any. -/
theorem Reordered.scalarBytes {v₁ v₂ : GoValue}
    (h : Reordered ρ env₁ env₂ t₁ (some v₁) t₂ (some v₂)) :
    scalarBytes t₁ v₁ = scalarBytes t₂ v₂ := by
  have hs := h.step
  unfold ReorderStep at hs
  split at hs
  all_goals first | rfl | skip
  obtain ⟨rfl, hv⟩ := hs
  rw [Option.some.inj hv]

/-- Reordered types are of a fast-path element kind alike. -/
theorem Reordered.isScalar {o₁ o₂ : Option GoValue} (h : Reordered ρ env₁ env₂ t₁ o₁ t₂ o₂) :
    t₁.isScalar = t₂.isScalar := by
  have hs := h.step
  unfold ReorderStep at hs
  split at hs
  all_goals first | rfl | skip
  obtain ⟨rfl, -⟩ := hs
  rfl

/-- The dynamic types and values of reordered interfaces are reordered, or both are nil. -/
theorem Reordered.dynamic {v₁ v₂ : GoValue}
    (h : Reordered ρ env₁ env₂ t₁ (some v₁) t₂ (some v₂)) :
    Option.Rel (fun d₁ d₂ => Reordered ρ env₁ env₂ d₁.1 (some d₁.2) d₂.1 (some d₂.2))
      (dynamic env₁ t₁ v₁) (dynamic env₂ t₂ v₂) := by
  have hr := h.resolve
  unfold DigitalTwin.dynamic
  revert hr
  generalize t₁.resolve env₁ = x₁
  generalize t₂.resolve env₂ = x₂
  intro hr
  cases hr with
  | none => exact .some h
  | @some r₁ r₂ hr =>
    have hs := hr.step
    unfold ReorderStep at hs
    split at hs
    all_goals first | exact .some h | skip
    · split at hs <;> first
        | exact hs.elim
        | (rename_i h₁ h₂; cases h₁ <;> cases h₂ <;> first | exact .none | exact .some hs)
    · obtain ⟨rfl, hv⟩ := hs
      cases hv
      split <;> first | exact .some h | simp_all

/-- What reordered embedded fields embed is reordered. -/
theorem Reordered.embedded (h : Reordered ρ env₁ env₂ t₁ o₁ t₂ o₂) :
    Reordered ρ env₁ env₂ (embeddedType t₁) (embeddedValue t₁ o₁)
      (embeddedType t₂) (embeddedValue t₂ o₂) := by
  have hs := h.step
  unfold ReorderStep at hs
  split at hs
  all_goals first | exact h | skip
  · split at hs <;> first | exact hs | exact hs.elim
  · obtain ⟨rfl, rfl⟩ := hs
    cases t₁ <;> first | exact h | (exfalso; solve_by_elim)

end Inversion

/-- **Zero values of reordered types are reordered**, or neither type has one at this fuel. -/
theorem Reordered.zeroValue :
    ∀ (fuel : Nat) (t₁ t₂ : GoType), Reordered ρ env₁ env₂ t₁ none t₂ none →
      Option.Rel (fun z₁ z₂ => Reordered ρ env₁ env₂ t₁ (some z₁) t₂ (some z₂))
        (DigitalTwin.zeroValue env₁ fuel t₁) (DigitalTwin.zeroValue env₂ fuel t₂)
  | 0, _, _, _ => .none
  | fuel + 1, t₁, t₂, h => by
    have hs := h.step
    unfold ReorderStep at hs
    split at hs
    next p q p' q' =>
      obtain ⟨hρ, hs⟩ := hs
      simp only [DigitalTwin.zeroValue]
      revert hs
      rcases h₁ : env₁.lookup (p, q) with _ | d₁ <;> rcases h₂ : env₂.lookup (p', q') with _ | d₂
      · exact fun _ => .none
      · exact False.elim
      · exact False.elim
      · exact fun hs => optionRel_imp (Reordered.zeroValue fuel _ _ hs) fun _ _ => .named hρ h₁ h₂
    next fs₁ fs₂ =>
      have hg : ∀ a b, SlotRel (Reordered ρ env₁ env₂) (a, none) (b, none) →
          Option.Rel (SlotRel (Reordered ρ env₁ env₂))
            ((DigitalTwin.zeroValue env₁ fuel a.2.2.2).map fun z => (a, some z))
            ((DigitalTwin.zeroValue env₂ fuel b.2.2.2).map fun z => (b, some z)) := fun a b hab =>
        optionRel_map (Reordered.zeroValue fuel _ _ hab.2.2) fun _ _ hz => ⟨hab.1, hab.2.1, hz⟩
      have hz := PermRel.mapM hg (PermRel.of_map hs.2)
      rw [mapM_enum_slots fun f => DigitalTwin.zeroValue env₁ fuel f.2.2,
        mapM_enum_slots fun f => DigitalTwin.zeroValue env₂ fuel f.2.2] at hz
      simp only [DigitalTwin.zeroValue]
      generalize h₁ : fs₁.mapM (fun f => DigitalTwin.zeroValue env₁ fuel f.2.2) = m₁ at hz ⊢
      generalize h₂ : fs₂.mapM (fun f => DigitalTwin.zeroValue env₂ fuel f.2.2) = m₂ at hz ⊢
      rcases m₁ with _ | zs₁ <;> rcases m₂ with _ | zs₂ <;>
        simp only [Option.map_none', Option.map_some'] at hz ⊢ <;> cases hz
      · exact .none
      · rename_i hp
        refine .some (.struct rfl ?_ ?_ hp) <;>
          simp [structSlots, length_eq_of_mapM h₁, length_eq_of_mapM h₂]
    next => exact .some (.of_step hs)
    next k₁ e₁ k₂ e₂ =>
      obtain ⟨rfl, he, -⟩ := hs
      exact optionRel_map (Reordered.zeroValue fuel _ _ he) fun _ _ hz => .of_step ⟨rfl, he,
        @forall₂_replicate _ _ (fun v₁ v₂ => Reordered ρ env₁ env₂ e₁ (some v₁) e₂ (some v₂)) _ _ hz k₁⟩
    next => exact .some (.of_step ⟨hs.1, .nil⟩)
    next => exact .some (.of_step True.intro)
    next =>
      obtain ⟨rfl, -⟩ := hs
      rename_i t _ _ _ _ _ _ _ _ _ _
      cases t <;> first | (exfalso; solve_by_elim) | exact .some (.of_step ⟨rfl, rfl⟩)

end Reorder

end DigitalTwin
