/-
The reflective content address does not see the order in which a struct declares its fields.

`reflectiveContentAddress` visits the fields `reflect.VisibleFields` returns, sorted by name;
reordering fields changes neither which fields it visits nor what it writes for each. The
proof follows the code. The walks over two reordered struct types meet
the same fields in another order, each standing for one of the other with the same name and
depth and an index path that reaches a reordered field (`Reordered.fieldTree`); visibility
does not depend on that order, no two visible fields share a name, and the names' bytes tell
them apart, so the sorted lists pair up (`Reordered.sortedFields`); each pair is written
alike (`Reordered.writeField`, `Reordered.writeFieldValue`, `Reordered.writeValue`), by
induction on the fuel of the recursion into nested structs.

Two results are compared without the text of their failures: an error message names the
field's type, and renamed types have other names. `SameOutcome` relates two runs that both
never return, or return the same bytes, or fail the same way, and has one lemma for each
operation the code performs.

What a `ContentAddress` or `MarshalBinary` method writes is the method's own business: a
method that writes its receiver's fields in declaration order, as `binary.Write` does, gives
reordered values other bytes (`reflectiveContentAddress_marshalBinary_order`). The theorem
therefore assumes that the two methods give one result on reordered values (`MethodAgrees`),
which holds when neither program declares them (`methodAgrees_of_lacks`).
-/
import DigitalTwin.Reorder

set_option autoImplicit false

namespace DigitalTwin

/-! ## `FieldByIndex` and the skipped field -/

theorem fieldByIndex_struct {env : Env} {t : GoType} {fs : List (String × Bool × GoType)}
    {vs : List GoValue} {i : Nat} {f : String × Bool × GoType} {w : GoValue}
    (hfs : t.structFields env = some fs) (hf : fs[i]? = some f) (hw : vs[i]? = some w)
    (q : List Nat) : fieldByIndex env t (.struct vs) (i :: q) = fieldByIndex env f.2.2 w q := by
  cases t <;> simp [fieldByIndex, hfs, hf, hw, List.get?_eq_getElem?]

theorem fieldByIndex_ptr {env : Env} {e : GoType}
    (he : ((embeddedType (.ptr e)).structFields env).isSome)
    (w : GoValue) (j : Nat) (q : List Nat) :
    fieldByIndex env (.ptr e) (.ptr (some w)) (j :: q) = fieldByIndex env e w (j :: q) := by
  cases e <;> first | rfl | simp [embeddedType, GoType.structFields, GoType.resolve] at he

theorem isInformationElement_eq (f : VisibleField) :
    isInformationElement f = (f.name == "InformationElement" &&
      decide (namedKey f.type = some (digitaltwinPkgPath, "InformationElement"))) := by
  unfold isInformationElement
  cases f.type <;> simp [namedKey, Bool.beq_eq_decide_eq]

/-! ## Two runs that end alike -/

/-- Whether a failure is a panic or a returned error. -/
def Failure.isPanic : Failure → Bool
  | .error _ => false
  | .panic _ => true

/-- Two results that agree but for the text of a failure: values related by `S`, or two
panics, or two returned errors. -/
def ResultRel {α β : Type} (S : α → β → Prop) : Except Failure α → Except Failure β → Prop
  | .ok a, .ok b => S a b
  | .error e₁, .error e₂ => e₁.isPanic = e₂.isPanic
  | _, _ => False

/-- Two runs that both never return, or both return results related by `ResultRel S`. -/
def SameOutcome {α β : Type} (S : α → β → Prop) (x : ExceptT Failure Option α)
    (y : ExceptT Failure Option β) : Prop :=
  Option.Rel (ResultRel S) x.run y.run

/-- How a run ended, without the text of a failure: never (`none`), with a value, or with a
panic (`true`) or a returned error (`false`). -/
def outcome {α : Type} (x : ExceptT Failure Option α) : Option (Except Bool α) :=
  x.run.map (Except.mapError Failure.isPanic)

section Outcome

variable {α β γ δ : Type} {S : α → β → Prop} {T : γ → δ → Prop}

theorem SameOutcome.pure {a : α} {b : β} (h : S a b) :
    SameOutcome S (Pure.pure a) (Pure.pure b) :=
  .some h

theorem SameOutcome.throw {e₁ e₂ : Failure} (h : e₁.isPanic = e₂.isPanic) :
    SameOutcome S (throw e₁ : ExceptT Failure Option α) (throw e₂ : ExceptT Failure Option β) :=
  .some h

theorem SameOutcome.diverge : SameOutcome S (diverge : ExceptT Failure Option α) diverge :=
  .none

theorem SameOutcome.liftExcept {r₁ : Except Failure α} {r₂ : Except Failure β}
    (h : ResultRel S r₁ r₂) : SameOutcome S (liftExcept r₁) (liftExcept r₂) :=
  .some h

theorem SameOutcome.bind {x : ExceptT Failure Option α} {y : ExceptT Failure Option β}
    {f : α → ExceptT Failure Option γ} {g : β → ExceptT Failure Option δ}
    (h : SameOutcome S x y) (hfg : ∀ a b, S a b → SameOutcome T (f a) (g b)) :
    SameOutcome T (x >>= f) (y >>= g) := by
  unfold SameOutcome at *
  simp only [ExceptT.run_bind]
  generalize x.run = rx at h
  generalize y.run = ry at h
  cases h with
  | none => exact .none
  | @some r₁ r₂ hr =>
    cases r₁ <;> cases r₂ <;> first | exact hr.elim | exact .some hr | exact hfg _ _ hr

theorem SameOutcome.map {x : ExceptT Failure Option α} {y : ExceptT Failure Option β}
    {f : α → γ} {g : β → δ} (h : SameOutcome S x y) (hfg : ∀ a b, S a b → T (f a) (g b)) :
    SameOutcome T (f <$> x) (g <$> y) := by
  rw [← bind_pure_comp, ← bind_pure_comp]
  exact h.bind fun a b hab => .pure (hfg a b hab)

theorem SameOutcome.wrapError {x : ExceptT Failure Option α} {y : ExceptT Failure Option β}
    (pre₁ pre₂ : String) (h : SameOutcome S x y) :
    SameOutcome S (DigitalTwin.wrapError pre₁ x) (DigitalTwin.wrapError pre₂ y) := by
  unfold SameOutcome DigitalTwin.wrapError at *
  simp only [ExceptT.run_mk]
  generalize x.run = rx at h
  generalize y.run = ry at h
  cases h with
  | none => exact .none
  | @some r₁ r₂ hr =>
    rcases r₁ with (_ | _) | _ <;> rcases r₂ with (_ | _) | _ <;>
      first | exact hr.elim | exact .some hr

theorem SameOutcome.refl (x : ExceptT Failure Option α) : SameOutcome Eq x x := by
  unfold SameOutcome
  cases x.run with
  | none => exact .none
  | some r => cases r <;> exact .some rfl

/-- Folds over related lists whose steps end alike end alike. -/
theorem SameOutcome.foldlM {f₁ : γ → α → ExceptT Failure Option γ}
    {f₂ : γ → β → ExceptT Failure Option γ} (hf : ∀ c a b, S a b → SameOutcome Eq (f₁ c a) (f₂ c b)) :
    ∀ {l₁ : List α} {l₂ : List β}, List.Forall₂ S l₁ l₂ →
      ∀ c, SameOutcome Eq (l₁.foldlM f₁ c) (l₂.foldlM f₂ c)
  | [], [], .nil, _ => .pure rfl
  | a :: _, b :: _, .cons hab h, c => by
    simp only [List.foldlM_cons]
    exact (hf c a b hab).bind fun _ _ hc => hc ▸ SameOutcome.foldlM hf h _

/-- Runs that end alike have one outcome. -/
theorem SameOutcome.outcome_eq {x y : ExceptT Failure Option α} (h : SameOutcome Eq x y) :
    outcome x = outcome y := by
  unfold SameOutcome outcome at *
  generalize x.run = rx at h
  generalize y.run = ry at h
  cases h with
  | none => rfl
  | @some r₁ r₂ hr =>
    cases r₁ <;> cases r₂ <;> first
      | exact hr.elim
      | exact congrArg (fun b => some (Except.error b)) hr
      | (cases hr; rfl)

end Outcome

/-! ## The fields of reordered struct types -/

section Fields

variable {ρ : Renaming} {env₁ env₂ : Env}

theorem isInformationElement_reordered
    (hie : ρ (digitaltwinPkgPath, "InformationElement") = (digitaltwinPkgPath, "InformationElement"))
    {f₁ f₂ : VisibleField} (hn : f₁.name = f₂.name)
    (hk : namedKey f₂.type = (namedKey f₁.type).map ρ) :
    isInformationElement f₁ = isInformationElement f₂ := by
  rw [isInformationElement_eq, isInformationElement_eq, hn, hk]
  cases namedKey f₁.type with
  | none => rfl
  | some k =>
    have : ρ.symm (digitaltwinPkgPath, "InformationElement") =
        (digitaltwinPkgPath, "InformationElement") := ρ.symm_apply_eq.2 hie.symm
    simp only [Option.map_some', Option.some.injEq, ρ.apply_eq_iff_eq_symm_apply, this]

theorem isVisiting_reordered {visiting : List (String × String)} {t₁ t₂ : GoType}
    (hk : namedKey t₂ = (namedKey t₁).map ρ) :
    isVisiting (visiting.map ρ) t₂ = isVisiting visiting t₁ := by
  rw [isVisiting_eq, isVisiting_eq, hk]
  cases namedKey t₁ with
  | none => rfl
  | some k => simp only [Option.map_some', Option.any_some, List.mem_map_of_injective ρ.injective]

theorem visitingOf_reordered {visiting : List (String × String)} {t₁ t₂ : GoType}
    (hk : namedKey t₂ = (namedKey t₁).map ρ) :
    visitingOf t₂ (visiting.map ρ) = (visitingOf t₁ visiting).map ρ := by
  rw [visitingOf_eq, visitingOf_eq, hk, List.map_append]
  cases namedKey t₁ <;> rfl

variable (ρ env₁ env₂)

/-- What `FieldByIndex` reaches along two index paths into two reordered values: reordered
fields, or a panic on both sides. Without values there is nothing to follow. -/
def PathRel (t₁ : GoType) (o₁ : Option GoValue) (t₂ : GoType) (o₂ : Option GoValue)
    (q₁ q₂ : List Nat) : Prop :=
  ∀ v₁ v₂, o₁ = some v₁ → o₂ = some v₂ →
    ResultRel (fun a₁ a₂ => Reordered ρ env₁ env₂ a₁.1 (some a₁.2) a₂.1 (some a₂.2))
      (fieldByIndex env₁ t₁ v₁ q₁) (fieldByIndex env₂ t₂ v₂ q₂)

/-- Two fields of the walks over two reordered struct types that stand for each other: one
name, one depth, both the skipped `InformationElement` or neither, and index paths that reach
reordered fields. -/
structure FieldRel (t₁ : GoType) (o₁ : Option GoValue) (t₂ : GoType) (o₂ : Option GoValue)
    (f₁ f₂ : VisibleField) : Prop where
  name : f₁.name = f₂.name
  depth : f₁.index.length = f₂.index.length
  informationElement : isInformationElement f₁ = isInformationElement f₂
  path : PathRel ρ env₁ env₂ t₁ o₁ t₂ o₂ f₁.index f₂.index

variable {ρ env₁ env₂}

/-- Paths into what two reordered embedded fields embed lead, from the fields themselves, to
reordered fields or to one panic. -/
theorem PathRel.embedded {ft₁ ft₂ : GoType} {w₁ w₂ : GoValue} {q₁ q₂ : List Nat}
    (h : Reordered ρ env₁ env₂ ft₁ (some w₁) ft₂ (some w₂))
    (hs₁ : ((embeddedType ft₁).structFields env₁).isSome)
    (hs₂ : ((embeddedType ft₂).structFields env₂).isSome) (hq : q₁.length = q₂.length)
    (hp : PathRel ρ env₁ env₂ (embeddedType ft₁) (embeddedValue ft₁ (some w₁))
      (embeddedType ft₂) (embeddedValue ft₂ (some w₂)) q₁ q₂) :
    ResultRel (fun a₁ a₂ => Reordered ρ env₁ env₂ a₁.1 (some a₁.2) a₂.1 (some a₂.2))
      (fieldByIndex env₁ ft₁ w₁ q₁) (fieldByIndex env₂ ft₂ w₂ q₂) := by
  rcases q₁ with _ | ⟨j₁, q₁⟩ <;> rcases q₂ with _ | ⟨j₂, q₂⟩
  · exact h
  · cases hq
  · cases hq
  have hs := h.step
  unfold ReorderStep at hs
  split at hs
  all_goals first | exact hp _ _ rfl rfl | skip
  · split at hs <;> first
      | exact hs.elim
      | (rename_i h₁ h₂
         cases h₁ <;> cases h₂ <;> first
          | rfl
          | (rw [fieldByIndex_ptr hs₁, fieldByIndex_ptr hs₂]; exact hp _ _ rfl rfl))
  · obtain ⟨rfl, hv⟩ := hs
    cases hv
    rename_i t _ _ _ _ _ _ _ _ _ _
    cases t <;> first | exact hp _ _ rfl rfl | (exfalso; solve_by_elim)

variable {t₁ t₂ : GoType} {o₁ o₂ : Option GoValue}

/-- The path through a slot of two reordered struct values: where the slots' fields lead. -/
theorem PathRel.slot {fs₁ fs₂ : List (String × Bool × GoType)}
    {l₁ l₂ : List ((Nat × String × Bool × GoType) × Option GoValue)}
    {s₁ s₂ : (Nat × String × Bool × GoType) × Option GoValue} {q₁ q₂ : List Nat}
    (hx₁ : t₁.structFields env₁ = some fs₁) (hx₂ : t₂.structFields env₂ = some fs₂)
    (hl₁ : structSlots fs₁ o₁ = some l₁) (hl₂ : structSlots fs₂ o₂ = some l₂)
    (hm₁ : s₁ ∈ l₁) (hm₂ : s₂ ∈ l₂)
    (hq : ∀ w₁ w₂, s₁.2 = some w₁ → s₂.2 = some w₂ →
      ResultRel (fun a₁ a₂ => Reordered ρ env₁ env₂ a₁.1 (some a₁.2) a₂.1 (some a₂.2))
        (fieldByIndex env₁ s₁.1.2.2.2 w₁ q₁) (fieldByIndex env₂ s₂.1.2.2.2 w₂ q₂)) :
    PathRel ρ env₁ env₂ t₁ o₁ t₂ o₂ (s₁.1.1 :: q₁) (s₂.1.1 :: q₂) := by
  rintro v₁ v₂ rfl rfl
  obtain ⟨vs₁, w₁, rfl, hw₁, hf₁, hv₁⟩ := mem_structSlots hl₁ hm₁
  obtain ⟨vs₂, w₂, rfl, hw₂, hf₂, hv₂⟩ := mem_structSlots hl₂ hm₂
  rw [fieldByIndex_struct hx₁ hf₁ hv₁, fieldByIndex_struct hx₂ hf₂ hv₂]
  exact hq w₁ w₂ hw₁ hw₂

/-- **The walks over two reordered struct types meet the same fields in another order.** Each
field of one stands for one of the other: same name, same depth, and a path to a reordered
field. -/
theorem Reordered.fieldTree
    (hie : ρ (digitaltwinPkgPath, "InformationElement") = (digitaltwinPkgPath, "InformationElement")) :
    ∀ (fuel : Nat) (visiting : List (String × String)) {t₁ t₂ : GoType} {o₁ o₂ : Option GoValue},
      Reordered ρ env₁ env₂ t₁ o₁ t₂ o₂ →
      Option.Rel (PermRel (FieldRel ρ env₁ env₂ t₁ o₁ t₂ o₂))
        (DigitalTwin.fieldTree env₁ fuel visiting [] t₁)
        (DigitalTwin.fieldTree env₂ fuel (visiting.map ρ) [] t₂)
  | 0, _, _, _, _, _, _ => .none
  | fuel + 1, visiting, t₁, t₂, o₁, o₂, h => by
    have hk := h.namedKey
    have hsf := h.structFields
    unfold DigitalTwin.fieldTree
    revert hsf
    generalize hx₁ : t₁.structFields env₁ = x₁
    generalize hx₂ : t₂.structFields env₂ = x₂
    intro hsf
    cases hsf with
    | none => exact .some ⟨[], .nil, .nil⟩
    | @some fs₁ fs₂ hsf =>
      obtain ⟨l₁, l₂, hl₁, hl₂, hp⟩ := hsf
      dsimp only
      rw [← map_fst_structSlots hl₁, ← map_fst_structSlots hl₂, mapM_map, mapM_map,
        visitingOf_reordered hk]
      refine optionRel_map (PermRel.mapM (fun s₁ s₂ hs => ?_) hp.mem) fun _ _ h => h.flatten
      rcases s₁ with ⟨⟨i₁, n, a, ft₁⟩, ov₁⟩
      rcases s₂ with ⟨⟨i₂, n₂, a₂, ft₂⟩, ov₂⟩
      obtain ⟨⟨rfl, rfl, hR⟩, hm₁, hm₂⟩ := hs
      have he := hR.embedded
      have hself : FieldRel ρ env₁ env₂ t₁ o₁ t₂ o₂ ⟨n, [] ++ [i₁], ft₁, a⟩ ⟨n, [] ++ [i₂], ft₂, a⟩ :=
        ⟨rfl, rfl, isInformationElement_reordered hie rfl hR.namedKey,
          PathRel.slot hx₁ hx₂ hl₁ hl₂ hm₁ hm₂ fun w₁ w₂ hw₁ hw₂ => by subst hw₁ hw₂; exact hR⟩
      dsimp only [Function.comp]
      rw [← optionRel_isSome he.structFields, isVisiting_reordered he.namedKey]
      split_ifs with hc
      · simp only [Bool.and_eq_true] at hc
        rw [fieldTree_under, fieldTree_under env₂, Option.map_map, Option.map_map]
        refine optionRel_map (Reordered.fieldTree hie fuel _ he) fun L₁ L₂ hL =>
          PermRel.cons hself (hL.map fun f₁ f₂ hf => ⟨hf.name, by simp [VisibleField.under, hf.depth],
            hf.informationElement, PathRel.slot hx₁ hx₂ hl₁ hl₂ hm₁ hm₂ fun w₁ w₂ hw₁ hw₂ => ?_⟩)
        subst hw₁ hw₂
        exact PathRel.embedded hR hc.1.2 (optionRel_isSome he.structFields ▸ hc.1.2) hf.depth hf.path
      · exact .some (PermRel.cons hself ⟨[], .nil, .nil⟩)

end Fields

section Write

variable {ρ : Renaming} {env₁ env₂ : Env} {t₁ t₂ : GoType}

/-- The elements of reordered arrays or slices give the same bytes, or neither all do. -/
theorem Reordered.elemsBytes {e₁ e₂ : GoType} {vs₁ vs₂ : List GoValue}
    (he : Reordered ρ env₁ env₂ e₁ none e₂ none)
    (hv : List.Forall₂ (fun v₁ v₂ => Reordered ρ env₁ env₂ e₁ (some v₁) e₂ (some v₂)) vs₁ vs₂) :
    (e₁.resolve env₁).bind (fun re => DigitalTwin.elemsBytes re vs₁) =
      (e₂.resolve env₂).bind (fun re => DigitalTwin.elemsBytes re vs₂) := by
  have hr := he.resolve
  generalize hx₁ : e₁.resolve env₁ = x₁ at hr
  generalize hx₂ : e₂.resolve env₂ = x₂ at hr
  cases hr with
  | none => rfl
  | @some r₁ r₂ hr =>
    simp only [Option.some_bind, DigitalTwin.elemsBytes, hr.isScalar]
    congr 2
    induction hv with
    | nil => rfl
    | @cons a b _ _ hab _ ih =>
      have ha := hab.resolve
      rw [hx₁, hx₂] at ha
      cases ha with
      | some ha => rw [List.mapM_cons, List.mapM_cons, ha.scalarBytes, ih]

/-- Reordered values write the same bytes, or fail alike, given a recursion into nested
structs that does. -/
theorem Reordered.writeValue {hash₁ hash₂ : GoType → GoValue → ExceptT Failure Option (List UInt8)}
    (hh : ∀ t₁ v₁ t₂ v₂, Reordered ρ env₁ env₂ t₁ (some v₁) t₂ (some v₂) →
      SameOutcome Eq (hash₁ t₁ v₁) (hash₂ t₂ v₂))
    (name : String) {v₁ v₂ : GoValue} (h : Reordered ρ env₁ env₂ t₁ (some v₁) t₂ (some v₂)) :
    SameOutcome Eq (DigitalTwin.writeValue env₁ hash₁ name t₁ v₁)
      (DigitalTwin.writeValue env₂ hash₂ name t₂ v₂) := by
  have hr := h.resolve
  unfold DigitalTwin.writeValue
  revert hr
  generalize t₁.resolve env₁ = x₁
  generalize t₂.resolve env₂ = x₂
  intro hr
  cases hr with
  | none => exact .throw rfl
  | @some r₁ r₂ hr =>
    have hb := hr.scalarBytes
    have hs := hr.step
    unfold ReorderStep at hs
    split at hs
    case h_2 => exact .wrapError _ _ (hh _ _ _ _ h)
    case' h_4 => obtain ⟨-, hs⟩ := hs
    case h_4 | h_5 =>
      -- arrays and slices: their elements, reordered one by one
      obtain ⟨he, hs⟩ := hs
      split at hs
      · rename_i h₁ _; cases h₁
      · rename_i h₁ h₂; cases h₁; cases h₂
        dsimp only
        rw [Reordered.elemsBytes he hs]
        split <;> first | exact .pure rfl | exact .throw rfl
      · exact hs.elim
    case h_7 =>
      obtain ⟨rfl, hv⟩ := hs
      cases hv
      -- one resolved type and one value: only the arm for the remaining kinds is reachable
      split <;> first
        | (exfalso; simp only [Option.some.injEq] at *; solve_by_elim)
        | (split <;> first | exact .pure rfl | exact .throw rfl)
    all_goals exact .throw rfl

/-- The method `pick` picks gives one result on reordered values: both lack it, or both
return the same bytes or fail the same way. -/
def MethodAgrees (ρ : Renaming) (env₁ env₂ : Env)
    (pick : Methods → Option (GoValue → Except String (List UInt8))) : Prop :=
  ∀ t₁ v₁ t₂ v₂, Reordered ρ env₁ env₂ t₁ (some v₁) t₂ (some v₂) →
    callMethod env₁ pick t₁ v₁ = callMethod env₂ pick t₂ v₂

/-- A method no type of the program declares is never called. -/
theorem callMethod_eq_none {env : Env} {pick : Methods → Option (GoValue → Except String (List UInt8))}
    (h : ∀ e ∈ env, pick e.2.valueMethods = none ∧ pick e.2.pointerMethods = none)
    (t : GoType) (v : GoValue) : callMethod env pick t v = none := by
  have hd : ∀ k d, env.lookup k = some d →
      pick d.valueMethods = none ∧ pick d.pointerMethods = none := fun k d hk => by
    obtain ⟨l₁, l₂, rfl, -⟩ := List.lookup_eq_some_iff.1 hk
    exact h (k, d) (List.mem_append_right _ (List.mem_cons_self _ _))
  unfold callMethod
  split
  all_goals first | rfl | skip
  all_goals
    rename_i _ p n
    cases hl : env.lookup (p, n) with
    | none => rfl
    | some d => simp [(hd _ _ hl).1, (hd _ _ hl).2]

/-- Programs that declare neither method agree on both. -/
theorem methodAgrees_of_lacks {pick : Methods → Option (GoValue → Except String (List UInt8))}
    (h₁ : ∀ e ∈ env₁, pick e.2.valueMethods = none ∧ pick e.2.pointerMethods = none)
    (h₂ : ∀ e ∈ env₂, pick e.2.valueMethods = none ∧ pick e.2.pointerMethods = none) :
    MethodAgrees ρ env₁ env₂ pick := fun t₁ v₁ t₂ v₂ _ => by
  rw [callMethod_eq_none h₁, callMethod_eq_none h₂]

section Methods

variable (hca : MethodAgrees ρ env₁ env₂ (·.contentAddress))
  (hmb : MethodAgrees ρ env₁ env₂ (·.marshalBinary))

include hca hmb

/-- **One field's value is written alike in both programs**: by the same method, or, with
interfaces unpacked and pointers followed alike, as reordered values. -/
theorem Reordered.writeFieldValue {hash₁ hash₂ : GoType → GoValue → ExceptT Failure Option (List UInt8)}
    (hh : ∀ t₁ v₁ t₂ v₂, Reordered ρ env₁ env₂ t₁ (some v₁) t₂ (some v₂) →
      SameOutcome Eq (hash₁ t₁ v₁) (hash₂ t₂ v₂))
    (fuel : Nat) (name : String) {v₁ v₂ : GoValue}
    (h : Reordered ρ env₁ env₂ t₁ (some v₁) t₂ (some v₂)) :
    SameOutcome Eq (DigitalTwin.writeFieldValue env₁ fuel hash₁ name t₁ v₁)
      (DigitalTwin.writeFieldValue env₂ fuel hash₂ name t₂ v₂) := by
  have hd := h.dynamic
  unfold DigitalTwin.writeFieldValue
  dsimp only
  revert hd
  generalize DigitalTwin.dynamic env₁ t₁ v₁ = y₁
  generalize DigitalTwin.dynamic env₂ t₂ v₂ = y₂
  intro hd
  cases hd with
  | none => exact .pure rfl
  | @some d₁ d₂ hrel =>
    simp only [Option.some_bind]
    rw [hca _ _ _ _ hrel, hmb _ _ _ _ hrel]
    cases callMethod env₂ (·.contentAddress) d₂.1 d₂.2
    · cases callMethod env₂ (·.marshalBinary) d₂.1 d₂.2
      · obtain ⟨dt₁, dv₁⟩ := d₁
        obtain ⟨dt₂, dv₂⟩ := d₂
        have hr := hrel.resolve
        dsimp only
        revert hr
        generalize dt₁.resolve env₁ = x₁
        generalize dt₂.resolve env₂ = x₂
        intro hr
        cases hr with
        | none => exact Reordered.writeValue hh name hrel
        | @some r₁ r₂ hr =>
          have hs := hr.step
          unfold ReorderStep at hs
          split at hs
          case h_3 =>
            split at hs
            · rename_i h₁ _; cases h₁
            · rename_i h₁ h₂; cases h₁; cases h₂
              have hz := Reordered.zeroValue fuel _ _ hs
              dsimp only
              revert hz
              generalize DigitalTwin.zeroValue env₁ fuel _ = z₁
              generalize DigitalTwin.zeroValue env₂ fuel _ = z₂
              intro hz
              cases hz with
              | none => exact .diverge
              | some hz => exact Reordered.writeValue hh name hz
            · rename_i h₁ h₂; cases h₁; cases h₂
              exact Reordered.writeValue hh name hs
            · exact hs.elim
          case h_7 =>
            obtain ⟨rfl, hv⟩ := hs
            cases hv
            split <;> first
              | (exfalso; simp only [Option.some.injEq] at *; solve_by_elim)
              | exact Reordered.writeValue hh name hrel
          all_goals exact Reordered.writeValue hh name hrel
      · exact .refl _
    · exact .refl _

/-- **One visible field is written alike in both programs**: skipped in both, or its name and
then its value. -/
theorem Reordered.writeField {hash₁ hash₂ : GoType → GoValue → ExceptT Failure Option (List UInt8)}
    (hh : ∀ t₁ v₁ t₂ v₂, Reordered ρ env₁ env₂ t₁ (some v₁) t₂ (some v₂) →
      SameOutcome Eq (hash₁ t₁ v₁) (hash₂ t₂ v₂))
    (fuel : Nat) {v₁ v₂ : GoValue} {f₁ f₂ : VisibleField}
    (hf : FieldRel ρ env₁ env₂ t₁ (some v₁) t₂ (some v₂) f₁ f₂) :
    SameOutcome Eq (DigitalTwin.writeField env₁ fuel hash₁ t₁ v₁ f₁)
      (DigitalTwin.writeField env₂ fuel hash₂ t₂ v₂ f₂) := by
  unfold DigitalTwin.writeField
  rw [hf.name, hf.informationElement]
  split_ifs
  · exact .pure rfl
  · exact (SameOutcome.liftExcept (hf.path _ _ rfl rfl)).bind fun _ _ hp =>
      (Reordered.writeFieldValue hca hmb hh fuel _ hp).map fun _ _ h => congrArg _ h

end Methods

end Write

section Address

variable {ρ : Renaming} {env₁ env₂ : Env}
  (hie : ρ (digitaltwinPkgPath, "InformationElement") = (digitaltwinPkgPath, "InformationElement"))

include hie

/-- **`VisibleFields` of two reordered struct types, sorted by name, pairs up their fields.**
The walks meet the same fields in another order (`Reordered.fieldTree`), the visible ones
are the same (`PermRel.filter_visible`), and no two share a name, so sorting by name leaves
one order. -/
theorem Reordered.sortedFields (fuel : Nat) {t₁ t₂ : GoType} {o₁ o₂ : Option GoValue}
    (h : Reordered ρ env₁ env₂ t₁ o₁ t₂ o₂) :
    Option.Rel (List.Forall₂ (FieldRel ρ env₁ env₂ t₁ o₁ t₂ o₂))
      ((visibleFields env₁ fuel t₁).map
        (sortSlice fun a b => bytesLess (stringBytes a.name) (stringBytes b.name)))
      ((visibleFields env₂ fuel t₂).map
        (sortSlice fun a b => bytesLess (stringBytes a.name) (stringBytes b.name))) := by
  rw [visibleFields_eq_filter, visibleFields_eq_filter, Option.map_map, Option.map_map]
  refine optionRel_map (Reordered.fieldTree hie fuel [] h) fun L₁ L₂ hL => ?_
  have hv := hL.filter_visible fun _ _ hf => ⟨hf.name, hf.depth⟩
  refine hv.sortSlice (fun _ _ hf => by rw [hf.name]) ?_
  have := (nodup_names_visible L₁).map stringBytes_injective
  rwa [List.map_map] at this

variable (hca : MethodAgrees ρ env₁ env₂ (·.contentAddress))
  (hmb : MethodAgrees ρ env₁ env₂ (·.marshalBinary))

include hca hmb

/-- The reflective stream of reordered values, run to run. -/
theorem Reordered.reflectiveContentAddress :
    ∀ (fuel : Nat) {t₁ t₂ : GoType} {v₁ v₂ : GoValue},
      Reordered ρ env₁ env₂ t₁ (some v₁) t₂ (some v₂) →
      SameOutcome Eq (DigitalTwin.reflectiveContentAddress env₁ fuel t₁ v₁)
        (DigitalTwin.reflectiveContentAddress env₂ fuel t₂ v₂)
  | 0, _, _, _, _, _ => .diverge
  | fuel + 1, t₁, t₂, v₁, v₂, h => by
    have hsf := h.structFields
    have hv := Reordered.sortedFields hie fuel h
    unfold DigitalTwin.reflectiveContentAddress
    revert hsf hv
    generalize t₁.structFields env₁ = x₁
    generalize t₂.structFields env₂ = x₂
    generalize visibleFields env₁ fuel t₁ = y₁
    generalize visibleFields env₂ fuel t₂ = y₂
    intro hsf hv
    cases hsf with
    | none => exact .throw rfl
    | some _ =>
      rcases y₁ with _ | L₁ <;> rcases y₂ with _ | L₂ <;>
        simp only [Option.map_none', Option.map_some'] at hv <;> cases hv
      · dsimp only
        exact .diverge
      · rename_i hf
        dsimp only
        refine SameOutcome.foldlM (fun c a b hab => ?_) hf []
        have hw := Reordered.writeField hca hmb
          (fun _ _ _ _ => Reordered.reflectiveContentAddress fuel) fuel hab
        exact hw.map fun _ _ h => congrArg _ h

end Address

section ContentAddress

variable {ρ : Renaming} {env₁ env₂ : Env}

/-- **Reordering struct fields keeps the content address.** Take two programs whose types
differ only in the order their struct fields are declared in, recursively through nested,
embedded, pointed-to and element types (`Reordered`, with defined types renamed by `ρ`,
which leaves `InformationElement` where it is), and two values that hold the same values
in fields of one name. If the `ContentAddress` and `MarshalBinary` methods the reflective
path calls give one result on such values, then `reflectiveContentAddress` writes the same
bytes for both, or fails alike, or never returns for both; and two such types of one package
path and name have one `ContentAddress`. -/
theorem contentAddress_reordered
    (hie : ρ (digitaltwinPkgPath, "InformationElement") = (digitaltwinPkgPath, "InformationElement"))
    (hca : MethodAgrees ρ env₁ env₂ (·.contentAddress))
    (hmb : MethodAgrees ρ env₁ env₂ (·.marshalBinary))
    (fuel : Nat) (t₁ t₂ : GoType) (v₁ v₂ : GoValue)
    (h : Reordered ρ env₁ env₂ t₁ (some v₁) t₂ (some v₂)) :
    outcome (reflectiveContentAddress env₁ fuel t₁ v₁) =
        outcome (reflectiveContentAddress env₂ fuel t₂ v₂) ∧
      (t₁.pkgPathName = t₂.pkgPathName → ∀ sha1 : List UInt8 → ContentAddress,
        outcome (contentAddress sha1 env₁ fuel t₁ v₁) =
          outcome (contentAddress sha1 env₂ fuel t₂ v₂)) := by
  have hr := Reordered.reflectiveContentAddress hie hca hmb fuel h
  refine ⟨hr.outcome_eq, fun hp sha1 => SameOutcome.outcome_eq ?_⟩
  unfold contentAddress contentAddressInput
  rw [hp, hca _ _ _ _ h]
  refine .map (.map ?_ fun _ _ h => congrArg _ h) fun _ _ h => by rw [h]
  cases callMethod env₂ (·.contentAddress) t₂ v₂
  · exact hr
  · exact .refl _

end ContentAddress

/-! ## `TestContentAddress_reflectionOrder`, and a method that sees the order -/

/-- The test's `someOrder{A, B, C int}` and `otherOrder{C, A, B int}`. -/
def reflectionOrderEnv : Env :=
  [((digitaltwinPkgPath, "someOrder"),
      ⟨.struct [("A", false, .int), ("B", false, .int), ("C", false, .int)], .none, .none⟩),
    ((digitaltwinPkgPath, "otherOrder"),
      ⟨.struct [("C", false, .int), ("A", false, .int), ("B", false, .int)], .none, .none⟩)]

/-- `someOrder` renamed to `otherOrder`, and back. -/
def reflectionOrderRenaming : Renaming :=
  Equiv.swap (digitaltwinPkgPath, "someOrder") (digitaltwinPkgPath, "otherOrder")

theorem reflectionOrder_reordered :
    Reordered reflectionOrderRenaming reflectionOrderEnv reflectionOrderEnv
      (.named digitaltwinPkgPath "someOrder") (some (.struct [.int 1, .int 2, .int 3]))
      (.named digitaltwinPkgPath "otherOrder") (some (.struct [.int 3, .int 1, .int 2])) := by
  have leaf : ∀ i : Int, Reordered reflectionOrderRenaming reflectionOrderEnv reflectionOrderEnv
      .int (some (.int i)) .int (some (.int i)) := fun _ => .of_step ⟨rfl, rfl⟩
  refine .named (Equiv.swap_apply_left _ _) rfl rfl (.struct rfl rfl rfl ?_)
  exact ⟨_, @List.perm_append_comm _ [_, _] [_],
    .cons ⟨rfl, rfl, leaf 3⟩ (.cons ⟨rfl, rfl, leaf 1⟩ (.cons ⟨rfl, rfl, leaf 2⟩ .nil))⟩

theorem contentAddress_reordered_reflectionOrder :
    outcome (reflectiveContentAddress reflectionOrderEnv 4 (.named digitaltwinPkgPath "someOrder")
        (.struct [.int 1, .int 2, .int 3])) =
      outcome (reflectiveContentAddress reflectionOrderEnv 4 (.named digitaltwinPkgPath "otherOrder")
        (.struct [.int 3, .int 1, .int 2])) ∧
    ((GoType.named digitaltwinPkgPath "someOrder").pkgPathName =
        (GoType.named digitaltwinPkgPath "otherOrder").pkgPathName →
      ∀ sha1 : List UInt8 → ContentAddress,
        outcome (contentAddress sha1 reflectionOrderEnv 4 (.named digitaltwinPkgPath "someOrder")
          (.struct [.int 1, .int 2, .int 3])) =
        outcome (contentAddress sha1 reflectionOrderEnv 4 (.named digitaltwinPkgPath "otherOrder")
          (.struct [.int 3, .int 1, .int 2]))) :=
  contentAddress_reordered (Equiv.swap_apply_of_ne_of_ne (by decide) (by decide))
    (methodAgrees_of_lacks (by simp [reflectionOrderEnv, Methods.none])
      (by simp [reflectionOrderEnv, Methods.none]))
    (methodAgrees_of_lacks (by simp [reflectionOrderEnv, Methods.none])
      (by simp [reflectionOrderEnv, Methods.none]))
    4 _ _ _ _ reflectionOrder_reordered

/-- `binary.Write(w, binary.BigEndian, v)` for a struct of `int32` fields: the fields in the
order the struct declares them. -/
def writeInt32Fields : GoValue → Except String (List UInt8)
  | .struct vs =>
    match vs.mapM (fixedBytes .int32) with
    | some bs => .ok bs.flatten
    | none => .error "binary.Write: some values are not fixed-sized"
  | _ => .error "binary.Write: invalid type"

/-- `Inner` with the given fields and a `MarshalBinary` that is `binary.Write` of the
receiver, and `T{I Inner}`. -/
def marshalInnerEnv (fields : List (String × Bool × GoType)) : Env :=
  [((digitaltwinPkgPath, "Inner"), ⟨.struct fields, ⟨none, some writeInt32Fields⟩, .none⟩),
    ((digitaltwinPkgPath, "T"),
      ⟨.struct [("I", false, .named digitaltwinPkgPath "Inner")], .none, .none⟩)]

theorem reflectiveContentAddress_marshalBinary_order :
    Reordered (Equiv.refl _) (marshalInnerEnv [("A", false, .int32), ("B", false, .int32)])
        (marshalInnerEnv [("B", false, .int32), ("A", false, .int32)])
        (.named digitaltwinPkgPath "T") (some (.struct [.struct [.int 1, .int 2]]))
        (.named digitaltwinPkgPath "T") (some (.struct [.struct [.int 2, .int 1]])) ∧
      outcome (reflectiveContentAddress (marshalInnerEnv [("A", false, .int32), ("B", false, .int32)])
          4 (.named digitaltwinPkgPath "T") (.struct [.struct [.int 1, .int 2]])) ≠
        outcome (reflectiveContentAddress (marshalInnerEnv [("B", false, .int32), ("A", false, .int32)])
          4 (.named digitaltwinPkgPath "T") (.struct [.struct [.int 2, .int 1]])) := by
  have h₁ : outcome (reflectiveContentAddress
      (marshalInnerEnv [("A", false, .int32), ("B", false, .int32)]) 4
      (.named digitaltwinPkgPath "T") (.struct [.struct [.int 1, .int 2]])) =
      some (.ok (stringBytes "I" ++ [0, 0, 0, 1, 0, 0, 0, 2])) := rfl
  have h₂ : outcome (reflectiveContentAddress
      (marshalInnerEnv [("B", false, .int32), ("A", false, .int32)]) 4
      (.named digitaltwinPkgPath "T") (.struct [.struct [.int 2, .int 1]])) =
      some (.ok (stringBytes "I" ++ [0, 0, 0, 2, 0, 0, 0, 1])) := rfl
  refine ⟨.named rfl rfl rfl (.struct rfl rfl rfl ⟨_, .refl _, .cons ⟨rfl, rfl, ?_⟩ .nil⟩), ?_⟩
  · refine .named rfl rfl rfl (.struct rfl rfl rfl ⟨_, @List.perm_append_comm _ [_] [_], ?_⟩)
    exact .cons ⟨rfl, rfl, .of_step ⟨rfl, rfl⟩⟩ (.cons ⟨rfl, rfl, .of_step ⟨rfl, rfl⟩⟩ .nil)
  · rw [h₁, h₂]
    simp [stringBytes]

end DigitalTwin
