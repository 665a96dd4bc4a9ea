/-
`reflect.VisibleFields`, as the walker that implements it and as the rule its documentation
states.

`visibleFieldsWalker.walk` meets the fields of a struct depth first, going into each
embedded struct right after the field that embeds it, and `record` decides at each field
whether it hides an earlier one of its name, is hidden by one, or both. The walk is first
written as the list of fields it meets (`fieldTree`), so that the walker is a fold of
`record` over that list (`walk_eq_foldl_fieldTree`). The fold's invariant (`WalkerInv`)
says what the walker's two maps hold after any prefix of the list, and from it the fields
`VisibleFields` returns are exactly the ones `Visible` picks, in walk order
(`visibleFields_eq_filter`): those that have a name, with no field of that name shallower
and none other as shallow. `Visible` reads a list only through the depths at which each
name occurs, which is what makes the result independent of the order of the walk.
-/
import DigitalTwin.Reflect

set_option autoImplicit false

namespace DigitalTwin

/-! ## The walk as a list of fields -/

/-- The package path and name of a defined type. -/
def namedKey : GoType → Option (String × String)
  | .named p n => some (p, n)
  | _ => none

/-- The type the walk goes into at an embedded field: the struct itself, or the one a pointer
to it points at. -/
def embeddedType : GoType → GoType
  | .ptr e => e
  | e => e

/-- The defined types being walked once the walk has entered `t`. -/
def visitingOf (t : GoType) (visiting : List (String × String)) : List (String × String) :=
  match t with
  | .named p n => (p, n) :: visiting
  | _ => visiting

/-- The walker's `seen`: `t` is a defined type already being walked. -/
def isVisiting (visiting : List (String × String)) (t : GoType) : Bool :=
  match t with
  | .named p n => (p, n) ∈ visiting
  | _ => false

theorem visitingOf_eq (t : GoType) (visiting : List (String × String)) :
    visitingOf t visiting = (namedKey t).toList ++ visiting := by
  cases t <;> rfl

theorem isVisiting_eq (visiting : List (String × String)) (t : GoType) :
    isVisiting visiting t = (namedKey t).any (· ∈ visiting) := by
  cases t <;> rfl

/-- The fields `visibleFieldsWalker.walk` meets, in the order it meets them: each field of the
struct, each followed by the fields of the struct it embeds when the walk goes into it. -/
def fieldTree (env : Env) : Nat → List (String × String) → List Nat → GoType →
    Option (List VisibleField)
  | 0, _, _, _ => none
  | fuel + 1, visiting, index, t =>
    match t.structFields env with
    | none => some []
    | some fs => (fs.enum.mapM fun f =>
        let field : VisibleField := ⟨f.2.1, index ++ [f.1], f.2.2.2, f.2.2.1⟩
        let inner := embeddedType f.2.2.2
        if f.2.2.1 && (inner.structFields env).isSome && !isVisiting (visitingOf t visiting) inner
        then (fieldTree env fuel (visitingOf t visiting) field.index inner).map (field :: ·)
        else some [field]).map List.flatten

/-- A fold whose steps each fold a block of records is the fold of all the blocks. -/
theorem foldlM_eq_map_mapM {α β γ : Type} {step : β → α → Option β}
    {block : α → Option (List γ)} {g : β → γ → β} :
    ∀ {l : List α}, (∀ x ∈ l, ∀ w, step w x = (block x).map (·.foldl g w)) →
      ∀ w, l.foldlM step w = (l.mapM block).map (·.flatten.foldl g w)
  | [], _, _ => rfl
  | x :: l, h, w => by
    rw [List.foldlM_cons, h x (List.mem_cons_self x l), List.mapM_cons]
    cases block x with
    | none => rfl
    | some b =>
      simp only [Option.map_some', Option.some_bind, Option.bind_eq_bind]
      rw [foldlM_eq_map_mapM (fun y hy => h y (List.mem_cons_of_mem x hy))]
      cases l.mapM block <;> simp [List.foldl_append]

/-- **The walker folds `record` over the fields it meets.** -/
theorem walk_eq_foldl_fieldTree (env : Env) :
    ∀ (fuel : Nat) (visiting : List (String × String)) (index : List Nat) (t : GoType)
      (w : Walker), Walker.walk env fuel visiting index t w =
        (fieldTree env fuel visiting index t).map (·.foldl Walker.record w)
  | 0, _, _, _, _ => rfl
  | fuel + 1, visiting, index, t, w => by
    unfold Walker.walk fieldTree
    cases t.structFields env with
    | none => rfl
    | some fs =>
      dsimp only
      rw [Option.map_map]
      refine foldlM_eq_map_mapM (fun f _ w => ?_) w
      -- the two conditions are one test, written once in each definition
      split_ifs with h₁ h₂ h₂
      · rw [walk_eq_foldl_fieldTree env fuel, Option.map_map]; rfl
      · exact absurd h₁ h₂
      · exact absurd h₂ h₁
      · rfl

/-- `mapM` of a function that maps each result of another. -/
theorem mapM_eq_map_mapM {α β γ : Type} {g₁ : α → Option γ} {g₂ : α → Option β} {h : β → γ} :
    ∀ {l : List α}, (∀ x ∈ l, g₁ x = (g₂ x).map h) → l.mapM g₁ = (l.mapM g₂).map (·.map h)
  | [], _ => rfl
  | x :: l, hg => by
    rw [List.mapM_cons, List.mapM_cons, hg x (List.mem_cons_self x l),
      mapM_eq_map_mapM fun y hy => hg y (List.mem_cons_of_mem x hy)]
    cases g₂ x <;> cases l.mapM g₂ <;> rfl

/-- A field the walk meets inside the field at index path `pre`, with its path from the
outer struct. -/
def VisibleField.under (pre : List Nat) (f : VisibleField) : VisibleField :=
  { f with index := pre ++ f.index }

/-- The walk into a field at index path `pre` meets the fields it meets from the top, with
their paths under `pre`. -/
theorem fieldTree_under (env : Env) :
    ∀ (fuel : Nat) (visiting : List (String × String)) (pre : List Nat) (t : GoType),
      fieldTree env fuel visiting pre t =
        (fieldTree env fuel visiting [] t).map (·.map (VisibleField.under pre))
  | 0, _, _, _ => rfl
  | fuel + 1, visiting, pre, t => by
    unfold fieldTree
    cases t.structFields env with
    | none => rfl
    | some fs =>
      dsimp only
      rw [@mapM_eq_map_mapM _ _ _ _ _ (List.map (VisibleField.under pre)) _ fun f _ => ?_,
        Option.map_map, Option.map_map]
      · congr 1
        funext L
        simp only [Function.comp, List.map_flatten]
      · split_ifs
        · rw [fieldTree_under env fuel _ (pre ++ [f.1]), fieldTree_under env fuel _ ([] ++ [f.1])]
          simp only [Option.map_map]
          congr 1
          funext L
          simp [VisibleField.under]
        · rfl

/-! ## Which fields `VisibleFields` keeps -/

/-- The depths at which the name `x` occurs among the fields `L`, in order. -/
def depthsOf (L : List VisibleField) (x : String) : List Nat :=
  (L.filter (·.name == x)).map (·.index.length)

/-- The rule `reflect.VisibleFields` documents: a field of `L` is visible when it has a name,
no field of that name is shallower, and no other is as shallow. -/
def Visible (L : List VisibleField) (f : VisibleField) : Bool :=
  f.name != "" && (depthsOf L f.name).all (f.index.length ≤ ·) &&
    (depthsOf L f.name).count f.index.length == 1

theorem depthsOf_append_singleton (P : List VisibleField) (f : VisibleField) (x : String) :
    depthsOf (P ++ [f]) x = depthsOf P x ++ if f.name = x then [f.index.length] else [] := by
  by_cases h : f.name = x <;> simp [depthsOf, h]

/-- A field of another name leaves a field's visibility as it was. -/
theorem visible_append_of_ne {P : List VisibleField} {f g : VisibleField} (h : g.name ≠ f.name) :
    Visible (P ++ [f]) g = Visible P g := by
  simp only [Visible, depthsOf_append_singleton, if_neg (Ne.symm h), List.append_nil]

/-- What the walker's state says about the fields `P` it has met: the fields it keeps with
their names are the visible ones of `P`; `byName` points, for each name met, at a field of
the shallowest depth of that name, kept with its name or blanked, and at nothing for a name
not met; and a field kept with its name is the one its name points at. -/
structure WalkerInv (P : List VisibleField) (w : Walker) : Prop where
  visible : w.fields.filter (·.name != "") = P.filter (Visible P)
  inj : ∀ x y i, w.byName.lookup x = some i → w.byName.lookup y = some i → x = y
  unseen : ∀ x, w.byName.lookup x = none → depthsOf P x = []
  entry : ∀ x i, w.byName.lookup x = some i → ∃ old, w.fields[i]? = some old ∧
    (old.name = x ∨ old.name = "") ∧ old.index.length ∈ depthsOf P x ∧
    ∀ d ∈ depthsOf P x, old.index.length ≤ d
  named : ∀ j g, w.fields[j]? = some g → g.name ≠ "" → w.byName.lookup g.name = some j

theorem walkerInv_nil : WalkerInv [] ⟨[], []⟩ where
  visible := rfl
  inj := by simp
  unseen := by simp [depthsOf]
  entry := by simp
  named := by simp


theorem mem_depthsOf {L : List VisibleField} {g : VisibleField} (hg : g ∈ L) :
    g.index.length ∈ depthsOf L g.name :=
  List.mem_map.2 ⟨g, List.mem_filter.2 ⟨hg, by simp⟩, rfl⟩

/-- A field of the name `x` added after the fields `P`, against the shallowest depth of `x`
in `P`: at that depth it hides every field of the name, shallower it hides the others and
is visible itself, deeper it changes nothing. -/
theorem filter_visible_append {P : List VisibleField} {f : VisibleField} {x : String} {m : Nat}
    (hfx : f.name = x) (hm : m ∈ depthsOf P x) (hmin : ∀ d ∈ depthsOf P x, m ≤ d) :
    (P ++ [f]).filter (Visible (P ++ [f])) =
      if f.index.length = m then (P.filter (Visible P)).filter (·.name != x)
      else if f.index.length < m then
        (P.filter (Visible P)).filter (·.name != x) ++ [f].filter (·.name != "")
      else P.filter (Visible P) := by
  have hdx : depthsOf (P ++ [f]) x = depthsOf P x ++ [f.index.length] := by
    simp [depthsOf_append_singleton, hfx]
  have hcount : 0 < (depthsOf P x).count m := List.count_pos_iff.2 hm
  have hvis : ∀ g, g.name = x → (Visible (P ++ [f]) g = true ↔ g.name ≠ "" ∧
      (∀ d ∈ depthsOf P x, g.index.length ≤ d) ∧ g.index.length ≤ f.index.length ∧
      (depthsOf P x).count g.index.length + (if f.index.length = g.index.length then 1 else 0) = 1) := by
    intro g hgx
    simp [Visible, hgx, hdx, List.count_singleton', and_assoc]
  have hother : ∀ g, g.name ≠ x → Visible (P ++ [f]) g = Visible P g :=
    fun g h => visible_append_of_ne (hfx ▸ h)
  rw [List.filter_append, List.filter_filter]
  split_ifs with h₁ h₂
  · -- a tie at the shallowest depth hides the name altogether
    have hf : Visible (P ++ [f]) f = false := by
      rw [Bool.eq_false_iff]; intro hv
      obtain ⟨-, -, -, hc⟩ := (hvis f hfx).1 hv
      rw [h₁, if_pos rfl] at hc; omega
    simp only [List.filter_cons, hf, List.filter_nil, Bool.false_eq_true, ↓reduceIte,
      List.append_nil]
    refine List.filter_congr fun g hg => ?_
    by_cases hgx : g.name = x
    · have hgm := hmin _ (hgx ▸ mem_depthsOf hg)
      simp only [hgx, bne_self_eq_false, Bool.false_and, Bool.eq_false_iff]
      intro hv
      obtain ⟨-, -, hle, hc⟩ := (hvis g hgx).1 hv
      rw [if_pos (by omega)] at hc
      have : g.index.length = m := by omega
      rw [this] at hc; omega
    · simp [hother g hgx, hgx]
  · -- a shallower field hides the others of its name and shows itself
    have hf : Visible (P ++ [f]) f = (f.name != "") := by
      rw [Bool.eq_iff_iff, hvis f hfx]
      have hfm : ∀ d ∈ depthsOf P x, f.index.length < d := fun d hd => by
        have := hmin d hd; omega
      simp only [bne_iff_ne, ne_eq, le_refl, ↓reduceIte, true_and,
        List.count_eq_zero.2 fun h => (Nat.lt_irrefl _ (hfm _ h)), Nat.zero_add, and_true]
      exact and_iff_left fun d hd => (hfm d hd).le
    simp only [List.filter_cons, hf, List.filter_nil]
    congr 1
    refine List.filter_congr fun g hg => ?_
    by_cases hgx : g.name = x
    · have hgm := hmin _ (hgx ▸ mem_depthsOf hg)
      simp only [hgx, bne_self_eq_false, Bool.false_and, Bool.eq_false_iff]
      intro hv
      obtain ⟨-, -, hle, -⟩ := (hvis g hgx).1 hv
      omega
    · simp [hother g hgx, hgx]
  · -- a deeper field changes nothing
    have hf : Visible (P ++ [f]) f = false := by
      rw [Bool.eq_false_iff]; intro hv
      obtain ⟨-, hall, -, -⟩ := (hvis f hfx).1 hv
      have := hall m hm; omega
    simp only [List.filter_cons, hf, List.filter_nil, Bool.false_eq_true, ↓reduceIte,
      List.append_nil]
    refine List.filter_congr fun g hg => ?_
    by_cases hgx : g.name = x
    · have hgm := hmin _ (hgx ▸ mem_depthsOf hg)
      have hgc : 0 < (depthsOf P x).count g.index.length := List.count_pos_iff.2 (hgx ▸ mem_depthsOf hg)
      rw [Bool.eq_iff_iff, hvis g hgx]
      simp only [Visible, hgx, Bool.and_eq_true, bne_iff_ne, ne_eq, List.all_eq_true,
        decide_eq_true_eq, beq_iff_eq]
      constructor
      · rintro ⟨hn, hall, -, hc⟩
        refine ⟨⟨hn, hall⟩, ?_⟩
        split_ifs at hc <;> omega
      · rintro ⟨⟨hn, hall⟩, hc⟩
        have := hall m hm
        refine ⟨hn, hall, by omega, ?_⟩
        rw [if_neg (by omega)]; omega
    · exact hother g hgx

/-- Blanking the field a name points at drops that name from the fields kept, when no
other field keeps it. -/
theorem filter_modify_blank {x : String} :
    ∀ {l : List VisibleField} {i : Nat},
      (∀ j g, l[j]? = some g → g.name ≠ "" → g.name = x → j = i) →
      (∀ g, l[i]? = some g → g.name = x ∨ g.name = "") →
      (l.modify (fun g => { g with name := "" }) i).filter (·.name != "") =
        (l.filter (·.name != "")).filter (·.name != x)
  | [], i, _, _ => by cases i <;> rfl
  | g :: l, 0, hi, hx => by
    have hl : ∀ g' ∈ l, g'.name ≠ "" → g'.name ≠ x := fun g' hg' h₁ h₂ => by
      obtain ⟨j, hj⟩ := List.getElem?_of_mem hg'
      exact absurd (hi (j + 1) g' (by simpa using hj) h₁ h₂) (by omega)
    have hl' : (l.filter (·.name != "")).filter (·.name != x) = l.filter (·.name != "") :=
      List.filter_eq_self.2 fun g' hg' => by
        simp only [List.mem_filter, bne_iff_ne, ne_eq] at hg' ⊢; exact hl g' hg'.1 hg'.2
    rcases hx g (by simp) with h | h
    · by_cases hx' : x = "" <;> simp [List.filter_cons, h, hl', hx']
    · simp [List.filter_cons, h, hl']
  | g :: l, i + 1, hi, hx => by
    have hg : g.name ≠ "" → g.name ≠ x := fun h₁ h₂ => absurd (hi 0 g (by simp) h₁ h₂) (by omega)
    have ih := @filter_modify_blank x l i
      (fun j g' hj h₁ h₂ => by have := hi (j + 1) g' (by simpa using hj) h₁ h₂; omega)
      (fun g' h => hx g' (by simpa using h))
    by_cases h : g.name = "" <;> simp_all [List.filter_cons]

section Step

variable {P : List VisibleField} {w : Walker} {f : VisibleField}

theorem WalkerInv.lt_length (hw : WalkerInv P w) {x : String} {i : Nat}
    (h : w.byName.lookup x = some i) : i < w.fields.length := by
  obtain ⟨old, hold, -⟩ := hw.entry x i h
  exact (List.getElem?_eq_some_iff.1 hold).1

theorem lookup_cons_string {x y : String} {i : Nat} {l : List (String × Nat)} :
    ((x, i) :: l).lookup y = if y = x then some i else l.lookup y := by
  by_cases h : y = x
  · simp [List.lookup_cons, h]
  · simp [List.lookup_cons, h, beq_eq_false_iff_ne.2 h]

/-- The walker meets a name for the first time: it adds the field. -/
theorem WalkerInv.add (hw : WalkerInv P w) (hx : w.byName.lookup f.name = none) :
    WalkerInv (P ++ [f]) ⟨(f.name, w.fields.length) :: w.byName, w.fields ++ [f]⟩ := by
  have hP : ∀ g ∈ P, g.name ≠ f.name := by
    simpa [depthsOf, List.filter_eq_nil_iff] using hw.unseen _ hx
  have hd : ∀ y, y ≠ f.name → depthsOf (P ++ [f]) y = depthsOf P y := fun y hy => by
    simp [depthsOf_append_singleton, Ne.symm hy]
  have hf : depthsOf (P ++ [f]) f.name = [f.index.length] := by
    simp [depthsOf_append_singleton, hw.unseen _ hx]
  refine ⟨?_, ?_, ?_, ?_, ?_⟩
  · -- the new field is visible exactly when it has a name
    rw [List.filter_append, List.filter_append, hw.visible,
      List.filter_congr fun g hg => visible_append_of_ne (hP g hg)]
    have hvf : Visible (P ++ [f]) f = (f.name != "") := by simp [Visible, hf]
    simp only [List.filter_cons, List.filter_nil, hvf]
  · intro x y i hx' hy'
    simp only [lookup_cons_string] at hx' hy'
    split_ifs at hx' hy' with h₁ h₂ h₂
    · rw [h₁, h₂]
    · exact absurd (hw.lt_length hy') (by simp_all)
    · exact absurd (hw.lt_length hx') (by simp_all)
    · exact hw.inj x y i hx' hy'
  · intro y hy
    simp only [lookup_cons_string] at hy
    split_ifs at hy with h
    rw [hd y h, hw.unseen y hy]
  · intro y i hy
    simp only [lookup_cons_string] at hy
    split_ifs at hy with h
    · subst h; cases hy
      exact ⟨f, by simp, .inl rfl, by simp [hf], by simp [hf]⟩
    · obtain ⟨old, hold, hname, hmem, hmin⟩ := hw.entry y i hy
      refine ⟨old, ?_, hname, hd y h ▸ hmem, hd y h ▸ hmin⟩
      rw [List.getElem?_append_left (hw.lt_length hy), hold]
  · intro j g hj hg
    rw [lookup_cons_string]
    by_cases hlt : j < w.fields.length
    · rw [List.getElem?_append_left hlt] at hj
      have hlk := hw.named j g hj hg
      rw [if_neg fun h => by simp [h, hx] at hlk, hlk]
    · rw [List.getElem?_append_right (Nat.le_of_not_lt hlt)] at hj
      have hj0 : j - w.fields.length = 0 := by
        have := (List.getElem?_eq_some_iff.1 hj).1
        simp only [List.length_singleton] at this; omega
      rw [hj0] at hj
      cases hj
      simp only [List.getElem_singleton, if_true, Option.some.injEq]
      omega

/-- The fields with the one at `i` blanked. -/
theorem getElem?_blank {l : List VisibleField} {i j : Nat} :
    (l.modify (fun g => { g with name := "" }) i)[j]? =
      if i = j then l[j]?.map fun g => { g with name := "" } else l[j]? := by
  rw [List.getElem?_modify]; split_ifs <;> cases l[j]? <;> rfl

theorem WalkerInv.ne_of_lookup (hw : WalkerInv P w) {x y : String} {i k : Nat}
    (hx : w.byName.lookup x = some i) (hy : w.byName.lookup y = some k) (hne : y ≠ x) :
    k ≠ i := fun h => hne (hw.inj _ _ _ hy (h ▸ hx))

section Found

variable (hw : WalkerInv P w) {i : Nat} (hx : w.byName.lookup f.name = some i)
  {old : VisibleField} (hold : w.fields[i]? = some old)
include hw hx hold

theorem WalkerInv.filter_blank :
    (w.fields.modify (fun g => { g with name := "" }) i).filter (·.name != "") =
      (P.filter (Visible P)).filter (·.name != f.name) := by
  rw [← hw.visible]
  refine filter_modify_blank (fun j g hj hg he => ?_) (fun g hg => ?_)
  · have := hw.named j g hj hg; rw [he, hx] at this; exact (Option.some.inj this).symm
  · obtain ⟨old', h', hname, -⟩ := hw.entry _ i hx
    rw [hold] at h'; cases h'; rw [hold] at hg; cases hg; exact hname

/-- Two fields of one name at the same depth hide each other. -/
theorem WalkerInv.cancel (h : f.index.length = old.index.length) :
    WalkerInv (P ++ [f]) { w with fields := w.fields.modify (fun g => { g with name := "" }) i } := by
  obtain ⟨old', h', hname, hm, hmin⟩ := hw.entry _ i hx
  rw [hold] at h'; cases h'
  have hd : ∀ y, y ≠ f.name → depthsOf (P ++ [f]) y = depthsOf P y := fun y hy => by
    simp [depthsOf_append_singleton, Ne.symm hy]
  have hdx : depthsOf (P ++ [f]) f.name = depthsOf P f.name ++ [f.index.length] := by
    simp [depthsOf_append_singleton]
  refine ⟨?_, hw.inj, fun y hy => ?_, fun y k hy => ?_, fun j g hj hg => ?_⟩
  · rw [hw.filter_blank hx hold, filter_visible_append rfl hm hmin, if_pos h]
  · have hne : y ≠ f.name := fun he => by rw [he, hx] at hy; cases hy
    rw [hd y hne, hw.unseen y hy]
  · by_cases hne : y = f.name
    · subst hne; rw [hx] at hy; cases hy
      refine ⟨{ old with name := "" }, by simp [getElem?_blank, hold], .inr rfl, ?_, ?_⟩
      · rw [hdx]; exact List.mem_append_left _ hm
      · rw [hdx]; intro d hd
        rcases List.mem_append.1 hd with hd | hd
        · exact hmin d hd
        · simp [h] at hd; exact hd ▸ le_rfl
    · obtain ⟨o, ho, hn, hom, homin⟩ := hw.entry y k hy
      refine ⟨o, ?_, hn, hd y hne ▸ hom, hd y hne ▸ homin⟩
      rw [getElem?_blank, if_neg (hw.ne_of_lookup hx hy hne).symm, ho]
  · rw [getElem?_blank] at hj
    split_ifs at hj with hij
    · subst hij; rw [hold] at hj; cases hj; exact absurd rfl hg
    · exact hw.named j g hj hg

/-- A shallower field of a name met before hides the one recorded and is recorded itself. -/
theorem WalkerInv.replace (h : f.index.length < old.index.length) :
    WalkerInv (P ++ [f])
      ⟨(f.name, (w.fields.modify (fun g => { g with name := "" }) i).length) :: w.byName,
        w.fields.modify (fun g => { g with name := "" }) i ++ [f]⟩ := by
  obtain ⟨old', h', hname, hm, hmin⟩ := hw.entry _ i hx
  rw [hold] at h'; cases h'
  have hd : ∀ y, y ≠ f.name → depthsOf (P ++ [f]) y = depthsOf P y := fun y hy => by
    simp [depthsOf_append_singleton, Ne.symm hy]
  have hdx : depthsOf (P ++ [f]) f.name = depthsOf P f.name ++ [f.index.length] := by
    simp [depthsOf_append_singleton]
  have hlen : (w.fields.modify (fun g => { g with name := "" }) i).length = w.fields.length :=
    List.length_modify _ _ _
  refine ⟨?_, fun x y k hx' hy' => ?_, fun y hy => ?_, fun y k hy => ?_, fun j g hj hg => ?_⟩
  · rw [List.filter_append, hw.filter_blank hx hold, filter_visible_append rfl hm hmin,
      if_neg (by omega), if_pos h]
  · simp only [lookup_cons_string, hlen] at hx' hy'
    split_ifs at hx' hy' with h₁ h₂ h₂
    · rw [h₁, h₂]
    · exact absurd (hw.lt_length hy') (by simp_all)
    · exact absurd (hw.lt_length hx') (by simp_all)
    · exact hw.inj x y k hx' hy'
  · simp only [lookup_cons_string] at hy
    split_ifs at hy with hne
    rw [hd y hne, hw.unseen y hy]
  · simp only [lookup_cons_string, hlen] at hy
    split_ifs at hy with hne
    · subst hne; cases hy
      refine ⟨f, by simp, .inl rfl, by simp [hdx], ?_⟩
      rw [hdx]; intro d hd
      rcases List.mem_append.1 hd with hd | hd
      · have := hmin d hd; omega
      · simp at hd; exact hd ▸ le_rfl
    · obtain ⟨o, ho, hn, hom, homin⟩ := hw.entry y k hy
      refine ⟨o, ?_, hn, hd y hne ▸ hom, hd y hne ▸ homin⟩
      rw [List.getElem?_append_left (by rw [hlen]; exact hw.lt_length hy), getElem?_blank,
        if_neg (hw.ne_of_lookup hx hy hne).symm, ho]
  · rw [lookup_cons_string, hlen]
    by_cases hlt : j < w.fields.length
    · rw [List.getElem?_append_left (hlen ▸ hlt), getElem?_blank] at hj
      split_ifs at hj with hij
      · subst hij; rw [hold] at hj; cases hj; exact absurd rfl hg
      · have hlk := hw.named j g hj hg
        rw [if_neg fun (he : g.name = f.name) => hij (Option.some.inj (hx.symm.trans (he ▸ hlk))),
          hlk]
    · rw [List.getElem?_append_right (by omega), hlen] at hj
      have hj0 : j - w.fields.length = 0 := by
        have := (List.getElem?_eq_some_iff.1 hj).1
        simp only [List.length_singleton] at this; omega
      rw [hj0] at hj
      cases hj
      simp only [List.getElem_singleton, if_true, Option.some.injEq]
      omega

/-- A deeper field of a name met before is dropped. -/
theorem WalkerInv.drop (h : old.index.length < f.index.length) : WalkerInv (P ++ [f]) w := by
  obtain ⟨old', h', hname, hm, hmin⟩ := hw.entry _ i hx
  rw [hold] at h'; cases h'
  have hd : ∀ y, y ≠ f.name → depthsOf (P ++ [f]) y = depthsOf P y := fun y hy => by
    simp [depthsOf_append_singleton, Ne.symm hy]
  have hdx : depthsOf (P ++ [f]) f.name = depthsOf P f.name ++ [f.index.length] := by
    simp [depthsOf_append_singleton]
  refine ⟨?_, hw.inj, fun y hy => ?_, fun y k hy => ?_, hw.named⟩
  · rw [hw.visible, filter_visible_append rfl hm hmin, if_neg (by omega), if_neg (by omega)]
  · have hne : y ≠ f.name := fun he => by rw [he, hx] at hy; cases hy
    rw [hd y hne, hw.unseen y hy]
  · by_cases hne : y = f.name
    · subst hne; rw [hx] at hy; cases hy
      refine ⟨old, hold, hname, by simp [hdx, hm], ?_⟩
      rw [hdx]; intro d hd
      rcases List.mem_append.1 hd with hd | hd
      · exact hmin d hd
      · simp at hd; omega
    · obtain ⟨o, ho, hn, hom, homin⟩ := hw.entry y k hy
      exact ⟨o, ho, hn, hd y hne ▸ hom, hd y hne ▸ homin⟩

end Found

/-- **One step of `visibleFieldsWalker` keeps its invariant.** -/
theorem WalkerInv.record (hw : WalkerInv P w) : WalkerInv (P ++ [f]) (w.record f) := by
  unfold Walker.record
  cases hx : w.byName.lookup f.name with
  | none => exact hw.add hx
  | some i =>
    obtain ⟨old, hold, -⟩ := hw.entry _ i hx
    dsimp only
    rw [List.get?_eq_getElem?, hold]
    dsimp only
    split_ifs with h₁ h₂
    · exact hw.cancel hx hold h₁
    · exact hw.replace hx hold h₂
    · exact hw.drop hx hold (by omega)

end Step

theorem WalkerInv.foldl {P : List VisibleField} {w : Walker} (hw : WalkerInv P w) :
    ∀ L, WalkerInv (P ++ L) (L.foldl Walker.record w)
  | [] => by simpa using hw
  | f :: L => by
    rw [List.foldl_cons, ← List.singleton_append, ← List.append_assoc]
    exact hw.record.foldl L

/-- **The walker keeps exactly the visible fields, in the order it meets them.** -/
theorem foldl_record_fields (L : List VisibleField) :
    (L.foldl Walker.record ⟨[], []⟩).fields.filter (·.name != "") = L.filter (Visible L) :=
  (walkerInv_nil.foldl L).visible

/-- **`reflect.VisibleFields` keeps the visible fields of the walk.** -/
theorem visibleFields_eq_filter (env : Env) (fuel : Nat) (t : GoType) :
    visibleFields env fuel t = (fieldTree env fuel [] [] t).map fun L => L.filter (Visible L) := by
  rw [visibleFields, walk_eq_foldl_fieldTree, Option.map_map]
  congr 1
  funext L
  exact foldl_record_fields L

end DigitalTwin
