/-
Lists that hold the same elements in another order, related one to one.

`PermRel R l₁ l₂` is a permutation of `l₁` followed by `List.Forall₂ R`, so that Mathlib's
lemmas on both apply. It is kept by the operations the walk over a struct's fields performs
(`map`, `filter`, `flatten`, `mapM`), by the visibility rule of `reflect.VisibleFields`
(`PermRel.filter_visible`: which fields are visible does not depend on the order the walk
meets them in), and `sort.Slice` on a key without ties turns it into `Forall₂`
(`PermRel.sortSlice`). `PermRel.forall_of_antitone` picks one permutation for a relation
read at every depth, which is what the reorder relation of `DigitalTwin.Reorder` needs.
-/
import Mathlib.Data.List.Permutation
import Mathlib.Order.Monotone.Basic
import DigitalTwin.VisibleFields

set_option autoImplicit false

namespace DigitalTwin

/-! ## Lists equal up to order -/

/-- `l₁` and `l₂` hold the same elements up to order, related one to one by `R`. -/
def PermRel {α β : Type} (R : α → β → Prop) (l₁ : List α) (l₂ : List β) : Prop :=
  ∃ l, l₁.Perm l ∧ List.Forall₂ R l l₂

section PermRel

variable {α β : Type} {R S : α → β → Prop}

theorem PermRel.imp (h : ∀ a b, R a b → S a b) {l₁ : List α} {l₂ : List β}
    (hl : PermRel R l₁ l₂) : PermRel S l₁ l₂ :=
  let ⟨l, hp, hf⟩ := hl; ⟨l, hp, hf.imp h⟩

theorem PermRel.length_eq {l₁ : List α} {l₂ : List β} (h : PermRel R l₁ l₂) :
    l₁.length = l₂.length :=
  let ⟨_, hp, hf⟩ := h; hp.length_eq.trans hf.length_eq

theorem forall₂_forall {R : Nat → α → β → Prop} :
    ∀ {l₁ : List α} {l₂ : List β}, (∀ n, List.Forall₂ (R n) l₁ l₂) →
      List.Forall₂ (fun a b => ∀ n, R n a b) l₁ l₂
  | [], [], _ => .nil
  | [], _ :: _, h => absurd (h 0) (by simp)
  | _ :: _, [], h => absurd (h 0) (by simp)
  | _ :: _, _ :: _, h => .cons (fun n => (List.forall₂_cons.1 (h n)).1)
      (forall₂_forall fun n => (List.forall₂_cons.1 (h n)).2)

theorem PermRel.cons {a : α} {b : β} {l₁ : List α} {l₂ : List β} (hab : R a b)
    (h : PermRel R l₁ l₂) : PermRel R (a :: l₁) (b :: l₂) :=
  let ⟨l, hp, hf⟩ := h; ⟨a :: l, hp.cons a, .cons hab hf⟩

theorem PermRel.append {l₁ l₁' : List α} {l₂ l₂' : List β} (h : PermRel R l₁ l₂)
    (h' : PermRel R l₁' l₂') : PermRel R (l₁ ++ l₁') (l₂ ++ l₂') :=
  let ⟨l, hp, hf⟩ := h; let ⟨l', hp', hf'⟩ := h'
  ⟨l ++ l', hp.append hp', List.rel_append hf hf'⟩

theorem PermRel.map {γ δ : Type} {S : γ → δ → Prop} {f : α → γ} {g : β → δ}
    (hfg : ∀ a b, R a b → S (f a) (g b)) {l₁ : List α} {l₂ : List β} (h : PermRel R l₁ l₂) :
    PermRel S (l₁.map f) (l₂.map g) :=
  let ⟨l, hp, hf⟩ := h
  ⟨l.map f, hp.map f, List.forall₂_map_right_iff.2 (List.forall₂_map_left_iff.2 (hf.imp hfg))⟩

theorem PermRel.filter {p : α → Bool} {q : β → Bool} (hpq : ∀ a b, R a b → p a = q b)
    {l₁ : List α} {l₂ : List β} (h : PermRel R l₁ l₂) :
    PermRel R (l₁.filter p) (l₂.filter q) := by
  obtain ⟨l, hp, hf⟩ := h
  refine ⟨l.filter p, hp.filter p, ?_⟩
  clear hp
  induction hf with
  | nil => exact .nil
  | @cons a b _ _ hab _ ih =>
    rw [List.filter_cons, List.filter_cons, hpq a b hab]
    split
    · exact .cons hab ih
    · exact ih

theorem PermRel.flatten {B₁ : List (List α)} {B₂ : List (List β)}
    (h : PermRel (PermRel R) B₁ B₂) : PermRel R B₁.flatten B₂.flatten := by
  obtain ⟨b, hp, hf⟩ := h
  suffices PermRel R b.flatten B₂.flatten from
    let ⟨l, hp', hf'⟩ := this; ⟨l, hp.flatten.trans hp', hf'⟩
  clear hp
  induction hf with
  | nil => exact ⟨[], .nil, .nil⟩
  | cons hab _ ih => exact hab.append ih

theorem forall₂_mem {α β : Type} {R : α → β → Prop} :
    ∀ {l₁ : List α} {l₂ : List β}, List.Forall₂ R l₁ l₂ →
      List.Forall₂ (fun a b => R a b ∧ a ∈ l₁ ∧ b ∈ l₂) l₁ l₂
  | [], [], .nil => .nil
  | _ :: _, _ :: _, .cons hab h => .cons ⟨hab, List.mem_cons_self _ _, List.mem_cons_self _ _⟩
      ((forall₂_mem h).imp fun _ _ ⟨h, ha, hb⟩ =>
        ⟨h, List.mem_cons_of_mem _ ha, List.mem_cons_of_mem _ hb⟩)

/-- Lists related up to order are related by pairs of their own elements. -/
theorem PermRel.mem {α β : Type} {R : α → β → Prop} {l₁ : List α} {l₂ : List β}
    (h : PermRel R l₁ l₂) : PermRel (fun a b => R a b ∧ a ∈ l₁ ∧ b ∈ l₂) l₁ l₂ :=
  let ⟨l, hp, hf⟩ := h
  ⟨l, hp, (forall₂_mem hf).imp fun _ _ ⟨h, ha, hb⟩ => ⟨h, hp.mem_iff.2 ha, hb⟩⟩

theorem optionRel_bind {γ δ γ' δ' : Type} {S : γ → δ → Prop} {T : γ' → δ' → Prop}
    {x : Option γ} {y : Option δ} (h : Option.Rel S x y) {f : γ → Option γ'} {g : δ → Option δ'}
    (hfg : ∀ a b, S a b → Option.Rel T (f a) (g b)) : Option.Rel T (x.bind f) (y.bind g) := by
  cases h with
  | none => exact .none
  | some hab => exact hfg _ _ hab

theorem optionRel_imp {γ δ : Type} {S T : γ → δ → Prop} {x : Option γ} {y : Option δ}
    (h : Option.Rel S x y) (hST : ∀ a b, S a b → T a b) : Option.Rel T x y := by
  cases h with
  | none => exact .none
  | some hab => exact .some (hST _ _ hab)

theorem optionRel_trans {γ δ ε : Type} {S : γ → δ → Prop} {T : δ → ε → Prop}
    {x : Option γ} {y : Option δ} {z : Option ε} (h : Option.Rel S x y) (h' : Option.Rel T y z) :
    Option.Rel (fun a c => ∃ b, S a b ∧ T b c) x z := by
  cases h with
  | none => cases h'; exact .none
  | some hab => cases h' with
    | some hbc => exact .some ⟨_, hab, hbc⟩

theorem optionRel_map {γ δ γ' δ' : Type} {S : γ → δ → Prop} {T : γ' → δ' → Prop}
    {x : Option γ} {y : Option δ} (h : Option.Rel S x y) {f : γ → γ'} {g : δ → δ'}
    (hfg : ∀ a b, S a b → T (f a) (g b)) : Option.Rel T (x.map f) (y.map g) := by
  cases h with
  | none => exact .none
  | some hab => exact .some (hfg _ _ hab)

theorem optionRel_isSome {γ δ : Type} {S : γ → δ → Prop} {x : Option γ} {y : Option δ}
    (h : Option.Rel S x y) : x.isSome = y.isSome := by
  cases h <;> rfl

/-- `mapM` of a function into `Option` over lists related elementwise. -/
theorem forall₂_mapM {γ δ : Type} {S : γ → δ → Prop} {g₁ : α → Option γ} {g₂ : β → Option δ}
    (hg : ∀ a b, R a b → Option.Rel S (g₁ a) (g₂ b)) :
    ∀ {l₁ : List α} {l₂ : List β}, List.Forall₂ R l₁ l₂ →
      Option.Rel (List.Forall₂ S) (l₁.mapM g₁) (l₂.mapM g₂)
  | [], [], .nil => .some .nil
  | a :: _, b :: _, .cons hab h => by
    simp only [List.mapM_cons, Option.bind_eq_bind]
    exact optionRel_bind (hg a b hab) fun _ _ hcd =>
      optionRel_bind (forall₂_mapM hg h) fun _ _ hs => .some (.cons hcd hs)

/-- `mapM` of a function into `Option` over a permutation. -/
theorem perm_mapM {γ : Type} {g : α → Option γ} {l l' : List α} (h : l.Perm l') :
    Option.Rel List.Perm (l.mapM g) (l'.mapM g) := by
  induction h with
  | nil => exact .some .nil
  | cons x _ ih =>
    simp only [List.mapM_cons, Option.bind_eq_bind]
    cases g x with
    | none => exact .none
    | some c => exact optionRel_bind ih fun _ _ hp => .some (hp.cons c)
  | swap x y l =>
    simp only [List.mapM_cons, Option.bind_eq_bind]
    cases g x <;> cases g y <;> cases l.mapM g <;>
      first | exact .none | exact .some (.swap _ _ _)
  | trans _ _ ih₁ ih₂ =>
    exact optionRel_imp (optionRel_trans ih₁ ih₂) fun _ _ ⟨_, hp₁, hp₂⟩ => hp₁.trans hp₂

theorem PermRel.mapM {γ δ : Type} {S : γ → δ → Prop} {g₁ : α → Option γ} {g₂ : β → Option δ}
    (hg : ∀ a b, R a b → Option.Rel S (g₁ a) (g₂ b)) {l₁ : List α} {l₂ : List β}
    (h : PermRel R l₁ l₂) : Option.Rel (PermRel S) (l₁.mapM g₁) (l₂.mapM g₂) := by
  obtain ⟨l, hp, hf⟩ := h
  exact optionRel_imp (optionRel_trans (perm_mapM hp) (forall₂_mapM hg hf))
    fun _ _ ⟨_, hp', hs⟩ => ⟨_, hp', hs⟩

end PermRel

/-- Lists related up to order after a map are related up to order before it. -/
theorem PermRel.of_map {α β γ δ : Type} {R : γ → δ → Prop} {f : α → γ} {g : β → δ}
    {l₁ : List α} {l₂ : List β} (h : PermRel R (l₁.map f) (l₂.map g)) :
    PermRel (fun a b => R (f a) (g b)) l₁ l₂ := by
  obtain ⟨l, hp, hf⟩ := h
  obtain ⟨l', hp', hf'⟩ : Relation.Comp List.Perm (List.Forall₂ fun a b => f a = b) l₁ l := by
    rw [← List.forall₂_comp_perm_eq_perm_comp_forall₂]
    exact ⟨_, List.forall₂_map_right_iff.2 (List.forall₂_same.2 fun _ _ => rfl), hp⟩
  obtain rfl : l'.map f = l := List.forall₂_eq_eq_eq ▸ List.forall₂_map_left_iff.2 hf'
  exact ⟨l', hp', List.forall₂_map_left_iff.1 (List.forall₂_map_right_iff.1 hf)⟩

theorem mapM_map {α β γ : Type} (f : β → Option γ) (g : α → β) :
    ∀ l : List α, (l.map g).mapM f = l.mapM (f ∘ g)
  | [] => rfl
  | a :: l => by simp only [List.map_cons, List.mapM_cons, mapM_map f g l]; rfl

theorem length_eq_of_mapM {α β : Type} {f : α → Option β} :
    ∀ {l : List α} {l' : List β}, l.mapM f = some l' → l'.length = l.length
  | [], _, h => by cases h; rfl
  | a :: l, l', h => by
    rw [List.mapM_cons] at h
    cases ha : f a <;> cases hl : l.mapM f <;> simp only [ha, hl] at h <;> try cases h
    rw [List.length_cons, length_eq_of_mapM hl, List.length_cons]

theorem forall₂_replicate {α β : Type} {R : α → β → Prop} {a : α} {b : β} (h : R a b) :
    ∀ n, List.Forall₂ R (List.replicate n a) (List.replicate n b)
  | 0 => .nil
  | n + 1 => .cons h (forall₂_replicate h n)

/-- A property that only weakens as `n` shrinks, held at each `n` by some element of a fixed
list, is held at every `n` by one element. -/
theorem exists_forall_of_antitone {α : Type} {P : Nat → α → Prop}
    (hP : ∀ n a, P (n + 1) a → P n a) :
    ∀ L : List α, (∀ n, ∃ a ∈ L, P n a) → ∃ a ∈ L, ∀ n, P n a
  | [], h => absurd (h 0) (by simp)
  | a :: L, h => by
    have hmono : ∀ b {m n}, n ≤ m → P m b → P n b := fun b _ _ hnm =>
      @antitone_nat_of_succ_le Prop _ (fun n => P n b) (hP · b) _ _ hnm
    by_cases ha : ∀ n, P n a
    · exact ⟨a, List.mem_cons_self a L, ha⟩
    · push_neg at ha
      obtain ⟨n₀, hn₀⟩ := ha
      obtain ⟨b, hb, hb'⟩ := exists_forall_of_antitone hP L fun n => by
        obtain ⟨c, hc, hc'⟩ := h (n + n₀)
        rcases List.mem_cons.1 hc with rfl | hc
        · exact absurd (hmono c (Nat.le_add_left n₀ n) hc') hn₀
        · exact ⟨c, hc, hmono c (Nat.le_add_right n n₀) hc'⟩
      exact ⟨b, List.mem_cons_of_mem a hb, hb'⟩

/-- A permutation that relates two lists at every depth of a relation that weakens with the
depth: one of the finitely many permutations serves at every depth. -/
theorem PermRel.forall_of_antitone {α β : Type} {R : Nat → α → β → Prop}
    (hR : ∀ n a b, R (n + 1) a b → R n a b) {l₁ : List α} {l₂ : List β}
    (h : ∀ n, PermRel (R n) l₁ l₂) : PermRel (fun a b => ∀ n, R n a b) l₁ l₂ := by
  obtain ⟨l, hl, hf⟩ := @exists_forall_of_antitone _ (fun n l => List.Forall₂ (R n) l l₂)
    (fun n _ h => h.imp (hR n)) l₁.permutations fun n => by
      obtain ⟨l, hp, hf⟩ := h n
      exact ⟨l, List.mem_permutations.2 hp.symm, hf⟩
  exact ⟨l, (List.mem_permutations.1 hl).symm, forall₂_forall hf⟩

/-! ## Visibility and sorting do not see the order of the walk -/

section Visible

variable {R : VisibleField → VisibleField → Prop}
  (hR : ∀ a b, R a b → a.name = b.name ∧ a.index.length = b.index.length)

include hR

theorem depthsOf_eq_of_forall₂ {l₁ l₂ : List VisibleField} (h : List.Forall₂ R l₁ l₂)
    (x : String) : depthsOf l₁ x = depthsOf l₂ x := by
  induction h with
  | nil => rfl
  | @cons a b _ _ hab _ ih =>
    obtain ⟨hn, hd⟩ := hR a b hab
    simp only [depthsOf, List.filter_cons, hn] at ih ⊢
    split <;> simp [ih, hd]

theorem PermRel.depthsOf_perm {l₁ l₂ : List VisibleField} (h : PermRel R l₁ l₂) (x : String) :
    (depthsOf l₁ x).Perm (depthsOf l₂ x) := by
  obtain ⟨l, hp, hf⟩ := h
  rw [← depthsOf_eq_of_forall₂ hR hf]
  exact (hp.filter _).map _

/-- **Which fields are visible does not depend on the order of the walk.** -/
theorem PermRel.filter_visible {l₁ l₂ : List VisibleField} (h : PermRel R l₁ l₂) :
    PermRel R (l₁.filter (Visible l₁)) (l₂.filter (Visible l₂)) := by
  refine h.filter fun a b hab => ?_
  obtain ⟨hn, hd⟩ := hR a b hab
  have hp := h.depthsOf_perm hR a.name
  simp only [Visible, hn, hd] at hp ⊢
  rw [hp.count_eq, Bool.eq_iff_iff]
  simp only [Bool.and_eq_true, List.all_eq_true, hp.mem_iff]

end Visible

/-- **No two visible fields share a name.** Two of one name would both be at its shallowest
depth, which `Visible` allows to only one field. -/
theorem nodup_names_visible (L : List VisibleField) :
    ((L.filter (Visible L)).map (·.name)).Nodup := by
  rw [List.Nodup, List.pairwise_map, List.pairwise_iff_forall_sublist]
  intro a b hab hname
  have ha := (List.mem_filter.1 (hab.subset (List.mem_cons_self a _))).2
  have hb := (List.mem_filter.1
    (hab.subset (List.mem_cons_of_mem a (List.mem_singleton_self b)))).2
  simp only [Visible, Bool.and_eq_true, List.all_eq_true, decide_eq_true_eq, beq_iff_eq] at ha hb
  have hsub : List.Sublist [a.index.length, b.index.length] (depthsOf L a.name) := by
    have := ((hab.trans (List.filter_sublist _)).filter (·.name == a.name)).map (·.index.length)
    simpa [depthsOf, hname] using this
  have hda := ha.1.2 _ (hsub.subset (List.mem_cons_of_mem _ (List.mem_singleton_self _)))
  have hdb := hb.1.2 _ (hname ▸ hsub.subset (List.mem_cons_self _ _))
  have := hsub.count_le a.index.length
  simp only [List.count_cons, List.count_nil, beq_self_eq_true, ↓reduceIte] at this
  rw [show b.index.length = a.index.length by omega] at this
  simp at this; omega

/-- `sort.Slice` by the bytes of a key gives one list for all orders of the same elements
when no two of them share a key. -/
theorem sortSlice_eq_of_perm_of_nodup {α : Type} {key : α → List UInt8} {l l' : List α}
    (h : l.Perm l') (hn : (l.map key).Nodup) :
    sortSlice (fun a b => bytesLess (key a) (key b)) l =
      sortSlice (fun a b => bytesLess (key a) (key b)) l' := by
  let s : α → α → Prop := fun a b => bytesLess (key a) (key b) = true
  have : IsAntisymm α s := ⟨fun a b hab hba => by simp [s, bytesLess_asymm hab] at hba⟩
  have strict : ∀ m : List α, m.Perm l →
      (m.Sorted fun a b => bytesLess (key b) (key a) = false) → m.Sorted s := fun m hm hs =>
    (hs.and (List.pairwise_map.1 ((hm.map key).nodup_iff.2 hn))).imp fun ⟨h₁, h₂⟩ => by
      rcases bytesLess_trichotomy (key _) (key _) with h | h | h
      · exact h
      · exact absurd h h₂
      · simp [h] at h₁
  exact List.eq_of_perm_of_sorted
    ((sortSlice_perm _ l).trans (h.trans (sortSlice_perm _ l').symm))
    (strict _ (sortSlice_perm _ l) (sortSlice_sorted key l))
    (strict _ ((sortSlice_perm _ l').trans h.symm) (sortSlice_sorted key l'))

section Sorting

variable {α β : Type} {R : α → β → Prop} {r : α → α → Prop} {s : β → β → Prop}
  [DecidableRel r] [DecidableRel s] (hrs : ∀ a a' b b', R a b → R a' b' → (r a a' ↔ s b b'))

include hrs

theorem forall₂_orderedInsert {a : α} {b : β} (hab : R a b) :
    ∀ {l₁ : List α} {l₂ : List β}, List.Forall₂ R l₁ l₂ →
      List.Forall₂ R (l₁.orderedInsert r a) (l₂.orderedInsert s b)
  | [], [], .nil => .cons hab .nil
  | c :: _, d :: _, .cons hcd h => by
    simp only [List.orderedInsert]
    by_cases hr : r a c
    · rw [if_pos hr, if_pos ((hrs a c b d hab hcd).1 hr)]
      exact .cons hab (.cons hcd h)
    · rw [if_neg hr, if_neg (mt (hrs a c b d hab hcd).2 hr)]
      exact .cons hcd (forall₂_orderedInsert hab h)

theorem forall₂_insertionSort :
    ∀ {l₁ : List α} {l₂ : List β}, List.Forall₂ R l₁ l₂ →
      List.Forall₂ R (l₁.insertionSort r) (l₂.insertionSort s)
  | [], [], .nil => .nil
  | _ :: _, _ :: _, .cons hab h => forall₂_orderedInsert hrs hab (forall₂_insertionSort h)

end Sorting

/-- **Sorting by a key without ties pairs up related lists given in any order.** -/
theorem PermRel.sortSlice {α β : Type} {R : α → β → Prop} {key₁ : α → List UInt8}
    {key₂ : β → List UInt8} (hkey : ∀ a b, R a b → key₁ a = key₂ b) {l₁ : List α} {l₂ : List β}
    (h : PermRel R l₁ l₂) (hn : (l₁.map key₁).Nodup) :
    List.Forall₂ R (sortSlice (fun a b => bytesLess (key₁ a) (key₁ b)) l₁)
      (sortSlice (fun a b => bytesLess (key₂ a) (key₂ b)) l₂) := by
  obtain ⟨l, hp, hf⟩ := h
  rw [sortSlice_eq_of_perm_of_nodup hp hn]
  exact forall₂_insertionSort (fun a a' b b' h h' => by
    simp only [hkey a b h, hkey a' b' h']) hf

end DigitalTwin
