/-
`contentaddress.go`: the twenty-byte content addresses and the digests built from them.

A `contentAddress` is `[sha1.Size]byte`; `NodeHash`, `ComponentID`, `ComponentHash` and
`ForestHash` are four named types over it, and they are kept apart here as they are in Go,
so that a component id cannot be written where a component hash is meant.

SHA-1 itself is not modelled. Every digest below is `sha1` applied to the exact byte stream
the Go code writes into `sha1.New()` before calling `Sum(nil)`, and `sha1` is a parameter of
the development. A theorem that needs collision resistance says so as a hypothesis on
`sha1`; every other theorem holds for any digest function at all.

Sorting is `sort.Slice` with `bytes.Compare(a, b) < 0`. Go's sort is not stable, but on
arrays of one fixed length that order is total and antisymmetric, so every correct sort
returns the same list. Insertion sort is used here because it is structural, so that a
model run evaluates by `decide`.
-/
import Mathlib.Algebra.Group.Int
import Mathlib.Data.List.AList
import Mathlib.Data.List.Sort

set_option autoImplicit false

namespace DigitalTwin

/-- How a Go call can fail: a returned `error`, or a `panic`. -/
inductive Failure
  | error (msg : String)
  | panic (msg : String)
deriving DecidableEq

/-- An `Except` computation that starts with a success goes on from its value. -/
@[simp] theorem ok_bind {ε α β : Type} (a : α) (f : α → Except ε β) : (Except.ok a >>= f) = f a :=
  rfl

/-- An `Except` computation that starts with a failure fails with it. -/
@[simp] theorem error_bind {ε α β : Type} (x : ε) (f : α → Except ε β) :
    (Except.error x >>= f) = .error x :=
  rfl

/-- `pure` in `Except` is a success. -/
@[simp] theorem except_pure {ε α : Type} (a : α) : (pure a : Except ε α) = .ok a :=
  rfl

/-- An `Except` computation succeeds exactly when both of its halves do. -/
theorem bind_eq_ok {ε α β : Type} {x : Except ε α} {f : α → Except ε β} {b : β} :
    x >>= f = .ok b ↔ ∃ a, x = .ok a ∧ f a = .ok b := by
  cases x <;> simp [bind, Except.bind]

/-! ## Content addresses -/

/-- `contentAddress`: a `[sha1.Size]byte` array, `sha1.Size = 20`. The length is part of the
value, so no shorter or longer byte string can stand in for an address. -/
structure ContentAddress where
  bytes : List UInt8
  size_eq : bytes.length = 20
deriving DecidableEq

/-- Two addresses with the same bytes are equal. -/
theorem ContentAddress.ext_bytes {a b : ContentAddress} (h : a.bytes = b.bytes) : a = b := by
  cases a; cases b; cases h; rfl

/-- The zero `contentAddress`, what `IsZero` tests for. -/
def ContentAddress.zero : ContentAddress := ⟨List.replicate 20 0, rfl⟩

/-- A stand-in digest for running the model on concrete inputs; it is not a model of SHA-1
and no theorem about the code assumes anything of it. Byte `i` of the input is added into
position `(i + i / 20) % 20` of the result, so consecutive twenty-byte blocks land rotated
against each other. -/
def blockDigest (bs : List UInt8) : ContentAddress :=
  ⟨(List.range 20).map fun j =>
    ((bs.enum.filter fun p => (p.1 + p.1 / 20) % 20 = j).map (·.2)).foldl (· + ·) 0, by simp⟩

/-- The content address whose twenty bytes are all `b`, for naming nodes in concrete runs. -/
def ContentAddress.fill (b : UInt8) : ContentAddress := ⟨List.replicate 20 b, by simp⟩

/-- `NodeHash`: the content address of one node. -/
structure NodeHash where
  toContentAddress : ContentAddress
deriving DecidableEq

/-- `ComponentID`: the content address of an assembly's roots. -/
structure ComponentID where
  toContentAddress : ContentAddress
deriving DecidableEq

/-- `ComponentHash`: the content address of a whole assembly. -/
structure ComponentHash where
  toContentAddress : ContentAddress
deriving DecidableEq

/-- `ForestHash`: the content address of a set of components. -/
structure ForestHash where
  toContentAddress : ContentAddress
deriving DecidableEq

/-- The bytes `h[:]` of a node hash. -/
def NodeHash.bytes (h : NodeHash) : List UInt8 := h.toContentAddress.bytes

theorem NodeHash.bytes_injective : Function.Injective NodeHash.bytes := by
  rintro ⟨a⟩ ⟨b⟩ h
  exact congrArg NodeHash.mk (ContentAddress.ext_bytes h)

/-- The bytes `id[:]` of a component id. -/
def ComponentID.bytes (h : ComponentID) : List UInt8 := h.toContentAddress.bytes

/-- The bytes `x[:]` of a component hash. -/
def ComponentHash.bytes (h : ComponentHash) : List UInt8 := h.toContentAddress.bytes

theorem ComponentID.bytes_injective : Function.Injective ComponentID.bytes := by
  rintro ⟨a⟩ ⟨b⟩ h
  exact congrArg ComponentID.mk (ContentAddress.ext_bytes h)

theorem ComponentHash.bytes_injective : Function.Injective ComponentHash.bytes := by
  rintro ⟨a⟩ ⟨b⟩ h
  exact congrArg ComponentHash.mk (ContentAddress.ext_bytes h)

instance : Inhabited ComponentHash := ⟨⟨ContentAddress.zero⟩⟩

instance : Inhabited ForestHash := ⟨⟨ContentAddress.zero⟩⟩

/-! ## `bytes.Compare` and `sort.Slice` -/

/-- `bytes.Compare(a, b) < 0`: `a` comes strictly before `b` in lexicographic order. -/
def bytesLess : List UInt8 → List UInt8 → Bool
  | [], [] => false
  | [], _ :: _ => true
  | _ :: _, [] => false
  | a :: as, b :: bs => a < b || (a == b && bytesLess as bs)

/-- `sort.Slice(xs, func(i, j int) bool { return less(xs[i], xs[j]) })`. -/
def sortSlice {α : Type} (less : α → α → Bool) (xs : List α) : List α :=
  xs.insertionSort fun a b => less b a = false

/-- Sorting a slice keeps its elements: it is a permutation. -/
theorem sortSlice_perm {α : Type} (less : α → α → Bool) (xs : List α) :
    (sortSlice less xs).Perm xs :=
  List.perm_insertionSort _ xs

/-- Blocks of one fixed, positive length written one after another can be read back. -/
theorem flatMap_inj_of_length {α : Type} {f : α → List UInt8} {n : Nat}
    (hf : Function.Injective f) (hlen : ∀ a, (f a).length = n) (hn : 0 < n) :
    ∀ {xs ys : List α}, xs.flatMap f = ys.flatMap f → xs = ys
  | [], [], _ => rfl
  | [], y :: ys, h => absurd (congrArg List.length h) (by simp [hlen]; omega)
  | x :: xs, [], h => absurd (congrArg List.length h) (by simp [hlen]; omega)
  | x :: xs, y :: ys, h => by
    simp only [List.flatMap_cons] at h
    obtain ⟨h₁, h₂⟩ := List.append_inj h (by rw [hlen, hlen])
    rw [hf h₁, flatMap_inj_of_length hf hlen hn h₂]

/-! ### `bytes.Compare` is a strict total order -/

theorem bytesLess_irrefl (a : List UInt8) : bytesLess a a = false := by
  induction a with
  | nil => rfl
  | cons x a ih => simp [bytesLess, ih]

theorem bytesLess_trans {a b c : List UInt8} (hab : bytesLess a b) (hbc : bytesLess b c) :
    bytesLess a c := by
  induction a generalizing b c with
  | nil => cases b <;> cases c <;> simp_all [bytesLess]
  | cons x a ih =>
    cases b with
    | nil => simp [bytesLess] at hab
    | cons y b =>
      cases c with
      | nil => simp [bytesLess] at hbc
      | cons z c =>
        simp only [bytesLess, Bool.or_eq_true, decide_eq_true_eq, Bool.and_eq_true, beq_iff_eq] at hab hbc ⊢
        rcases hab with hxy | ⟨rfl, hab⟩ <;> rcases hbc with hyz | ⟨rfl, hbc⟩
        · exact .inl (UInt8.lt_trans hxy hyz)
        · exact .inl hxy
        · exact .inl hyz
        · exact .inr ⟨rfl, ih hab hbc⟩

theorem bytesLess_trichotomy (a b : List UInt8) : bytesLess a b ∨ a = b ∨ bytesLess b a := by
  induction a generalizing b with
  | nil => cases b <;> simp [bytesLess]
  | cons x a ih =>
    cases b with
    | nil => simp [bytesLess]
    | cons y b =>
      simp only [bytesLess, Bool.or_eq_true, decide_eq_true_eq, Bool.and_eq_true, beq_iff_eq,
        List.cons.injEq]
      rcases Nat.lt_trichotomy x.toNat y.toNat with hxy | hxy | hxy
      · exact .inl (.inl hxy)
      · obtain rfl : x = y := UInt8.eq_of_val_eq (Fin.ext hxy)
        rcases ih b with h | rfl | h
        · exact .inl (.inr ⟨rfl, h⟩)
        · exact .inr (.inl ⟨rfl, rfl⟩)
        · exact .inr (.inr (.inr ⟨rfl, h⟩))
      · exact .inr (.inr (.inl hxy))

theorem bytesLess_asymm {a b : List UInt8} (hab : bytesLess a b) : bytesLess b a = false := by
  cases h : bytesLess b a
  · rfl
  · simpa [bytesLess_irrefl] using bytesLess_trans hab h

/-- `sort.Slice` by the bytes of a key leaves no key greater than the next. -/
theorem sortSlice_sorted {α : Type} (key : α → List UInt8) (l : List α) :
    (sortSlice (fun a b => bytesLess (key a) (key b)) l).Sorted
      fun a b => bytesLess (key b) (key a) = false := by
  let r : α → α → Prop := fun a b => bytesLess (key b) (key a) = false
  have : IsTotal α r := ⟨fun a b => by
    rcases bytesLess_trichotomy (key a) (key b) with h | h | h
    · exact .inl (bytesLess_asymm h)
    · exact .inl (by simp [r, h, bytesLess_irrefl])
    · exact .inr (bytesLess_asymm h)⟩
  have : IsTrans α r := ⟨fun a b c hab hbc => by
    simp only [r] at hab hbc ⊢
    cases hca : bytesLess (key c) (key a)
    · rfl
    · rcases bytesLess_trichotomy (key a) (key b) with h | h | h
      · simp [bytesLess_trans hca h] at hbc
      · simp [← h, hca] at hbc
      · simp [h] at hab⟩
  exact List.sorted_insertionSort r l

/-- **`sort.Slice` by bytes is deterministic.** Sorting by the bytes of an injective key gives
one list for all orders of the same elements. -/
theorem sortSlice_eq_of_perm {α : Type} {key : α → List UInt8} (hkey : Function.Injective key)
    {l l' : List α} (h : l.Perm l') :
    sortSlice (fun a b => bytesLess (key a) (key b)) l =
      sortSlice (fun a b => bytesLess (key a) (key b)) l' := by
  let r : α → α → Prop := fun a b => bytesLess (key b) (key a) = false
  have : IsAntisymm α r := ⟨fun a b hab hba => by
    rcases bytesLess_trichotomy (key a) (key b) with h | h | h
    · simp [r, h] at hba
    · exact hkey h
    · simp [r, h] at hab⟩
  exact List.eq_of_perm_of_sorted
    ((sortSlice_perm _ l).trans (h.trans (sortSlice_perm _ l').symm))
    (sortSlice_sorted key l) (sortSlice_sorted key l')


/-! ## `HashComponents` -/

section Digest

-- `sha1.New()`, written to with the given bytes, then `Sum(nil)`.
variable (sha1 : List UInt8 → ContentAddress)

/-- `HashComponents`: sort the component ids by their bytes, then digest the component
hashes in that order. Only the hashes are written, not the ids. -/
def hashComponents (components : AList fun _ : ComponentID => ComponentHash) : ForestHash :=
  let refs := sortSlice (fun a b : ComponentID => bytesLess a.bytes b.bytes) components.keys
  ⟨sha1 (refs.flatMap fun ref => ((components.lookup ref).getD default).bytes)⟩

end Digest

end DigitalTwin
