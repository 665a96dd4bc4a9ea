/-
Go types and values as `reflect` shows them to the reflective content address.

A type is a basic kind, a composite built from types, or a defined (named) type, which an
environment `Env` resolves to its underlying type and its methods. Only the two methods the
code asks for are kept, `ContentAddress(hash.Hash) error` and `MarshalBinary() ([]byte,
error)`, each as the bytes it produces or the error it returns. Go puts a method declared on
`T` in the method sets of both `T` and `*T`, and one declared on `*T` in that of `*T` only;
`TypeDef` keeps the two declarations apart. The underlying type of a defined type is never
itself a name, as in Go.

A value is read against its type: `int` and `int8` to `int64` carry an `Int`, the unsigned
kinds a `Nat`, floats their IEEE bit pattern, a struct its field values in declaration
order, an interface its dynamic type and value or nothing, a pointer its target or nothing.

`reflect.VisibleFields` is modelled as Go implements it: a depth-first walk over the struct
and, through embedded fields, over the structs they embed, in which a name at a shallower
depth hides the same name deeper down and two at one depth hide each other. A Go type may
refer to itself through a pointer, so walks over types take fuel.
-/
import DigitalTwin.ContentAddress

set_option autoImplicit false

namespace DigitalTwin

/-- A Go type. A struct field is its name, whether it is embedded, and its type. The kinds
the reflective path rejects outright (maps, channels, functions, complex numbers, `uintptr`,
`unsafe.Pointer`) are kept by their `Kind` name. -/
inductive GoType
  | bool | int | int8 | int16 | int32 | int64
  | uint | uint8 | uint16 | uint32 | uint64
  | float32 | float64 | string
  | array (len : Nat) (elem : GoType)
  | slice (elem : GoType)
  | ptr (elem : GoType)
  | iface
  | struct (fields : List (String × Bool × GoType))
  | named (pkgPath name : String)
  | unsupported (kind : String)

/-- A Go value, read against its type. -/
inductive GoValue
  | bool (b : Bool)
  | int (i : Int)
  | uint (n : Nat)
  | float (bits : Nat)
  | string (s : String)
  | elems (vs : List GoValue)
  | ptr (target : Option GoValue)
  | iface (dynamic : Option (GoType × GoValue))
  | struct (fields : List GoValue)
  | unsupported

/-- The methods the reflective path looks for, as declared on one receiver: the bytes each
produces for the receiver, or its error. -/
structure Methods where
  contentAddress : Option (GoValue → Except String (List UInt8))
  marshalBinary : Option (GoValue → Except String (List UInt8))

/-- No methods. -/
def Methods.none : Methods := ⟨Option.none, Option.none⟩

/-- A defined type: its underlying type, and the methods declared on `T` and on `*T`. -/
structure TypeDef where
  underlying : GoType
  valueMethods : Methods
  pointerMethods : Methods

/-- The defined types in scope, by package path and name. -/
abbrev Env := List ((String × String) × TypeDef)

/-- `[]byte(s)`: the UTF-8 bytes of a string. -/
def stringBytes (s : String) : List UInt8 := s.data.flatMap String.utf8EncodeChar

/-! ### UTF-8 is a prefix code

Go compares field names by their bytes, so that two names sort apart needs two names to have
different bytes: `stringBytes_injective`. Each byte of `String.utf8EncodeChar` is read as a
number (`utf8Bytes`), the lead byte fixes the length, and the code point comes back from the
bytes. -/

/-- A byte with its low `k` bits from `x` and the bits above them set to `c`, as UTF-8 lays out
its lead and continuation bytes. -/
theorem toNat_and_or (x : UInt8) (k c : Nat) :
    (x.toNat &&& 2 ^ k - 1 ||| 2 ^ k * c) = 2 ^ k * c + x.toNat % 2 ^ k := by
  rw [Nat.and_pow_two_sub_one_eq_mod, Nat.or_comm,
    ← Nat.mul_add_lt_is_or (Nat.mod_lt _ (Nat.two_pow_pos k))]

theorem toNat_utf8Tail (x : UInt8) : (x &&& 0x3f ||| 0x80).toNat = 128 + x.toNat % 64 :=
  toNat_and_or x 6 2
theorem toNat_utf8Lead2 (x : UInt8) : (x &&& 0x1f ||| 0xc0).toNat = 192 + x.toNat % 32 :=
  toNat_and_or x 5 6
theorem toNat_utf8Lead3 (x : UInt8) : (x &&& 0x0f ||| 0xe0).toNat = 224 + x.toNat % 16 :=
  toNat_and_or x 4 14
theorem toNat_utf8Lead4 (x : UInt8) : (x &&& 0x07 ||| 0xf0).toNat = 240 + x.toNat % 8 :=
  toNat_and_or x 3 30

theorem toNat_shiftRight_toUInt8 (v : UInt32) (k : Nat) (hk : k < 32) :
    (v >>> k.toUInt32).toUInt8.toNat = v.toNat / 2 ^ k % 256 := by
  show (v.toBitVec >>> (k.toUInt32 % 32).toBitVec).toNat % 256 = _
  rw [BitVec.ushiftRight_eq', BitVec.toNat_ushiftRight, Nat.shiftRight_eq_div_pow]
  congr
  show k % 2 ^ 32 % 32 = k
  omega

/-- The bytes `String.utf8EncodeChar` writes for a code point, as numbers. -/
def utf8Bytes (v : Nat) : List Nat :=
  if v ≤ 0x7f then [v]
  else if v ≤ 0x7ff then [192 + v / 64 % 32, 128 + v % 64]
  else if v ≤ 0xffff then [224 + v / 4096 % 16, 128 + v / 64 % 64, 128 + v % 64]
  else [240 + v / 262144 % 8, 128 + v / 4096 % 64, 128 + v / 64 % 64, 128 + v % 64]

theorem map_toNat_utf8EncodeChar (c : Char) :
    (String.utf8EncodeChar c).map UInt8.toNat = utf8Bytes c.val.toNat := by
  have h6 : (c.val >>> 6).toUInt8.toNat = c.val.toNat / 64 % 256 :=
    toNat_shiftRight_toUInt8 c.val 6 (by decide)
  have h12 : (c.val >>> 12).toUInt8.toNat = c.val.toNat / 4096 % 256 :=
    toNat_shiftRight_toUInt8 c.val 12 (by decide)
  have h18 : (c.val >>> 18).toUInt8.toNat = c.val.toNat / 262144 % 256 :=
    toNat_shiftRight_toUInt8 c.val 18 (by decide)
  have hlow : c.val.toUInt8.toNat = c.val.toNat % 256 := rfl
  have e₁ : (c.val ≤ 0x7f) = (c.val.toNat ≤ 0x7f) := rfl
  have e₂ : (c.val ≤ 0x7ff) = (c.val.toNat ≤ 0x7ff) := rfl
  have e₃ : (c.val ≤ 0xffff) = (c.val.toNat ≤ 0xffff) := rfl
  unfold String.utf8EncodeChar utf8Bytes
  simp only [e₁, e₂, e₃]
  split_ifs <;> simp only [List.map_cons, List.map_nil, toNat_utf8Tail, toNat_utf8Lead2,
    toNat_utf8Lead3, toNat_utf8Lead4, h6, h12, h18, hlow, List.cons.injEq, and_true] <;> omega

theorem utf8Bytes_ne_nil (v : Nat) : utf8Bytes v ≠ [] := by
  unfold utf8Bytes; split_ifs <;> simp

theorem utf8Bytes_inj {v v' : Nat} (hv : v < 0x110000) (hv' : v' < 0x110000)
    (h : utf8Bytes v = utf8Bytes v') : v = v' := by
  unfold utf8Bytes at h
  split_ifs at h <;> simp only [List.cons.injEq, and_true, reduceCtorEq] at h <;> omega

/-- The lead byte tells how many bytes encode the code point. -/
theorem utf8Bytes_length_eq {v v' : Nat} (h : (utf8Bytes v).head? = (utf8Bytes v').head?) :
    (utf8Bytes v).length = (utf8Bytes v').length := by
  unfold utf8Bytes at h ⊢
  split_ifs at h ⊢ <;> simp only [List.head?_cons, Option.some.injEq, List.length_cons] at h ⊢ <;> omega

theorem utf8Bytes_append_inj {v v' : Nat} (hv : v < 0x110000) (hv' : v' < 0x110000)
    {r r' : List Nat} (h : utf8Bytes v ++ r = utf8Bytes v' ++ r') : v = v' ∧ r = r' := by
  have hlen : (utf8Bytes v).length = (utf8Bytes v').length := utf8Bytes_length_eq (by
    rw [← List.head?_append_of_ne_nil _ (utf8Bytes_ne_nil v), h,
      List.head?_append_of_ne_nil _ (utf8Bytes_ne_nil v')])
  obtain ⟨h₁, h₂⟩ := List.append_inj h hlen
  exact ⟨utf8Bytes_inj hv hv' h₁, h₂⟩

/-- A character's code point is below `0x110000`. -/
theorem val_toNat_lt (c : Char) : c.val.toNat < 0x110000 := by
  have := c.valid
  simp only [UInt32.isValidChar, Nat.isValidChar] at this
  omega

/-- **UTF-8 is a prefix code**: the bytes of a character and what follows determine both. -/
theorem utf8EncodeChar_append_inj {c c' : Char} {r r' : List UInt8}
    (h : String.utf8EncodeChar c ++ r = String.utf8EncodeChar c' ++ r') : c = c' ∧ r = r' := by
  have := congrArg (List.map UInt8.toNat) h
  simp only [List.map_append, map_toNat_utf8EncodeChar] at this
  obtain ⟨hv, hr⟩ := utf8Bytes_append_inj (val_toNat_lt c) (val_toNat_lt c') this
  exact ⟨Char.ext (UInt32.toNat.inj hv),
    List.map_injective_iff.2 (fun _ _ => UInt8.toNat.inj) hr⟩

/-- **Distinct strings have distinct bytes.** -/
theorem utf8EncodeChar_ne_nil (c : Char) : String.utf8EncodeChar c ≠ [] :=
  List.ne_nil_of_length_pos (by rw [String.length_utf8EncodeChar]; exact Char.utf8Size_pos c)

theorem stringBytes_injective : Function.Injective stringBytes := by
  intro s s' h
  suffices ∀ l l' : List Char, l.flatMap String.utf8EncodeChar = l'.flatMap String.utf8EncodeChar →
      l = l' from String.ext (this _ _ h)
  intro l
  induction l with
  | nil =>
    rintro (_ | ⟨c, l'⟩) h
    · rfl
    · exact absurd (List.append_eq_nil.1 h.symm).1 (utf8EncodeChar_ne_nil c)
  | cons c l ih =>
    rintro (_ | ⟨c', l'⟩) h
    · exact absurd (List.append_eq_nil.1 h).1 (utf8EncodeChar_ne_nil c)
    · obtain ⟨rfl, hr⟩ := utf8EncodeChar_append_inj h
      rw [ih _ hr]

/-- The package path of `digitaltwin`, where `InformationElement` is declared. -/
def digitaltwinPkgPath : String := "github.com/go-digitaltwin/go-digitaltwin"

/-- The name a package declares in its package clause, which `Type.String()` prints before
a defined type's name. It is the last element of the import path, as Go packages name
themselves by convention, except for the root package of this module: its path ends in
`go-digitaltwin` and its clause reads `package digitaltwin`. -/
def packageName (path : String) : String :=
  if path == digitaltwinPkgPath then "digitaltwin"
  else String.mk (path.data.reverse.takeWhile (· != '/')).reverse

example : packageName digitaltwinPkgPath = "digitaltwin" ∧ packageName "time" = "time" ∧
    packageName "example.com/twin" = "twin" := by
  decide

namespace GoType

variable (env : Env)

/-- The underlying type: a name resolved through the environment. -/
def resolve : GoType → Option GoType
  | named p n => (env.lookup (p, n)).map (·.underlying)
  | t => some t

/-- `Type.Kind().String()`. -/
def kindName : GoType → String
  | bool => "bool" | int => "int" | int8 => "int8" | int16 => "int16" | int32 => "int32"
  | int64 => "int64" | uint => "uint" | uint8 => "uint8" | uint16 => "uint16"
  | uint32 => "uint32" | uint64 => "uint64" | float32 => "float32" | float64 => "float64"
  | string => "string" | array _ _ => "array" | slice _ => "slice" | ptr _ => "ptr"
  | iface => "interface" | struct _ => "struct" | named _ _ => "invalid"
  | unsupported k => k

/-- `Type.String()`, with a defined type written as its package's name and its own, and the
fields of a struct type elided. -/
def toString : GoType → String
  | array n e => s!"[{n}]" ++ e.toString
  | slice e => "[]" ++ e.toString
  | ptr e => "*" ++ e.toString
  | iface => "interface \x7b\x7d"
  | struct _ => "struct \x7b...\x7d"
  | named p n => packageName p ++ "." ++ n
  | t => t.kindName

/-- `Type.PkgPath()` and `Type.Name()`: set for a defined type, empty for any other. -/
def pkgPathName : GoType → String × String
  | named p n => (p, n)
  | _ => ("", "")

/-- The struct fields of a struct type or of a name for one. -/
def structFields (t : GoType) : Option (List (String × Bool × GoType)) :=
  match t.resolve env with
  | some (struct fs) => some fs
  | _ => none

end GoType
/-! ## Zero values and methods -/

/-- The zero value of a type, what `reflect.New(t).Elem()` holds. A struct type cannot hold
itself by value, so the recursion ends on every type Go accepts; fuel bounds it on the
others. -/
def zeroValue (env : Env) : Nat → GoType → Option GoValue
  | 0, _ => none
  | _ + 1, .bool => some (.bool false)
  | _ + 1, .int | _ + 1, .int8 | _ + 1, .int16 | _ + 1, .int32 | _ + 1, .int64 => some (.int 0)
  | _ + 1, .uint | _ + 1, .uint8 | _ + 1, .uint16 | _ + 1, .uint32 | _ + 1, .uint64 =>
    some (.uint 0)
  | _ + 1, .float32 | _ + 1, .float64 => some (.float 0)
  | _ + 1, .string => some (.string "")
  | fuel + 1, .array n e => (zeroValue env fuel e).map fun z => .elems (List.replicate n z)
  | _ + 1, .slice _ => some (.elems [])
  | _ + 1, .ptr _ => some (.ptr none)
  | _ + 1, .iface => some (.iface none)
  | fuel + 1, .struct fs => (fs.mapM fun f => zeroValue env fuel f.2.2).map .struct
  | fuel + 1, .named p n => (env.lookup (p, n)).bind fun d => zeroValue env fuel d.underlying
  | _ + 1, .unsupported _ => some .unsupported

/-- The outcome of calling one of the two methods on a value of some type: `none` when the
type's method set lacks it, else the bytes or the error. A method declared on `T` and
called through a nil `*T` dereferences nil and panics. -/
def callMethod (env : Env) (pick : Methods → Option (GoValue → Except String (List UInt8))) :
    GoType → GoValue → Option (Except Failure (List UInt8))
  | .named p n, v => (env.lookup (p, n)).bind fun d =>
    (pick d.valueMethods).map fun f => (f v).mapError .error
  | .ptr (.named p n), v => (env.lookup (p, n)).bind fun d =>
    match pick d.pointerMethods, pick d.valueMethods, v with
    | some f, _, v => some ((f v).mapError .error)
    | none, some f, .ptr (some w) => some ((f w).mapError .error)
    | none, some _, _ =>
      some (.error (.panic "runtime error: invalid memory address or nil pointer dereference"))
    | none, none, _ => none
  | _, _ => none

/-! ## `reflect.VisibleFields` -/

/-- A `reflect.StructField` as `VisibleFields` returns it: its name, its index path from the
outer struct, its type, and whether it is embedded. -/
structure VisibleField where
  name : String
  index : List Nat
  type : GoType
  anonymous : Bool

/-- `visibleFieldsWalker`: where each name was last recorded, and the fields so far, those
found hidden with their name blanked. -/
structure Walker where
  byName : List (String × Nat)
  fields : List VisibleField

/-- The walker meets a field: a field deeper than one of the same name already recorded is
dropped, a shallower one blanks the old one, and two at the same depth blank each other. -/
def Walker.record (w : Walker) (f : VisibleField) : Walker :=
  let blank (i : Nat) : List VisibleField := w.fields.modify (fun g => { g with name := "" }) i
  let add (fields : List VisibleField) : Walker :=
    ⟨(f.name, fields.length) :: w.byName, fields ++ [f]⟩
  match w.byName.lookup f.name with
  | none => add w.fields
  | some i =>
    match w.fields.get? i with
    | none => add w.fields
    | some old =>
      if f.index.length = old.index.length then { w with fields := blank i }
      else if f.index.length < old.index.length then add (blank i)
      else w

/-- `visibleFieldsWalker.walk`: record the fields of the struct type `t` at index path
`index`, and walk on into each embedded struct, or pointer to one, unless it is a defined
type already being walked. -/
def Walker.walk (env : Env) : Nat → List (String × String) → List Nat → GoType → Walker →
    Option Walker
  | 0, _, _, _, _ => none
  | fuel + 1, visiting, index, t, w =>
    let visiting := match t with
      | .named p n => (p, n) :: visiting
      | _ => visiting
    match t.structFields env with
    | none => some w
    | some fs => fs.enum.foldlM (fun w f =>
        let idx := index ++ [f.1]
        let w := w.record ⟨f.2.1, idx, f.2.2.2, f.2.2.1⟩
        let inner := match f.2.2.2 with
          | .ptr e => e
          | e => e
        let seen := match inner with
          | .named p n => (p, n) ∈ visiting
          | _ => false
        if f.2.2.1 && (inner.structFields env).isSome && !seen then
          Walker.walk env fuel visiting idx inner w
        else some w) w

/-- `reflect.VisibleFields`: the walk's fields, less the hidden ones. -/
def visibleFields (env : Env) (fuel : Nat) (t : GoType) : Option (List VisibleField) :=
  (Walker.walk env fuel [] [] t ⟨[], []⟩).map fun w => w.fields.filter (·.name != "")

/-- `Value.FieldByIndex`: follow an index path from a struct value, through embedded
pointers, which panic when nil. The result is the field's type and value. -/
def fieldByIndex (env : Env) : GoType → GoValue → List Nat → Except Failure (GoType × GoValue)
  | t, v, [] => .ok (t, v)
  | t, v, i :: rest =>
    let (t, v) := match t, v with
      | .ptr e, .ptr (some w) => (e, w)
      | t, v => (t, v)
    match t, v with
    | .ptr _, .ptr none =>
      .error (.panic "reflect: indirection through nil pointer to embedded struct")
    | t, .struct vs =>
      match (t.structFields env).bind (·.get? i), vs.get? i with
      | some f, some w => fieldByIndex env f.2.2 w rest
      | _, _ => .error (.panic "reflect: Field index out of range")
    | _, _ => .error (.panic "reflect: call of reflect.Value.Field on non-struct value")

end DigitalTwin
