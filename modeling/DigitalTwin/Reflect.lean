/-
`ContentAddress`: the content address of a node, from the bytes its type and value write
into a SHA-1 digest.

`newNodeHash` writes a type preamble, the type's package path and then its name. A node
that implements `ContentAddresser` writes the rest itself; any other goes through
`reflectiveContentAddress`, which visits the struct's visible fields sorted by name and, for
each exported one, writes its name and then its value: a nested struct by recursion, a
string as its bytes, `int` and `uint` as varints, the fixed-size kinds big-endian, and
slices and arrays of those one element after the other. Interfaces and pointers are
unpacked first, a nil pointer as the zero value of what it points to.

Nothing in that stream marks where a name, a value or an element ends
(`contentAddressInput_collides`), and neither does anything mark where the package path
ends and the name begins.

The result is `ExceptT Failure Option`: `none` when the recursion does not end (a Go stack
overflow), else the bytes, an error, or a panic. Fuel bounds the recursion, which follows
the nesting of struct values and of the zero values of nil pointers.
-/
import DigitalTwin.GoValue

set_option autoImplicit false

namespace DigitalTwin

/-! ## `encoding/binary` -/

/-- `binary.PutUvarint`: seven bits at a time, low bits first, the high bit set on every
byte but the last. A `uint64` takes at most ten bytes, which the count bounds. -/
def putUvarint : Nat → Nat → List UInt8
  | 0, x => [x.toUInt8]
  | k + 1, x => if x < 128 then [x.toUInt8] else (x % 128 + 128).toUInt8 :: putUvarint k (x / 128)

/-- The bytes of `binary.PutUvarint(buf, x)` for a `uint64`. -/
def uvarint (x : Nat) : List UInt8 := putUvarint 9 x

/-- The bytes of `binary.PutVarint(buf, x)`: zig-zag, then `PutUvarint`. -/
def varint (x : Int) : List UInt8 :=
  uvarint (if 0 ≤ x then 2 * x.toNat else 2 * (-x).toNat - 1)

/-- The `w` bytes of `n`, most significant first. -/
def bigEndian (w n : Nat) : List UInt8 := (List.range w).reverse.map fun j => (n / 256 ^ j).toUInt8

/-- `binary.Write(digest, binary.BigEndian, v)` for a value of a fixed-size kind: booleans
as one byte, integers in two's complement at their width, floats as their bits. -/
def fixedBytes : GoType → GoValue → Option (List UInt8)
  | .bool, .bool b => some [if b then 1 else 0]
  | .int8, .int i => some (bigEndian 1 (i % 2 ^ 8).toNat)
  | .int16, .int i => some (bigEndian 2 (i % 2 ^ 16).toNat)
  | .int32, .int i => some (bigEndian 4 (i % 2 ^ 32).toNat)
  | .int64, .int i => some (bigEndian 8 (i % 2 ^ 64).toNat)
  | .uint8, .uint n => some (bigEndian 1 n)
  | .uint16, .uint n => some (bigEndian 2 n)
  | .uint32, .uint n => some (bigEndian 4 n)
  | .uint64, .uint n => some (bigEndian 8 n)
  | .float32, .float b => some (bigEndian 4 b)
  | .float64, .float b => some (bigEndian 8 b)
  | _, _ => none

/-- The bytes of a string, an `int`, a `uint` or a fixed-size value: what the code writes for
such a field, and for each element of a slice or an array of such; `none` for any other
kind. -/
def scalarBytes : GoType → GoValue → Option (List UInt8)
  | .int, .int i => some (varint i)
  | .uint, .uint n => some (uvarint n)
  | .string, .string s => some (stringBytes s)
  | e, v => fixedBytes e v

/-- The element kinds of the fast paths for arrays and slices: `int`, `uint`, `string` and the
fixed-size kinds. -/
def GoType.isScalar : GoType → Bool
  | .int | .uint | .string | .bool | .int8 | .int16 | .int32 | .int64
  | .uint8 | .uint16 | .uint32 | .uint64 | .float32 | .float64 => true
  | _ => false

/-- What the code writes for the elements of an array or a slice of the element kind `re`:
each element's bytes in turn, for a kind of a fast path; `none` for any other kind, however
many elements there are, since the code switches on the element kind before it looks at
them. -/
def elemsBytes (re : GoType) (vs : List GoValue) : Option (List UInt8) :=
  if re.isScalar then (vs.mapM (scalarBytes re)).map List.flatten else none

example : elemsBytes (.slice .int) [] = none ∧ elemsBytes .int [] = some [] := ⟨rfl, rfl⟩

/-! ## `reflectiveContentAddress` -/

/-- The recursion did not end. -/
def diverge {α : Type} : ExceptT Failure Option α := ExceptT.lift none

/-- The upper-case letters of Unicode, category `Lu`, the table `unicode.Upper`: triples
`(lo, hi, stride)`, each the code points from `lo` to `hi` in steps of `stride`. -/
def upperRanges : List (Nat × Nat × Nat) :=
  [(0x41, 0x5A, 1), (0xC0, 0xD6, 1), (0xD8, 0xDE, 1), (0x100, 0x136, 2), (0x139, 0x147, 2),
   (0x14A, 0x178, 2), (0x179, 0x17D, 2), (0x181, 0x182, 1), (0x184, 0x186, 2), (0x187, 0x189, 2),
   (0x18A, 0x18B, 1), (0x18E, 0x191, 1), (0x193, 0x194, 1), (0x196, 0x198, 1), (0x19C, 0x19D, 1),
   (0x19F, 0x1A0, 1), (0x1A2, 0x1A6, 2), (0x1A7, 0x1A9, 2), (0x1AC, 0x1AE, 2), (0x1AF, 0x1B1, 2),
   (0x1B2, 0x1B3, 1), (0x1B5, 0x1B7, 2), (0x1B8, 0x1BC, 4), (0x1C4, 0x1CD, 3), (0x1CF, 0x1DB, 2),
   (0x1DE, 0x1EE, 2), (0x1F1, 0x1F4, 3), (0x1F6, 0x1F8, 1), (0x1FA, 0x232, 2), (0x23A, 0x23B, 1),
   (0x23D, 0x23E, 1), (0x241, 0x243, 2), (0x244, 0x246, 1), (0x248, 0x24E, 2), (0x370, 0x372, 2),
   (0x376, 0x37F, 9), (0x386, 0x388, 2), (0x389, 0x38A, 1), (0x38C, 0x38E, 2), (0x38F, 0x391, 2),
   (0x392, 0x3A1, 1), (0x3A3, 0x3AB, 1), (0x3CF, 0x3D2, 3), (0x3D3, 0x3D4, 1), (0x3D8, 0x3EE, 2),
   (0x3F4, 0x3F7, 3), (0x3F9, 0x3FA, 1), (0x3FD, 0x42F, 1), (0x460, 0x480, 2), (0x48A, 0x4C0, 2),
   (0x4C1, 0x4CD, 2), (0x4D0, 0x52E, 2), (0x531, 0x556, 1), (0x10A0, 0x10C5, 1),
   (0x10C7, 0x10CD, 6), (0x13A0, 0x13F5, 1), (0x1C90, 0x1CBA, 1), (0x1CBD, 0x1CBF, 1),
   (0x1E00, 0x1E94, 2), (0x1E9E, 0x1EFE, 2), (0x1F08, 0x1F0F, 1), (0x1F18, 0x1F1D, 1),
   (0x1F28, 0x1F2F, 1), (0x1F38, 0x1F3F, 1), (0x1F48, 0x1F4D, 1), (0x1F59, 0x1F5F, 2),
   (0x1F68, 0x1F6F, 1), (0x1FB8, 0x1FBB, 1), (0x1FC8, 0x1FCB, 1), (0x1FD8, 0x1FDB, 1),
   (0x1FE8, 0x1FEC, 1), (0x1FF8, 0x1FFB, 1), (0x2102, 0x2107, 5), (0x210B, 0x210D, 1),
   (0x2110, 0x2112, 1), (0x2115, 0x2119, 4), (0x211A, 0x211D, 1), (0x2124, 0x212A, 2),
   (0x212B, 0x212D, 1), (0x2130, 0x2133, 1), (0x213E, 0x213F, 1), (0x2145, 0x2183, 62),
   (0x2C00, 0x2C2F, 1), (0x2C60, 0x2C62, 2), (0x2C63, 0x2C64, 1), (0x2C67, 0x2C6D, 2),
   (0x2C6E, 0x2C70, 1), (0x2C72, 0x2C75, 3), (0x2C7E, 0x2C80, 1), (0x2C82, 0x2CE2, 2),
   (0x2CEB, 0x2CED, 2), (0x2CF2, 0xA640, 31054), (0xA642, 0xA66C, 2), (0xA680, 0xA69A, 2),
   (0xA722, 0xA72E, 2), (0xA732, 0xA76E, 2), (0xA779, 0xA77D, 2), (0xA77E, 0xA786, 2),
   (0xA78B, 0xA78D, 2), (0xA790, 0xA792, 2), (0xA796, 0xA7AA, 2), (0xA7AB, 0xA7AE, 1),
   (0xA7B0, 0xA7B4, 1), (0xA7B6, 0xA7C4, 2), (0xA7C5, 0xA7C7, 1), (0xA7C9, 0xA7D0, 7),
   (0xA7D6, 0xA7D8, 2), (0xA7F5, 0xFF21, 22316), (0xFF22, 0xFF3A, 1), (0x10400, 0x10427, 1),
   (0x104B0, 0x104D3, 1), (0x10570, 0x1057A, 1), (0x1057C, 0x1058A, 1), (0x1058C, 0x10592, 1),
   (0x10594, 0x10595, 1), (0x10C80, 0x10CB2, 1), (0x118A0, 0x118BF, 1), (0x16E40, 0x16E5F, 1),
   (0x1D400, 0x1D419, 1), (0x1D434, 0x1D44D, 1), (0x1D468, 0x1D481, 1), (0x1D49C, 0x1D49E, 2),
   (0x1D49F, 0x1D4A5, 3), (0x1D4A6, 0x1D4A9, 3), (0x1D4AA, 0x1D4AC, 1), (0x1D4AE, 0x1D4B5, 1),
   (0x1D4D0, 0x1D4E9, 1), (0x1D504, 0x1D505, 1), (0x1D507, 0x1D50A, 1), (0x1D50D, 0x1D514, 1),
   (0x1D516, 0x1D51C, 1), (0x1D538, 0x1D539, 1), (0x1D53B, 0x1D53E, 1), (0x1D540, 0x1D544, 1),
   (0x1D546, 0x1D54A, 4), (0x1D54B, 0x1D550, 1), (0x1D56C, 0x1D585, 1), (0x1D5A0, 0x1D5B9, 1),
   (0x1D5D4, 0x1D5ED, 1), (0x1D608, 0x1D621, 1), (0x1D63C, 0x1D655, 1), (0x1D670, 0x1D689, 1),
   (0x1D6A8, 0x1D6C0, 1), (0x1D6E2, 0x1D6FA, 1), (0x1D71C, 0x1D734, 1), (0x1D756, 0x1D76E, 1),
   (0x1D790, 0x1D7A8, 1), (0x1D7CA, 0x1E900, 4406), (0x1E901, 0x1E921, 1)]

/-- `unicode.IsUpper`: the code point is an upper-case letter. -/
def unicodeIsUpper (c : Char) : Bool :=
  upperRanges.any fun r => r.1 ≤ c.toNat && c.toNat ≤ r.2.1 && (c.toNat - r.1) % r.2.2 == 0

/-- `field.IsExported()`, which is `token.IsExported` of the name: its first rune is an
upper-case letter. The first rune of an empty name is `utf8.RuneError`, which is not. -/
def isExported (name : String) : Bool :=
  match name.data with
  | [] => false
  | c :: _ => unicodeIsUpper c

example : isExported "Énergie" = true ∧ isExported "Σ" = true ∧ isExported "élan" = false ∧
    isExported "_X" = false ∧ isExported "" = false := by
  decide

/-- The embedded `InformationElement` the code skips. -/
def isInformationElement (f : VisibleField) : Bool :=
  f.name == "InformationElement" &&
    match f.type with
    | .named p n => p == digitaltwinPkgPath && n == "InformationElement"
    | _ => false

/-- `value.Interface()` for a type assertion: the dynamic type and value of an interface, or
`none` for a nil interface; any other value as it is. -/
def dynamic (env : Env) (t : GoType) (v : GoValue) : Option (GoType × GoValue) :=
  match t.resolve env, v with
  | some .iface, .iface d => d
  | _, _ => some (t, v)

/-- A step that cannot diverge. -/
def liftExcept {α : Type} (r : Except Failure α) : ExceptT Failure Option α := ExceptT.mk (some r)

/-- `fmt.Errorf(prefix + "%w", err)`: prefix a returned error, let a panic through. -/
def wrapError {α : Type} (pre : String) (x : ExceptT Failure Option α) : ExceptT Failure Option α :=
  ExceptT.mk ((ExceptT.run x).map fun
    | .error (.error e) => .error (.error (pre ++ e))
    | r => r)

/-- What the code writes for a field's value once interfaces and pointers are unpacked, by
its kind; `hashStruct` is the recursion into a nested struct. -/
def writeValue (env : Env) (hashStruct : GoType → GoValue → ExceptT Failure Option (List UInt8))
    (name : String) (t : GoType) (v : GoValue) : ExceptT Failure Option (List UInt8) :=
  match t.resolve env, v with
  | some (.struct _), v => wrapError ("struct field " ++ name ++ ": ") (hashStruct t v)
  | some (.array _ e), .elems vs | some (.slice e), .elems vs =>
    match (e.resolve env).bind fun re => elemsBytes re vs with
    | some bs => pure bs
    | none => throw (.error ("field " ++ name ++ ": unsupported slice of " ++ e.toString))
  | rt, v =>
    match rt.bind fun rt => scalarBytes rt v with
    | some bs => pure bs
    | none => throw (.error ("field " ++ name ++ ": unsupported " ++
        ((rt.map GoType.kindName).getD "invalid") ++ " " ++ t.toString))

/-- What the code writes for one exported field after its name: the field's own
`ContentAddress` or `MarshalBinary` output if its type has one, else its value, an interface
unpacked (or nothing when nil) and a pointer followed (or, when nil, replaced by the zero
value of what it points to). -/
def writeFieldValue (env : Env) (fuel : Nat)
    (hashStruct : GoType → GoValue → ExceptT Failure Option (List UInt8))
    (name : String) (t : GoType) (v : GoValue) : ExceptT Failure Option (List UInt8) :=
  let dyn := dynamic env t v
  match dyn.bind (fun d => callMethod env (·.contentAddress) d.1 d.2),
    dyn.bind (fun d => callMethod env (·.marshalBinary) d.1 d.2), dyn with
  | some r, _, _ => wrapError ("content-addresser field " ++ name ++ ": ") (liftExcept r)
  | none, some r, _ => wrapError ("binary field " ++ name ++ ": ") (liftExcept r)
  | none, none, none => pure []
  | none, none, some (t, v) =>
    match t.resolve env, v with
    | some (.ptr e), .ptr (some w) => writeValue env hashStruct name e w
    | some (.ptr e), .ptr none =>
      match zeroValue env fuel e with
      | some z => writeValue env hashStruct name e z
      | none => diverge
    | _, _ => writeValue env hashStruct name t v

/-- The loop body of `reflectiveContentAddress` for one visible field of the struct `v` of
type `t`: nothing if the field is unexported or the embedded `InformationElement`, else its
name and then its value. -/
def writeField (env : Env) (fuel : Nat)
    (hashStruct : GoType → GoValue → ExceptT Failure Option (List UInt8))
    (t : GoType) (v : GoValue) (f : VisibleField) : ExceptT Failure Option (List UInt8) :=
  if !isExported f.name || isInformationElement f then pure []
  else liftExcept (fieldByIndex env t v f.index) >>= fun p =>
    (stringBytes f.name ++ ·) <$> writeFieldValue env fuel hashStruct f.name p.1 p.2

/-- `reflectiveContentAddress`: panic unless the value is a struct; else write every visible
field, sorted by name, where Go's `<` on strings compares their bytes. -/
def reflectiveContentAddress (env : Env) : Nat → GoType → GoValue → ExceptT Failure Option (List UInt8)
  | 0, _, _ => diverge
  | fuel + 1, t, v =>
    match t.structFields env with
    | none => throw (.panic ("digitaltwin: reflection-based content-address supports only structs; got " ++
        (((t.resolve env).map GoType.kindName).getD "invalid")))
    | some _ =>
      match visibleFields env fuel t with
      | none => diverge
      | some fields =>
        (sortSlice (fun a b => bytesLess (stringBytes a.name) (stringBytes b.name)) fields).foldlM
          (fun acc f => (acc ++ ·) <$> writeField env fuel (reflectiveContentAddress env fuel) t v f) []

/-! ## `ContentAddress` -/

/-- The bytes `ContentAddress(node)` writes into its digest, for a node of dynamic type `t`:
`newNodeHash`'s type preamble, the package path then the name, followed by what the node's
own `ContentAddress` method writes, or else by the reflective stream. -/
def contentAddressInput (env : Env) (fuel : Nat) (t : GoType) (v : GoValue) :
    ExceptT Failure Option (List UInt8) :=
  (stringBytes t.pkgPathName.1 ++ stringBytes t.pkgPathName.2 ++ ·) <$>
    match callMethod env (·.contentAddress) t v with
    | some r => liftExcept r
    | none => reflectiveContentAddress env fuel t v

section Digest

variable (sha1 : List UInt8 → ContentAddress)

/-- `ContentAddress`: the digest of `contentAddressInput`. -/
def contentAddress (env : Env) (fuel : Nat) (t : GoType) (v : GoValue) :
    ExceptT Failure Option NodeHash :=
  (fun bs => ⟨sha1 bs⟩) <$> contentAddressInput env fuel t v

/-- `MustContentAddress`: `ContentAddress`, panicking on its error. -/
def mustContentAddress (env : Env) (fuel : Nat) (t : GoType) (v : GoValue) :
    ExceptT Failure Option NodeHash :=
  ExceptT.mk ((ExceptT.run (contentAddress sha1 env fuel t v)).map fun
    | .error (.error e) => .error (.panic ("digitaltwin: un-hashable node (type " ++ t.toString ++
        "): " ++ e))
    | r => r)

end Digest

/-- **The stream has no delimiters.** Two values of one struct type with two string fields,
differing in both: `A = "xB", B = ""` and `A = "x", B = "B"` both write `A x B B` after the
preamble, so they share a `NodeHash` whatever the digest. And two types whose package path
and name run together alike, `p/a` with `bT` and `p/ab` with `T`, holding equal fields:
both preambles read `p/abT`, and the two nodes write the same bytes. -/
theorem contentAddressInput_collides :
    let env : Env :=
      [(("p", "T"), ⟨.struct [("A", false, .string), ("B", false, .string)], .none, .none⟩),
        (("p/a", "bT"), ⟨.struct [("A", false, .string)], .none, .none⟩),
        (("p/ab", "T"), ⟨.struct [("A", false, .string)], .none, .none⟩)]
    let v₁ : GoValue := .struct [.string "xB", .string ""]
    let v₂ : GoValue := .struct [.string "x", .string "B"]
    (∃ bs, (contentAddressInput env 2 (.named "p" "T") v₁).run = some (.ok bs) ∧
      (contentAddressInput env 2 (.named "p" "T") v₂).run = some (.ok bs)) ∧
    (∀ sha1 : List UInt8 → ContentAddress,
      (contentAddress sha1 env 2 (.named "p" "T") v₁).run =
        (contentAddress sha1 env 2 (.named "p" "T") v₂).run) ∧
    ∃ bs, (contentAddressInput env 2 (.named "p/a" "bT") (.struct [.string "v"])).run =
        some (.ok bs) ∧
      (contentAddressInput env 2 (.named "p/ab" "T") (.struct [.string "v"])).run = some (.ok bs) :=
  ⟨⟨_, rfl, rfl⟩, fun _ => rfl, _, rfl, rfl⟩

/-- `bigEndian w n` writes `w` bytes. -/
@[simp] theorem length_bigEndian (w n : Nat) : (bigEndian w n).length = w := by
  simp [bigEndian]

/-- **Widening an integer field changes the address.** A struct `p.T` whose exported field
`V` is an `int32`, and the same type after `V` became an `int64`: for every value of `V`,
the second stream is four bytes longer, so no value keeps its address input. The
`ContentAddress` documentation names this very change, `int32` to `int64`, as one that
should leave the address alone. -/
theorem contentAddressInput_int32_to_int64 (i : Int) :
    let env₁ : Env := [(("p", "T"), ⟨.struct [("V", false, .int32)], .none, .none⟩)]
    let env₂ : Env := [(("p", "T"), ⟨.struct [("V", false, .int64)], .none, .none⟩)]
    ∃ bs₁ bs₂, (contentAddressInput env₁ 2 (.named "p" "T") (.struct [.int i])).run =
        some (.ok bs₁) ∧
      (contentAddressInput env₂ 2 (.named "p" "T") (.struct [.int i])).run = some (.ok bs₂) ∧
      bs₂.length = bs₁.length + 4 := by
  refine ⟨_, _, rfl, rfl, ?_⟩
  simp only [List.length_append, length_bigEndian, List.length_nil]
  omega

/-! ## Nodes the reflective path cannot hash

Three `Value` types in one package `p`, each embedding `InformationElement`: `List`, a cell
that reaches its own type through the pointer `Next`; `Outer`, which embeds a pointer to
`Inner`; and `Inner` with one `int` field `X`. -/

/-- The `InformationElement` struct type every `Value` embeds. -/
def informationElementType : GoType := .named digitaltwinPkgPath "InformationElement"

/-- `type List struct { InformationElement; Next *List }`,
`type Outer struct { InformationElement; *Inner }` and `type Inner struct { X int }`. -/
def unhashableEnv : Env :=
  [(("p", "List"), ⟨.struct [("InformationElement", true, informationElementType),
      ("Next", false, .ptr (.named "p" "List"))], .none, .none⟩),
    (("p", "Outer"), ⟨.struct [("InformationElement", true, informationElementType),
      ("Inner", true, .ptr (.named "p" "Inner"))], .none, .none⟩),
    (("p", "Inner"), ⟨.struct [("X", false, .int)], .none, .none⟩),
    ((digitaltwinPkgPath, "InformationElement"), ⟨.struct [], .none, .none⟩)]

/-- The zero value of `List` and of `Outer`: an empty `InformationElement` and a nil
pointer. -/
def nilCell : GoValue := .struct [.struct [], .ptr none]

/-- One call on a `List` cell, unrolled: the walk finds `InformationElement` and `Next`,
already in name order. -/
theorem reflectiveContentAddress_list (n : Nat) :
    reflectiveContentAddress unhashableEnv (n + 5) (.named "p" "List") nilCell =
      [⟨"InformationElement", [0], informationElementType, true⟩,
        ⟨"Next", [1], .ptr (.named "p" "List"), false⟩].foldlM
        (fun acc f => (acc ++ ·) <$> writeField unhashableEnv (n + 4)
          (reflectiveContentAddress unhashableEnv (n + 4)) (.named "p" "List") nilCell f) [] :=
  rfl

/-- The embedded `InformationElement` writes nothing. -/
theorem writeField_list_informationElement (n : Nat) :
    writeField unhashableEnv (n + 4) (reflectiveContentAddress unhashableEnv (n + 4))
      (.named "p" "List") nilCell ⟨"InformationElement", [0], informationElementType, true⟩ =
      pure [] :=
  rfl

/-- The nil `Next` is replaced by a zero `List`, which is the cell itself: the call recurses
on the same value with one less fuel. -/
theorem writeField_list_next (n : Nat) :
    writeField unhashableEnv (n + 4) (reflectiveContentAddress unhashableEnv (n + 4))
      (.named "p" "List") nilCell ⟨"Next", [1], .ptr (.named "p" "List"), false⟩ =
      (stringBytes "Next" ++ ·) <$> wrapError "struct field Next: "
        (reflectiveContentAddress unhashableEnv (n + 4) (.named "p" "List") nilCell) :=
  rfl

/-- The reflective path on a nil-terminated `List` cell never returns, whatever the fuel. -/
theorem reflectiveContentAddress_list_diverges (fuel : Nat) :
    (reflectiveContentAddress unhashableEnv fuel (.named "p" "List") nilCell).run = none := by
  induction fuel using Nat.strong_induction_on with
  | _ fuel ih =>
    match fuel, ih with
    | 0, _ | 1, _ | 2, _ | 3, _ | 4, _ => rfl
    | n + 5, ih =>
      rw [reflectiveContentAddress_list]
      simp [List.foldlM, writeField_list_informationElement, writeField_list_next, wrapError,
        ih (n + 4) (by omega)]

/-- **`ContentAddress` panics, and recurses forever.** For every digest: a pointer `*List`
is a `Value` (its method set holds the promoted `digitaltwin()`), and the reflective path
panics on its kind; the zero `Outer` panics in `FieldByIndex` on the promoted field `X`
behind the nil embedded `*Inner`; and the zero `List` never returns, at any fuel, since each
nil `Next` is hashed as a zero `List` holding another nil `Next`. -/
theorem contentAddress_panics_or_never_returns (sha1 : List UInt8 → ContentAddress) :
    (∀ fuel, (contentAddress sha1 unhashableEnv (fuel + 1) (.ptr (.named "p" "List"))
        (.ptr (some nilCell))).run = some (.error (.panic
          "digitaltwin: reflection-based content-address supports only structs; got ptr"))) ∧
    (∀ fuel, (contentAddress sha1 unhashableEnv (fuel + 4) (.named "p" "Outer") nilCell).run =
      some (.error (.panic "reflect: indirection through nil pointer to embedded struct"))) ∧
    ∀ fuel, (contentAddress sha1 unhashableEnv fuel (.named "p" "List") nilCell).run = none :=
  ⟨fun _ => rfl, fun _ => rfl, fun fuel => by
    have hm : callMethod unhashableEnv (·.contentAddress) (.named "p" "List") nilCell = none :=
      rfl
    simp [contentAddress, contentAddressInput, hm, reflectiveContentAddress_list_diverges]⟩

end DigitalTwin
