/-
`contentAddress.MarshalText` and `contentAddress.UnmarshalText` (`contentaddress.go`), the text
form every hash type is stored and sent in, with `hex.Encode` and `hex.Decode` from
`encoding/hex` as Go implements them.

`UnmarshalText` decodes straight into the receiver's twenty bytes: `hex.Decode(h[:], text)`
writes one byte per pair of digits and checks neither the length of `text` nor the room left
in `h`. A text of at least forty-two digits therefore reaches `dst[20]` and panics on the
index (`unmarshalText_panics_iff`); `newRawNode` passes a stored `_contentAddress` string to
it unchecked.

Below the faithful loop (`decodeLoop`) sits what a hex string means (`decodeHex`): its pairs
of digits as bytes, when it is all digits and of even length. The loop refines it on every
input that does not panic (`decodeLoop_eq_ok_none`), and the round trips are stated over it.
-/
import DigitalTwin.ContentAddress

set_option autoImplicit false

namespace DigitalTwin

/-! ## Hex digits -/

/-- `hextable[n]` for `n < 16`, from `"0123456789abcdef"`. -/
def hexDigit (n : UInt8) : UInt8 := if n < 10 then 48 + n else 87 + n

/-- `reverseHexTable[c]` when it is at most `0x0f`: the value of a hex digit, either case. -/
def fromHexChar (c : UInt8) : Option UInt8 :=
  if 48 ≤ c ∧ c ≤ 57 then some (c - 48)
  else if 97 ≤ c ∧ c ≤ 102 then some (c - 87)
  else if 65 ≤ c ∧ c ≤ 70 then some (c - 55)
  else none

/-- Whether `c` is a hex digit. -/
def isHexDigit (c : UInt8) : Bool := (fromHexChar c).isSome

/-- A hex digit in lower case: `A` to `F` become `a` to `f`. -/
def lowerHex (c : UInt8) : UInt8 := if 65 ≤ c ∧ c ≤ 70 then c + 32 else c

/-- `hex.Encode` of one byte: its high digit, then its low digit. -/
def encodeByte (b : UInt8) : List UInt8 := [hexDigit (b >>> 4), hexDigit (b &&& 0x0f)]

/-- `(a << 4) | b`: the byte `hex.Decode` writes for the digit values `a` and `b`. -/
def pairByte (a b : UInt8) : UInt8 := (a <<< 4) ||| b

/-! ## `hex.Decode` -/

/-- `hex.InvalidByteError` and `hex.ErrLength`. -/
inductive HexError
  | invalidByte (b : UInt8)
  | length

/-- The upper-case hex digit of `n < 16`, as `%U` writes it. -/
def upperHexDigit (n : Nat) : Char := Char.ofNat (if n < 10 then 48 + n else 55 + n)

/-- `strconv.IsPrint` on the runes `U+0000` to `U+00FF`: the ASCII graphic characters and
space, and Latin-1 from `U+00A1` on except the soft hyphen `U+00AD`. -/
def isPrintLatin1 (b : UInt8) : Bool := (32 ≤ b && b ≤ 126) || (161 ≤ b && b != 173)

/-- `err.Error()`. An invalid byte is written `%#U`: `U+` and four upper-case digits, then
the character in quotes if it is printable. -/
def HexError.message : HexError → String
  | .invalidByte b => "encoding/hex: invalid byte: U+00" ++
      String.mk [upperHexDigit (b.toNat / 16), upperHexDigit (b.toNat % 16)] ++
      if isPrintLatin1 b then " \x27" ++ String.singleton (Char.ofNat b.toNat) ++ "\x27" else ""
  | .length => "encoding/hex: odd length hex string"

/-- `h[i] = b` on a content address. -/
def ContentAddress.set (h : ContentAddress) (i : Nat) (b : UInt8) : ContentAddress :=
  ⟨h.bytes.set i b, by simp [h.size_eq]⟩

@[simp] theorem ContentAddress.set_bytes (h : ContentAddress) (i : Nat) (b : UInt8) :
    (h.set i b).bytes = h.bytes.set i b := rfl

/-- The loop of `hex.Decode(h[:], src)`, from output byte `i`: each pair of digits is written
into byte `i`; a byte that is not a digit stops the loop with `InvalidByteError`, and after
the loop a lone last digit gives `ErrLength` (a non-digit there `InvalidByteError`). A pair
read when `i` is already past the twenty bytes panics on the index. The result is the
address after the writes, the count `i` reached and the error. -/
def decodeLoop : ContentAddress → Nat → List UInt8 →
    Except Failure (ContentAddress × Nat × Option HexError)
  | dst, i, p :: q :: rest =>
    match fromHexChar p, fromHexChar q with
    | none, _ => .ok (dst, i, some (.invalidByte p))
    | some _, none => .ok (dst, i, some (.invalidByte q))
    | some a, some b =>
      if i < 20 then decodeLoop (dst.set i (pairByte a b)) (i + 1) rest
      else .error (.panic ("runtime error: index out of range [" ++ toString i ++
        "] with length 20"))
  | dst, i, [p] => .ok (dst, i, some (if isHexDigit p then .length else .invalidByte p))
  | dst, i, [] => .ok (dst, i, none)

/-- `hex.EncodedLen(20)` bytes from `hex.Encode`: `MarshalText`, which never fails. -/
def marshalText (h : ContentAddress) : List UInt8 := h.bytes.flatMap encodeByte

/-- `UnmarshalText`: decode into the receiver, then insist on exactly twenty bytes. The
result is the receiver after the call and the error returned, or the panic. -/
def unmarshalText (h : ContentAddress) (text : List UInt8) :
    Except Failure (ContentAddress × Option String) := do
  let (h, n, err) ← decodeLoop h 0 text
  match err with
  | some e => pure (h, some ("decode hex: " ++ e.message))
  | none => pure (h, if n ≠ 20 then some "not enough bytes: unexpected EOF" else none)

/-- `NodeHash.UnmarshalText`, through `(*contentAddress)(h)`. -/
def NodeHash.unmarshalText (h : NodeHash) (text : List UInt8) :
    Except Failure (NodeHash × Option String) :=
  (DigitalTwin.unmarshalText h.toContentAddress text).map fun r => (⟨r.1⟩, r.2)

/-- `string(h.MarshalText())`, and `contentAddress.String()`, which `hex.EncodeToString`
writes the same: the hex digits of a node hash. -/
def hexText (h : NodeHash) : String :=
  String.mk ((marshalText h.toContentAddress).map fun b => Char.ofNat b.toNat)

/-- `NodeHash.String()`: its hex digits in `node(...)`. -/
def nodeHashString (h : NodeHash) : String := "node(" ++ hexText h ++ ")"

/-! ## What a hex string denotes -/

/-- The bytes a hex string spells, pair by pair, if it is all digits and of even length. -/
def decodeHex : List UInt8 → Option (List UInt8)
  | p :: q :: rest => do
    let a ← fromHexChar p
    let b ← fromHexChar q
    (pairByte a b :: ·) <$> decodeHex rest
  | [_] => none
  | [] => some []

/-! ### Facts about single bytes

Each holds for all 256 values of a byte, which `decide` checks one by one. -/

/-- A byte's two digits read back as its two halves. -/
theorem fromHexChar_encodeByte : ∀ b : UInt8,
    fromHexChar (hexDigit (b >>> 4)) = some (b >>> 4) ∧
      fromHexChar (hexDigit (b &&& 0x0f)) = some (b &&& 0x0f) ∧
      pairByte (b >>> 4) (b &&& 0x0f) = b := by
  intro ⟨b⟩; revert b; decide

/-- A digit's value is below 16, and it is written back as the digit in lower case. -/
theorem hexDigit_of_fromHexChar : ∀ c a : UInt8, fromHexChar c = some a →
    a.toNat < 16 ∧ hexDigit a = lowerHex c := by
  intro ⟨c⟩; revert c; decide

/-- Two digit values make a byte whose halves are those values. -/
theorem pairByte_halves : ∀ x y : Fin 16,
    pairByte (UInt8.ofNat x) (UInt8.ofNat y) >>> 4 = UInt8.ofNat x ∧
      pairByte (UInt8.ofNat x) (UInt8.ofNat y) &&& 0x0f = UInt8.ofNat y := by
  decide

/-- A byte with `toNat` below 16 is the byte of that `Fin 16`. -/
theorem UInt8.ofNat_toNat_of_lt (a : UInt8) (h : a.toNat < 16) :
    UInt8.ofNat (⟨a.toNat, h⟩ : Fin 16) = a := by
  cases a; simp [UInt8.ofNat, UInt8.toNat, Fin.ofNat]

@[simp] theorem isHexDigit_eq (c : UInt8) : isHexDigit c = (fromHexChar c).isSome := rfl

/-- Encoding the byte of two digits gives the digits back, in lower case. -/
theorem encodeByte_pairByte {c d a b : UInt8} (ha : fromHexChar c = some a)
    (hb : fromHexChar d = some b) : encodeByte (pairByte a b) = [lowerHex c, lowerHex d] := by
  obtain ⟨ha16, hca⟩ := hexDigit_of_fromHexChar c a ha
  obtain ⟨hb16, hdb⟩ := hexDigit_of_fromHexChar d b hb
  obtain ⟨hhi, hlo⟩ := pairByte_halves ⟨a.toNat, ha16⟩ ⟨b.toNat, hb16⟩
  rw [UInt8.ofNat_toNat_of_lt, UInt8.ofNat_toNat_of_lt] at hhi hlo
  simp [encodeByte, hhi, hlo, hca, hdb]

/-! ### The denotation -/

theorem decodeHex_cons_cons (p q : UInt8) (rest : List UInt8) :
    decodeHex (p :: q :: rest) = (fromHexChar p).bind fun a => (fromHexChar q).bind fun b =>
      (pairByte a b :: ·) <$> decodeHex rest := rfl

/-- A string denotes bytes iff it is all digits and of even length; then it denotes half as
many bytes as it has digits. -/
theorem decodeHex_isSome_iff (src : List UInt8) :
    (decodeHex src).isSome ↔ src.length % 2 = 0 ∧ ∀ c ∈ src, isHexDigit c := by
  induction src using decodeHex.induct with
  | case1 p q rest ih =>
    have hmod : (rest.length + 1 + 1) % 2 = rest.length % 2 := by omega
    rw [decodeHex_cons_cons]
    cases hp : fromHexChar p <;> cases hq : fromHexChar q <;> simp [hp, hq, ih, hmod]
  | case2 p => simp [decodeHex]
  | case3 => simp [decodeHex]

theorem length_decodeHex {src bs : List UInt8} (h : decodeHex src = some bs) :
    2 * bs.length = src.length := by
  induction src using decodeHex.induct generalizing bs with
  | case1 p q rest ih =>
    rw [decodeHex_cons_cons] at h
    cases hp : fromHexChar p <;> cases hq : fromHexChar q <;> cases hr : decodeHex rest <;>
      simp [hp, hq, hr] at h
    subst h
    have := ih hr
    simp only [List.length_cons]
    omega
  | case2 p => simp [decodeHex] at h
  | case3 => simp [decodeHex] at h; subst h; rfl

/-- Every byte list is what its hex encoding denotes. -/
theorem decodeHex_flatMap_encodeByte (bs : List UInt8) :
    decodeHex (bs.flatMap encodeByte) = some bs := by
  induction bs with
  | nil => rfl
  | cons b bs ih =>
    obtain ⟨hhi, hlo, hpair⟩ := fromHexChar_encodeByte b
    simp [encodeByte, decodeHex_cons_cons, hhi, hlo, hpair, ih]

/-- Encoding what a string denotes gives the string back in lower case. -/
theorem flatMap_encodeByte_of_decodeHex {src bs : List UInt8} (h : decodeHex src = some bs) :
    bs.flatMap encodeByte = src.map lowerHex := by
  induction src using decodeHex.induct generalizing bs with
  | case1 p q rest ih =>
    rw [decodeHex_cons_cons] at h
    cases hp : fromHexChar p <;> cases hq : fromHexChar q <;> cases hr : decodeHex rest <;>
      simp [hp, hq, hr] at h
    subst h
    simp [encodeByte_pairByte hp hq, ih hr]
  | case2 p => simp [decodeHex] at h
  | case3 => simp [decodeHex] at h; subst h; rfl

/-! ## The loop against the denotation -/

/-- Writing byte `i` and keeping what lies outside `[i, n)`: the write lands between the
untouched prefix and suffix. -/
theorem take_set_append_drop {l : List UInt8} {i n : Nat} (x : UInt8) (bs : List UInt8)
    (hi : i < l.length) (hn : i < n) :
    (l.set i x).take (i + 1) ++ bs ++ (l.set i x).drop n = l.take i ++ x :: bs ++ l.drop n := by
  rw [List.drop_set_of_lt _ _ hn, List.set_eq_take_append_cons_drop, if_pos hi]
  simp [List.take_append_eq_append_take, Nat.min_eq_left hi.le]

/-- The loop panics exactly when, from byte `i`, it meets `21 - i` pairs of digits in a row:
the last of them has no byte left. -/
theorem decodeLoop_eq_error_iff {dst : ContentAddress} {i : Nat} {src : List UInt8} {f : Failure}
    (hi : i ≤ 20) :
    decodeLoop dst i src = .error f ↔
      f = .panic "runtime error: index out of range [20] with length 20" ∧
        2 * (20 - i) + 2 ≤ src.length ∧ ∀ c ∈ src.take (2 * (20 - i) + 2), isHexDigit c := by
  induction dst, i, src using decodeLoop.induct with
  | case1 dst i p q rest hp =>
    simp [decodeLoop, hp]
  | case2 dst i p q rest a hq hp => simp [decodeLoop, hp, hq]
  | case3 dst i p q rest a b hq hp hi' ih =>
    have hk : 2 * (20 - i) + 2 = 2 * (20 - (i + 1)) + 2 + 1 + 1 := by omega
    rw [hk]
    simp [decodeLoop, hp, hq, hi', ih (by omega)]
  | case4 dst i p q rest a b hq hp hi' =>
    obtain rfl : i = 20 := by omega
    have h20 : toString (20 : Nat) = "20" := rfl
    simp [decodeLoop, hp, hq, h20]
    exact eq_comm
  | case5 dst i p => simp [decodeLoop]
  | case6 dst i => simp [decodeLoop]
/-- **The loop refines the denotation.** Without an error, the loop from byte `i` has written
the bytes the string denotes from `i` on, reached a count of at most twenty, and left the
other bytes alone. -/
theorem decodeLoop_eq_ok_none {dst d : ContentAddress} {i n : Nat} {src : List UInt8}
    (hi : i ≤ 20) :
    decodeLoop dst i src = .ok (d, n, none) ↔ ∃ bs, decodeHex src = some bs ∧
      n = i + bs.length ∧ n ≤ 20 ∧ d.bytes = dst.bytes.take i ++ bs ++ dst.bytes.drop n := by
  induction dst, i, src using decodeLoop.induct generalizing n d with
  | case1 dst i p q rest hp => simp [decodeLoop, decodeHex_cons_cons, hp]
  | case2 dst i p q rest a hq hp => simp [decodeLoop, decodeHex_cons_cons, hp, hq]
  | case3 dst i p q rest a b hq hp hi' ih =>
    have hlen : i < dst.bytes.length := by rw [dst.size_eq]; exact hi'
    simp only [decodeLoop, hp, hq, if_pos hi', ih (by omega : i + 1 ≤ 20), decodeHex_cons_cons,
      Option.some_bind, Option.map_eq_map, Option.map_eq_some', ContentAddress.set_bytes]
    constructor
    · rintro ⟨bs, hbs, rfl, hn, hd⟩
      refine ⟨_, ⟨bs, hbs, rfl⟩, by simp only [List.length_cons]; omega, hn, ?_⟩
      rw [hd, take_set_append_drop _ _ hlen (by omega)]
    · rintro ⟨_, ⟨bs, hbs, rfl⟩, hn, hn20, hd⟩
      simp only [List.length_cons] at hn
      refine ⟨bs, hbs, by omega, hn20, ?_⟩
      rw [hd, take_set_append_drop _ _ hlen (by omega)]
  | case4 dst i p q rest a b hq hp hi' =>
    simp only [decodeLoop, hp, hq, if_neg hi', decodeHex_cons_cons, Option.some_bind,
      Option.map_eq_map, Option.map_eq_some']
    simp only [reduceCtorEq, false_iff, not_exists, not_and]
    rintro _ ⟨bs, -, rfl⟩ hn
    simp only [List.length_cons] at hn
    omega
  | case5 dst i p => simp [decodeLoop, decodeHex]
  | case6 dst i =>
    simp only [decodeLoop, decodeHex, Except.ok.injEq, Prod.mk.injEq, Option.some.injEq,
      exists_eq_left', List.length_nil, Nat.add_zero, List.append_nil, and_true]
    constructor
    · rintro ⟨rfl, rfl⟩
      exact ⟨rfl, hi, by simp⟩
    · rintro ⟨rfl, -, hd⟩
      exact ⟨(ContentAddress.ext_bytes (by simpa using hd)).symm, rfl⟩
/-! ## `UnmarshalText` -/

/-- `UnmarshalText` fails only where `hex.Decode` does. -/
theorem unmarshalText_eq_error {h : ContentAddress} {text : List UInt8} {f : Failure} :
    unmarshalText h text = .error f ↔ decodeLoop h 0 text = .error f := by
  unfold unmarshalText
  rcases decodeLoop h 0 text with _ | ⟨d, n, _ | e⟩ <;> simp [bind, Except.bind, pure, Except.pure]

/-- `UnmarshalText` returns nil exactly when the loop wrote twenty bytes with no error. -/
theorem unmarshalText_eq_ok_none {h h' : ContentAddress} {text : List UInt8} :
    unmarshalText h text = .ok (h', none) ↔ decodeLoop h 0 text = .ok (h', 20, none) := by
  unfold unmarshalText
  rcases decodeLoop h 0 text with _ | ⟨d, n, _ | e⟩ <;> simp [bind, Except.bind, pure, Except.pure]

/-- **`UnmarshalText` panics on long hex strings.** Its only failure is the index panic of
`hex.Decode` writing `h[20]`, and it happens exactly when the text starts with forty-two hex
digits: twenty-one pairs, one more than the receiver has bytes for. -/
theorem unmarshalText_panics_iff (h : ContentAddress) (text : List UInt8) (f : Failure) :
    unmarshalText h text = .error f ↔
      f = .panic "runtime error: index out of range [20] with length 20" ∧
        42 ≤ text.length ∧ ∀ c ∈ text.take 42, isHexDigit c := by
  rw [unmarshalText_eq_error, decodeLoop_eq_error_iff (Nat.zero_le _)]

/-- Forty-two zeros: the twenty-first pair has nowhere to go. -/
example : unmarshalText ContentAddress.zero (List.replicate 42 48) =
    .error (.panic "runtime error: index out of range [20] with length 20") := rfl

/-- `UnmarshalText` returns nil exactly on forty hex digits, in either case. -/
theorem unmarshalText_ok_iff (h : ContentAddress) (text : List UInt8) :
    (∃ h', unmarshalText h text = .ok (h', none)) ↔ text.length = 40 ∧ ∀ c ∈ text, isHexDigit c := by
  simp only [unmarshalText_eq_ok_none, decodeLoop_eq_ok_none (Nat.zero_le 20)]
  constructor
  · rintro ⟨_, bs, hbs, hn, -⟩
    have h2 := length_decodeHex hbs
    exact ⟨by omega, ((decodeHex_isSome_iff text).1 (by simp [hbs])).2⟩
  · rintro ⟨hlen, hhex⟩
    obtain ⟨bs, hbs⟩ := Option.isSome_iff_exists.1 ((decodeHex_isSome_iff text).2 ⟨by omega, hhex⟩)
    have h2 := length_decodeHex hbs
    exact ⟨⟨bs, by omega⟩, bs, hbs, by omega, le_refl _, by simp [h.size_eq]⟩

/-- **Round trip.** Parsing `MarshalText(h)` into any receiver gives `h` and nil. -/
theorem unmarshalText_marshalText (h₀ h : ContentAddress) :
    unmarshalText h₀ (marshalText h) = .ok (h, none) := by
  rw [unmarshalText_eq_ok_none, decodeLoop_eq_ok_none (Nat.zero_le 20)]
  exact ⟨h.bytes, decodeHex_flatMap_encodeByte _, by simp [h.size_eq], le_refl _, by simp [h₀.size_eq]⟩

/-- **Canonical form.** A text that parses is `MarshalText` of the result, up to case. -/
theorem marshalText_of_unmarshalText {h h' : ContentAddress} {text : List UInt8}
    (hu : unmarshalText h text = .ok (h', none)) : marshalText h' = text.map lowerHex := by
  rw [unmarshalText_eq_ok_none, decodeLoop_eq_ok_none (Nat.zero_le 20)] at hu
  obtain ⟨bs, hbs, -, -, hd⟩ := hu
  rw [marshalText, ← flatMap_encodeByte_of_decodeHex hbs]
  simp [hd, List.drop_eq_nil_of_le h.size_eq.le]

end DigitalTwin
