/-
The node registry of `neo4jengine` (`src/neo4jengine/noderegistry.go`): `Register`,
`RegisterLabel`, `FormatNode`, `ParseNode`, their reflective fallbacks, and `newRawNode`.

A property is Go's `any`: a dynamic type and value, or nil. The registry files each label's
type and each type's label in two `sync.Map`s; a type is keyed by its full form, and two
types are identical when those agree. `RegisterLabel` panics on a label or a type already
taken, after rolling back what it stored, so that a call that panics leaves both maps as they
were (`Consistent.registerLabel_rollback`); both maps stay mutually inverse whatever the order
of registrations and whether or not a caller recovers (`consistent_registerAll`), and so
`LabelOf` and `TypeOf` agree (`Consistent.lookupsAgree`): `ParseNode` reads a node that
`FormatNode` wrote at the type it was written from (`Consistent.parseNode_formatNode`).

`FormatNode` reads every visible field through `Interface()`, which panics on a field that is
not exported, although the reflective codec is documented to ignore such fields
(`formatNode_panics_of_unexported`). `ParseNode` sets each property into a fresh value with
`reflect.Value.Set`, which panics on a nil property and on a value whose type is not
assignable to the field's. Both are reached in ordinary use: a nil interface field comes back
nil, and the Neo4j driver returns every integer as `int64` and every float as `float64`
(`storedNode` is the graph as the driver writes and reads it), so an `int` field read back
from the graph panics (`formatNode_parseNode_breaks`).

`TextMarshaler`, `BinaryMarshaler`, `Formatter` and `Parser` are found through
`CodecMethods`, on defined types only. Go's pointers share what they point to; here a value
is copied, so `ParseNode` writing through an embedded pointer that a property set earlier does
not change the formatted value, as it would in Go.
-/
import DigitalTwin.Reflect
import DigitalTwin.ContentAddressText
import DigitalTwin.Graph

set_option autoImplicit false

namespace DigitalTwin

/-! ## Type identity -/

mutual

/-- A type written out in full, one token per node, each composite with its arity: what
`reflect` compares when it asks whether two types are identical. -/
def GoType.key : GoType → List String
  | .array n e => "array" :: n.repr :: e.key
  | .slice e => "slice" :: e.key
  | .ptr e => "ptr" :: e.key
  | .struct fs => "struct" :: fs.length.repr :: GoType.fieldsKey fs
  | .named p n => ["named", p, n]
  | .unsupported k => ["unsupported", k]
  | t => [t.kindName]

/-- The fields of a struct type, written out in order. -/
def GoType.fieldsKey : List (String × Bool × GoType) → List String
  | [] => []
  | (n, e, t) :: fs => n :: (if e then "embedded" else "field") :: t.key ++ GoType.fieldsKey fs

end

/-- Two types are identical. -/
def GoType.identical (t t' : GoType) : Bool := t.key == t'.key

@[simp] theorem GoType.identical_iff {t t' : GoType} : t.identical t' = true ↔ t.key = t'.key :=
  beq_iff_eq

namespace Neo4jEngine

/-! ## Properties and raw nodes -/

/-- A property value, Go's `any`: its dynamic type and value, `none` for nil. -/
abbrev Any := Option (GoType × GoValue)

/-- `PropertyMap`: `map[string]any`. -/
abbrev PropertyMap := AList fun _ : String => Any

/-- `RawNode`: the label of the node's Go type, its content address, the properties that
carry its value, and the engine's own properties. -/
structure RawNode where
  label : String
  contentAddress : NodeHash
  props : PropertyMap
  metadata : PropertyMap

/-- What the engine keeps of a raw node: its label and content address. -/
def RawNode.node (r : RawNode) : DigitalTwin.RawNode := ⟨r.label, r.contentAddress⟩

/-- `%q` of a string: quoted, with quotes and backslashes escaped. -/
def quote (s : String) : String :=
  "\"" ++ String.join (s.data.map fun c =>
    if c = '"' then "\\\"" else if c = '\\' then "\\\\" else c.toString) ++ "\""

/-! ## The registry -/

/-- `nodeRegistry`: the type registered under each label, and the label of each type, keyed
by its full form: the two `sync.Map`s. -/
structure NodeRegistry where
  labelToType : AList fun _ : String => GoType
  typeToLabel : AList fun _ : List String => String

namespace NodeRegistry

/-- `TypeOf`. -/
def typeOf (r : NodeRegistry) (label : String) : Option GoType := r.labelToType.lookup label

/-- `LabelOf`. -/
def labelOf (r : NodeRegistry) (rt : GoType) : Option String := r.typeToLabel.lookup rt.key

/-- `RegisterLabel`: store the label's type unless the label has another; then the type's
label unless the type has another, in which case the label just stored is deleted again.
The panic, if any, with the registry as it is left, which a recovering caller keeps. -/
def registerLabel (r : NodeRegistry) (label : String) (rt : GoType) : Option Failure × NodeRegistry :=
  let storeLabel (r : NodeRegistry) : Option Failure × NodeRegistry :=
    match r.typeToLabel.lookup rt.key with
    | some l =>
      if l ≠ label then
        (some (.panic ("digitaltwin/engine: registering duplicate names for " ++ rt.toString ++
          ": " ++ quote l ++ " != " ++ quote label)),
          { r with labelToType := r.labelToType.erase label })
      else (none, r)
    | none => (none, { r with typeToLabel := r.typeToLabel.insert rt.key label })
  match r.labelToType.lookup label with
  | some t =>
    if !t.identical rt then
      (some (.panic ("digitaltwin/engine: registering duplicate types for " ++ quote label ++
        ": " ++ t.toString ++ " != " ++ rt.toString)), r)
    else storeLabel r
  | none => storeLabel { r with labelToType := r.labelToType.insert label rt }

/-- `Register`: the type's name within its package as its label. -/
def register (r : NodeRegistry) (rt : GoType) : Option Failure × NodeRegistry :=
  r.registerLabel rt.pkgPathName.2 rt

/-- The two maps agree: a label has a type exactly when that type has the label. -/
def Consistent (r : NodeRegistry) : Prop :=
  ∀ label k, (∃ t, r.labelToType.lookup label = some t ∧ t.key = k) ↔
    r.typeToLabel.lookup k = some label

theorem consistent_empty : Consistent ⟨∅, ∅⟩ := by
  intro label k
  simp

/-- Storing a label for a type neither has keeps the maps in agreement. -/
theorem Consistent.insert {r : NodeRegistry} (hr : r.Consistent) {label : String} {rt : GoType}
    (hl : r.labelToType.lookup label = none) (hk : r.typeToLabel.lookup rt.key = none) :
    Consistent ⟨r.labelToType.insert label rt, r.typeToLabel.insert rt.key label⟩ := by
  intro label' k
  by_cases hlabel : label' = label
  · subst hlabel
    simp only [AList.lookup_insert, Option.some.injEq, exists_eq_left']
    by_cases hkey : k = rt.key
    · subst hkey
      simp
    · rw [AList.lookup_insert_ne hkey]
      constructor
      · exact fun h => absurd h.symm hkey
      · intro h
        obtain ⟨t, ht, -⟩ := (hr label' k).2 h
        simp [hl] at ht
  · rw [AList.lookup_insert_ne hlabel]
    by_cases hkey : k = rt.key
    · subst hkey
      rw [AList.lookup_insert, hr, hk]
      simp [Ne.symm hlabel]
    · rw [AList.lookup_insert_ne hkey]
      exact hr label' k

/-- Deleting a key just stored, which was absent before, gives back the map as it was. -/
theorem erase_insert_of_lookup_eq_none {β : Type} {s : AList fun _ : String => β} {a : String}
    {b : β} (h : s.lookup a = none) : (s.insert a b).erase a = s :=
  AList.ext <| show List.kerase a (s.insert a b).entries = s.entries by
    rw [AList.insert_entries_of_neg (AList.lookup_eq_none.1 h)]
    exact List.kerase_cons_eq rfl

/-- **What one registration does to a consistent registry**: it panics and leaves the
registry as it was, the label stored before the second check deleted again; or it finds the
label and the type already registered to each other and changes nothing; or it stores the
label and the type, neither of which was taken. -/
theorem Consistent.registerLabel_eq {r : NodeRegistry} (hr : r.Consistent) (label : String)
    (rt : GoType) :
    (∃ f, r.registerLabel label rt = (some f, r)) ∨ r.registerLabel label rt = (none, r) ∨
      (r.labelToType.lookup label = none ∧ r.typeToLabel.lookup rt.key = none ∧
        r.registerLabel label rt =
          (none, ⟨r.labelToType.insert label rt, r.typeToLabel.insert rt.key label⟩)) := by
  unfold NodeRegistry.registerLabel
  dsimp only
  rcases hl : r.labelToType.lookup label with _ | t <;> dsimp only
  · rcases hk : r.typeToLabel.lookup rt.key with _ | l <;> dsimp only
    · exact .inr (.inr ⟨rfl, rfl, rfl⟩)
    · split_ifs with hne
      · exact .inl ⟨_, by rw [erase_insert_of_lookup_eq_none hl]⟩
      · obtain ⟨t, ht, -⟩ := (hr l rt.key).2 hk
        rw [not_not.1 hne, hl] at ht
        cases ht
  · split_ifs with hid
    · exact .inl ⟨_, rfl⟩
    · have hk : r.typeToLabel.lookup rt.key = some label :=
        (hr label rt.key).1 ⟨t, hl, by simpa using hid⟩
      simp [hk]

/-- **Registration keeps the two maps in agreement**, whether it panics or not, so a caller
that recovers from the panic keeps a consistent registry. -/
theorem Consistent.registerLabel {r : NodeRegistry} (hr : r.Consistent) (label : String)
    (rt : GoType) : (r.registerLabel label rt).2.Consistent := by
  rcases hr.registerLabel_eq label rt with ⟨f, h⟩ | h | ⟨hl, hk, h⟩ <;> rw [h]
  · exact hr
  · exact hr
  · exact hr.insert hl hk

/-- **A panic rolls back**: in a consistent registry a call that panics leaves both maps
exactly as they were, the label stored before the second check included. -/
theorem Consistent.registerLabel_rollback {r : NodeRegistry} (hr : r.Consistent)
    (label : String) (rt : GoType) (h : (r.registerLabel label rt).1.isSome) :
    (r.registerLabel label rt).2 = r := by
  rcases hr.registerLabel_eq label rt with ⟨f, he⟩ | he | ⟨-, -, he⟩
  · rw [he]
  · rw [he]
  · rw [he] at h
    cases h

/-- In a consistent registry, the label of a type names a type identical to it. -/
theorem Consistent.typeOf_labelOf {r : NodeRegistry} (hr : r.Consistent) {t : GoType}
    {label : String} (h : r.labelOf t = some label) :
    ∃ t', r.typeOf label = some t' ∧ t'.identical t = true := by
  obtain ⟨t', ht', hkey⟩ := (hr label t.key).2 h
  exact ⟨t', ht', GoType.identical_iff.2 hkey⟩

/-- `LabelOf` and `TypeOf` are mutually inverse partial bijections, types taken up to
identity: a type has a label exactly when the label's type is identical to it, and neither
lookup gives one answer for two labels, or for two types that are not identical. -/
structure LookupsAgree (r : NodeRegistry) : Prop where
  labelOf_eq_some_iff : ∀ t label,
    r.labelOf t = some label ↔ ∃ t', r.typeOf label = some t' ∧ t'.identical t = true
  typeOf_injective : ∀ l₁ l₂ t₁ t₂, r.typeOf l₁ = some t₁ → r.typeOf l₂ = some t₂ →
    t₁.identical t₂ = true → l₁ = l₂
  labelOf_injective : ∀ t₁ t₂ label, r.labelOf t₁ = some label → r.labelOf t₂ = some label →
    t₁.identical t₂ = true

/-- The lookups of a consistent registry agree. -/
theorem Consistent.lookupsAgree {r : NodeRegistry} (hr : r.Consistent) : r.LookupsAgree where
  labelOf_eq_some_iff t label := ⟨hr.typeOf_labelOf, fun ⟨t', ht', hid⟩ =>
    (hr label t.key).1 ⟨t', ht', GoType.identical_iff.1 hid⟩⟩
  typeOf_injective l₁ l₂ t₁ t₂ h₁ h₂ hid := Option.some_inj.1 <|
    ((hr l₁ t₁.key).1 ⟨t₁, h₁, rfl⟩).symm.trans
      ((hr l₂ t₁.key).1 ⟨t₂, h₂, (GoType.identical_iff.1 hid).symm⟩)
  labelOf_injective t₁ t₂ label h₁ h₂ := by
    obtain ⟨t, ht, hkey₁⟩ := (hr label t₁.key).2 h₁
    obtain ⟨t', ht', hkey₂⟩ := (hr label t₂.key).2 h₂
    rw [ht, Option.some_inj] at ht'
    exact GoType.identical_iff.2 (hkey₁.symm.trans (ht' ▸ hkey₂))

/-- Registrations one after the other, each panic recovered. -/
def registerAll (r : NodeRegistry) (regs : List (String × GoType)) : NodeRegistry :=
  regs.foldl (fun r p => (r.registerLabel p.1 p.2).2) r

/-- **The registry stays consistent over every run of registrations.** -/
theorem consistent_registerAll (regs : List (String × GoType)) :
    ∀ {r : NodeRegistry}, r.Consistent → (r.registerAll regs).Consistent := by
  induction regs with
  | nil => exact id
  | cons p regs ih => exact fun hr => ih (hr.registerLabel p.1 p.2)

/-- **Every history of registrations, panics recovered, leaves the maps mutually inverse**,
so `LabelOf`, which `FormatNode` asks, and `TypeOf`, which `ParseNode` asks, agree; and a
next call that panics, at either check, leaves both maps exactly as they were. -/
theorem registerLabel_history_consistent (regs : List (String × GoType)) (label : String)
    (rt : GoType) :
    (registerAll ⟨∅, ∅⟩ regs).Consistent ∧ (registerAll ⟨∅, ∅⟩ regs).LookupsAgree ∧
      (((registerAll ⟨∅, ∅⟩ regs).registerLabel label rt).1.isSome →
        ((registerAll ⟨∅, ∅⟩ regs).registerLabel label rt).2 = registerAll ⟨∅, ∅⟩ regs) :=
  have hr := consistent_registerAll regs consistent_empty
  ⟨hr, hr.lookupsAgree, hr.registerLabel_rollback label rt⟩

/-- Registering `B` for the type `p.T` that `A` already has panics at the second check, and
the label `B`, stored at the first, is deleted again. -/
theorem registerLabel_history_duplicateName :
    ((registerAll ⟨∅, ∅⟩ [("A", .named "p" "T")]).registerLabel "B" (.named "p" "T")).1.isSome ∧
      ((registerAll ⟨∅, ∅⟩ [("A", .named "p" "T")]).registerLabel "B" (.named "p" "T")).2 =
        registerAll ⟨∅, ∅⟩ [("A", .named "p" "T")] :=
  ⟨rfl, (registerLabel_history_consistent _ "B" (.named "p" "T")).2.2 rfl⟩

end NodeRegistry

/-! ## Formatting -/

/-- The methods of a defined type the node codec asks for, besides `MarshalBinary`: its own
`FormatNode` (on `T` or `*T`, which the code calls alike) with the properties or the error
it returns; its `ParseNode`, `UnmarshalText` and `UnmarshalBinary` (on `*T`), each given the
value to change and giving the changed value with the error it returns; and `MarshalText`
(on `T`), with the text or the error. -/
structure CodecMethods where
  formatNode : Option (GoValue → Except String PropertyMap)
  parseNode : Option (PropertyMap → GoValue → GoValue × Option String)
  marshalText : Option (GoValue → Except String String)
  unmarshalText : Option (String → GoValue → Except Failure (GoValue × Option String))
  unmarshalBinary : Option (List UInt8 → GoValue → GoValue × Option String)

/-- No codec methods. -/
def CodecMethods.none : CodecMethods := ⟨Option.none, Option.none, Option.none, Option.none, Option.none⟩

/-- The codec methods of the defined types in scope. -/
abbrev CodecEnv := List ((String × String) × CodecMethods)

/-- The codec methods of a type: a defined type's own, none for any other. -/
def codecMethods (cenv : CodecEnv) : GoType → CodecMethods
  | .named p n => (cenv.lookup (p, n)).getD .none
  | _ => .none

/-- The panic of a value method called through a nil pointer. -/
def nilDereference : Failure := .panic "runtime error: invalid memory address or nil pointer dereference"

/-- `x.(encoding.TextMarshaler)` on an interface holding a value of type `t`, and the call:
`none` when the type has no `MarshalText`. -/
def marshalTextOf (cenv : CodecEnv) : GoType → GoValue → Option (Except Failure String)
  | .ptr e, v => ((codecMethods cenv e).marshalText).map fun f =>
    match v with
    | .ptr (some w) => (f w).mapError .error
    | _ => .error nilDereference
  | t, v => ((codecMethods cenv t).marshalText).map fun f => (f v).mapError .error

/-- The panic of `Interface()` on a field that is not exported. -/
def unexportedInterface : Failure :=
  .panic "reflect.Value.Interface: cannot return value obtained from unexported field or method"

section Format

variable (env : Env) (cenv : CodecEnv) (fuel : Nat)

/-- The loop body of `reflectionAdapter.FormatNode` for one visible field of the struct `v`
of type `t`: skip the embedded `InformationElement`; read the field, which panics unless
it is exported; store its text, its bytes or the value itself under its name. -/
def formatField (t : GoType) (v : GoValue) (props : PropertyMap) (f : VisibleField) :
    ExceptT Failure Option PropertyMap :=
  if isInformationElement f then pure props
  else do
    let p ← liftExcept (fieldByIndex env t v f.index)
    if !isExported f.name then throw unexportedInterface
    let x := dynamic env p.1 p.2
    match x.bind fun d => marshalTextOf cenv d.1 d.2,
      x.bind fun d => callMethod env (·.marshalBinary) d.1 d.2 with
    | some r, _ =>
      let s ← wrapError "marshal text: " (liftExcept r)
      pure (props.insert f.name (some (.string, .string s)))
    | none, some r =>
      let bs ← wrapError "marshal binary: " (liftExcept r)
      pure (props.insert f.name (some (.slice .uint8, .elems (bs.map fun b => .uint b.toNat))))
    | none, none => pure (props.insert f.name x)

/-- `reflectionAdapter.FormatNode`: a struct's visible fields by name; a value of a basic kind
under `value`, an array or a slice under `values`; an error for a pointer or any other. -/
def reflectionFormatNode (t : GoType) (v : GoValue) : ExceptT Failure Option PropertyMap :=
  match t.resolve env with
  | some (.ptr _) => throw (.error ("unsupported pointer type: " ++ t.toString))
  | some (.struct _) =>
    match visibleFields env fuel t with
    | Option.none => diverge
    | some fields => fields.foldlM (formatField env cenv t v) ∅
  | some .bool | some .int | some .int8 | some .int16 | some .int32 | some .int64
  | some .uint | some .uint8 | some .uint16 | some .uint32 | some .uint64
  | some .float32 | some .float64 | some .string => pure (AList.insert "value" (some (t, v)) ∅)
  | some (.array _ _) | some (.slice _) => pure (AList.insert "values" (some (t, v)) ∅)
  | _ => throw (.error ("unsupported type: " ++ t.toString))

/-- **An unexported field panics.** Once the fields before it are formatted, the first field
that is not exported, and not the embedded `InformationElement`, is read through
`Interface()`, which panics. -/
theorem foldlM_formatField_unexported {t : GoType} {v : GoValue} {pre post : List VisibleField}
    {f : VisibleField} {props props' : PropertyMap}
    (hpre : (pre.foldlM (formatField env cenv t v) props).run = some (.ok props'))
    (hie : isInformationElement f = false) (hexp : isExported f.name = false)
    {p : GoType × GoValue} (hf : fieldByIndex env t v f.index = .ok p) :
    ((pre ++ f :: post).foldlM (formatField env cenv t v) props).run =
      some (.error unexportedInterface) := by
  rw [List.foldlM_append, ExceptT.run_bind, hpre]
  simp [formatField, hie, hexp, hf, liftExcept, ExceptT.run_bind, ExceptT.run_mk]

/-- `formatProperties`: the type's own `FormatNode` if it has one, else the reflective one. -/
def formatProperties (t : GoType) (v : GoValue) : ExceptT Failure Option PropertyMap :=
  match (codecMethods cenv t).formatNode with
  | some f => liftExcept ((f v).mapError .error)
  | Option.none => reflectionFormatNode env cenv fuel t v

variable (sha1 : List UInt8 → ContentAddress)

/-- `nodeRegistry.FormatNode`: the label of the value's type, its content address and its
properties. -/
def formatNode (r : NodeRegistry) (t : GoType) (v : GoValue) : ExceptT Failure Option RawNode := do
  let some label := r.labelOf t | throw (.error ("unregistered type " ++ quote t.toString))
  let h ← wrapError "content address: " (contentAddress sha1 env fuel t v)
  let props ← wrapError "format properties: " (formatProperties env cenv fuel t v)
  pure ⟨label, h, props, ∅⟩

/-- **`FormatNode` panics on a registered struct with an unexported field**: with the
content address computed (it skips such fields) and no `FormatNode` of its own, formatting
reaches the field and panics. -/
theorem formatNode_panics_of_unexported (r : NodeRegistry) {t : GoType} {v : GoValue}
    {label : String} {h : NodeHash} (hl : r.labelOf t = some label)
    (hca : (contentAddress sha1 env fuel t v).run = some (.ok h))
    (hfmt : (codecMethods cenv t).formatNode = none) {fs : List (String × Bool × GoType)}
    (hs : t.resolve env = some (.struct fs)) {pre post : List VisibleField} {f : VisibleField}
    (hvis : visibleFields env fuel t = some (pre ++ f :: post)) {props' : PropertyMap}
    (hpre : (pre.foldlM (formatField env cenv t v) ∅).run = some (.ok props'))
    (hie : isInformationElement f = false) (hexp : isExported f.name = false)
    {p : GoType × GoValue} (hf : fieldByIndex env t v f.index = .ok p) :
    (formatNode env cenv fuel sha1 r t v).run = some (.error unexportedInterface) := by
  have hfold := @foldlM_formatField_unexported env cenv t v pre post f ∅ props' hpre hie hexp p hf
  simp only [formatNode, hl, wrapError, ExceptT.run_bind, hca, formatProperties, hfmt,
    reflectionFormatNode, hs]
  rw [hvis]
  simp only [ExceptT.run_mk, hfold]
  rfl

/-- A node that `FormatNode` gives carries the label `LabelOf` gives its type. -/
theorem labelOf_of_formatNode {r : NodeRegistry} {t : GoType} {v : GoValue} {raw : RawNode}
    (h : (formatNode env cenv fuel sha1 r t v).run = some (.ok raw)) :
    r.labelOf t = some raw.label := by
  rcases hl : r.labelOf t with _ | label
  · simp [formatNode, hl] at h
  · simp only [formatNode, hl, ExceptT.run_bind, Option.bind_eq_bind, Option.bind_eq_some] at h
    obtain ⟨_ | a, -, h⟩ := h
    · cases h
    obtain ⟨_ | p, -, h⟩ := Option.bind_eq_some.1 h
    · cases h
    cases h
    rfl

end Format

/-! ## Parsing -/

/-- Predeclared and defined types are named; type literals are not. -/
def isNamed : GoType → Bool
  | .array _ _ | .slice _ | .ptr _ | .struct _ | .iface => false
  | _ => true

section Parse

variable (env : Env) (cenv : CodecEnv) (fuel : Nat)

/-- The type is an interface type. -/
def isInterface (t : GoType) : Bool :=
  match t.resolve env with
  | some .iface => true
  | _ => false

/-- `AssignableTo`: identical types; or identical underlying types, one of them not named;
or an interface type, which every type implements here. -/
def assignable (v t : GoType) : Bool :=
  v.identical t || isInterface env t ||
    ((!isNamed v || !isNamed t) &&
      match v.resolve env, t.resolve env with
      | some u, some u' => u.identical u'
      | _, _ => false)

/-- `f.Set(reflect.ValueOf(x))` on a settable `f` of type `t`: the new value of `f`, or the
panic of a nil `x` or of one whose type is not assignable to `t`. -/
def assign (t : GoType) : Any → Except Failure GoValue
  | none => .error (.panic "reflect: call of reflect.Value.Set on zero Value")
  | some (xt, xv) =>
    if assignable env xt t then
      .ok (if isInterface env t then .iface (some (xt, xv)) else xv)
    else .error (.panic ("reflect.Set: value of type " ++ xt.toString ++
      " is not assignable to type " ++ t.toString))

/-- Change the field at an index path of a struct value, as `FieldByIndex` reaches it: `g`
gives the field's new value from its type and old value. -/
def modifyFieldByIndex (g : GoType → GoValue → Except Failure GoValue) :
    GoType → GoValue → List Nat → Except Failure GoValue
  | t, v, [] => g t v
  | t, v, i :: rest =>
    match t, v with
    | .ptr _, .ptr none =>
      .error (.panic "reflect: indirection through nil pointer to embedded struct")
    | .ptr e, .ptr (some (.struct vs)) =>
      match (e.structFields env).bind (·.get? i), vs.get? i with
      | some f, some w => (modifyFieldByIndex g f.2.2 w rest).map fun w' => .ptr (some (.struct (vs.set i w')))
      | _, _ => .error (.panic "reflect: Field index out of range")
    | t, .struct vs =>
      match (t.structFields env).bind (·.get? i), vs.get? i with
      | some f, some w => (modifyFieldByIndex g f.2.2 w rest).map fun w' => .struct (vs.set i w')
      | _, _ => .error (.panic "reflect: Field index out of range")
    | _, _ => .error (.panic "reflect: call of reflect.Value.Field on non-struct value")

/-- The panic of a failed type assertion of an interface holding `x` to `want`. -/
def assertionPanic (want : String) (x : Any) : Failure :=
  .panic ("interface conversion: interface \x7b\x7d is " ++
    ((x.map fun d => d.1.toString).getD "nil") ++ ", not " ++ want)

/-- The new value of a settable field of type `t` holding `old`, from the property `x`:
through the field's `UnmarshalText` (which wants a string) or `UnmarshalBinary` (which
wants bytes) if it has one, else by `Set`. A returned error is `Failure.error`. -/
def setField (t : GoType) (old : GoValue) (x : Any) : Except Failure GoValue :=
  match (codecMethods cenv t).unmarshalText, (codecMethods cenv t).unmarshalBinary with
  | some u, _ =>
    match x with
    | some (.string, .string s) => do
      let (w, err) ← u s old
      match err with
      | some e => .error (.error ("unmarshal text: " ++ e))
      | Option.none => pure w
    | _ => .error (assertionPanic "string" x)
  | Option.none, some u =>
    match x with
    | some (.slice .uint8, .elems vs) =>
      let (w, err) := u (vs.map fun | .uint n => n.toUInt8 | _ => 0) old
      match err with
      | some e => .error (.error ("unmarshal binary: " ++ e))
      | Option.none => .ok w
    | _ => .error (assertionPanic "[]uint8" x)
  | Option.none, Option.none => assign env t x

/-- The loop body of `reflectionAdapter.ParseNode` on a struct `v` of type `t`, whose visible
fields are `fields`, for one property: find the field by name, which must be settable, and
set it. -/
def parseField (t : GoType) (fields : List VisibleField) (v : GoValue)
    (p : Σ _ : String, Any) : Except Failure GoValue :=
  match fields.find? (·.name == p.1) with
  | Option.none => .error (.error ("unknown field " ++ quote p.1))
  | some f => do
    let _ ← fieldByIndex env t v f.index
    if !isExported f.name then .error (.error ("field " ++ quote p.1 ++ " is not settable"))
    else modifyFieldByIndex env (fun ft old => setField env cenv ft old p.2) t v f.index

/-- `reflectionAdapter.ParseNode` through a pointer to a value `v` of type `t`: a struct's
fields from the properties, one by one; a value of a basic kind from `value`, an array or a
slice from `values`; an error for any other. -/
def reflectionParseNode (t : GoType) (v : GoValue) (props : PropertyMap) :
    ExceptT Failure Option GoValue :=
  match t.resolve env with
  | some (.struct _) =>
    match visibleFields env fuel t with
    | Option.none => diverge
    | some fields => liftExcept (props.entries.foldlM (parseField env cenv t fields) v)
  | some .bool | some .int | some .int8 | some .int16 | some .int32 | some .int64
  | some .uint | some .uint8 | some .uint16 | some .uint32 | some .uint64
  | some .float32 | some .float64 | some .string =>
    match props.lookup "value" with
    | Option.none => throw (.error "missing value field")
    | some x => liftExcept (assign env t x)
  | some (.array _ _) | some (.slice _) =>
    match props.lookup "values" with
    | Option.none => throw (.error "missing values field")
    | some x => liftExcept (assign env t x)
  | _ => throw (.error ("unsupported type: " ++ t.toString))

/-- `parseProperties` through a pointer to `v`: the type's own `ParseNode` if it has one,
else the reflective one. -/
def parseProperties (t : GoType) (v : GoValue) (props : PropertyMap) :
    ExceptT Failure Option GoValue :=
  match (codecMethods cenv t).parseNode with
  | some f =>
    match f props v with
    | (_, some e) => throw (.error e)
    | (w, Option.none) => pure w
  | Option.none => reflectionParseNode env cenv fuel t v props

variable (sha1 : List UInt8 → ContentAddress)

/-- `nodeRegistry.ParseNode`: the type of the label, its zero value filled from the
properties, and the content address checked against the node's. -/
def parseNode (r : NodeRegistry) (n : RawNode) : ExceptT Failure Option (GoType × GoValue) := do
  let some rt := r.typeOf n.label | throw (.error ("unregistered label " ++ quote n.label))
  let some z := zeroValue env fuel rt | diverge
  let v ← wrapError "parse node props: " (parseProperties env cenv fuel rt z n.props)
  let h ← wrapError "content address: " (contentAddress sha1 env fuel rt v)
  if h ≠ n.contentAddress then
    throw (.error ("defensive: content address mismatch: " ++ quote (nodeHashString h) ++ " != " ++
      quote (nodeHashString n.contentAddress)))
  pure (rt, v)

/-- A value that `ParseNode` gives has the type `TypeOf` gives the node's label. -/
theorem typeOf_of_parseNode {r : NodeRegistry} {n : RawNode} {rt : GoType} {w : GoValue}
    (h : (parseNode env cenv fuel sha1 r n).run = some (.ok (rt, w))) :
    r.typeOf n.label = some rt := by
  rcases ht : r.typeOf n.label with _ | rt'
  · simp [parseNode, ht] at h
  · rcases hz : zeroValue env fuel rt' with _ | z
    · simp [parseNode, ht, hz, diverge] at h
    simp only [parseNode, ht, hz, ExceptT.run_bind, Option.bind_eq_bind, Option.bind_eq_some] at h
    obtain ⟨_ | v, -, h⟩ := h
    · cases h
    obtain ⟨_ | ca, -, h⟩ := Option.bind_eq_some.1 h
    · cases h
    dsimp only at h
    split_ifs at h <;> simp at h
    rw [h.1]

/-- **A node that `FormatNode` gives is parsed at its own type**: in a consistent registry,
`ParseNode` reads the node `FormatNode` wrote for a value of type `t` as a value of a type
identical to `t`. -/
theorem NodeRegistry.Consistent.parseNode_formatNode {r : NodeRegistry} (hr : r.Consistent)
    {t : GoType} {v : GoValue} {raw : RawNode}
    (hf : (formatNode env cenv fuel sha1 r t v).run = some (.ok raw)) {rt : GoType} {w : GoValue}
    (hp : (parseNode env cenv fuel sha1 r raw).run = some (.ok (rt, w))) :
    rt.identical t = true := by
  obtain ⟨t', ht', hid⟩ := hr.typeOf_labelOf (labelOf_of_formatNode env cenv fuel sha1 hf)
  rw [typeOf_of_parseNode env cenv fuel sha1 hp, Option.some_inj] at ht'
  exact ht' ▸ hid

end Parse

/-! ## Through the graph -/

/-- `float64(x)` of a `float32` `x`, on bit patterns: exact on every number, infinities kept,
a NaN made quiet with its payload. -/
def widenFloat32 (b : Nat) : Nat :=
  let sign := b / 2 ^ 31 % 2
  let exp := b / 2 ^ 23 % 2 ^ 8
  let frac := b % 2 ^ 23
  sign * 2 ^ 63 +
    if exp = 2 ^ 8 - 1 then
      (2 ^ 11 - 1) * 2 ^ 52 + if frac = 0 then 0 else frac * 2 ^ 29 ||| 2 ^ 51
    else if exp = 0 then
      if frac = 0 then 0
      else (Nat.log2 frac + 1023 - 149) * 2 ^ 52 + (frac - 2 ^ Nat.log2 frac) * 2 ^ (52 - Nat.log2 frac)
    else (exp + 1023 - 127) * 2 ^ 52 + frac * 2 ^ 29

section Driver

variable (env : Env)

/-- A value of a basic kind as the Neo4j driver stores it and reads it back: integers as
`int64`, floats as `float64`, strings and booleans as they are; `none` for one it rejects. -/
def driverScalar (t : GoType) (v : GoValue) : Option (GoType × GoValue) :=
  match t.resolve env, v with
  | some .bool, .bool b => some (.bool, .bool b)
  | some .int, .int i | some .int8, .int i | some .int16, .int i | some .int32, .int i
  | some .int64, .int i => some (.int64, .int i)
  | some .uint, .uint n | some .uint8, .uint n | some .uint16, .uint n | some .uint32, .uint n
  | some .uint64, .uint n => if n < 2 ^ 63 then some (.int64, .int n) else none
  | some .float32, .float b => some (.float64, .float (widenFloat32 b))
  | some .float64, .float b => some (.float64, .float b)
  | some .string, .string s => some (.string, .string s)
  | _, _ => none

/-- A property value as the driver stores it and reads it back: a basic value as
`driverScalar` has it, bytes as bytes, any other list as `[]any` of basic values; `none` for
a value it rejects. -/
def driverValue (t : GoType) (v : GoValue) : Option (GoType × GoValue) :=
  match driverScalar env t v with
  | some d => some d
  | none =>
    match t.resolve env, v with
    | some (.slice e), .elems vs | some (.array _ e), .elems vs =>
      if (e.resolve env).any (·.identical .uint8) then some (.slice .uint8, .elems vs)
      else (vs.mapM fun w => (driverScalar env e w).map fun d => GoValue.iface (some d)).map
        fun ws => (.slice .iface, .elems ws)
    | _, _ => none

/-- A `neo4j.Node` as the driver returns it: its labels and properties. -/
structure Neo4jNode where
  labels : List String
  props : PropertyMap

/-- The properties `MERGE` gives a node it creates: the `_contentAddress` it matches on, as
the hex text of `MarshalText`, and `_created_at`, which `ON CREATE SET` sets. -/
def createdProps (datetime : GoType × GoValue) (r : RawNode) : PropertyMap :=
  ((∅ : PropertyMap).insert "_contentAddress"
    (some (.string, .string (hexText r.contentAddress)))).insert "_created_at" (some datetime)

/-- The node `assertNode` leaves in the graph, as the driver reads it back. The query is
`MERGE (s:Label {_contentAddress: $ca}) ON CREATE SET s._created_at = datetime()
SET s += $node_prop, s._last_modified = datetime()`: starting from the properties of the node
it matches, `existing`, or else from those of a new node, it sets each raw property as the
driver stores it, removes each nil one, and sets `_last_modified`. `datetime` is the value
of `datetime()`, one for the whole statement. `none` when the driver rejects a property. -/
def storedNode (datetime : GoType × GoValue) (existing : Option PropertyMap) (r : RawNode) :
    Option Neo4jNode := do
  let props ← r.props.entries.foldlM (fun (acc : PropertyMap) p =>
    match p.2 with
    | none => some (acc.erase p.1)
    | some (t, v) => (driverValue env t v).map fun d => acc.insert p.1 (some d))
    (existing.getD (createdProps datetime r))
  pure ⟨[r.label], props.insert "_last_modified" (some datetime)⟩

end Driver

/-- `%T` of a property value. -/
def typeName : Any → String
  | none => "<nil>"
  | some (t, _) => t.toString

/-- `newRawNode`: one label; the properties split into metadata (names starting with `_`)
and the rest, an empty name panicking; and the content address decoded from the string
`_contentAddress`. -/
def newRawNode (node : Neo4jNode) : Except Failure RawNode := do
  let [label] := node.labels | .error (.error "node must have a single label")
  let split ← node.props.entries.foldlM (fun (acc : PropertyMap × PropertyMap) p =>
    match (stringBytes p.1).head? with
    | none => .error (.panic "runtime error: index out of range [0] with length 0")
    | some c =>
      if c = 95 then pure (acc.1, acc.2.insert p.1 p.2) else pure (acc.1.insert p.1 p.2, acc.2))
    (∅, ∅)
  match node.props.lookup "_contentAddress" with
  | none => .error (.error "key not found: _contentAddress")
  | some (some (.string, .string h)) => do
    let (ca, err) ← NodeHash.unmarshalText ⟨ContentAddress.zero⟩ (stringBytes h)
    match err with
    | some e => .error (.error ("unmarshal content address: " ++ e))
    | none => pure ⟨label, ca, split.1, split.2⟩
  | some x => .error (.error ("unexpected type: _contentAddress is " ++ typeName x))

/-! ## The round trip, and where it breaks -/

/-- Three node types of a package `p`, each embedding `InformationElement`: `Hidden` with an
exported `int` field `X` and a field `y` that is not exported, `Plain` with `X` alone, and
`Open` with a field `I` of interface type. -/
def nodeTypesEnv : Env :=
  [((digitaltwinPkgPath, "InformationElement"), ⟨.struct [], .none, .none⟩),
   (("p", "Hidden"), ⟨.struct [("InformationElement", true, informationElementType),
      ("X", false, .int), ("y", false, .int)], .none, .none⟩),
   (("p", "Plain"), ⟨.struct [("InformationElement", true, informationElementType),
      ("X", false, .int)], .none, .none⟩),
   (("p", "Open"), ⟨.struct [("InformationElement", true, informationElementType),
      ("I", false, .iface)], .none, .none⟩)]

/-- The three registered by `Register`, under their names. -/
def nodeTypesRegistry : NodeRegistry :=
  NodeRegistry.registerAll ⟨∅, ∅⟩
    [("Hidden", .named "p" "Hidden"), ("Plain", .named "p" "Plain"), ("Open", .named "p" "Open")]

/-- **The round trip breaks three ways.** `FormatNode` panics on `Hidden{X: 1, y: 2}`, at its
field that is not exported. The properties of `Open{I: nil}`, given back verbatim, make
`ParseNode` panic, since `Set` refuses the nil property. And `Plain{X: 1}`, written to the
graph and read back, comes with `X` as an `int64`, which `ParseNode` cannot set into an
`int` field: it panics. -/
theorem formatNode_parseNode_breaks :
    (formatNode nodeTypesEnv [] 5 blockDigest nodeTypesRegistry (.named "p" "Hidden")
      (.struct [.struct [], .int 1, .int 2])).run = some (.error unexportedInterface) ∧
    (∃ raw, (formatNode nodeTypesEnv [] 5 blockDigest nodeTypesRegistry (.named "p" "Open")
        (.struct [.struct [], .iface none])).run = some (.ok raw) ∧
      (parseNode nodeTypesEnv [] 5 blockDigest nodeTypesRegistry raw).run =
        some (.error (.panic "reflect: call of reflect.Value.Set on zero Value"))) ∧
    ∃ raw stored raw', (formatNode nodeTypesEnv [] 5 blockDigest nodeTypesRegistry
        (.named "p" "Plain") (.struct [.struct [], .int 1])).run = some (.ok raw) ∧
      storedNode nodeTypesEnv (.named "time" "Time", .struct []) none raw = some stored ∧
      newRawNode stored = .ok raw' ∧
      (parseNode nodeTypesEnv [] 5 blockDigest nodeTypesRegistry raw').run =
        some (.error (.panic "reflect.Set: value of type int64 is not assignable to type int")) :=
  ⟨rfl, ⟨_, rfl, rfl⟩, _, _, _, rfl, rfl, rfl, rfl⟩

end Neo4jEngine

end DigitalTwin
