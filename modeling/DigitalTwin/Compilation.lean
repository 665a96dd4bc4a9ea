/-
Package `compilation`: a `Recorder` collects graph mutations as `Step`s, `Encode` and
`Decode` carry them across processes with gob, and `Replay` applies them to a
`GraphWriter`, the relationship steps through package `assert`.

A node is a `digitaltwin.Value` interface value: its dynamic type and its value, as the
reflective content address reads them. Replay runs over any writer; `recordingWriter` is one
that never fails and keeps the calls it receives, answering each `RetractEdges` with any
count at all, so the call sequence of a replay is stated over every such writer at once.

`Decode(Encode(steps))` is modelled by what gob delivers rather than by its wire format:
gob sends the exported fields of a struct and leaves the others at their zero value on the
other side; it omits a struct field whose value is zero by its own test, which counts a
negative zero float as zero, so that field arrives as the positive zero; a pointer whose
target it omits arrives nil; an interface value needs its dynamic type registered. A
`retractEdges` step sends its kind as the zero value of that kind inside an interface, which
gob refuses for a pointer kind.

`Targets` is modelled with its consumer: the body of the range-over-func loop is a function
`yield` from the consumer's state and a node to its next state and whether to go on. Over
it stands what `Targets` is for, `firstByAddress`: the first node of each content address,
in the order the steps' own `Targets` give them.
-/
import DigitalTwin.Assert
import DigitalTwin.Reflect

set_option autoImplicit false

namespace DigitalTwin.Compilation

/-- A `digitaltwin.Value`: the dynamic type and value of the interface. -/
abbrev Node := GoType × GoValue

/-- The eight `Step` implementations, with the values they hold. -/
inductive Step
  | assertNode (node : Node)
  | retractNode (node : Node)
  | assertEdge (source target : Node)
  | retractEdges (node : Node) (kind : GoType)
  | assertOneToOne (source target : Node)
  | assertOneToMany (source target : Node)
  | assertManyToOne (source target : Node)
  | assertManyToMany (source target : Node)

/-- `Recorder`: the steps recorded so far, in order. -/
structure Recorder where
  steps : List Step

namespace Recorder

/-- The zero `Recorder`, ready to use. -/
def zero : Recorder := ⟨[]⟩

/-- Append one step: the body of every recording method. -/
def record (r : Recorder) (s : Step) : Recorder := ⟨r.steps ++ [s]⟩

/-- `Recorder.AssertNode`. -/
def assertNode (r : Recorder) (node : Node) : Recorder := r.record (.assertNode node)

/-- `Recorder.RetractNode`. -/
def retractNode (r : Recorder) (node : Node) : Recorder := r.record (.retractNode node)

/-- `Recorder.AssertEdge`. -/
def assertEdge (r : Recorder) (source target : Node) : Recorder :=
  r.record (.assertEdge source target)

/-- `Recorder.RetractEdges`. -/
def retractEdges (r : Recorder) (node : Node) (kind : GoType) : Recorder :=
  r.record (.retractEdges node kind)

/-- `Recorder.AssertOneToOne`. -/
def assertOneToOne (r : Recorder) (source target : Node) : Recorder :=
  r.record (.assertOneToOne source target)

/-- `Recorder.AssertOneToMany`. -/
def assertOneToMany (r : Recorder) (source target : Node) : Recorder :=
  r.record (.assertOneToMany source target)

/-- `Recorder.AssertManyToOne`. -/
def assertManyToOne (r : Recorder) (source target : Node) : Recorder :=
  r.record (.assertManyToOne source target)

/-- `Recorder.AssertManyToMany`. -/
def assertManyToMany (r : Recorder) (source target : Node) : Recorder :=
  r.record (.assertManyToMany source target)

/-- `Recorder.Reset`. -/
def reset (_ : Recorder) : Recorder := zero

end Recorder

/-! ## `Replay` -/

section Replay

variable {σ : Type} (w : GraphWriter σ Node GoType)

/-- `Step.Do`: the writer call a step makes, or the relationship assertion, whose kinds are
the dynamic types of its nodes. -/
def Step.run (s : σ) : Step → Except Failure σ
  | .assertNode n => w.assertNode s n
  | .retractNode n => w.retractNode s n
  | .assertEdge a b => w.assertEdge s a b
  | .retractEdges n k => (w.retractEdges s n k).map (·.1)
  | .assertOneToOne a b => w.oneToOne Prod.fst s a b
  | .assertOneToMany a b => w.oneToMany Prod.fst s a b
  | .assertManyToOne a b => w.manyToOne Prod.fst s a b
  | .assertManyToMany a b => w.manyToMany s a b

/-- `Replay(steps)` run on the writer: each step in order, stopping at the first failure. -/
def replay (steps : List Step) (s : σ) : Except Failure σ := steps.foldlM (Step.run w) s

end Replay

/-- One call made on a `GraphWriter`. -/
inductive WriterCall
  | assertNode (node : Node)
  | retractNode (node : Node)
  | assertEdge (source target : Node)
  | retractEdges (node : Node) (kind : GoType)

/-- A writer that never fails and keeps the calls it receives; `count` is what each
`RetractEdges` returns, given the calls made before it. -/
def recordingWriter (count : List WriterCall → Node → GoType → Nat) :
    GraphWriter (List WriterCall) Node GoType where
  assertNode cs n := .ok (cs ++ [.assertNode n])
  retractNode cs n := .ok (cs ++ [.retractNode n])
  assertEdge cs a b := .ok (cs ++ [.assertEdge a b])
  retractEdges cs n k := .ok (cs ++ [.retractEdges n k], count cs n k)

section RecordingWriter

variable (count : List WriterCall → Node → GoType → Nat) (cs : List WriterCall) (a b : Node)

@[simp] theorem recordingWriter_assertNode :
    (recordingWriter count).assertNode cs a = .ok (cs ++ [.assertNode a]) := rfl

@[simp] theorem recordingWriter_retractNode :
    (recordingWriter count).retractNode cs a = .ok (cs ++ [.retractNode a]) := rfl

@[simp] theorem recordingWriter_assertEdge :
    (recordingWriter count).assertEdge cs a b = .ok (cs ++ [.assertEdge a b]) := rfl

@[simp] theorem recordingWriter_retractEdges (k : GoType) :
    (recordingWriter count).retractEdges cs a k = .ok (cs ++ [.retractEdges a k], count cs a k) :=
  rfl

end RecordingWriter

/-- The calls a step makes on a writer whose `RetractEdges` never reports more than one
edge: a relationship retracts on each end it bounds, from the source first, then asserts the
edge. -/
def Step.writerCalls : Step → List WriterCall
  | .assertNode n => [.assertNode n]
  | .retractNode n => [.retractNode n]
  | .assertEdge a b => [.assertEdge a b]
  | .retractEdges n k => [.retractEdges n k]
  | .assertOneToOne a b => [.retractEdges a b.1, .retractEdges b a.1, .assertEdge a b]
  | .assertOneToMany a b => [.retractEdges b a.1, .assertEdge a b]
  | .assertManyToOne a b => [.retractEdges a b.1, .assertEdge a b]
  | .assertManyToMany a b => [.assertEdge a b]

section Recording

variable {count : List WriterCall → Node → GoType → Nat} (hc : ∀ cs n k, count cs n k ≤ 1)
include hc

/-- A retraction on the recording writer records itself when the relationship bounds its
end of the edge, and nothing else. -/
theorem recordingWriter_retractAtMostOne (bounded : Bool) (relationship direction pre : String)
    (cs : List WriterCall) (n : Node) (kind : GoType) :
    (recordingWriter count).retractAtMostOne bounded relationship direction pre cs n kind =
      .ok (if bounded then cs ++ [.retractEdges n kind] else cs) :=
  GraphWriter.retractAtMostOne_of_le_one _ rfl (hc _ _ _) _ _ _ _

/-- One step on the recording writer appends its own calls. -/
theorem Step.run_recordingWriter (cs : List WriterCall) (st : Step) :
    st.run (recordingWriter count) cs = .ok (cs ++ st.writerCalls) := by
  cases st <;>
    simp [Step.run, Step.writerCalls, GraphWriter.oneToOne, GraphWriter.oneToMany,
      GraphWriter.manyToOne, GraphWriter.manyToMany, GraphWriter.assertRelationship,
      recordingWriter_retractAtMostOne hc, wrapErr, Except.map]

/-- **`Replay` is the concatenation of its steps.** On a writer that never fails and never
reports more than one retracted edge, replaying a step list issues each step's own calls, in
recording order. -/
theorem replay_recordingWriter (steps : List Step) (cs : List WriterCall) :
    replay (recordingWriter count) steps cs = .ok (cs ++ steps.flatMap Step.writerCalls) := by
  induction steps generalizing cs with
  | nil => simp [replay]
  | cons st steps ih =>
    simp only [replay, List.foldlM_cons, Step.run_recordingWriter hc, ok_bind] at ih ⊢
    simp [ih]

end Recording

/-! ## `Encode` and `Decode` -/

section Gob

variable (env : Env) (registered : GoType → Bool)

/-- gob's test for leaving a value out, on a basic kind: a float is zero when it compares
equal to zero, so a negative zero counts. -/
def gobIsZero : GoType → GoValue → Bool
  | .bool, .bool b => !b
  | .float32, .float bits => bits % 2 ^ 31 == 0
  | .float64, .float bits => bits % 2 ^ 63 == 0
  | _, .int i => i == 0
  | _, .uint n => n == 0
  | _, .string s => s.isEmpty
  | _, _ => false

/-- How gob sends a non-nil interface value: its dynamic type must be registered and may not
be a nil pointer; what arrives has that type and the value `send` delivers, which is never
left out. -/
def gobInterface (send : GoType → GoValue → ExceptT String Option (Option GoValue))
    (d : GoType × GoValue) : ExceptT String Option (GoType × GoValue) :=
  if !registered d.1 then throw ("gob: type not registered for interface: " ++ d.1.toString)
  else
    match d.1.resolve env, d.2 with
    | some (.ptr _), .ptr none =>
      throw ("gob: cannot encode nil pointer of type " ++ d.1.toString ++ " inside interface")
    | _, _ => (fun w => (d.1, w.getD d.2)) <$> send d.1 d.2

/-- What arrives on the other side of gob for a value `v` of type `t`, or `none` when gob
leaves it out: a zero basic value, an empty slice, a nil pointer or interface, unless
`sendZero`, which holds for the elements of arrays and slices and for the value inside an
interface. A struct is always sent, with its exported fields; the receiver's other fields
keep their zero value. A pointer is followed, and arrives nil when what it points to is
left out. Kinds this model does not break down go through unchanged. -/
def gobValue : Nat → Bool → GoType → GoValue → ExceptT String Option (Option GoValue)
  | 0, _, _, _ => ExceptT.lift none
  | fuel + 1, sendZero, t, v =>
    match t.resolve env, v with
    | some (.struct fs), .struct vs =>
      if !fs.isEmpty && !fs.any (isExported ·.1) then
        throw ("gob: type " ++ t.toString ++ " has no exported fields")
      else
        (some ∘ .struct) <$> (fs.zip vs).mapM fun p => do
          let sent ← if isExported p.1.1 then gobValue fuel false p.1.2.2 p.2 else pure none
          match sent with
          | some w => pure w
          | none => ExceptT.lift (zeroValue env fuel p.1.2.2)
    | some (.array _ e), .elems vs =>
      (some ∘ .elems) <$> vs.mapM fun w => (·.getD w) <$> gobValue fuel true e w
    | some (.slice e), .elems vs =>
      if !sendZero && vs.isEmpty then pure none
      else (some ∘ .elems) <$> vs.mapM fun w => (·.getD w) <$> gobValue fuel true e w
    | some (.ptr _), .ptr none =>
      if sendZero then throw "gob: encodeArray: nil element" else pure none
    | some (.ptr e), .ptr (some w) => Option.map (.ptr ∘ some) <$> gobValue fuel sendZero e w
    | some .iface, .iface none => pure (if sendZero then some (.iface none) else none)
    | some .iface, .iface (some d) =>
      (some ∘ .iface ∘ some) <$> gobInterface env registered (gobValue fuel true) d
    | some u, v => pure (if !sendZero && gobIsZero u v then none else some v)
    | none, _ => ExceptT.lift none

/-- A node, the value of an exported interface field of its step, as it arrives. -/
def gobNode (fuel : Nat) (n : Node) : ExceptT String Option Node :=
  gobInterface env registered (gobValue env registered fuel true) n

/-- `retractEdges.GobEncode` and `GobDecode` on the kind: the zero value of the kind is sent
as an interface value, and the kind that arrives is the dynamic type of what is decoded. -/
def gobKind (fuel : Nat) (k : GoType) : ExceptT String Option GoType := do
  let z ← ExceptT.lift (zeroValue env fuel k)
  (·.1) <$> gobNode env registered fuel (k, z)

/-- A step as it arrives: each registered step struct sends its node fields in order. -/
def Step.gob (fuel : Nat) : Step → ExceptT String Option Step
  | .assertNode n => .assertNode <$> gobNode env registered fuel n
  | .retractNode n => .retractNode <$> gobNode env registered fuel n
  | .assertEdge a b => do
    let a ← gobNode env registered fuel a
    .assertEdge a <$> gobNode env registered fuel b
  | .retractEdges n k => do
    let n ← gobNode env registered fuel n
    .retractEdges n <$> gobKind env registered fuel k
  | .assertOneToOne a b => do
    let a ← gobNode env registered fuel a
    .assertOneToOne a <$> gobNode env registered fuel b
  | .assertOneToMany a b => do
    let a ← gobNode env registered fuel a
    .assertOneToMany a <$> gobNode env registered fuel b
  | .assertManyToOne a b => do
    let a ← gobNode env registered fuel a
    .assertManyToOne a <$> gobNode env registered fuel b
  | .assertManyToMany a b => do
    let a ← gobNode env registered fuel a
    .assertManyToMany a <$> gobNode env registered fuel b

/-- `Decode(Encode(steps))`: the steps as they arrive, or `Encode`'s wrapped error. Once
`Encode` succeeds, `Decode` of its bytes does too. -/
def decodeEncode (fuel : Nat) (steps : List Step) : ExceptT String Option (List Step) :=
  ExceptT.adapt ("gob encode: " ++ ·) (steps.mapM (Step.gob env registered fuel))

/-! ### What survives the trip -/

/-- A computation that may fail or diverge succeeds exactly when both of its halves do. -/
theorem run_bind_eq_some_ok {ε α β : Type} {x : ExceptT ε Option α} {f : α → ExceptT ε Option β}
    {b : β} : (x >>= f).run = some (.ok b) ↔ ∃ a, x.run = some (.ok a) ∧ (f a).run = some (.ok b) := by
  rw [ExceptT.run_bind]
  rcases x.run with _ | _ | a <;> simp [ExceptT.bindCont]

/-- A mapped computation succeeds with the image of its own success. -/
theorem run_map_eq_some_ok {ε α β : Type} {x : ExceptT ε Option α} {f : α → β} {b : β} :
    (f <$> x).run = some (.ok b) ↔ ∃ a, x.run = some (.ok a) ∧ f a = b := by
  rw [ExceptT.run_map]
  rcases x.run with _ | _ | a <;> simp [Except.map]

/-- Wrapping the error leaves a success as it is. -/
theorem run_adapt_eq_some_ok {ε ε' α : Type} {f : ε → ε'} {x : ExceptT ε Option α} {a : α} :
    (ExceptT.adapt f x).run = some (.ok a) ↔ x.run = some (.ok a) := by
  show Except.mapError f <$> x.run = _ ↔ _
  rcases x.run with _ | _ | b <;> simp [Except.mapError]

/-- A node arrives with its dynamic type. -/
theorem gobInterface_type {send : GoType → GoValue → ExceptT String Option (Option GoValue)}
    {d d' : GoType × GoValue} (h : (gobInterface env registered send d).run = some (.ok d')) :
    d'.1 = d.1 := by
  simp only [gobInterface] at h
  split_ifs at h
  · cases h
  · split at h
    · cases h
    · obtain ⟨w, -, rfl⟩ := run_map_eq_some_ok.mp h
      rfl

/-- A `RetractEdges` kind arrives as itself. -/
theorem gobKind_eq {fuel : Nat} {k k' : GoType}
    (h : (gobKind env registered fuel k).run = some (.ok k')) : k' = k := by
  obtain ⟨z, -, h⟩ := run_bind_eq_some_ok.mp h
  obtain ⟨d, hd, rfl⟩ := run_map_eq_some_ok.mp h
  exact gobInterface_type env registered hd

/-- A step with two node fields arrives as the same step on two nodes of the same types. -/
theorem gobNode_pair {fuel : Nat} {C : Node → Node → Step} {a b : Node} {st' : Step}
    (h : (gobNode env registered fuel a >>= fun a' => C a' <$> gobNode env registered fuel b).run =
      some (.ok st')) :
    ∃ a' b', st' = C a' b' ∧ a'.1 = a.1 ∧ b'.1 = b.1 := by
  obtain ⟨a', ha, h⟩ := run_bind_eq_some_ok.mp h
  obtain ⟨b', hb, rfl⟩ := run_map_eq_some_ok.mp h
  exact ⟨a', b', rfl, gobInterface_type env registered ha, gobInterface_type env registered hb⟩

/-- Two writer calls of one method whose node arguments have the same dynamic types, and whose
kinds are equal: all that `reflect.TypeOf` sees of them. -/
def WriterCall.sameKinds : WriterCall → WriterCall → Prop
  | .assertNode a, .assertNode b => a.1 = b.1
  | .retractNode a, .retractNode b => a.1 = b.1
  | .assertEdge a b, .assertEdge c d => a.1 = c.1 ∧ b.1 = d.1
  | .retractEdges a k, .retractEdges b k' => a.1 = b.1 ∧ k = k'
  | _, _ => False

/-- A step that arrives makes the calls the sent step makes, on arguments of the same kinds. -/
theorem Step.gob_sameKinds {fuel : Nat} {st st' : Step}
    (h : (st.gob env registered fuel).run = some (.ok st')) :
    List.Forall₂ WriterCall.sameKinds st.writerCalls st'.writerCalls := by
  cases st with
  | assertNode n | retractNode n =>
    obtain ⟨n', hn, rfl⟩ := run_map_eq_some_ok.mp h
    exact .cons (gobInterface_type env registered hn).symm .nil
  | retractEdges n k =>
    obtain ⟨n', hn, h⟩ := run_bind_eq_some_ok.mp h
    obtain ⟨k', hk, rfl⟩ := run_map_eq_some_ok.mp h
    exact .cons ⟨(gobInterface_type env registered hn).symm, (gobKind_eq env registered hk).symm⟩ .nil
  | assertEdge a b | assertOneToOne a b | assertOneToMany a b | assertManyToOne a b
  | assertManyToMany a b =>
    obtain ⟨a', b', rfl, ha, hb⟩ := gobNode_pair env registered h
    simp [Step.writerCalls, WriterCall.sameKinds, ha, hb]

/-- A list computation that succeeds succeeds on every element, in order. -/
theorem mapM_run_eq_some_ok {ε α β : Type} {f : α → ExceptT ε Option β} {xs : List α}
    {ys : List β} (h : (xs.mapM f).run = some (.ok ys)) :
    List.Forall₂ (fun x y => (f x).run = some (.ok y)) xs ys := by
  induction xs generalizing ys with
  | nil => cases h; exact .nil
  | cons x xs ih =>
    simp only [List.mapM_cons] at h
    obtain ⟨y, hy, h⟩ := run_bind_eq_some_ok.mp h
    obtain ⟨ys', hys, h⟩ := run_bind_eq_some_ok.mp h
    cases h
    exact .cons hy (ih hys)

variable {count : List WriterCall → Node → GoType → Nat} (hc : ∀ cs n k, count cs n k ≤ 1)
include hc

/-- **What survives `Decode(Encode(·))`**: on a writer that never fails and never reports
more than one retracted edge, the decoded steps replay to the same calls as the recorded
ones, in the same order, on arguments of the same dynamic types and kinds. -/
theorem replay_decodeEncode_sameKinds {fuel : Nat} {steps decoded : List Step}
    (h : (decodeEncode env registered fuel steps).run = some (.ok decoded)) :
    ∃ calls calls', replay (recordingWriter count) steps [] = .ok calls ∧
      replay (recordingWriter count) decoded [] = .ok calls' ∧
      List.Forall₂ WriterCall.sameKinds calls calls' := by
  have hs := run_adapt_eq_some_ok.mp h
  refine ⟨_, _, replay_recordingWriter hc steps [], replay_recordingWriter hc decoded [], ?_⟩
  exact List.rel_flatMap ((mapM_run_eq_some_ok hs).imp fun _ _ => Step.gob_sameKinds env registered)
    fun _ _ h => h

end Gob

/-- **The content address does not survive the trip.** A node of a registered type whose
exported float field holds a negative zero: gob leaves the field out as zero, so it arrives
as the positive zero. The decoded step replays to the same call, on a node of the same
type, but the bytes its content address is computed from differ in the sign bit, and so
does the stand-in digest of them. And a registered type whose only field is unexported, as
a type that content-addresses itself over private state may be, does not encode at all.
Both types are declared in package `digitaltwin`, the one place a type can have `Value`'s
unexported method without embedding `InformationElement`. -/
theorem decodeEncode_changes_content_address :
    let env : Env :=
      [((digitaltwinPkgPath, "Reading"),
          ⟨.struct [("Sensor", false, .string), ("Celsius", false, .float64)], .none, .none⟩),
        ((digitaltwinPkgPath, "Serial"), ⟨.struct [("serial", false, .string)],
          ⟨some fun v => .ok (match v with | .struct [.string s] => stringBytes s | _ => []),
            none⟩, .none⟩)]
    let n : Node := (.named digitaltwinPkgPath "Reading", .struct [.string "s1", .float (2 ^ 63)])
    let steps := (Recorder.zero.assertNode n).steps
    let w := recordingWriter fun _ _ _ => 0
    (∃ decoded n', (decodeEncode env (fun _ => true) 4 steps).run = some (.ok decoded) ∧
      replay w steps [] = .ok [.assertNode n] ∧ replay w decoded [] = .ok [.assertNode n'] ∧
      n'.1 = n.1 ∧
      ∃ bs bs', (contentAddressInput env 4 n.1 n.2).run = some (.ok bs) ∧
        (contentAddressInput env 4 n'.1 n'.2).run = some (.ok bs') ∧
        bs ≠ bs' ∧ blockDigest bs ≠ blockDigest bs') ∧
    (decodeEncode env (fun _ => true) 4
        [.assertNode (.named digitaltwinPkgPath "Serial", .struct [.string "A1"])]).run =
      some (.error "gob encode: gob: type digitaltwin.Serial has no exported fields") :=
  ⟨⟨_, _, rfl, rfl, rfl, rfl, _, _, rfl, rfl, by decide, by decide⟩, rfl⟩

/-! ## `Targets` -/

/-- `Step.Targets`: the nodes a step yields, in its own order (the node, or the two ends). -/
def Step.targets : Step → List Node
  | .assertNode n | .retractNode n | .retractEdges n _ => [n]
  | .assertEdge a b | .assertOneToOne a b | .assertOneToMany a b | .assertManyToOne a b
  | .assertManyToMany a b => [a, b]

/-- The nodes a writer call is passed; a `RetractEdges` kind is a type, not a node. -/
def WriterCall.nodes : WriterCall → List Node
  | .assertNode n | .retractNode n | .retractEdges n _ => [n]
  | .assertEdge a b => [a, b]

section Targets

variable {σ : Type} (yield : σ → Node → σ × Bool)

/-- The loop of `Targets` over the targets of all steps in order (the two nested loops of the
code, flattened): each target's `MustContentAddress`, skipped if already seen, else recorded
and yielded, returning as soon as `yield` says `false`. The result is the consumer's state,
or the panic of `MustContentAddress`. -/
def targetsLoop (hash : Node → Except Failure NodeHash) :
    List NodeHash → List Node → σ → Except Failure σ
  | _, [], s => .ok s
  | seen, n :: ns, s => do
    let ca ← hash n
    if ca ∈ seen then targetsLoop hash seen ns s
    else match yield s n with
      | (s, true) => targetsLoop hash (ca :: seen) ns s
      | (s, false) => .ok s

/-- `Targets(steps)` run by a range-over-func loop whose body is `yield`. -/
def targets (hash : Node → Except Failure NodeHash) (steps : List Step) (s : σ) :
    Except Failure σ :=
  targetsLoop yield hash [] (steps.flatMap Step.targets) s

/-- A range-over-func loop over a list: push each element through `yield`, and stop after
the first `false`. -/
def yieldAll : List Node → σ → σ
  | [], s => s
  | n :: ns, s => match yield s n with
    | (s, true) => yieldAll ns s
    | (s, false) => s

end Targets

/-- The first node of each content address, in order, leaving out the addresses in `seen`. -/
def firstByAddress (ca : Node → NodeHash) : List NodeHash → List Node → List Node
  | _, [] => []
  | seen, n :: ns =>
    if ca n ∈ seen then firstByAddress ca seen ns else n :: firstByAddress ca (ca n :: seen) ns

section FirstByAddress

variable (ca : Node → NodeHash)

/-- **`Targets` is a loop over the first node of each address.** When every node has a content
address, `Targets` pushes `firstByAddress` of the steps' targets through `yield`, stopping
at the first `false`. -/
theorem targetsLoop_eq {σ : Type} (yield : σ → Node → σ × Bool) (seen : List NodeHash)
    (ns : List Node) (s : σ) :
    targetsLoop yield (fun n => .ok (ca n)) seen ns s =
      .ok (yieldAll yield (firstByAddress ca seen ns) s) := by
  induction ns generalizing seen s with
  | nil => rfl
  | cons n ns ih =>
    by_cases h : ca n ∈ seen
    · simp [targetsLoop, firstByAddress, h, ih, bind, Except.bind]
    · simp only [targetsLoop, firstByAddress, h, if_false, yieldAll]
      rcases yield s n with ⟨s', _ | _⟩ <;> simp [ih, bind, Except.bind, h]

theorem ca_not_mem_of_mem_firstByAddress {seen : List NodeHash} {ns : List Node} {y : Node}
    (hy : y ∈ firstByAddress ca seen ns) : ca y ∉ seen := by
  induction ns generalizing seen with
  | nil => simp [firstByAddress] at hy
  | cons n ns ih =>
    unfold firstByAddress at hy
    split at hy
    · exact ih hy
    · rcases List.mem_cons.1 hy with rfl | hy
      · assumption
      · exact fun h => ih hy (List.mem_cons_of_mem _ h)

theorem nodup_firstByAddress (seen : List NodeHash) (ns : List Node) :
    ((firstByAddress ca seen ns).map ca).Nodup := by
  induction ns generalizing seen with
  | nil => simp [firstByAddress]
  | cons n ns ih =>
    unfold firstByAddress
    split
    · exact ih seen
    · refine List.nodup_cons.2 ⟨?_, ih _⟩
      simp only [List.mem_map, not_exists, not_and]
      intro y hy hca
      exact ca_not_mem_of_mem_firstByAddress ca hy (hca ▸ List.mem_cons_self _ _)

theorem mem_of_mem_firstByAddress {seen : List NodeHash} {ns : List Node} {y : Node}
    (hy : y ∈ firstByAddress ca seen ns) : y ∈ ns := by
  induction ns generalizing seen with
  | nil => simp [firstByAddress] at hy
  | cons n ns ih =>
    unfold firstByAddress at hy
    split at hy
    · exact List.mem_cons_of_mem _ (ih hy)
    · rcases List.mem_cons.1 hy with rfl | hy
      · exact List.mem_cons_self _ _
      · exact List.mem_cons_of_mem _ (ih hy)

/-- Every node kept is the first of its address, among the nodes whose address was not
already seen. -/
theorem first_of_mem_firstByAddress {seen : List NodeHash} {ns : List Node} {y : Node}
    (hy : y ∈ firstByAddress ca seen ns) :
    ∃ pre post, ns = pre ++ y :: post ∧ ∀ n ∈ pre, ca n ≠ ca y := by
  induction ns generalizing seen with
  | nil => simp [firstByAddress] at hy
  | cons n ns ih =>
    unfold firstByAddress at hy
    split at hy
    · obtain ⟨pre, post, rfl, hpre⟩ := ih hy
      refine ⟨n :: pre, post, rfl, ?_⟩
      simp only [List.mem_cons, forall_eq_or_imp]
      exact ⟨fun h => ca_not_mem_of_mem_firstByAddress ca hy (h ▸ ‹_›), hpre⟩
    · rcases List.mem_cons.1 hy with rfl | hy
      · exact ⟨[], ns, rfl, by simp⟩
      · obtain ⟨pre, post, rfl, hpre⟩ := ih hy
        refine ⟨n :: pre, post, rfl, ?_⟩
        simp only [List.mem_cons, forall_eq_or_imp]
        exact ⟨fun h => ca_not_mem_of_mem_firstByAddress ca hy (h ▸ List.mem_cons_self _ _), hpre⟩

/-- An address is kept exactly when some node has it and it was not already seen. -/
theorem exists_mem_firstByAddress (seen : List NodeHash) (ns : List Node) (h : NodeHash) :
    (∃ y ∈ firstByAddress ca seen ns, ca y = h) ↔ h ∉ seen ∧ ∃ n ∈ ns, ca n = h := by
  induction ns generalizing seen with
  | nil => simp [firstByAddress]
  | cons n ns ih =>
    unfold firstByAddress
    split
    · rename_i hn
      rw [ih]
      simp only [List.mem_cons, exists_eq_or_imp]
      constructor
      · rintro ⟨hs, he⟩
        exact ⟨hs, Or.inr he⟩
      · rintro ⟨hs, rfl | he⟩
        · exact absurd hn hs
        · exact ⟨hs, he⟩
    · rename_i hn
      simp only [List.mem_cons, exists_eq_or_imp, ih, not_or]
      constructor
      · rintro (rfl | ⟨⟨-, hs⟩, he⟩)
        · exact ⟨hn, Or.inl rfl⟩
        · exact ⟨hs, Or.inr he⟩
      · rintro ⟨hs, rfl | he⟩
        · exact Or.inl rfl
        · by_cases hh : ca n = h
          · exact Or.inl hh
          · exact Or.inr ⟨⟨Ne.symm hh, hs⟩, he⟩

end FirstByAddress

/-- A step's targets are the nodes its writer calls are passed, as sets. -/
theorem mem_targets_iff (st : Step) (n : Node) :
    n ∈ st.targets ↔ n ∈ st.writerCalls.flatMap WriterCall.nodes := by
  cases st <;> simp [Step.targets, Step.writerCalls, WriterCall.nodes] <;> tauto

theorem mem_flatMap_targets_iff (steps : List Step) (n : Node) :
    n ∈ steps.flatMap Step.targets ↔
      n ∈ (steps.flatMap Step.writerCalls).flatMap WriterCall.nodes := by
  simp only [List.mem_flatMap, mem_targets_iff]
  constructor
  · rintro ⟨st, hst, c, hc, hn⟩
    exact ⟨c, ⟨st, hst, hc⟩, hn⟩
  · rintro ⟨c, ⟨st, hst, hc⟩, hn⟩
    exact ⟨st, hst, c, hc, hn⟩

/-- **`Targets` yields the touched nodes, once per content address.** When every node has a
content address `ca`: `Targets` pushes through `yield`, until the first `false`, the list
of the first node of each address in the steps' target order; no address comes twice; each
node yielded is the first of its address in that order; and, replayed on a writer that never
fails, the steps pass the writer every node yielded and no other address. -/
theorem targets_yields_writer_nodes (ca : Node → NodeHash)
    {count : List WriterCall → Node → GoType → Nat} (hc : ∀ cs n k, count cs n k ≤ 1)
    (steps : List Step) :
    let ys := firstByAddress ca [] (steps.flatMap Step.targets)
    (∀ {σ : Type} (yield : σ → Node → σ × Bool) (s : σ),
      targets yield (fun n => .ok (ca n)) steps s = .ok (yieldAll yield ys s)) ∧
    (ys.map ca).Nodup ∧
    (∀ y ∈ ys, ∃ pre post, steps.flatMap Step.targets = pre ++ y :: post ∧
      ∀ n ∈ pre, ca n ≠ ca y) ∧
    ∃ calls, replay (recordingWriter count) steps [] = .ok calls ∧
      (∀ y ∈ ys, y ∈ calls.flatMap WriterCall.nodes) ∧
      ∀ h, (∃ y ∈ ys, ca y = h) ↔ ∃ n ∈ calls.flatMap WriterCall.nodes, ca n = h := by
  refine ⟨fun yield s => targetsLoop_eq ca yield _ _ s, nodup_firstByAddress ca _ _,
    fun y hy => first_of_mem_firstByAddress ca hy, _, replay_recordingWriter hc steps [],
    fun y hy => ?_, fun h => ?_⟩
  · simpa only [List.nil_append, ← mem_flatMap_targets_iff] using mem_of_mem_firstByAddress ca hy
  · simp only [exists_mem_firstByAddress, List.nil_append, ← mem_flatMap_targets_iff,
      List.not_mem_nil, not_false_eq_true, true_and]

/-- An instance: one `AssertOneToMany` on a writer that reports no retracted edge. -/
theorem targets_yields_writer_nodes_oneToMany :
    (∀ cs n k, (fun (_ : List WriterCall) (_ : Node) (_ : GoType) => 0) cs n k ≤ 1) ∧
    let ca : Node → NodeHash := fun _ => ⟨.zero⟩
    let steps := [Step.assertOneToMany (.int, .int 1) (.int, .int 2)]
    let ys := firstByAddress ca [] (steps.flatMap Step.targets)
    (∀ {σ : Type} (yield : σ → Node → σ × Bool) (s : σ),
      targets yield (fun n => .ok (ca n)) steps s = .ok (yieldAll yield ys s)) ∧
    (ys.map ca).Nodup ∧
    (∀ y ∈ ys, ∃ pre post, steps.flatMap Step.targets = pre ++ y :: post ∧
      ∀ n ∈ pre, ca n ≠ ca y) ∧
    ∃ calls, replay (recordingWriter fun _ _ _ => 0) steps [] = .ok calls ∧
      (∀ y ∈ ys, y ∈ calls.flatMap WriterCall.nodes) ∧
      ∀ h, (∃ y ∈ ys, ca y = h) ↔ ∃ n ∈ calls.flatMap WriterCall.nodes, ca n = h :=
  ⟨fun _ _ _ => Nat.zero_le 1, targets_yields_writer_nodes _ (fun _ _ _ => Nat.zero_le 1) _⟩

/-- **`Targets` does not follow the writer's order.** `AssertOneToMany(s, t)` first retracts
the edges into `t`, so the writer is passed `t` before `s`, while `Targets` yields `s`
first. -/
theorem targets_order_differs_from_writer :
    let s : Node := (.int, .int 1)
    let t : Node := (.int, .int 2)
    let ca : Node → NodeHash := fun n => ⟨.fill (match n.2 with | .int i => i.toNat.toUInt8 | _ => 0)⟩
    targets (fun ys n => (ys ++ [n], true)) (fun n => .ok (ca n)) [.assertOneToMany s t] [] =
        .ok [s, t] ∧
      replay (recordingWriter fun _ _ _ => 0) [.assertOneToMany s t] [] =
        .ok [.retractEdges t .int, .assertEdge s t] :=
  ⟨rfl, rfl⟩

end DigitalTwin.Compilation
