/-
How `neo4jengine` keeps a node in the graph and reads it back (`assertNode` in
`src/neo4jengine/writer.go`, `newRawNode` in `src/neo4jengine/noderegistry.go`), and how
`RewriteNodesContentAddress` (`src/neo4jengine/compatibility.go`) brings the nodes an older
release stored to the form this one reads.

`assertNode` merges on the label and the content address, written as the hex text of
`MarshalText` under `_contentAddress`; a node it creates gets `_created_at`. It then sets the
raw node's properties as the driver converts them, removes the nil ones, and sets
`_last_modified`. `newRawNode` files every property whose name starts with `_` as metadata
and the rest as properties, and decodes `_contentAddress` with `UnmarshalText`
(`newRawNode_eq_ok`). So a node whose property names are not empty and do not start with
`_` reads back with its own label and content address, every property as the driver stored
it, and as metadata exactly `_contentAddress` and the two timestamps
(`newRawNode_storedNode`); asserted again, it keeps its `_created_at`
(`newRawNode_storedNode_again`). The hex digits are ASCII, so the text's bytes are exactly
the bytes `MarshalText` wrote (`stringBytes_hexText`).

The previous release stored `NodeHash.String()`, the same digits inside `node(` and `)`.
`RewriteNodesContentAddress` strips that wrapper wherever it finds it, which turns such a node
into the node this release stores (`rewriteNode_legacy`); and on a graph whose content
addresses are in either form, a second run finds nothing more to rewrite
(`rewriteNodesContentAddress_idem`). On any other string it is not idempotent: a value
wrapped twice loses one wrapper on each run.
-/
import DigitalTwin.NodeRegistry
import DigitalTwin.Snapshot

set_option autoImplicit false

namespace DigitalTwin

namespace Neo4jEngine

/-! ## The content address as text -/

/-- The two nibbles `hex.Encode` splits a byte into. -/
theorem nibbles_lt : ∀ b : UInt8, b >>> 4 < 16 ∧ b &&& 0x0f < 16 := by
  intro ⟨b⟩; revert b; decide

/-- The digit of a nibble is ASCII, one byte of UTF-8 that is itself, and never `n`. -/
theorem utf8EncodeChar_hexDigit : ∀ n : UInt8, n < 16 →
    String.utf8EncodeChar (Char.ofNat (hexDigit n).toNat) = [hexDigit n] ∧
      Char.ofNat (hexDigit n).toNat ≠ 'n' := by
  intro ⟨n⟩; revert n; decide

/-- The two hex digits of a byte are ASCII: each is one byte of UTF-8, itself. -/
theorem flatMap_utf8EncodeChar_encodeByte (b : UInt8) :
    ((encodeByte b).map fun c => Char.ofNat c.toNat).flatMap String.utf8EncodeChar =
      encodeByte b := by
  simp only [encodeByte, List.map_cons, List.map_nil, List.flatMap_cons, List.flatMap_nil,
    (utf8EncodeChar_hexDigit _ (nibbles_lt b).1).1, (utf8EncodeChar_hexDigit _ (nibbles_lt b).2).1]
  rfl

/-- The UTF-8 bytes of the hex text of a node hash are the bytes `MarshalText` wrote. -/
theorem stringBytes_hexText (h : NodeHash) :
    stringBytes (hexText h) = marshalText h.toContentAddress := by
  show ((h.bytes.flatMap encodeByte).map _).flatMap _ = h.bytes.flatMap encodeByte
  induction h.bytes with
  | nil => rfl
  | cons b bs ih =>
    rw [List.flatMap_cons, List.map_append, List.flatMap_append, ih,
      flatMap_utf8EncodeChar_encodeByte]

/-- `UnmarshalText` of the hex text of a node hash, into any receiver, gives that hash. -/
theorem unmarshalText_hexText (h₀ h : NodeHash) :
    NodeHash.unmarshalText h₀ (stringBytes (hexText h)) = .ok (h, none) := by
  rw [stringBytes_hexText, NodeHash.unmarshalText, unmarshalText_marshalText]
  rfl

/-! ## Writing: the properties `assertNode` sets -/

section Write

variable (env : Env)

/-- The loop of `storedNode` over the properties: a key it writes holds what the driver makes
of its property, a key of a nil property holds nothing, and every other key what it held
before. -/
theorem lookup_foldlM_driverValue {l : List (Sigma fun _ : String => Any)} (hl : l.NodupKeys)
    {acc props : PropertyMap}
    (h : l.foldlM (fun (acc : PropertyMap) p =>
      match p.2 with
      | none => some (acc.erase p.1)
      | some (t, v) => (driverValue env t v).map fun d => acc.insert p.1 (some d)) acc =
        some props)
    (k : String) :
    props.lookup k = (l.dlookup k).elim (acc.lookup k)
      fun a => a.bind fun p => (driverValue env p.1 p.2).map some := by
  induction l generalizing acc with
  | nil => cases Option.some.inj h; rfl
  | cons q l ih =>
    obtain ⟨k', a⟩ := q
    obtain ⟨hq, hl'⟩ := List.nodupKeys_cons.1 hl
    rcases a with _ | ⟨t, v⟩
    · rw [ih hl' h]
      by_cases hk : k = k'
      · subst hk
        simp [List.dlookup_eq_none.2 hq]
      · simp [List.dlookup_cons_ne l ⟨k', _⟩ hk, AList.lookup_erase_ne hk]
    · obtain ⟨d, hd, h⟩ := Option.bind_eq_some.1 (show (Option.map _ _).bind _ = _ from h)
      obtain ⟨d, hdv, rfl⟩ := Option.map_eq_some'.1 hd
      rw [ih hl' h]
      by_cases hk : k = k'
      · subst hk
        simp [List.dlookup_eq_none.2 hq, hdv]
      · simp [List.dlookup_cons_ne l ⟨k', _⟩ hk, AList.lookup_insert_ne hk]

/-- What `storedNode` gives: the raw node's label, and under each key `_last_modified`, else
the raw property as the driver stores it, else what the node held before `SET`. -/
theorem storedNode_eq {datetime : GoType × GoValue} {existing : Option PropertyMap}
    {r : RawNode} {stored : Neo4jNode} (h : storedNode env datetime existing r = some stored) :
    stored.labels = [r.label] ∧ ∀ k, stored.props.lookup k =
      if k = "_last_modified" then some (some datetime)
      else (r.props.lookup k).elim ((existing.getD (createdProps datetime r)).lookup k)
        fun a => a.bind fun p => (driverValue env p.1 p.2).map some := by
  obtain ⟨props, hp, h⟩ := Option.bind_eq_some.1 h
  cases Option.some.inj h
  refine ⟨rfl, fun k => ?_⟩
  split_ifs with hk
  · subst hk
    exact AList.lookup_insert _
  · rw [AList.lookup_insert_ne hk, lookup_foldlM_driverValue env r.props.nodupKeys hp]
    rfl

end Write

/-! ## Reading: `newRawNode` -/

/-- A loop each of whose steps succeeds, as `g` has it, ends as the loop of `g` does. -/
theorem foldlM_eq_ok {ε α β : Type} {f : β → α → Except ε β} {g : β → α → β} :
    ∀ {l : List α}, (∀ x ∈ l, ∀ s, f s x = .ok (g s x)) → ∀ s, l.foldlM f s = .ok (l.foldl g s)
  | [], _, _ => rfl
  | x :: l, h, s => by
    rw [List.foldlM_cons, h x (List.mem_cons_self x l)]
    exact foldlM_eq_ok (fun y hy => h y (List.mem_cons_of_mem x hy)) _

/-- The loop of `newRawNode` that files each property under the properties or the metadata. -/
def splitStep (acc : PropertyMap × PropertyMap) (p : Sigma fun _ : String => Any) :
    PropertyMap × PropertyMap :=
  if (stringBytes p.1).head? = some 95 then (acc.1, acc.2.insert p.1 p.2)
  else (acc.1.insert p.1 p.2, acc.2)

theorem lookup_splitStep_self (acc : PropertyMap × PropertyMap) (k : String) (a : Any) :
    (splitStep acc ⟨k, a⟩).1.lookup k =
        (if (stringBytes k).head? = some 95 then acc.1.lookup k else some a) ∧
      (splitStep acc ⟨k, a⟩).2.lookup k =
        if (stringBytes k).head? = some 95 then some a else acc.2.lookup k := by
  unfold splitStep
  split_ifs <;> simp

theorem lookup_splitStep_ne (acc : PropertyMap × PropertyMap) {k : String}
    {p : Sigma fun _ : String => Any} (hk : k ≠ p.1) :
    (splitStep acc p).1.lookup k = acc.1.lookup k ∧ (splitStep acc p).2.lookup k = acc.2.lookup k := by
  unfold splitStep
  split_ifs <;> simp [AList.lookup_insert_ne hk]

/-- The split keeps each property under its own key, a metadata one among the metadata and
any other among the properties. -/
theorem lookup_foldl_splitStep {l : List (Sigma fun _ : String => Any)} (hl : l.NodupKeys)
    (acc : PropertyMap × PropertyMap) (k : String) :
    let r := l.foldl splitStep acc
    r.1.lookup k = (if (stringBytes k).head? = some 95 then acc.1.lookup k
      else (l.dlookup k).or (acc.1.lookup k)) ∧
    r.2.lookup k = if (stringBytes k).head? = some 95 then (l.dlookup k).or (acc.2.lookup k)
      else acc.2.lookup k := by
  induction l generalizing acc with
  | nil => simp
  | cons q l ih =>
    obtain ⟨k', a⟩ := q
    obtain ⟨hq, hl'⟩ := List.nodupKeys_cons.1 hl
    obtain ⟨ih₁, ih₂⟩ := ih hl' (splitStep acc ⟨k', a⟩)
    dsimp only
    rw [List.foldl_cons, ih₁, ih₂]
    by_cases hk : k = k'
    · subst hk
      obtain ⟨h₁, h₂⟩ := lookup_splitStep_self acc k a
      rw [h₁, h₂, List.dlookup_cons_eq, List.dlookup_eq_none.2 hq]
      split_ifs <;> simp
    · obtain ⟨h₁, h₂⟩ := lookup_splitStep_ne acc (p := ⟨k', a⟩) hk
      rw [h₁, h₂, List.dlookup_cons_ne l ⟨k', a⟩ hk]
      exact ⟨rfl, rfl⟩

/-- **What `newRawNode` reads.** A node with one label, no property of an empty name, and
its content address as hex text under `_contentAddress` reads as a raw node with that label
and content address, the properties whose names start with `_` as its metadata and the rest
as its properties. -/
theorem newRawNode_eq_ok {node : Neo4jNode} {label : String} {h : NodeHash}
    (hl : node.labels = [label]) (hk : ∀ k ∈ node.props, (stringBytes k).head? ≠ none)
    (hca : node.props.lookup "_contentAddress" = some (some (.string, .string (hexText h)))) :
    ∃ props metadata : PropertyMap, newRawNode node = .ok ⟨label, h, props, metadata⟩ ∧
      ∀ k, props.lookup k = (if (stringBytes k).head? = some 95 then none
          else node.props.lookup k) ∧
        metadata.lookup k = if (stringBytes k).head? = some 95 then node.props.lookup k
          else none := by
  refine ⟨(node.props.entries.foldl splitStep (∅, ∅)).1,
    (node.props.entries.foldl splitStep (∅, ∅)).2, ?_, fun k => ?_⟩
  · simp only [newRawNode, hl, hca, bind, Except.bind, unmarshalText_hexText]
    rw [foldlM_eq_ok (g := splitStep) (fun p hp acc => ?_)]
    · rfl
    · obtain ⟨c, hc⟩ := Option.ne_none_iff_exists'.1
        (hk p.1 (AList.mem_keys.1 (List.mem_map_of_mem _ hp)))
      simp only [hc, splitStep, Option.some.injEq]
      split_ifs <;> rfl
  · obtain ⟨h₁, h₂⟩ := lookup_foldl_splitStep node.props.nodupKeys (∅, ∅) k
    simp only [AList.lookup_empty, Option.or_none] at h₁ h₂
    exact ⟨h₁.trans (by split_ifs <;> rfl), h₂.trans (by split_ifs <;> rfl)⟩

/-- The properties of a node `MERGE` creates. -/
theorem lookup_createdProps (datetime : GoType × GoValue) (r : RawNode) (k : String) :
    (createdProps datetime r).lookup k =
      if k = "_created_at" then some (some datetime)
      else if k = "_contentAddress" then some (some (.string, .string (hexText r.contentAddress)))
      else none := by
  unfold createdProps
  split_ifs with h₁ h₂
  · subst h₁; exact AList.lookup_insert _
  · subst h₂; rw [AList.lookup_insert_ne h₁]; exact AList.lookup_insert _
  · rw [AList.lookup_insert_ne h₁, AList.lookup_insert_ne h₂]; rfl

section Roundtrip

variable (env : Env) (datetime : GoType × GoValue) {r : RawNode}
  (hkeys : ∀ k ∈ r.props.keys, ∃ c ∈ (stringBytes k).head?, c ≠ 95)
include hkeys

/-- A raw property name is no metadata name. -/
theorem not_mem_props_of_metadata {k : String} (hk : (stringBytes k).head? = some 95) :
    k ∉ r.props := fun hm => by
  obtain ⟨c, hc, hc95⟩ := hkeys k (AList.mem_keys.2 hm)
  rw [hk] at hc
  exact hc95 (Option.some.inj hc).symm

/-- A node `assertNode` has stored for `r`, read back: `r`'s properties as the driver stores
them, over the properties `MERGE` gave the node when it created it at `created`, and
`_last_modified` at `modified`, reads as `r` with exactly the three metadata properties. -/
theorem newRawNode_of_lookup (created modified : GoType × GoValue) {stored : Neo4jNode}
    (hl : stored.labels = [r.label])
    (hs : ∀ k, stored.props.lookup k = if k = "_last_modified" then some (some modified)
      else (r.props.lookup k).elim ((createdProps created r).lookup k)
        fun a => a.bind fun p => (driverValue env p.1 p.2).map some) :
    ∃ props metadata : PropertyMap,
      newRawNode stored = .ok ⟨r.label, r.contentAddress, props, metadata⟩ ∧
      ∀ k, props.lookup k = ((r.props.lookup k).bind fun a =>
          a.bind fun p => (driverValue env p.1 p.2).map some) ∧
        metadata.lookup k =
          if k = "_contentAddress" then some (some (.string, .string (hexText r.contentAddress)))
          else if k = "_created_at" then some (some created)
          else if k = "_last_modified" then some (some modified) else none := by
  have hmeta : ∀ {k}, (stringBytes k).head? = some 95 → r.props.lookup k = none := fun hk =>
    AList.lookup_eq_none.2 (not_mem_props_of_metadata hkeys hk)
  -- every name is one of `r`'s or one of the three metadata names
  have hk : ∀ k ∈ stored.props, (stringBytes k).head? ≠ none := fun k hk => by
    obtain ⟨x, hx⟩ := Option.isSome_iff_exists.1 (AList.lookup_isSome.2 hk)
    rw [hs k, lookup_createdProps] at hx
    cases hr : r.props.lookup k with
    | none =>
      rw [hr] at hx
      split_ifs at hx with h₁ h₂ h₃ <;> first | subst_vars; decide | cases hx
    | some a =>
      obtain ⟨c, hc, -⟩ := hkeys k (AList.mem_keys.2 (AList.lookup_isSome.1 (by rw [hr]; rfl)))
      exact fun hn => by rw [hn] at hc; cases hc
  obtain ⟨props, metadata, hn, hlk⟩ := newRawNode_eq_ok hl hk
    (by rw [hs, lookup_createdProps, hmeta (k := "_contentAddress") rfl]; rfl)
  refine ⟨props, metadata, hn, fun k => ?_⟩
  rw [(hlk k).1, (hlk k).2, hs k, lookup_createdProps]
  by_cases h95 : (stringBytes k).head? = some 95
  · rw [hmeta h95]
    simp only [h95, if_true, Option.elim, Option.bind_none, true_and]
    split_ifs <;> simp_all
  · have hne : ∀ {s}, (stringBytes s).head? = some 95 → k ≠ s := fun hs h => h95 (h ▸ hs)
    simp only [h95, if_false, hne (s := "_last_modified") rfl, hne (s := "_created_at") rfl,
      hne (s := "_contentAddress") rfl, and_true]
    cases r.props.lookup k <;> rfl

/-- **A stored node reads back as it was written.** A raw node none of whose property names
is empty or starts with `_`, once `assertNode` has stored it as a new node, is read by
`newRawNode` with its own label and content address, each of its non-nil properties as the
driver stored it and no other, and as metadata exactly `_contentAddress`, the hex text of its
content address, and `_created_at` and `_last_modified`, both the `datetime()` of the
statement. -/
theorem newRawNode_storedNode {stored : Neo4jNode} (h : storedNode env datetime none r = some stored) :
    ∃ props metadata : PropertyMap,
      newRawNode stored = .ok ⟨r.label, r.contentAddress, props, metadata⟩ ∧
      ∀ k, props.lookup k = ((r.props.lookup k).bind fun a =>
          a.bind fun p => (driverValue env p.1 p.2).map some) ∧
        metadata.lookup k =
          if k = "_contentAddress" then some (some (.string, .string (hexText r.contentAddress)))
          else if k = "_created_at" then some (some datetime)
          else if k = "_last_modified" then some (some datetime) else none :=
  newRawNode_of_lookup env hkeys datetime datetime (storedNode_eq env h).1 (storedNode_eq env h).2

omit hkeys in
/-- An instance: `Plain{X: 1}` as `FormatNode` gives it, stored as a new node. -/
theorem newRawNode_storedNode_plain :
    let r : RawNode := ⟨"Plain", ⟨.fill 1⟩, (∅ : PropertyMap).insert "X" (some (.int, .int 1)), ∅⟩
    let now : GoType × GoValue := (.named "time" "Time", .struct [])
    (∀ k ∈ r.props.keys, ∃ c ∈ (stringBytes k).head?, c ≠ 95) ∧
    ∃ stored, storedNode [] now none r = some stored ∧
      ∃ props metadata : PropertyMap,
        newRawNode stored = .ok ⟨r.label, r.contentAddress, props, metadata⟩ ∧
        ∀ k, props.lookup k = ((r.props.lookup k).bind fun a =>
            a.bind fun p => (driverValue [] p.1 p.2).map some) ∧
          metadata.lookup k =
            if k = "_contentAddress" then some (some (.string, .string (hexText r.contentAddress)))
            else if k = "_created_at" then some (some now)
            else if k = "_last_modified" then some (some now) else none := by
  intro r now
  have hkeys : ∀ k ∈ r.props.keys, ∃ c ∈ (stringBytes k).head?, c ≠ 95 := by decide
  exact ⟨hkeys, _, (Option.some_get (by decide)).symm,
    newRawNode_storedNode [] now hkeys (Option.some_get (by decide)).symm⟩

/-- **Asserting a node again keeps when it was created.** When `assertNode` stores the same
raw node a second time, at `datetime'`, `MERGE` matches the node the first left, so the node
reads back with the same properties, `_created_at` from the first statement and
`_last_modified` from the second. -/
theorem newRawNode_storedNode_again (datetime' : GoType × GoValue) {stored stored' : Neo4jNode}
    (h : storedNode env datetime none r = some stored)
    (h' : storedNode env datetime' (some stored.props) r = some stored') :
    ∃ props metadata : PropertyMap,
      newRawNode stored' = .ok ⟨r.label, r.contentAddress, props, metadata⟩ ∧
      ∀ k, props.lookup k = ((r.props.lookup k).bind fun a =>
          a.bind fun p => (driverValue env p.1 p.2).map some) ∧
        metadata.lookup k =
          if k = "_contentAddress" then some (some (.string, .string (hexText r.contentAddress)))
          else if k = "_created_at" then some (some datetime)
          else if k = "_last_modified" then some (some datetime') else none := by
  obtain ⟨hl', hs'⟩ := storedNode_eq env h'
  refine newRawNode_of_lookup env hkeys datetime datetime' hl' fun k => ?_
  rw [hs', Option.getD_some, (storedNode_eq env h).2 k]
  split_ifs with hk
  · rfl
  · cases r.props.lookup k <;> rfl

omit hkeys in
/-- An instance: `Plain{X: 1}` stored at one time and asserted again at another. -/
theorem newRawNode_storedNode_again_plain :
    let r : RawNode := ⟨"Plain", ⟨.fill 1⟩, (∅ : PropertyMap).insert "X" (some (.int, .int 1)), ∅⟩
    let first : GoType × GoValue := (.named "time" "Time", .struct [.int 1])
    let second : GoType × GoValue := (.named "time" "Time", .struct [.int 2])
    (∀ k ∈ r.props.keys, ∃ c ∈ (stringBytes k).head?, c ≠ 95) ∧
    ∃ stored stored', storedNode [] first none r = some stored ∧
      storedNode [] second (some stored.props) r = some stored' ∧
      ∃ props metadata : PropertyMap,
        newRawNode stored' = .ok ⟨r.label, r.contentAddress, props, metadata⟩ ∧
        ∀ k, props.lookup k = ((r.props.lookup k).bind fun a =>
            a.bind fun p => (driverValue [] p.1 p.2).map some) ∧
          metadata.lookup k =
            if k = "_contentAddress" then some (some (.string, .string (hexText r.contentAddress)))
            else if k = "_created_at" then some (some first)
            else if k = "_last_modified" then some (some second) else none := by
  intro r first second
  have hkeys : ∀ k ∈ r.props.keys, ∃ c ∈ (stringBytes k).head?, c ≠ 95 := by decide
  have h := (Option.some_get (x := storedNode [] first none r) (by decide)).symm
  exact ⟨hkeys, _, _, h, (Option.some_get (by decide)).symm,
    newRawNode_storedNode_again [] first hkeys second h (Option.some_get (by decide)).symm⟩

end Roundtrip

/-! ## `RewriteNodesContentAddress` -/

/-- The query's `SET` on one `_contentAddress` string `s`: `substring(s, 5, size(s) - 6)` when
`s STARTS WITH 'node(' AND s ENDS WITH ')'`, and `none` when that `WHERE` does not hold. -/
def rewriteContentAddress (s : String) : Option String :=
  if "node(".data.isPrefixOf s.data && ")".data.isSuffixOf s.data then
    some (String.mk ((s.data.drop 5).take (s.length - 6)))
  else none

/-- One node through the query: the node with its `_contentAddress` set, or `none` when the
`WHERE` does not hold of it, as when the property is missing or is not a string. -/
def rewriteNode (n : Neo4jNode) : Option Neo4jNode :=
  match n.props.lookup "_contentAddress" with
  | some (some (.string, .string s)) =>
    (rewriteContentAddress s).map fun s' =>
      { n with props := n.props.insert "_contentAddress" (some (.string, .string s')) }
  | _ => none

/-- `RewriteNodesContentAddress`'s query over the nodes of a graph: every node it matches
rewritten, and `count(n)`, the number it matched. -/
def rewriteNodesContentAddress (g : List Neo4jNode) : List Neo4jNode × Nat :=
  (g.map fun n => (rewriteNode n).getD n, (g.filter fun n => (rewriteNode n).isSome).length)

/-- The query strips `node(` and `)` from a string they wrap. -/
theorem rewriteContentAddress_wrap (t : String) :
    rewriteContentAddress ("node(" ++ t ++ ")") = some t := by
  have hp : "node(".data.isPrefixOf ("node(" ++ t ++ ")").data = true :=
    List.isPrefixOf_iff_prefix.2 ⟨t.data ++ [')'], by simp⟩
  have hs : ")".data.isSuffixOf ("node(" ++ t ++ ")").data = true :=
    List.isSuffixOf_iff_suffix.2 ⟨"node(".data ++ t.data, by simp⟩
  simp only [rewriteContentAddress, hp, hs, Bool.and_self, if_true, Option.some.injEq]
  show String.mk (((['n', 'o', 'd', 'e', '('] ++ t.data ++ [')']).drop 5).take
    ((['n', 'o', 'd', 'e', '('] ++ t.data ++ [')']).length - 6)) = t
  simp

/- The two nodes of the package's test of the query: the old form is rewritten, another string
is left as it is. -/
example : rewriteContentAddress "node(rewritten)" = some "rewritten" ∧
    rewriteContentAddress "unmodified" = none := by decide

/-- The hex text of a node hash does not start with `node(`: the query leaves it as it is. -/
theorem rewriteContentAddress_hexText (h : NodeHash) :
    rewriteContentAddress (hexText h) = none := by
  have hn : ∀ b : UInt8, Char.ofNat (hexDigit (b >>> 4)).toNat ≠ 'n' := fun b =>
    (utf8EncodeChar_hexDigit _ (nibbles_lt b).1).2
  unfold rewriteContentAddress hexText marshalText
  rcases hb : h.toContentAddress.bytes with _ | ⟨b, bs⟩
  · rfl
  · simp [encodeByte, Ne.symm (hn b)]

/-- What a node the query matches becomes: its `_contentAddress` was a string the `SET`
rewrites, and is now what the `SET` made of it. -/
theorem rewriteNode_eq_some {n n' : Neo4jNode} (h : rewriteNode n = some n') :
    ∃ s s', n.props.lookup "_contentAddress" = some (some (.string, .string s)) ∧
      rewriteContentAddress s = some s' ∧
      n' = { n with props := n.props.insert "_contentAddress" (some (.string, .string s')) } := by
  unfold rewriteNode at h
  split at h
  · obtain ⟨s', hs', rfl⟩ := Option.map_eq_some'.1 h
    exact ⟨_, s', ‹_›, hs', rfl⟩
  · cases h

/-- **A node the previous release stored becomes the node this one stores.** That release
wrote `NodeHash.String()` where this one writes the hex text of `MarshalText`: the query
turns the one into the other and leaves the labels and every other property as they were. -/
theorem rewriteNode_legacy (labels : List String) (props : PropertyMap) (h : NodeHash) :
    rewriteNode ⟨labels, props.insert "_contentAddress" (some (.string, .string (nodeHashString h)))⟩ =
      some ⟨labels, props.insert "_contentAddress" (some (.string, .string (hexText h)))⟩ := by
  simp only [rewriteNode, AList.lookup_insert, nodeHashString, rewriteContentAddress_wrap,
    Option.map_some', AList.insert_insert]

/-- After one run, a node whose content address was in either form is not matched again. -/
theorem rewriteNode_getD_eq_none {n : Neo4jNode}
    (hn : ∀ s, n.props.lookup "_contentAddress" = some (some (.string, .string s)) →
      ∃ h : NodeHash, s = hexText h ∨ s = nodeHashString h) :
    rewriteNode ((rewriteNode n).getD n) = none := by
  rcases hr : rewriteNode n with _ | n'
  · exact hr
  obtain ⟨s, s', hl, hs', rfl⟩ := rewriteNode_eq_some hr
  obtain ⟨h, rfl | rfl⟩ := hn s hl
  · rw [rewriteContentAddress_hexText] at hs'
    cases hs'
  · rw [nodeHashString, rewriteContentAddress_wrap] at hs'
    cases hs'
    simp [rewriteNode, rewriteContentAddress_hexText]

/-- On a graph the query matches nowhere, it changes nothing and counts no node. -/
theorem rewriteNodesContentAddress_of_none {g : List Neo4jNode}
    (h : ∀ n ∈ g, rewriteNode n = none) : rewriteNodesContentAddress g = (g, 0) := by
  refine Prod.ext ((List.map_congr_left fun n hn => ?_).trans (List.map_id g)) ?_
  · rw [h n hn]; rfl
  · exact List.length_eq_zero.2 (List.filter_eq_nil_iff.2 fun n hn => by simp [h n hn])

/-- **A second run finds nothing to rewrite.** On a graph each of whose string content
addresses is in one of the two forms the engine has stored, the hex text of a node hash or,
from the previous release, its `NodeHash.String()`, running the query again after it has run
once changes no node and counts none. -/
theorem rewriteNodesContentAddress_idem {g : List Neo4jNode}
    (hg : ∀ n ∈ g, ∀ s, n.props.lookup "_contentAddress" = some (some (.string, .string s)) →
      ∃ h : NodeHash, s = hexText h ∨ s = nodeHashString h) :
    rewriteNodesContentAddress (rewriteNodesContentAddress g).1 =
      ((rewriteNodesContentAddress g).1, 0) :=
  rewriteNodesContentAddress_of_none fun _ hm => by
    obtain ⟨n, hn, rfl⟩ := List.mem_map.1 hm
    exact rewriteNode_getD_eq_none (hg n hn)

theorem rewriteNodesContentAddress_idem_mixed :
    (∀ n ∈ [(⟨["Plain"], (∅ : PropertyMap).insert "_contentAddress"
        (some (.string, .string (nodeHashString ⟨.fill 1⟩)))⟩ : Neo4jNode),
      ⟨["Plain"], (∅ : PropertyMap).insert "_contentAddress"
        (some (.string, .string (hexText ⟨.fill 2⟩)))⟩],
      ∀ s, n.props.lookup "_contentAddress" = some (some (.string, .string s)) →
        ∃ h : NodeHash, s = hexText h ∨ s = nodeHashString h) ∧
    rewriteNodesContentAddress (rewriteNodesContentAddress
      [⟨["Plain"], (∅ : PropertyMap).insert "_contentAddress"
        (some (.string, .string (nodeHashString ⟨.fill 1⟩)))⟩,
      ⟨["Plain"], (∅ : PropertyMap).insert "_contentAddress"
        (some (.string, .string (hexText ⟨.fill 2⟩)))⟩]).1 =
      ((rewriteNodesContentAddress
      [⟨["Plain"], (∅ : PropertyMap).insert "_contentAddress"
        (some (.string, .string (nodeHashString ⟨.fill 1⟩)))⟩,
      ⟨["Plain"], (∅ : PropertyMap).insert "_contentAddress"
        (some (.string, .string (hexText ⟨.fill 2⟩)))⟩]).1, 0) := by
  have hg : ∀ n ∈ [(⟨["Plain"], (∅ : PropertyMap).insert "_contentAddress"
        (some (.string, .string (nodeHashString ⟨.fill 1⟩)))⟩ : Neo4jNode),
      ⟨["Plain"], (∅ : PropertyMap).insert "_contentAddress"
        (some (.string, .string (hexText ⟨.fill 2⟩)))⟩],
      ∀ s, n.props.lookup "_contentAddress" = some (some (.string, .string s)) →
        ∃ h : NodeHash, s = hexText h ∨ s = nodeHashString h := by
    simp only [List.mem_cons, List.mem_singleton, List.not_mem_nil, or_false]
    rintro n (rfl | rfl) s hs <;>
      simp only [AList.lookup_insert, Option.some.injEq, Prod.mk.injEq, GoValue.string.injEq,
        true_and] at hs
    exacts [⟨_, .inr hs.symm⟩, ⟨_, .inl hs.symm⟩]
  exact ⟨hg, rewriteNodesContentAddress_idem hg⟩

/- Without that hypothesis a second run can rewrite again: a value wrapped twice loses one
wrapper on each run. -/
example : rewriteContentAddress "node(node(ab))" = some "node(ab)" ∧
    rewriteContentAddress "node(ab)" = some "ab" := by decide

end Neo4jEngine

end DigitalTwin
