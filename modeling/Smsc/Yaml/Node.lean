import Smsc.Yaml.Lexer

/-!
# Smsc.Yaml.Node — what a text says

* `Node`: texts, sequences and mappings, and aliases of nodes that carry an anchor;
* `Document`: the root, and the nodes with anchors, the last anchor first;
* `Document.ofText?`: the one document of a text; `Document.resolve?` follows an alias.
-/

namespace Smsc.Yaml

inductive Node where
  /-- A text, with its type if one is given. -/
  | scalar (text : String) (style : ScalarStyle) (type : Option (List UInt8))
  | sequence (items : List Node)
  | mapping (entries : List (Node × Node))
  /-- The same as the node with the anchor of this number. -/
  | alias (anchor : Nat)
  deriving Repr, Inhabited

namespace Node

/-- What stands where nothing is written. -/
def nothing : Node := scalar "" .plain none

end Node

/-- The start of a document that says something. -/
structure Document where
  root : Node
  /-- The nodes with anchors, with the numbers of the anchors. -/
  anchored : List (Nat × Node)
  deriving Repr

namespace Document

/-- What is meant by a node. An alias is never one of an alias. -/
def resolve? (d : Document) : Node → Option Node
  | .alias n => d.anchored.lookup n
  | node => some node

/-! ## Reading tokens -/

/-- Tokens to come, and what those before them have declared. -/
structure Reader where
  tokens : List Token
  /-- What handles stand for. -/
  handles : List (String × List UInt8)
  /-- The number of each anchor's name: that of the names before it. A name that is used again gets
  the number that the next new name gets, too. -/
  names : List (String × Nat)
  /-- How many anchors have been read. -/
  anchors : Nat
  /-- The nodes with anchors: where their anchors come in the text, their numbers, and the nodes. -/
  anchored : List (Nat × Nat × Node)
  deriving Repr

namespace Reader

def next? (r : Reader) : Option Token := r.tokens.head?

def drop (r : Reader) : Reader := { r with tokens := r.tokens.tail }

/-- Takes a token that has to be there. -/
def expect? (r : Reader) (t : Token) : Option Reader :=
  if r.next? = some t then some r.drop else none

/-- The type that a tag names. -/
def type? (r : Reader) (t : TagName) : Option (List UInt8) :=
  if t.handle = "" then some t.rest else (r.handles.lookup t.handle).map (· ++ t.rest)

/-- Anchor and tag in front of a node, in either order. -/
def properties (r : Reader) : Option String × Option TagName × Reader :=
  match r.tokens with
  | .anchor a :: .tag t :: ts | .tag t :: .anchor a :: ts => (some a, some t, { r with tokens := ts })
  | .anchor a :: ts => (some a, none, { r with tokens := ts })
  | .tag t :: ts => (none, some t, { r with tokens := ts })
  | _ => (none, none, r)

/-- Gives an anchor its place and number. -/
def declare (r : Reader) : Option String → Option (Nat × Nat) × Reader
  | none => (none, r)
  | some a =>
    let n := r.names.length
    (some (r.anchors, n),
      { r with names := (a, n) :: r.names.filter (·.1 ≠ a), anchors := r.anchors + 1 })

/-- Keeps a node that has an anchor. -/
def keep (r : Reader) (anchor : Option (Nat × Nat)) (node : Node) : Node × Reader :=
  match anchor with
  | none => (node, r)
  | some (place, n) => (node, { r with anchored := (place, n, node) :: r.anchored })

/-- The nodes with anchors by number, the last anchor first. -/
def byNumber (r : Reader) : List (Nat × Node) :=
  (r.anchored.mergeSort fun a b => b.1 ≤ a.1).map (·.2)

/-- Where a node stands. -/
inductive Place where
  | flow
  | block
  /-- In a block mapping, where the dashes of a sequence need no further indentation. -/
  | entry
  deriving DecidableEq, Repr

/-- Is nothing written in front of the next token, where a node is asked for? -/
def isAtEnd (r : Reader) (enders : List Token) : Bool :=
  match r.next? with
  | none => true
  | some t => t ∈ enders

mutual

/-- Reads a node. -/
def node? (place : Place) (r : Reader) : (fuel : Nat) → Option (Node × Reader)
  | 0 => none
  | fuel + 1 =>
    match r.next? with
    | some (.alias name) => do return (.alias (← r.names.lookup name), r.drop)
    | _ => do
      let (anchor, tag, r) := r.properties
      let (number, r) := r.declare anchor
      let type ← match tag with
        | none => some none
        | some t => (r.type? t).map some
      let (node, r) ← match r.next?, place with
        | some .blockEntry, .entry => do
          let (items, r) ← dashed? r fuel
          some (Node.sequence items, r)
        | some (.scalar text style), _ => some (Node.scalar text style type, r.drop)
        | some .flowSequence, _ => do
          let (items, r) ← flowItems? true r.drop fuel
          some (Node.sequence items, r)
        | some .flowMapping, _ => do
          let (entries, r) ← flowEntries? true r.drop fuel
          some (Node.mapping entries, r)
        | some .blockSequence, .block | some .blockSequence, .entry => do
          let (items, r) ← blockItems? r.drop fuel
          some (Node.sequence items, r)
        | some .blockMapping, .block | some .blockMapping, .entry => do
          let (entries, r) ← blockEntries? r.drop fuel
          some (Node.mapping entries, r)
        | _, _ =>
          if anchor.isSome || tag.isSome then some (Node.scalar "" .plain type, r) else none
      return r.keep number node

/-- Reads a node, or nothing if the next token does not begin one. -/
def nodeOr? (enders : List Token) (place : Place) (r : Reader) : (fuel : Nat) → Option (Node × Reader)
  | 0 => none
  | fuel + 1 => if r.isAtEnd enders then some (.nothing, r) else node? place r fuel

/-- Reads entries after dashes up to the end of the collection. -/
def blockItems? (r : Reader) : (fuel : Nat) → Option (List Node × Reader)
  | 0 => none
  | fuel + 1 =>
    match r.next? with
    | some .blockEntry => do
      let (item, r) ← nodeOr? [.blockEntry, .blockEnd] .block r.drop fuel
      let (items, r) ← blockItems? r fuel
      return (item :: items, r)
    | some .blockEnd => some ([], r.drop)
    | _ => none

/-- Reads entries after dashes for as long as there are dashes. -/
def dashed? (r : Reader) : (fuel : Nat) → Option (List Node × Reader)
  | 0 => none
  | fuel + 1 =>
    match r.next? with
    | some .blockEntry => do
      let (item, r) ← nodeOr? [.blockEntry, .key, .value, .blockEnd] .block r.drop fuel
      let (items, r) ← dashed? r fuel
      return (item :: items, r)
    | _ => some ([], r)

/-- Reads keys and values up to the end of the collection. -/
def blockEntries? (r : Reader) : (fuel : Nat) → Option (List (Node × Node) × Reader)
  | 0 => none
  | fuel + 1 =>
    match r.next? with
    | some .key => do
      let (key, r) ← nodeOr? [.key, .value, .blockEnd] .entry r.drop fuel
      let (value, r) ←
        if r.next? = some .value then nodeOr? [.key, .value, .blockEnd] .entry r.drop fuel
        else some (.nothing, r)
      let (entries, r) ← blockEntries? r fuel
      return ((key, value) :: entries, r)
    | some .blockEnd => some ([], r.drop)
    | _ => none

/-- Reads the items of a flow sequence. A key and a value without braces are a mapping of one entry;
where the key is left out, the token in its place is passed over. -/
def flowItems? (isFirst : Bool) (r : Reader) : (fuel : Nat) → Option (List Node × Reader)
  | 0 => none
  | fuel + 1 =>
    if r.next? = some .flowSequenceEnd then some ([], r.drop)
    else do
      let r ← if isFirst then some r else r.expect? .flowEntry
      match r.next? with
      | some .flowSequenceEnd => return ([], r.drop)
      | some .key => do
        let r := r.drop
        let (key, r) ←
          if r.isAtEnd [.value, .flowEntry, .flowSequenceEnd] then some (.nothing, r.drop)
          else node? .flow r fuel
        let (value, r) ←
          if r.next? = some .value then nodeOr? [.flowEntry, .flowSequenceEnd] .flow r.drop fuel
          else some (.nothing, r)
        let (items, r) ← flowItems? false r fuel
        return (.mapping [(key, value)] :: items, r)
      | _ => do
        let (item, r) ← node? .flow r fuel
        let (items, r) ← flowItems? false r fuel
        return (item :: items, r)

/-- Reads the entries of a flow mapping. -/
def flowEntries? (isFirst : Bool) (r : Reader) : (fuel : Nat) → Option (List (Node × Node) × Reader)
  | 0 => none
  | fuel + 1 =>
    if r.next? = some .flowMappingEnd then some ([], r.drop)
    else do
      let r ← if isFirst then some r else r.expect? .flowEntry
      match r.next? with
      | some .flowMappingEnd => return ([], r.drop)
      | some .key => do
        let (key, r) ← nodeOr? [.value, .flowEntry, .flowMappingEnd] .flow r.drop fuel
        let (value, r) ←
          if r.next? = some .value then nodeOr? [.flowEntry, .flowMappingEnd] .flow r.drop fuel
          else some (.nothing, r)
        let (entries, r) ← flowEntries? false r fuel
        return ((key, value) :: entries, r)
      | _ => do
        let (key, r) ← node? .flow r fuel
        let (entries, r) ← flowEntries? false r fuel
        return ((key, .nothing) :: entries, r)

end

/-! ## Documents -/

/-- What handles stand for unless a directive says otherwise. -/
def standardHandles : List (String × List UInt8) :=
  [("!", Utf8.encode "!"), ("!!", Utf8.encode "tag:yaml.org,2002:")]

/-- Takes the directives in front of a document. A directive may not be repeated, and only two
versions of the format are known. -/
def directives? (r : Reader) (hasVersion : Bool) : (fuel : Nat) → Option Reader
  | 0 => none
  | fuel + 1 =>
    match r.next? with
    | some (.version major minor) =>
      if hasVersion || major ≠ 1 || (minor ≠ 1 && minor ≠ 2) then none
      else r.drop.directives? true fuel
    | some (.tagHandle handle stem) =>
      if (r.handles.lookup handle).isSome then none
      else { r.drop with handles := (handle, stem) :: r.handles }.directives? hasVersion fuel
    | _ => some r

/-- Does the next token begin a document with directives or a mark? -/
def isAtStart (r : Reader) : Bool :=
  match r.next? with
  | some (.version ..) | some (.tagHandle ..) | some .documentStart => true
  | _ => false

/-- Is nothing written between the mark of the start of a document and its end? -/
def isBare (r : Reader) : Bool :=
  r.isAtStart || r.next? = some .documentEnd || r.next? = none

/-- Takes marks of the end of a document. -/
def skipEnds (r : Reader) : Reader :=
  { r with tokens := r.tokens.dropWhile (· = .documentEnd) }

/-- Reads the only document. -/
def document? (r : Reader) : Option Document := do
  let fuel := 3 * r.tokens.length + 3
  let (root, rest) ←
    if r.next? = none then some (.nothing, r)
    else if r.isAtStart then do
      let r ← r.directives? false fuel
      let r ← r.expect? .documentStart
      let r := { r with handles := r.handles ++ standardHandles }
      if r.isBare then some (.nothing, r) else node? .block r fuel
    else node? .block { r with handles := standardHandles } fuel
  if rest.skipEnds.next? = none then some ⟨root, rest.byNumber⟩ else none

end Reader

/-- The document of a text that holds one document or none. -/
def ofText? (text : String) : Option Document := do
  let tokens ← Token.scan? text
  Reader.document? ⟨tokens, [], [], 0, []⟩

end Document

end Smsc.Yaml
