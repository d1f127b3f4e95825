import PojoGraph.Yaml.Token

/-!
# Nodes of YAML documents

The tokens of a text make up one document, the root of which is a node: a scalar, a sequence, a
mapping, or an alias of a node elsewhere. Aliases are resolved once the document is complete.

## Main definitions

* `Node` — nodes with their tags.
* `Node.ofTokens?` — the document that tokens make up.
* `Outline.expand` — the node with all aliases put in their place.
-/

namespace PojoGraph.Yaml

/-- A node without aliases. -/
inductive Node where
  /-- A place that nests too deep, or takes too many aliases to reach. -/
  | unreadable
  | scalar (tag : Option String) (style : ScalarStyle) (text : String)
  | sequence (tag : Option String) (items : List Node)
  | mapping (tag : Option String) (entries : List (Node × Node))
  deriving Inhabited

/-- A node as written; an alias has the number of its anchor. -/
inductive Outline where
  | aliasOf (anchor : Nat)
  | scalar (tag : Option String) (style : ScalarStyle) (text : String)
  | sequence (tag : Option String) (items : List Outline)
  | mapping (tag : Option String) (entries : List (Outline × Outline))
  deriving Inhabited

/-- The scalar that stands where nothing is written. -/
def Outline.empty (tag : Option String) : Outline :=
  .scalar tag .plain ""

/-! ## Anchors -/

/-- An anchor of a document. Anchors with one number share their node: the one of the last. -/
structure Anchor where
  number : Nat
  node : Outline
  deriving Inhabited

/-- What the handles of tags stand for unless a directive says otherwise. -/
def defaultHandles : List (String × String) :=
  [("!", "!"), ("!!", "tag:yaml.org,2002:")]

/-- The state of the reader. -/
structure Composer where
  /-- The tokens to come. -/
  rest : List Token
  /-- What the handles of tags stand for. -/
  handles : List (String × String) := defaultHandles
  /-- The numbers of the anchor names; the name given last comes first. -/
  names : List (String × Nat) := []
  /-- How many different anchor names there have been. -/
  distinct : Nat := 0
  /-- The anchors in order, each as soon as it is met; its node follows. -/
  anchors : Array Anchor := #[]

/-- A step of the reader. -/
abbrev Composing := StateT Composer Option

namespace Composing

/-- The next token. -/
def peek : Composing (Option Token) :=
  return (← get).rest.head?

/-- Passes the next token. -/
def pass : Composing Unit :=
  modify fun composer => { composer with rest := composer.rest.tail }

/-- Passes the next token if it is the given one. -/
def accept (token : Token) : Composing Bool := do
  if (← peek) == some token then
    pass
    return true
  else return false

/-- Passes the next token, which has to be the given one. -/
def expect (token : Token) : Composing Unit := do
  if !(← accept token) then failure

/-- The number of an alias. -/
def lookupAnchor (name : String) : Composing Nat := do
  let number ← (← get).names.lookup name
  return number

/-- Registers an anchor. Its number is that of different names so far. The position at which its
node is to be stored is the result. -/
def registerAnchor (name : String) : Composing Nat := do
  let composer ← get
  let isNew := (composer.names.lookup name).isNone
  set { composer with
    names := (name, composer.distinct) :: composer.names
    distinct := if isNew then composer.distinct + 1 else composer.distinct
    anchors := composer.anchors.push ⟨composer.distinct, default⟩ }
  return composer.anchors.size

/-- Stores the node of an anchor. -/
def storeAnchor (position : Nat) (node : Outline) : Composing Unit :=
  modify fun composer => { composer with
    anchors := composer.anchors.modify position fun anchor => { anchor with node } }

/-- The tag that is written with a handle. -/
def resolveTag (tag : TagText) : Composing String := do
  if tag.handle.isEmpty then return tag.suffix
  let lead ← (← get).handles.lookup tag.handle
  return lead ++ tag.suffix

/-- Reads the tag and the anchor before a node, in either order. -/
def readProperties : Composing (Option String × Option Nat) := do
  match ← peek with
  | some (.anchor name) =>
    pass
    let anchor ← registerAnchor name
    match ← peek with
    | some (.tag tag) => pass; return (some (← resolveTag tag), some anchor)
    | _ => return (none, some anchor)
  | some (.tag tag) =>
    pass
    match ← peek with
    | some (.anchor name) =>
      pass
      let anchor ← registerAnchor name
      return (some (← resolveTag tag), some anchor)
    | _ => return (some (← resolveTag tag), none)
  | _ => return (none, none)

/-- Whether the next token is one of those given, or none at all is left. -/
def isAt (tokens : List Token) : Composing Bool :=
  return (← peek).all tokens.contains

mutual

/-- Reads a node. Outside brackets it may be a block collection, and a sequence may stand at the
indentation of the mapping around it. -/
def readNode (fuel : Nat) (inBlock indentless : Bool) : Composing Outline := do
  match fuel with
  | 0 => failure
  | fuel + 1 =>
    match ← peek with
    | some (.aliasOf name) => pass; return .aliasOf (← lookupAnchor name)
    | _ =>
      let (tag, anchor) ← readProperties
      let node ← readContent fuel inBlock indentless tag anchor.isSome
      match anchor with
      | some position => storeAnchor position node
      | none => pure ()
      return node

/-- Reads a node behind its tag and anchor. Where nothing follows these, the node is empty. -/
def readContent (fuel : Nat) (inBlock indentless : Bool) (tag : Option String)
    (isAnchored : Bool) : Composing Outline := do
  match fuel with
  | 0 => failure
  | fuel + 1 =>
    match ← peek with
    | some (.scalar style text) =>
      pass
      return .scalar (tag.filter (· != "!")) style text
    | some .flowSequenceStart => pass; return .sequence tag (← readFlowItems fuel true)
    | some .flowMappingStart => pass; return .mapping tag (← readFlowEntries fuel true)
    | some .blockEntry =>
      if indentless then return .sequence tag (← readItems fuel true)
      else if isAnchored || tag.isSome then return .empty tag
      else failure
    | some .blockSequenceStart =>
      if inBlock then
        pass
        return .sequence tag (← readItems fuel false)
      else if isAnchored || tag.isSome then return .empty tag
      else failure
    | some .blockMappingStart =>
      if inBlock then
        pass
        return .mapping tag (← readEntries fuel)
      else if isAnchored || tag.isSome then return .empty tag
      else failure
    | _ => if isAnchored || tag.isSome then return .empty tag else failure

/-- Reads a node, or the empty one before any of the given tokens. -/
def readNodeBefore (fuel : Nat) (stops : List Token) (inBlock indentless : Bool) :
    Composing Outline := do
  match fuel with
  | 0 => failure
  | fuel + 1 =>
    if ← isAt stops then return .empty none else readNode fuel inBlock indentless

/-- Reads the items of a block sequence. -/
def readItems (fuel : Nat) (indentless : Bool) : Composing (List Outline) := do
  match fuel with
  | 0 => failure
  | fuel + 1 =>
    if ← accept .blockEntry then
      let stops := if indentless then [.blockEntry, .key, .value, .blockEnd]
        else [.blockEntry, .blockEnd]
      let item ← readNodeBefore fuel stops true false
      return item :: (← readItems fuel indentless)
    else
      if !indentless then expect .blockEnd
      return []

/-- Reads the entries of a block mapping. -/
def readEntries (fuel : Nat) : Composing (List (Outline × Outline)) := do
  match fuel with
  | 0 => failure
  | fuel + 1 =>
    let stops := [.key, .value, .blockEnd]
    if ← accept .key then
      let key ← readNodeBefore fuel stops true true
      let value ← if ← accept .value then readNodeBefore fuel stops true true
        else pure (.empty none)
      return (key, value) :: (← readEntries fuel)
    else
      expect .blockEnd
      return []

/-- Reads the items of a sequence in brackets. A pair of a key and a value is a mapping of one
entry. -/
def readFlowItems (fuel : Nat) (isFirst : Bool) : Composing (List Outline) := do
  match fuel with
  | 0 => failure
  | fuel + 1 =>
    if ← accept .flowSequenceEnd then return []
    if !isFirst then expect .flowEntry
    if ← accept .key then
      let stops := [.value, .flowEntry, .flowSequenceEnd]
      let key ← if ← isAt stops then
          pass
          pure (.empty none)
        else readNode fuel false false
      let value ← if ← accept .value then
          readNodeBefore fuel [.flowEntry, .flowSequenceEnd] false false
        else pure (.empty none)
      return .mapping none [(key, value)] :: (← readFlowItems fuel false)
    else if ← accept .flowSequenceEnd then return []
    else
      let item ← readNode fuel false false
      return item :: (← readFlowItems fuel false)

/-- Reads the entries of a mapping in braces. -/
def readFlowEntries (fuel : Nat) (isFirst : Bool) : Composing (List (Outline × Outline)) := do
  match fuel with
  | 0 => failure
  | fuel + 1 =>
    if ← accept .flowMappingEnd then return []
    if !isFirst then expect .flowEntry
    if ← accept .key then
      let key ← readNodeBefore fuel [.value, .flowEntry, .flowMappingEnd] false false
      let value ← if ← accept .value then
          readNodeBefore fuel [.flowEntry, .flowMappingEnd] false false
        else pure (.empty none)
      return (key, value) :: (← readFlowEntries fuel false)
    else if ← accept .flowMappingEnd then return []
    else
      let key ← readNode fuel false false
      return (key, .empty none) :: (← readFlowEntries fuel false)

end

/-! ## Documents -/

/-- Reads the directives before a document: at most one version, and each handle once. -/
def readDirectives (fuel : Nat) (hasVersion : Bool) (handles : List (String × String)) :
    Composing (List (String × String)) := do
  match fuel with
  | 0 => failure
  | fuel + 1 =>
    match ← peek with
    | some (.directive (.version major minor)) =>
      if hasVersion || major != 1 || (minor != 1 && minor != 2) then failure
      pass
      readDirectives fuel true handles
    | some (.directive (.tag handle lead)) =>
      if (handles.lookup handle).isSome then failure
      pass
      readDirectives fuel hasVersion ((handle, lead) :: handles)
    | _ => return handles

/-- Passes the marks behind a document, behind which nothing may follow. -/
def endDocument (fuel : Nat) : Composing Unit := do
  match fuel with
  | 0 => failure
  | fuel + 1 =>
    match ← peek with
    | none => return
    | some .documentEnd => pass; endDocument fuel
    | some _ => failure

/-- Reads the only document of a text. An empty text is an empty document. -/
def readDocument (fuel : Nat) : Composing Outline := do
  match (← get).rest with
  | [] => return .empty none
  | .directive _ :: _ | .documentStart :: _ =>
    let handles ← readDirectives fuel false []
    modify fun composer => { composer with handles := handles ++ defaultHandles }
    expect .documentStart
    let root ← readNodeBefore fuel [.documentStart, .documentEnd] true false
    endDocument fuel
    return root
  | _ =>
    let root ← readNode fuel true false
    endDocument fuel
    return root

end Composing

/-! ## Aliases -/

namespace Outline

mutual

/-- How many events announce a node: one for a scalar or an alias, two for a collection and
those of its parts. -/
def events : Outline → Nat
  | .aliasOf _ => 1
  | .scalar .. => 1
  | .sequence _ items => 2 + eventsOfItems items
  | .mapping _ entries => 2 + eventsOfEntries entries

/-- How many events announce the items of a sequence. -/
def eventsOfItems : List Outline → Nat
  | [] => 0
  | item :: rest => item.events + eventsOfItems rest

/-- How many events announce the entries of a mapping. -/
def eventsOfEntries : List (Outline × Outline) → Nat
  | [] => 0
  | (key, value) :: rest => key.events + value.events + eventsOfEntries rest

end

/-- The node that an outline leads to at once: that of the anchor, if it is an alias. Each alias
takes one from the number of those that are still allowed. -/
def target? (anchors : Array Anchor) (outline : Outline) : StateM Nat (Option Outline) := do
  match outline with
  | .aliasOf number =>
    let left ← get
    if left = 0 then return none
    set (left - 1)
    return (anchors.toList.reverse.find? (·.number == number)).map (·.node)
  | outline => return some outline

/-- The node with all aliases put in their place. Collections nest `depth` times at most; deeper
places, and those behind more aliases than are allowed, are unreadable. -/
def expand (anchors : Array Anchor) : (depth : Nat) → Outline → StateM Nat Node
  | 0, outline => do
    match ← outline.target? anchors with
    | some (.scalar tag style text) => return .scalar tag style text
    | _ => return .unreadable
  | depth + 1, outline => do
    match ← outline.target? anchors with
    | some (.scalar tag style text) => return .scalar tag style text
    | some (.sequence tag items) => return .sequence tag (← items.mapM (expand anchors depth))
    | some (.mapping tag entries) =>
      return .mapping tag (← entries.mapM fun (entry : Outline × Outline) => do
        return (← expand anchors depth entry.1, ← expand anchors depth entry.2))
    | _ => return .unreadable

end Outline

namespace Node

/-- How deep collections may nest. -/
def nestingLimit : Nat := 128

/-- How many aliases are followed for each event of a document. -/
def aliasesPerEvent : Nat := 100

/-- The document that tokens make up. -/
def ofTokens? (tokens : List Token) : Option Node := do
  let (root, composer) ← (Composing.readDocument (4 * tokens.length + 8)).run { rest := tokens }
  some ((root.expand composer.anchors nestingLimit).run (aliasesPerEvent * root.events)).1

/-- The document of a text. -/
def read? (text : String) : Option Node :=
  (Token.scan? text).bind ofTokens?

end Node

end PojoGraph.Yaml
