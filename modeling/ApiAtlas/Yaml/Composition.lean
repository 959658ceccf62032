import ApiAtlas.Yaml.Resolution
import ApiAtlas.Yaml.TokenStream

/-!
# Nodes from tokens

The grammar of YAML on tokens.  Every node may have an anchor and a tag; an
alias may stand behind the start of the node that has its anchor.  Nodes that
are left out are empty scalars.  A text holds one document at most.
-/

namespace ApiAtlas.Yaml

/-- What is known in the midst of composing nodes. -/
structure Composing where
  tokens : List Token
  /-- Why there are no more tokens, if the text is not well-formed. -/
  rejection : Option Rejection
  /-- The anchors so far. -/
  anchors : List String
  /-- What the handles of tags stand for. -/
  handles : List (String × String)

/-- A step of composing. -/
abbrev Compose (α : Type) := StateT Composing (Except Rejection) α

namespace Compose

/-- Refuses the text. -/
def refuse {α : Type} : Compose α := throw Rejection.malformed

/-- The next token, which stays where it is. -/
def next : Compose Token := do
  let state ← get
  match state.tokens with
  | token :: _ => return token
  | [] => throw (state.rejection.getD .malformed)

/-- Passes over the next token. -/
def pass : Compose Unit :=
  modify fun state => { state with tokens := state.tokens.tail }

/-- Passes over a token if it is the next one. -/
def passIf (token : Token) : Compose Bool := do
  if (← next) = token then
    pass
    return true
  else return false

/-- Passes over a token, which has to be the next one. -/
def expect (token : Token) : Compose Unit := do
  if !(← passIf token) then refuse

/-! ## Properties of nodes -/

/-- What stands in front of the content of a node. -/
structure Properties where
  anchor : Option String
  tag : Option WrittenTag

/-- The anchor that is next, if one is. -/
def anchor? : Compose (Option String) := do
  match ← next with
  | .anchor name =>
    pass
    return some name
  | _ => return none

/-- The tag that is next, if one is. -/
def tag? : Compose (Option WrittenTag) := do
  match ← next with
  | .tag tag =>
    pass
    return some tag
  | _ => return none

/-- The anchor and the tag in front of a node, in any order. -/
def properties : Compose Properties := do
  match ← anchor? with
  | some anchor => return ⟨some anchor, ← tag?⟩
  | none =>
    match ← tag? with
    | some tag => return ⟨← anchor?, some tag⟩
    | none => return ⟨none, none⟩

/-- The name of a tag in full; the single mark says nothing. -/
def fullName (tag : WrittenTag) : Compose (Option String) := do
  let name ←
    match tag with
    | .verbatim name => pure name
    | .shorthand handle suffix =>
      match (← get).handles.find? fun entry => entry.1 == handle with
      | some entry => pure (entry.2 ++ suffix)
      | none => refuse
  return if name = "!" then none else some name

/-- What a tag says of a node. -/
structure Stated where
  /-- Whether there is a tag at all. -/
  isTagged : Bool
  /-- The tag, if it says anything. -/
  tag : Option Tag

/-- What the tag in front of a node says. -/
def stated (tag : Option WrittenTag) : Compose Stated := do
  match tag with
  | some tag => return ⟨true, (← fullName tag).map Tag.ofName⟩
  | none => return ⟨false, none⟩

/-! ## Anchors -/

/-- Notes the anchor of a node, which has to be a new one. -/
def noteAnchor (anchor : Option String) : Compose Unit := do
  match anchor with
  | none => return ()
  | some name =>
    let state ← get
    if state.anchors.contains name then refuse
    else set { state with anchors := name :: state.anchors }

/-- The alias of a node, whose anchor has to be known. -/
def aliased (name : String) : Compose Node := do
  if (← get).anchors.contains name then return .alias name else refuse

/-! ## Nodes -/

/-- The scalar that is meant where nothing is written. -/
def absent : Node := .scalar .null ""

/-- A scalar of a text; a plain one without a tag is resolved. -/
def scalarNode (stated : Stated) (isPlain : Bool) (text : String) : Node :=
  match stated.tag with
  | some tag => .scalar tag text
  | none =>
    if isPlain || stated.isTagged then .scalar (resolve text) text
    else .scalar .text text

/-- A grammar of nodes: in a block or not, with or without a bare sequence. -/
abbrev Grammar := Bool → Bool → Compose Node

/-- A node, or none where one of some tokens is next. -/
def optional (stops : List Token) (node : Compose Node) : Compose Node := do
  if stops.contains (← next) then return absent else node

/-- The entries of a sequence in a block. -/
def blockEntries (grammar : Grammar) (stops : List Token) :
    Nat → Compose (List Node)
  | 0 => refuse
  | fuel + 1 => do
    if ← passIf .blockEntry then
      let item ← optional stops (grammar true false)
      return item :: (← blockEntries grammar stops fuel)
    else return []

/-- The value behind a key in a block. -/
def blockValue (grammar : Grammar) : Compose Node := do
  if ← passIf .value then
    optional [.key, .value, .blockEnd] (grammar true true)
  else return absent

/-- The pairs of a mapping in a block. -/
def blockPairs (grammar : Grammar) : Nat → Compose (List (Node × Node))
  | 0 => refuse
  | fuel + 1 => do
    if ← passIf .key then
      let key ← optional [.key, .value, .blockEnd] (grammar true true)
      let value ← blockValue grammar
      return (key, value) :: (← blockPairs grammar fuel)
    else return []

/-- The value behind a key inside of brackets. -/
def flowValue (grammar : Grammar) (close : Token) : Compose Node := do
  if ← passIf .value then
    optional [.flowEntry, close] (grammar false false)
  else return absent

/-- A pair inside of brackets, behind the mark of its key. -/
def flowPair (grammar : Grammar) (close : Token) :
    Compose (Node × Node) := do
  let key ← optional [.value, .flowEntry, close] (grammar false false)
  return (key, ← flowValue grammar close)

/-- Passes over the comma between two entries. -/
def separate (isFirst : Bool) : Compose Unit := do
  if !isFirst then expect .flowEntry

/-- An entry of a sequence in brackets; a pair is a mapping of its own. -/
def flowItem (grammar : Grammar) : Compose Node := do
  if ← passIf .key then
    return .mapping .mapping [← flowPair grammar .flowSequenceEnd]
  else grammar false false

/-- The entries of a sequence in brackets, with the closing one. -/
def flowItems (grammar : Grammar) (isFirst : Bool) :
    Nat → Compose (List Node)
  | 0 => refuse
  | fuel + 1 => do
    if ← passIf .flowSequenceEnd then return []
    separate isFirst
    if ← passIf .flowSequenceEnd then return []
    let item ← flowItem grammar
    return item :: (← flowItems grammar false fuel)

/-- An entry of a mapping in braces; a lone key has no value. -/
def flowEntryPair (grammar : Grammar) : Compose (Node × Node) := do
  if ← passIf .key then flowPair grammar .flowMappingEnd
  else return (← grammar false false, absent)

/-- The pairs of a mapping in braces, with the closing one. -/
def flowPairs (grammar : Grammar) (isFirst : Bool) :
    Nat → Compose (List (Node × Node))
  | 0 => refuse
  | fuel + 1 => do
    if ← passIf .flowMappingEnd then return []
    separate isFirst
    if ← passIf .flowMappingEnd then return []
    let pair ← flowEntryPair grammar
    return pair :: (← flowPairs grammar false fuel)

/-- The content of a node behind its properties. -/
def content (grammar : Grammar) (fuel : Nat) (inBlock bareSequence : Bool)
    (stated : Stated) (hasProperties : Bool) : Compose Node := do
  let token ← next
  match token with
  | .scalar text isPlain =>
    pass
    return scalarNode stated isPlain text
  | .flowSequenceStart =>
    pass
    return .sequence (stated.tag.getD .sequence)
      (← flowItems grammar true fuel)
  | .flowMappingStart =>
    pass
    return .mapping (stated.tag.getD .mapping) (← flowPairs grammar true fuel)
  | _ =>
    if bareSequence && token = .blockEntry then
      return .sequence (stated.tag.getD .sequence)
        (← blockEntries grammar [.blockEntry, .key, .value, .blockEnd] fuel)
    else if inBlock && token = .blockSequenceStart then
      pass
      let items ← blockEntries grammar [.blockEntry, .blockEnd] fuel
      expect .blockEnd
      return .sequence (stated.tag.getD .sequence) items
    else if inBlock && token = .blockMappingStart then
      pass
      let pairs ← blockPairs grammar fuel
      expect .blockEnd
      return .mapping (stated.tag.getD .mapping) pairs
    else if hasProperties then return scalarNode stated true ""
    else refuse

/-- A node. -/
def node : Nat → Grammar
  | 0 => fun _ _ => refuse
  | fuel + 1 => fun inBlock bareSequence => do
    match ← next with
    | .alias name =>
      pass
      aliased name
    | _ =>
      let found ← properties
      let stated ← stated found.tag
      -- What follows the properties is looked at before the anchor is.
      let _ ← next
      noteAnchor found.anchor
      let node ←
        content (node fuel) fuel inBlock bareSequence stated
          (found.anchor.isSome || stated.isTagged)
      return node.withAnchor found.anchor

/-! ## Documents -/

/-- The handles that need not be declared. -/
def standardHandles : List (String × String) :=
  [("!", "!"), ("!!", standardLead)]

/-- Whether a handle is among those declared. -/
def isDeclared (handle : String) (declared : List (String × String)) : Bool :=
  declared.any fun entry => entry.1 == handle

/-- The handles that are declared in front of a document. -/
def directives (hasVersion : Bool) (declared : List (String × String)) :
    Nat → Compose (List (String × String))
  | 0 => refuse
  | fuel + 1 => do
    match ← next with
    | .directive directive =>
      pass
      match directive with
      | .version major =>
        if hasVersion || major ≠ 1 then refuse
        else directives true declared fuel
      | .tagHandle handle lead =>
        if isDeclared handle declared then refuse
        else directives hasVersion ((handle, lead) :: declared) fuel
      | .reserved => directives hasVersion declared fuel
    | _ => return declared

/-- The root of a document that is marked at its start. -/
def markedRoot (fuel : Nat) : Compose Node := do
  let declared ← directives false [] fuel
  modify fun state => { state with handles := declared ++ standardHandles }
  expect .documentStart
  match ← next with
  | .directive _ | .documentStart | .documentEnd | .textEnd => return absent
  | _ => node fuel true false

/-- Passes over the marks behind a document, up to the end of the text. -/
def finish : Nat → Compose Unit
  | 0 => refuse
  | fuel + 1 => do
    if ← passIf .documentEnd then finish fuel
    else if (← next) = .textEnd then return ()
    else
      let _ ← directives false [] fuel
      refuse

/-- The root of the only document of a text, if there is one. -/
def root? (fuel : Nat) : Compose (Option Node) := do
  match ← next with
  | .textEnd => return none
  | .directive _ | .documentStart =>
    let root ← markedRoot fuel
    finish fuel
    return some root
  | _ =>
    let root ← node fuel true false
    finish fuel
    return some root

end Compose

/-- The root node of a text, if it has one. -/
def rootOf (text : List Char) : Except Rejection (Option Node) :=
  let cut := tokensOf text
  let state : Composing :=
    ⟨cut.tokens, cut.rejection, [], Compose.standardHandles⟩
  (Compose.root? (cut.tokens.length + 1)).run' state

end ApiAtlas.Yaml
