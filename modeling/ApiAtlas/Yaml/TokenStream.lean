import ApiAtlas.Yaml.Block
import ApiAtlas.Yaml.Quoted
import ApiAtlas.Yaml.TokenPile

/-!
# Texts as tokens

`tokensOf` cuts a text into tokens.  Indentation opens and closes blocks.  A
key without an indicator of its own is known only by the colon behind it, so
the place of a token that may be such a key is remembered: the colon then puts
the key token, and the start of a block, in front of it.  Such a key stands on
one line and is not longer than `keyLimit`.

What follows a possible key decides what the key is.  So where the text cannot
be cut any further, only the tokens in front of the possible keys are known.
-/

namespace ApiAtlas.Yaml

/-- The greatest distance between a key and its colon. -/
def keyLimit : Nat := 1024

/-- A token that may turn out to be a key. -/
structure PossibleKey where
  /-- The number of tokens in front of it. -/
  position : Nat
  /-- Whether nothing but a key can stand there. -/
  required : Bool
  index : Nat
  line : Nat
  column : Nat

/-- What is known in the midst of cutting a text into tokens. -/
structure Cutting where
  cursor : Cursor
  /-- The tokens so far. -/
  tokens : TokenPile
  /-- The indentation of the open blocks, the innermost one first. -/
  indents : List Nat
  /-- The possible key at each level of brackets, the innermost one first. -/
  keys : List (Option PossibleKey)
  /-- Whether a key may start at the cursor. -/
  keyAllowed : Bool

namespace Cutting

/-- The start of a text. -/
def start (text : List Char) : Cutting :=
  ⟨.start text, .empty, [], [none], true⟩

/-- Whether the cursor is inside of brackets. -/
def inFlow (state : Cutting) : Bool := 1 < state.keys.length

/-- The least indentation of what stands inside of the innermost block. -/
def least (state : Cutting) : Nat :=
  match state.indents with
  | [] => 0
  | indent :: _ => indent + 1

/-- Adds a token. -/
def add (token : Token) (state : Cutting) : Cutting :=
  { state with tokens := state.tokens.push token }

/-- Adds a token behind a number of tokens. -/
def addAt (position : Nat) (token : Token) (state : Cutting) : Cutting :=
  { state with tokens := state.tokens.insertAt position token }

/-- Adds an indicator of one character. -/
def addIndicator (token : Token) (state : Cutting) : Cutting :=
  { state.add token with cursor := state.cursor.step }

/-! ## Possible keys -/

/-- Whether a possible key is too far behind a cursor. -/
def isStale (cursor : Cursor) (key : PossibleKey) : Bool :=
  key.line != cursor.line || keyLimit < cursor.index - key.index

/-- The tokens in front of the keys that are still possible. -/
def settled (state : Cutting) : List Token :=
  let waiting :=
    (state.keys.filterMap id).filter (!isStale state.cursor ·)
  state.tokens.before
    ((waiting.map (·.position)).foldl min state.tokens.count)

/-- Gives up a possible key. -/
def dropKey : Option PossibleKey → Except Rejection (Option PossibleKey)
  | some key => if key.required then .error .malformed else .ok none
  | none => .ok none

/-- Gives up the possible keys that are too far behind the cursor. -/
def dropStale (state : Cutting) : Except Rejection Cutting := do
  let keys ← state.keys.mapM fun key =>
    if key.any (isStale state.cursor) then dropKey key else .ok key
  return { state with keys }

/-- Gives up the possible key at the innermost level. -/
def dropCurrent (state : Cutting) : Except Rejection Cutting := do
  match state.keys with
  | key :: outer => return { state with keys := (← dropKey key) :: outer }
  | [] => return state

/-- Remembers the next token as a possible key. -/
def rememberKey (state : Cutting) : Except Rejection Cutting := do
  if !state.keyAllowed then return state
  let required :=
    !state.inFlow && state.indents.head? == some state.cursor.column
  let state ← state.dropCurrent
  let key : PossibleKey :=
    ⟨state.tokens.count, required, state.cursor.index, state.cursor.line,
      state.cursor.column⟩
  return { state with keys := some key :: state.keys.tail }

/-! ## Blocks -/

/-- Closes the open blocks that are indented deeper than a column. -/
def closeBlocks (column : Nat) : List Nat → Cutting → Cutting
  | indent :: outer, state =>
    if column < indent then
      closeBlocks column outer
        { state.add .blockEnd with indents := outer }
    else state
  | [], state => state

/-- Closes the blocks that end at the column of the cursor. -/
def leaveBlocks (state : Cutting) : Cutting :=
  if state.inFlow then state
  else closeBlocks state.cursor.column state.indents state

/-- Closes all open blocks. -/
def leaveAll (state : Cutting) : Cutting :=
  if state.inFlow then state
  else
    { state.indents.foldl (fun state _ => state.add .blockEnd) state with
      indents := [] }

/-- Whether a column is indented deeper than all open blocks. -/
def isDeeper (column : Nat) (state : Cutting) : Bool :=
  match state.indents with
  | [] => true
  | indent :: _ => indent < column

/-- Opens a block at a column if it is deeper than the open ones. -/
def openBlock (position column : Nat) (token : Token) (state : Cutting) :
    Cutting :=
  if state.isDeeper column then
    { state.addAt position token with indents := column :: state.indents }
  else state

/-- Opens a block at the cursor, where a key has to be allowed. -/
def openBlockHere (token : Token) (state : Cutting) :
    Except Rejection Cutting :=
  if state.inFlow then .ok state
  else if !state.keyAllowed then .error .malformed
  else
    .ok (state.openBlock state.tokens.count state.cursor.column token)

/-! ## Tokens -/

/-- Moves to the next token over blanks, comments and line breaks. -/
def approach : Nat → Cutting → Cutting
  | 0, state => state
  | fuel + 1, state =>
    let cursor := state.cursor.skipSpaces.skipComment
    if cursor.atBreak then
      approach fuel
        { state with
          cursor := cursor.step
          keyAllowed := state.keyAllowed || !state.inFlow }
    else { state with cursor }

/-- Ends the blocks and the possible key in front of a mark at the margin. -/
def endContent (state : Cutting) : Except Rejection Cutting := do
  return { ← state.leaveAll.dropCurrent with keyAllowed := false }

/-- Takes a mark of three characters. -/
def takeMark (token : Token) (state : Cutting) : Except Rejection Cutting := do
  let state ← state.endContent
  return { state.add token with cursor := state.cursor.advance 3 }

/-- Takes a directive. -/
def takeDirective (state : Cutting) : Except Rejection Cutting := do
  let state ← state.endContent
  let (directive, cursor) ← readDirective state.cursor
  return { state.add (.directive directive) with cursor }

/-- Takes an opening bracket. -/
def takeOpening (token : Token) (state : Cutting) :
    Except Rejection Cutting := do
  let state ← state.rememberKey
  return { state.addIndicator token with
    keys := none :: state.keys, keyAllowed := true }

/-- Takes a closing bracket. -/
def takeClosing (token : Token) (state : Cutting) :
    Except Rejection Cutting := do
  let state ← state.dropCurrent
  if state.inFlow then
    return { state.addIndicator token with
      keys := state.keys.tail, keyAllowed := false }
  else throw .malformed

/-- Takes a comma. -/
def takeFlowEntry (state : Cutting) : Except Rejection Cutting := do
  let state ← state.dropCurrent
  return { state.addIndicator .flowEntry with keyAllowed := true }

/-- Takes a dash. -/
def takeBlockEntry (state : Cutting) : Except Rejection Cutting := do
  let state ← state.openBlockHere .blockSequenceStart
  let state ← state.dropCurrent
  return { state.addIndicator .blockEntry with keyAllowed := true }

/-- Takes a question mark. -/
def takeKey (state : Cutting) : Except Rejection Cutting := do
  let state ← state.openBlockHere .blockMappingStart
  let state ← state.dropCurrent
  return { state.addIndicator .key with keyAllowed := !state.inFlow }

/-- Puts a key token in front of a token that has turned out to be a key. -/
def confirmKey (key : PossibleKey) (state : Cutting) : Cutting :=
  let state :=
    { state.addAt key.position .key with
      keys := none :: state.keys.tail, keyAllowed := false }
  if state.inFlow then state
  else state.openBlock key.position key.column .blockMappingStart

/-- Takes a colon. -/
def takeValue (state : Cutting) : Except Rejection Cutting := do
  match state.keys.head?.join with
  | some key => return (state.confirmKey key).addIndicator .value
  | none =>
    let state ← state.openBlockHere .blockMappingStart
    let state ← state.dropCurrent
    return { state.addIndicator .value with keyAllowed := !state.inFlow }

/-- Takes an anchor or an alias. -/
def takeName (token : String → Token) (state : Cutting) :
    Except Rejection Cutting := do
  let state ← state.rememberKey
  let (name, cursor) ← readName state.cursor.step
  return { state.add (token name) with cursor, keyAllowed := false }

/-- Takes a tag. -/
def takeTag (state : Cutting) : Except Rejection Cutting := do
  let state ← state.rememberKey
  let (tag, cursor) ← readTag state.cursor
  return { state.add (.tag tag) with cursor, keyAllowed := false }

/-- Adds a scalar that has been read. -/
def addScalar (isPlain : Bool) (scalar : ScalarRead) (state : Cutting) :
    Cutting :=
  { state.add (.scalar scalar.text isPlain) with
    cursor := scalar.cursor, keyAllowed := scalar.keyAllowed }

/-- Takes a block scalar. -/
def takeBlockScalar (folded : Bool) (state : Cutting) :
    Except Rejection Cutting := do
  let state ← state.dropCurrent
  let scalar ← readBlock folded (max state.least 1) state.cursor
  return state.addScalar false scalar

/-- Takes a quoted scalar. -/
def takeQuoted (double : Bool) (state : Cutting) :
    Except Rejection Cutting := do
  let state ← state.rememberKey
  let scalar ← readQuoted double state.cursor
  return state.addScalar false scalar

/-- Takes a plain scalar. -/
def takePlain (state : Cutting) : Except Rejection Cutting := do
  let state ← state.rememberKey
  return state.addScalar true
    (readPlain state.inFlow state.least state.cursor)

/-- Whether an indicator stands at the cursor, and not the start of a word. -/
def atIndicator (state : Cutting) : Bool :=
  state.inFlow || isBlankOrEnd (state.cursor.peek 1)

/-- The characters that start no plain scalar. -/
def nonStarters : List Char := "-?:,[]\x7b\x7d#&*!|>'\"%@`".toList

/-- Whether a plain scalar starts at the cursor. -/
def atPlain (state : Cutting) : Bool :=
  let c := state.cursor.current
  (!isBlankOrEnd c && !nonStarters.contains c) ||
    (!isBlankOrEnd (state.cursor.peek 1) &&
      (c == '-' || (!state.inFlow && (c == '?' || c == ':'))))

/-- Takes the token at the cursor, which is not at the end. -/
def take (state : Cutting) : Except Rejection Cutting :=
  let c := state.cursor.current
  let margin := state.cursor.column = 0
  if c = '%' && margin then state.takeDirective
  else if margin && state.cursor.atMark '-' then
    state.takeMark .documentStart
  else if margin && state.cursor.atMark '.' then state.takeMark .documentEnd
  else if c = '[' then state.takeOpening .flowSequenceStart
  else if c = '\x7b' then state.takeOpening .flowMappingStart
  else if c = ']' then state.takeClosing .flowSequenceEnd
  else if c = '\x7d' then state.takeClosing .flowMappingEnd
  else if c = ',' then state.takeFlowEntry
  else if c = '-' && isBlankOrEnd (state.cursor.peek 1) then
    state.takeBlockEntry
  else if c = '?' && state.atIndicator then state.takeKey
  else if c = ':' && state.atIndicator then state.takeValue
  else if c = '*' then state.takeName .alias
  else if c = '&' then state.takeName .anchor
  else if c = '!' then state.takeTag
  else if c = '|' && !state.inFlow then state.takeBlockScalar false
  else if c = '>' && !state.inFlow then state.takeBlockScalar true
  else if c = '\'' then state.takeQuoted false
  else if c = '"' then state.takeQuoted true
  else if state.atPlain then state.takePlain
  else .error .malformed

end Cutting

/-- The tokens of a text, up to the first place where it is not well-formed. -/
structure Tokens where
  tokens : List Token
  rejection : Option Rejection

/-- The tokens of a text that cannot be cut any further. -/
def Cutting.stop (rejection : Rejection) (state : Cutting) : Tokens :=
  ⟨state.settled, some rejection⟩

/-- Ends the tokens of a text, with the blocks that are open at its end. -/
def Cutting.finish (state : Cutting) : Except Rejection Tokens := do
  let state ← state.leaveAll.dropCurrent
  return ⟨(state.add .textEnd).tokens.toList, none⟩

/-- Takes the next token, or ends the tokens where the text ends. -/
def Cutting.proceed (fuel : Nat) (state : Cutting) :
    Except Rejection (Cutting ⊕ Tokens) := do
  let near := (← (state.approach fuel).dropStale).leaveBlocks
  if near.cursor.current = endMark then near.finish.map .inr
  else near.take.map .inl

/-- The tokens of a text from some place on. -/
def tokensFrom : Nat → Cutting → Tokens
  | 0, state => state.stop .malformed
  | fuel + 1, state =>
    match state.proceed (fuel + 1) with
    | .ok (.inl next) => tokensFrom fuel next
    | .ok (.inr tokens) => tokens
    | .error rejection => state.stop rejection

/-- The text without a mark of byte order at its start. -/
def dropOrderMark (cursor : Cursor) : Cursor :=
  if cursor.current = orderMark then cursor.step else cursor

/-- The tokens of a text. -/
def tokensOf (text : List Char) : Tokens :=
  let start := Cutting.start text
  tokensFrom (text.length + 1)
    { start with cursor := dropOrderMark start.cursor }

end ApiAtlas.Yaml
