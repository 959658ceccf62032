import ApiAtlas.Text.Encoding
import ApiAtlas.Yaml.Cursor

/-!
# Tokens of YAML

The tokens that a text is cut into, and the reading of those that are neither
indicators nor scalars: anchors, aliases, tags and directives.
-/

namespace ApiAtlas.Yaml

/-- A tag as it is written. -/
inductive WrittenTag where
  /-- A tag in full. -/
  | verbatim (name : String)
  /-- A tag whose first part is given by a handle. -/
  | shorthand (handle suffix : String)
deriving DecidableEq, Repr

/-- A line of instructions in front of a document. -/
inductive Directive where
  | version (major : Nat)
  | tagHandle (handle lead : String)
  | reserved
deriving DecidableEq, Repr

/-- A piece of a text. -/
inductive Token where
  | directive (directive : Directive)
  | documentStart
  | documentEnd
  | textEnd
  | blockSequenceStart
  | blockMappingStart
  | blockEnd
  | flowSequenceStart
  | flowSequenceEnd
  | flowMappingStart
  | flowMappingEnd
  | blockEntry
  | flowEntry
  | key
  | value
  | alias (name : String)
  | anchor (name : String)
  | tag (tag : WrittenTag)
  | scalar (text : String) (isPlain : Bool)
deriving DecidableEq, Repr

/-- Some characters that have been read, and the place behind them. -/
abbrev NameRead := String × Cursor

/-- Whether a character may follow the name of an anchor. -/
def endsName (c : Char) : Bool :=
  isBlankOrEnd c || "?:,]\x7d%@`".toList.contains c

/-- The name of an anchor or alias behind its indicator. -/
def readName (cursor : Cursor) : Except Rejection NameRead :=
  let name := cursor.run isNameCharacter
  let behind := cursor.advance name.length
  if name.isEmpty || !endsName behind.current then .error .malformed
  else .ok (String.ofList name, behind)

/-! ## Tags -/

/-- The bytes of percent escapes at a cursor. -/
def escapedBytes : Rounds → Cursor → Except Rejection (List UInt8 × Cursor)
  | [], cursor => .ok ([], cursor)
  | _ :: rounds, cursor => do
    if cursor.current = '%' then
      let digits := cursor.step.rest.take 2
      if digits.length = 2 && digits.all isHexDigit then
        let (bytes, behind) ← escapedBytes rounds (cursor.advance 3)
        return (UInt8.ofNat (hexNumber digits) :: bytes, behind)
      else throw .malformed
    else return ([], cursor)

/--
The address of a tag at a cursor, after the text before it.  The last
character is first.
-/
def tagAddressFrom : Rounds → List Char → Cursor →
    Except Rejection (List Char × Cursor)
  | [], text, cursor => .ok (text, cursor)
  | _ :: rounds, text, cursor => do
    let c := cursor.current
    if c = '%' then
      let (bytes, behind) ← escapedBytes cursor.rounds cursor
      match Text.Encoding.utf8.decodeAll bytes with
      | .ok characters =>
        tagAddressFrom rounds (characters.reverse ++ text) behind
      | .error _ => throw .malformed
    else if isTagCharacter c then
      tagAddressFrom rounds (c :: text) cursor.step
    else return (text, cursor)

/-- The address of a tag at a cursor, which cannot be empty. -/
def readTagAddress (cursor : Cursor) : Except Rejection NameRead := do
  let (text, behind) ← tagAddressFrom cursor.rounds [] cursor
  if behind.index = cursor.index then throw .malformed
  return (String.ofList text.reverse, behind)

/-- The handle of a tag at a cursor: a name between exclamation marks. -/
def readHandle (cursor : Cursor) : Except Rejection NameRead :=
  let behind := cursor.step
  if cursor.current ≠ '!' then .error .malformed
  else if behind.current = ' ' then .ok ("!", behind)
  else
    let name := behind.run isNameCharacter
    let close := behind.advance name.length
    if close.current = '!' then
      .ok ("!" ++ String.ofList name ++ "!", close.step)
    else .error .malformed

/-- Whether a second exclamation mark is in the word at a cursor. -/
def hasHandle (cursor : Cursor) : Bool :=
  (cursor.step.run (!isSpaceOrEnd ·)).contains '!'

/-- The tag at a cursor, up to where it has to end. -/
def readTagBody (cursor : Cursor) :
    Except Rejection (WrittenTag × Cursor) := do
  let next := cursor.step
  if next.current = '<' then
    let (name, behind) ← readTagAddress next.step
    if behind.current = '>' then return (.verbatim name, behind.step)
    else throw .malformed
  else if isBlankOrEnd next.current then return (.verbatim "!", next)
  else if hasHandle cursor then
    let (handle, behind) ← readHandle cursor
    let (suffix, behind) ← readTagAddress behind
    return (.shorthand handle suffix, behind)
  else
    let (suffix, behind) ← readTagAddress next
    return (.shorthand "!" suffix, behind)

/-- The tag at a cursor. -/
def readTag (cursor : Cursor) : Except Rejection (WrittenTag × Cursor) := do
  let (tag, behind) ← readTagBody cursor
  if isSpaceOrEnd behind.current then return (tag, behind)
  else throw .malformed

/-! ## Directives -/

/-- The number at a cursor. -/
def readVersionNumber (cursor : Cursor) : Except Rejection (Nat × Cursor) :=
  let digits := cursor.run Char.isDigit
  if digits.isEmpty then .error .malformed
  else if Text.digitLimit < digits.length then
    .error (.fault (.numeral (.tooManyDigits digits.length)))
  else
    .ok
      (digits.foldl (fun number c => number * 10 + (c.toNat - 48)) 0,
        cursor.advance digits.length)

/-- The version at a cursor. -/
def readVersion (cursor : Cursor) : Except Rejection (Directive × Cursor) := do
  let (major, behind) ← readVersionNumber cursor.skipSpaces
  if behind.current ≠ '.' then throw .malformed
  let (_, behind) ← readVersionNumber behind.step
  if isSpaceOrEnd behind.current then return (.version major, behind)
  else throw .malformed

/-- The declaration of a handle at a cursor. -/
def readTagHandle (cursor : Cursor) :
    Except Rejection (Directive × Cursor) := do
  let (handle, behind) ← readHandle cursor.skipSpaces
  if behind.current ≠ ' ' then throw .malformed
  let (lead, behind) ← readTagAddress behind.skipSpaces
  if isSpaceOrEnd behind.current then
    return (.tagHandle handle lead, behind)
  else throw .malformed

/-- The directive at a cursor, with its line. -/
def readDirective (cursor : Cursor) :
    Except Rejection (Directive × Cursor) := do
  let next := cursor.step
  let name := next.run isNameCharacter
  let behind := next.advance name.length
  if name.isEmpty || !isSpaceOrEnd behind.current then throw .malformed
  let (directive, behind) ←
    if name = "YAML".toList then readVersion behind
    else if name = "TAG".toList then readTagHandle behind
    else pure (.reserved, behind.skipLine)
  return (directive, ← behind.leaveLine)

end ApiAtlas.Yaml
