import ApiAtlas.Yaml.Plain

/-!
# Block scalars

A block scalar is a run of indented lines after an indicator.  A literal one
keeps its line breaks; a folded one turns single breaks between lines that
start with a word into spaces.  The header may give the indentation and say
whether the line breaks at the end are kept or stripped.
-/

namespace ApiAtlas.Yaml

/-- What becomes of the line breaks at the end of a block scalar. -/
inductive Chomping where
  | clip
  | strip
  | keep
deriving DecidableEq, Repr

/-- The header of a block scalar. -/
structure BlockHeader where
  chomping : Chomping
  /-- The stated indentation, beyond that of the parent. -/
  increment : Option Nat

/-- The chomping that an indicator stands for. -/
def chompingOf? : Char → Option Chomping
  | '+' => some .keep
  | '-' => some .strip
  | _ => none

/-- The indentation at a cursor if one is stated; it cannot be zero. -/
def readIncrement (cursor : Cursor) :
    Except Rejection (Option Nat × Cursor) :=
  let c := cursor.current
  if c.isDigit then
    if c = '0' then .error .malformed
    else .ok (some (c.toNat - 48), cursor.step)
  else .ok (none, cursor)

/-- The chomping at a cursor if one is stated. -/
def readChomping (cursor : Cursor) : Option Chomping × Cursor :=
  match chompingOf? cursor.current with
  | some chomping => (some chomping, cursor.step)
  | none => (none, cursor)

/-- The header behind the indicator of a block scalar. -/
def readHeader (cursor : Cursor) :
    Except Rejection (BlockHeader × Cursor) := do
  let (first, cursor) := readChomping cursor
  let (increment, cursor) ← readIncrement cursor
  let (second, cursor) :=
    if first.isSome || increment.isNone then (none, cursor)
    else readChomping cursor
  if isSpaceOrEnd cursor.current then
    return (⟨(first.or second).getD .clip, increment⟩, ← cursor.leaveLine)
  else throw .malformed

/--
The blank lines at a cursor, the last one first and after those before it, and
the greatest indentation among them.
-/
def blankLines : Rounds → List Char → Nat → Cursor →
    List Char × Nat × Cursor
  | [], breaks, indent, cursor => (breaks, indent, cursor)
  | _ :: rounds, breaks, indent, cursor =>
    if cursor.current = ' ' then
      let next := cursor.step
      blankLines rounds breaks (max indent next.column) next
    else if cursor.atBreak then
      blankLines rounds (breakText cursor.current :: breaks) indent
        cursor.step
    else (breaks, indent, cursor)

/-- The place behind the spaces ahead up to a column. -/
def skipToColumn (indent : Nat) (cursor : Cursor) : Cursor :=
  cursor.advance
    (min (indent - cursor.column) (cursor.run (· == ' ')).length)

/--
The line breaks at a cursor in front of lines of a given indentation, the last
one first and after those before it.
-/
def blockBreaks (indent : Nat) : Rounds → List Char → Cursor →
    List Char × Cursor
  | [], breaks, cursor => (breaks, cursor)
  | _ :: rounds, breaks, cursor =>
    let next := skipToColumn indent cursor
    if next.atBreak then
      blockBreaks indent rounds (breakText next.current :: breaks) next.step
    else (breaks, next)

/-- The line breaks at a cursor in front of lines of a given indentation. -/
def readBlockBreaks (indent : Nat) (cursor : Cursor) : List Char × Cursor :=
  let (breaks, behind) := blockBreaks indent cursor.rounds [] cursor
  (breaks.reverse, behind)

/-- Whether a line of a block scalar is at a cursor. -/
def atBlockLine (indent : Nat) (cursor : Cursor) : Bool :=
  cursor.column == indent && cursor.current != endMark

/-- What stands between two lines of a block scalar. -/
def betweenLines (folded : Bool) (line : List Char)
    (first : Option Char) (further : List Char) (next : Char) : List Char :=
  let startsWord (c : Char) : Bool := !isSpacing c
  if folded && first = some '\n' && startsWord (line.headD endMark) &&
      startsWord next then
    if further.isEmpty then [' '] else further
  else first.toList ++ further

/-- What stands behind the last line of a block scalar. -/
def behindLines (chomping : Chomping) (first : Option Char)
    (further : List Char) : List Char :=
  match chomping with
  | .strip => []
  | .clip => first.toList
  | .keep => first.toList ++ further

/--
The lines of a block scalar from some line on, after the text before it.  The
last character is first.
-/
def blockFrom (folded : Bool) (chomping : Chomping) (indent : Nat) :
    Rounds → List Char → Cursor → List Char × Cursor
  | [], text, cursor => (text, cursor)
  | _ :: rounds, text, cursor =>
    let line := cursor.run (!isLineEnd ·)
    let behind := cursor.skipLine
    let first :=
      if behind.atBreak then some (breakText behind.current) else none
    let (further, next) :=
      readBlockBreaks indent (if behind.atBreak then behind.step else behind)
    if atBlockLine indent next then
      let between :=
        betweenLines folded line first further next.current
      blockFrom folded chomping indent rounds
        (between.reverse ++ (line.reverse ++ text)) next
    else
      let behind := behindLines chomping first further
      (behind.reverse ++ (line.reverse ++ text), next)

/-- The block scalar at a cursor inside of a parent of some indentation. -/
def readBlock (folded : Bool) (least : Nat) (cursor : Cursor) :
    Except Rejection ScalarRead := do
  let (header, cursor) ← readHeader cursor.step
  let (indent, breaks, cursor) :=
    match header.increment with
    | some increment =>
      let indent := least + increment - 1
      let (breaks, cursor) := readBlockBreaks indent cursor
      (indent, breaks, cursor)
    | none =>
      let (breaks, greatest, cursor) := blankLines cursor.rounds [] 0 cursor
      (max least greatest, breaks.reverse, cursor)
  let (text, cursor) :=
    if atBlockLine indent cursor then
      let (text, cursor) :=
        blockFrom folded header.chomping indent cursor.rounds breaks.reverse
          cursor
      (text.reverse, cursor)
    else (behindLines header.chomping none breaks, cursor)
  return ⟨String.ofList text, cursor, true⟩

end ApiAtlas.Yaml
