import ApiAtlas.Fault
import ApiAtlas.Yaml.Character

/-!
# Cursors

A cursor is a place in a text: what is left of the text, and how far the place
is from the start of the text and of its line.  A mark of byte order does not
count as a column.
-/

namespace ApiAtlas.Yaml

/-- Why a text gives no value. -/
inductive Rejection where
  /-- The text is not well-formed. -/
  | malformed
  /-- The text is well-formed, but a value in it cannot be made. -/
  | fault (fault : Fault)
deriving DecidableEq, Repr

/--
The rounds that a loop may take at most, one for each character.  The text that
is left gives the rounds of a loop that moves on in every round.
-/
abbrev Rounds := List Char

/-- A place in a text. -/
structure Cursor where
  rest : List Char
  index : Nat
  line : Nat
  column : Nat
deriving DecidableEq, Repr

namespace Cursor

/-- The start of a text. -/
def start (text : List Char) : Cursor := ⟨text, 0, 0, 0⟩

/-- A round for each character that is left, and one for the end. -/
def rounds (cursor : Cursor) : Rounds := endMark :: cursor.rest

/-- The character some places ahead. -/
def peek (ahead : Nat) (cursor : Cursor) : Char :=
  cursor.rest[ahead]?.getD endMark

/-- The character at the cursor. -/
def current (cursor : Cursor) : Char := cursor.rest.headD endMark

/-- The place behind the character at the cursor. -/
def step (cursor : Cursor) : Cursor :=
  match cursor.rest with
  | [] => cursor
  | c :: rest =>
    if isBreak c then ⟨rest, cursor.index + 1, cursor.line + 1, 0⟩
    else if c = orderMark then
      ⟨rest, cursor.index + 1, cursor.line, cursor.column⟩
    else ⟨rest, cursor.index + 1, cursor.line, cursor.column + 1⟩

/-- The place some characters further. -/
def advance : Nat → Cursor → Cursor
  | 0, cursor => cursor
  | count + 1, cursor => advance count cursor.step

/-- The characters ahead that satisfy a test. -/
def run (test : Char → Bool) (cursor : Cursor) : List Char :=
  cursor.rest.takeWhile test

/-- The place behind the characters ahead that satisfy a test. -/
def skip (test : Char → Bool) (cursor : Cursor) : Cursor :=
  cursor.advance (cursor.run test).length

/-- The place behind the spaces ahead. -/
def skipSpaces (cursor : Cursor) : Cursor := cursor.skip (· == ' ')

/-- The place at the end of the line. -/
def skipLine (cursor : Cursor) : Cursor := cursor.skip (!isLineEnd ·)

/-- The place behind a comment, if one starts at the cursor. -/
def skipComment (cursor : Cursor) : Cursor :=
  if cursor.current = '#' then cursor.skipLine else cursor

/-- Whether a line break is at the cursor. -/
def atBreak (cursor : Cursor) : Bool := isBreak cursor.current

/-- Whether a mark of three characters stands alone at the cursor. -/
def atMark (mark : Char) (cursor : Cursor) : Bool :=
  [mark, mark, mark].isPrefixOf cursor.rest && isBlankOrEnd (cursor.peek 3)

/-- Whether a document starts or ends at the cursor. -/
def atDocumentMark (cursor : Cursor) : Bool :=
  cursor.atMark '-' || cursor.atMark '.'

/-- The place on the next line, if nothing but a comment is left on this one. -/
def leaveLine (cursor : Cursor) : Except Rejection Cursor :=
  let cursor := cursor.skipSpaces.skipComment
  if isLineEnd cursor.current then
    .ok (if cursor.atBreak then cursor.step else cursor)
  else .error .malformed

end Cursor

end ApiAtlas.Yaml
