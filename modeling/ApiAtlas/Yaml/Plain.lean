import ApiAtlas.Yaml.Cursor

/-!
# Plain scalars

A plain scalar has no quotes: it ends before a comment, before a colon that
ends a key and, inside of brackets, before an indicator.  It may go on over
lines that are indented deep enough; a single line break in it is a space, and
of several ones all but the first are kept.
-/

namespace ApiAtlas.Yaml

/-- A scalar that has been read and the place behind it. -/
structure ScalarRead where
  text : String
  cursor : Cursor
  /-- Whether a key may start at that place. -/
  keyAllowed : Bool

/-- Whether a plain scalar ends before a character and the one after it. -/
def endsPlain (flow : Bool) (c next : Char) : Bool :=
  isBlankOrEnd c ||
    (c == ':' && (isBlankOrEnd next || (flow && isFlowIndicator next))) ||
    (flow && (c == '?' || isFlowIndicator c))

/-- The number of characters up to the end of a word, added to some number. -/
def plainLengthFrom (flow : Bool) : Nat → List Char → Nat
  | count, [] => count
  | count, c :: rest =>
    if endsPlain flow c (rest.headD endMark) then count
    else plainLengthFrom flow (count + 1) rest

/-- The number of characters up to the end of a word of a plain scalar. -/
def plainLength (flow : Bool) (text : List Char) : Nat :=
  plainLengthFrom flow 0 text

/-- White space inside of a plain scalar. -/
structure PlainSpace where
  /-- What it stands for; nothing where the scalar cannot go on. -/
  text : List Char
  cursor : Cursor
  /-- Whether it holds a line break. -/
  broken : Bool

/--
The line breaks and spaces after the first break of a plain scalar: the
further breaks, the last one first, and the place behind them.  A document
mark ends them early.
-/
def plainBreaks :
    Rounds → List Char → Cursor → Option (List Char) × Cursor
  | [], breaks, cursor => (some breaks, cursor)
  | _ :: rounds, breaks, cursor =>
    if cursor.current = ' ' then plainBreaks rounds breaks cursor.step
    else if cursor.atBreak then
      let next := cursor.step
      if next.atDocumentMark then (none, next)
      else plainBreaks rounds (breakText cursor.current :: breaks) next
    else (some breaks, cursor)

/-- What a first line break and the further ones stand for. -/
def foldBreaks (first : Char) (further : List Char) : List Char :=
  if first ≠ '\n' then first :: further
  else if further.isEmpty then [' ']
  else further

/-- The white space at a cursor inside of a plain scalar. -/
def plainSpace (cursor : Cursor) : PlainSpace :=
  let spaces := cursor.run (· == ' ')
  let behind := cursor.skipSpaces
  if behind.atBreak then
    let first := breakText behind.current
    let next := behind.step
    if next.atDocumentMark then ⟨[], next, true⟩
    else
      match plainBreaks next.rounds [] next with
      | (none, cursor) => ⟨[], cursor, true⟩
      | (some further, cursor) =>
        ⟨foldBreaks first further.reverse, cursor, true⟩
  else ⟨spaces, behind, false⟩

/-- Whether a plain scalar goes on after white space. -/
def plainGoesOn (flow : Bool) (indent : Nat) (space : PlainSpace) : Bool :=
  !space.text.isEmpty && space.cursor.current != '#' &&
    (flow || indent ≤ space.cursor.column) &&
    plainLength flow space.cursor.rest != 0

/--
The words of a plain scalar from some word on, after the text before it, which
is given from its end.
-/
def plainFrom (flow : Bool) (indent : Nat) :
    Rounds → List Char → Cursor → ScalarRead
  | [], text, cursor => ⟨String.ofList text.reverse, cursor, false⟩
  | _ :: rounds, text, cursor =>
    let length := plainLength flow cursor.rest
    let text := (cursor.rest.take length).reverse ++ text
    let space := plainSpace (cursor.advance length)
    if plainGoesOn flow indent space then
      plainFrom flow indent rounds (space.text.reverse ++ text) space.cursor
    else ⟨String.ofList text.reverse, space.cursor, space.broken⟩

/-- The plain scalar at a cursor, indented by at least `indent`. -/
def readPlain (flow : Bool) (indent : Nat) (cursor : Cursor) : ScalarRead :=
  plainFrom flow indent cursor.rounds [] cursor

end ApiAtlas.Yaml
