import ApiAtlas.Yaml.Plain

/-!
# Quoted scalars

A scalar between single quotes writes a quote twice; one between double quotes
has escapes after a backslash.  Both may go on over several lines, where white
space around the line breaks is dropped.  A character outside the basic plane
may be escaped as a whole or as two halves.
-/

namespace ApiAtlas.Yaml

/-- What an escape by a single letter stands for. -/
def letterEscape? : Char → Option Nat
  | '0' => some 0
  | 'a' => some 7
  | 'b' => some 8
  | 't' => some 9
  | '\t' => some 9
  | 'n' => some 10
  | 'v' => some 11
  | 'f' => some 12
  | 'r' => some 13
  | 'e' => some 27
  | ' ' => some 32
  | '"' => some 34
  | '\\' => some 92
  | '/' => some 47
  | 'N' => some 0x85
  | '_' => some 0xA0
  | 'L' => some 0x2028
  | 'P' => some 0x2029
  | _ => none

/-- The number of digits of an escape by number. -/
def numberEscapeLength? : Char → Option Nat
  | 'x' => some 2
  | 'u' => some 4
  | 'U' => some 8
  | _ => none

/-- The greatest number that can be escaped without overflow. -/
def escapeLimit : Nat := Nat.pow 2 31

/-- A number that is escaped, if it is that of a character or of a half. -/
def checkedCode (number : Nat) : Except Rejection Nat :=
  if number < 0x110000 then .ok number
  else if number < escapeLimit then .error (.fault .notCharacter)
  else .error (.fault (.misuse .overflow))

/-- Whether a number is the first half of a character. -/
def isFirstHalf (number : Nat) : Bool := 0xD800 ≤ number && number < 0xDC00

/-- Whether a number is the second half of a character. -/
def isSecondHalf (number : Nat) : Bool := 0xDC00 ≤ number && number < 0xE000

/-- The characters of numbers; half a character alone cannot be shown. -/
def joinHalves : List Nat → List Char
  | [] => []
  | [number] =>
    [if isFirstHalf number || isSecondHalf number then Char.ofNat 0xFFFD
      else Char.ofNat number]
  | number :: next :: rest =>
    if isFirstHalf number && isSecondHalf next then
      Char.ofNat (0x10000 + (number - 0xD800) * 1024 + (next - 0xDC00)) ::
        joinHalves rest
    else if isFirstHalf number || isSecondHalf number then
      Char.ofNat 0xFFFD :: joinHalves (next :: rest)
    else Char.ofNat number :: joinHalves (next :: rest)

/--
The line breaks at a cursor inside of quotes, the last one first and after
those before it, and the place behind them.
-/
def quotedBreaks : Rounds → List Char → Cursor →
    Except Rejection (List Char × Cursor)
  | [], breaks, cursor => .ok (breaks, cursor)
  | _ :: rounds, breaks, cursor =>
    if cursor.atDocumentMark then .error .malformed
    else
      let next := cursor.skip isSpacing
      if next.atBreak then
        quotedBreaks rounds (breakText next.current :: breaks) next.step
      else .ok (breaks, next)

/-- The line breaks at a cursor inside of quotes. -/
def readQuotedBreaks (cursor : Cursor) :
    Except Rejection (List Char × Cursor) :=
  (quotedBreaks cursor.rounds [] cursor).map fun found =>
    (found.1.reverse, found.2)

/-- Some numbers of characters that have been read, and the place behind them. -/
abbrev CodesRead := List Nat × Cursor

/-- The numbers of some characters. -/
def codesOf (characters : List Char) : List Nat := characters.map Char.toNat

/-- The white space at a cursor inside of quotes. -/
def quotedSpace (cursor : Cursor) : Except Rejection CodesRead := do
  let spaces := cursor.run isSpacing
  let behind := cursor.skip isSpacing
  if behind.current = endMark then throw .malformed
  else if behind.atBreak then
    let first := breakText behind.current
    let (further, next) ← readQuotedBreaks behind.step
    return (codesOf (foldBreaks first further), next)
  else return (codesOf spaces, behind)

/-- The escape behind the backslash at a cursor. -/
def quotedEscape (cursor : Cursor) : Except Rejection CodesRead := do
  let letter := cursor.step
  match letterEscape? letter.current with
  | some number => return ([number], letter.step)
  | none =>
    match numberEscapeLength? letter.current with
    | some length =>
      let digits := letter.step.rest.take length
      if digits.length = length && digits.all isHexDigit then
        let number ← checkedCode (hexNumber digits)
        return ([number], letter.step.advance length)
      else throw .malformed
    | none =>
      if letter.atBreak then
        let (breaks, next) ← readQuotedBreaks letter.step
        return (codesOf breaks, next)
      else throw .malformed

/-- What stands at a cursor inside of double quotes, if they do not end. -/
def doublePart (cursor : Cursor) : Except Rejection (Option CodesRead) :=
  let c := cursor.current
  if c = '"' then .ok none
  else if c = '\\' then (quotedEscape cursor).map some
  else if isBlankOrEnd c then (quotedSpace cursor).map some
  else .ok (some ([c.toNat], cursor.step))

/-- What stands at a cursor inside of single quotes, if they do not end. -/
def singlePart (cursor : Cursor) : Except Rejection (Option CodesRead) :=
  let c := cursor.current
  if c = '\'' then
    if cursor.peek 1 = '\'' then
      .ok (some ([c.toNat], cursor.advance 2))
    else .ok none
  else if isBlankOrEnd c then (quotedSpace cursor).map some
  else .ok (some ([c.toNat], cursor.step))

/--
The numbers of the characters up to the closing quote, after the ones before.
The last one is first.
-/
def quotedFrom (part : Cursor → Except Rejection (Option CodesRead)) :
    Rounds → List Nat → Cursor → Except Rejection CodesRead
  | [], _, _ => .error .malformed
  | _ :: rounds, codes, cursor => do
    match ← part cursor with
    | none => return (codes, cursor.step)
    | some (more, next) => quotedFrom part rounds (more.reverse ++ codes) next

/-- The quoted scalar at a cursor. -/
def readQuoted (double : Bool) (cursor : Cursor) :
    Except Rejection ScalarRead := do
  let part := if double then doublePart else singlePart
  let (codes, behind) ← quotedFrom part cursor.rounds [] cursor.step
  return ⟨String.ofList (joinHalves codes.reverse), behind, false⟩

end ApiAtlas.Yaml
