import ApiAtlas.Data.Shown

/-!
# Writing exchange notation

`Json.write` writes a value on one line or over indented lines.  All text is
written with basic characters only: anything else becomes an escape by number,
two of them for a character beyond the first plane.  Days, moments, bytes and
sets have no notation of their own; they are refused, or written as texts in
their bare form when the layout allows it.  A value that holds itself is always
refused.
-/

namespace ApiAtlas.Json

/-- How a value is laid out. -/
structure Layout where
  /-- The width of one level of indentation; everything on one line if absent. -/
  indent : Option Nat
  /-- Whether values without a notation are written as texts. -/
  bareForms : Bool

/-- The layout on one line, for values that have a notation. -/
def Layout.line : Layout := ⟨none, false⟩

/-- The layout over lines indented by two, for any value. -/
def Layout.page : Layout := ⟨some 2, true⟩

/-- Why a value has no written form. -/
inductive Unwritable where
  /-- A part of the value has no notation. -/
  | noNotation
  /-- The value holds itself. -/
  | endless
deriving DecidableEq, Repr

/-- An escape by number of a sixteen-bit unit. -/
def unitEscape (unit : Nat) : List Char :=
  '\\' :: 'u' :: Text.hexadecimal 4 unit

/-- A character inside a written text. -/
def writeCharacter (c : Char) : List Char :=
  let n := c.toNat
  if c = '"' then ['\\', '"']
  else if c = '\\' then ['\\', '\\']
  else if c = '\n' then ['\\', 'n']
  else if c = '\r' then ['\\', 'r']
  else if c = '\t' then ['\\', 't']
  else if n = 8 then ['\\', 'b']
  else if n = 12 then ['\\', 'f']
  else if 0x20 ≤ n ∧ n < 0x7F then [c]
  else if n < 0x10000 then unitEscape n
  else
    unitEscape (0xD800 + (n - 0x10000) / 1024) ++
      unitEscape (0xDC00 + (n - 0x10000) % 1024)

/-- A text between double quotes. -/
def writeText (text : String) : String :=
  String.ofList ('"' :: text.toList.flatMap writeCharacter ++ ['"'])

/-- A scalar that has a notation. -/
def scalarNotation? : Scalar → Option String
  | .null => some "null"
  | .bool value => some (if value then "true" else "false")
  | .int value => some (toString value)
  | .float value => some (value.render .exchanged)
  | .str text => some (writeText text)
  | _ => none

/-- The text of a key: scalars with a notation become names. -/
def keyText? : Scalar → Option String
  | .str text => some text
  | key => scalarNotation? key

/-- The line break before a part at some level. -/
def Layout.lineBreak (layout : Layout) (level : Nat) : String :=
  match layout.indent with
  | some width => String.ofList ('\n' :: List.replicate (width * level) ' ')
  | none => ""

/-- The mark between two parts at some level. -/
def Layout.separator (layout : Layout) (level : Nat) : String :=
  match layout.indent with
  | some _ => "," ++ layout.lineBreak level
  | none => ", "

/-- Written parts between brackets. -/
def Layout.enclose (layout : Layout) (level : Nat)
    (opening closing : String) (parts : List String) : String :=
  if parts.isEmpty then opening ++ closing
  else
    opening ++ layout.lineBreak (level + 1) ++
      String.intercalate (layout.separator (level + 1)) parts ++
      layout.lineBreak level ++ closing

/-- A value without a notation. -/
def Layout.bare (layout : Layout) (value : Datum) :
    Except Unwritable String :=
  if layout.bareForms then .ok (writeText value.plain)
  else .error .noNotation

mutual

/-- A value written at some level. -/
def writeAt (layout : Layout) (level : Nat) :
    Datum → Except Unwritable String
  | .scalar value =>
    match scalarNotation? value with
    | some notationText => .ok notationText
    | none => layout.bare (.scalar value)
  | .set members => layout.bare (.set members)
  | .endless => .error .endless
  | .list items =>
    (writeItems layout (level + 1) items).map (layout.enclose level "[" "]")
  | .map entries =>
    (writeEntries layout (level + 1) entries).map
      (layout.enclose level "\x7b" "\x7d")

/-- The written items of a list. -/
def writeItems (layout : Layout) (level : Nat) :
    List Datum → Except Unwritable (List String)
  | [] => .ok []
  | item :: rest => do
    let written ← writeAt layout level item
    return written :: (← writeItems layout level rest)

/-- The written entries of a map. -/
def writeEntries (layout : Layout) (level : Nat) :
    Entries → Except Unwritable (List String)
  | [] => .ok []
  | (key, value) :: rest => do
    match keyText? key with
    | none => throw .noNotation
    | some name =>
      let written ← writeAt layout level value
      return (writeText name ++ ": " ++ written) ::
        (← writeEntries layout level rest)

end

/-- The written form of a value. -/
def write (layout : Layout) (value : Datum) : Except Unwritable String :=
  writeAt layout 0 value

end ApiAtlas.Json
