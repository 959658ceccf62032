import ApiAtlas.Text.Numeral

/-!
# Faults of exchanged text

A text that is no document in exchange notation is refused at one position.
The position is given by line, column and offset, the first two counted from
one.
-/

namespace ApiAtlas.Json

/-- What is wrong at a position of a text. -/
inductive Problem where
  | expectedValue
  | expectedName
  | expectedColon
  | expectedComma
  | extraData
  | unterminatedText
  | controlCharacter
  | invalidEscape
  | invalidUnicodeEscape
  | byteOrderMark
deriving DecidableEq, Repr

/-- The wording of a problem. -/
def Problem.message : Problem → String
  | .expectedValue => "Expecting value"
  | .expectedName => "Expecting property name enclosed in double quotes"
  | .expectedColon => "Expecting ':' delimiter"
  | .expectedComma => "Expecting ',' delimiter"
  | .extraData => "Extra data"
  | .unterminatedText => "Unterminated string starting at"
  | .controlCharacter => "Invalid control character at"
  | .invalidEscape => "Invalid \\escape"
  | .invalidUnicodeEscape => "Invalid \\uXXXX escape"
  | .byteOrderMark => "Unexpected UTF-8 BOM (decode using utf-8-sig)"

/-- A position in a text. -/
structure Position where
  line : Nat
  column : Nat
  offset : Nat
deriving DecidableEq, Repr

/-- The position after some characters. -/
def Position.after (passed : List Char) : Position :=
  { line := passed.count '\n' + 1
    column := (passed.reverse.takeWhile (· ≠ '\n')).length + 1
    offset := passed.length }

/-- Why a text is refused. -/
inductive Fault where
  | malformed (problem : Problem) (position : Position)
  | tooManyDigits (count : Nat)
deriving DecidableEq, Repr

/-- The wording of a fault. -/
def Fault.message : Fault → String
  | .malformed problem position =>
    problem.message ++ ": line " ++ toString position.line ++ " column " ++
      toString position.column ++ " (char " ++ toString position.offset ++ ")"
  | .tooManyDigits count => (Text.NumeralFault.tooManyDigits count).message

end ApiAtlas.Json
