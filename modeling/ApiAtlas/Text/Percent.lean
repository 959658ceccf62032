import ApiAtlas.Text.Encoding

/-!
# Percent-encoding

A text inside one segment of an address: basic letters, digits and the four
marks `_`, `.`, `-` and `~` stand for themselves, every other byte of the
text's UTF-8 form is written as a percent sign and two hexadecimal digits.
-/

namespace ApiAtlas.Text

/-- Whether a byte stands for itself. -/
def isUnreserved (byte : UInt8) : Bool :=
  let c := Char.ofNat byte.toNat
  byte < 0x80 &&
    (c.isAlphanum || c == '_' || c == '.' || c == '-' || c == '~')

/-- A hexadecimal digit with a capital letter. -/
def capitalHexDigit (value : Nat) : Char :=
  if value < 10 then Char.ofNat (48 + value) else Char.ofNat (55 + value)

/-- The percent-encoded form of a byte. -/
def percentByte (byte : UInt8) : List Char :=
  if isUnreserved byte then [Char.ofNat byte.toNat]
  else
    ['%', capitalHexDigit (byte.toNat / 16), capitalHexDigit (byte.toNat % 16)]

/-- The percent-encoded form of a text. -/
def percentEncode (text : String) : String :=
  String.ofList ((utf8Bytes text).flatMap percentByte)

end ApiAtlas.Text
