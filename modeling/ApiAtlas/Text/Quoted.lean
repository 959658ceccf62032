import ApiAtlas.Text.Printable

/-!
# Quoted text

A text shown inside a message stands between quotes.  Single quotes are used
unless the text holds a single quote and no double one.  The backslash, the
chosen quote, line ends, tabs and characters that are not printable are
written as escapes with the fewest hexadecimal digits of the sizes two, four
and eight.
-/

namespace ApiAtlas.Text

/-- A number in small hexadecimal digits, at least `width` of them. -/
def hexadecimal (width number : Nat) : List Char :=
  let digits := Nat.toDigits 16 number
  List.replicate (width - digits.length) '0' ++ digits

/-- The quote that encloses a text. -/
def enclosingQuote (holds : Char → Bool) : Char :=
  if holds '\'' && !holds '"' then '"' else '\''

/-- The escape of a character that has a letter of its own. -/
def letterEscape? (quote c : Char) : Option (List Char) :=
  if c = '\\' ∨ c = quote then some ['\\', c]
  else if c = '\n' then some ['\\', 'n']
  else if c = '\r' then some ['\\', 'r']
  else if c = '\t' then some ['\\', 't']
  else none

/-- A character as it stands in a quoted text. -/
def quotedCharacter (quote c : Char) : List Char :=
  match letterEscape? quote c with
  | some escape => escape
  | none =>
    if isPrintable c then [c]
    else if c.toNat < 0x100 then '\\' :: 'x' :: hexadecimal 2 c.toNat
    else if c.toNat < 0x10000 then '\\' :: 'u' :: hexadecimal 4 c.toNat
    else '\\' :: 'U' :: hexadecimal 8 c.toNat

/-- A text between quotes. -/
def quoted (text : String) : String :=
  let characters := text.toList
  let quote := enclosingQuote characters.contains
  String.ofList
    (quote :: characters.flatMap (quotedCharacter quote) ++ [quote])

/-- A byte as it stands in a quoted run of bytes. -/
def quotedByte (quote : Char) (byte : UInt8) : List Char :=
  let c := Char.ofNat byte.toNat
  match letterEscape? quote c with
  | some escape => escape
  | none =>
    if 0x20 ≤ byte.toNat ∧ byte.toNat < 0x7F then [c]
    else '\\' :: 'x' :: hexadecimal 2 byte.toNat

/-- Bytes between quotes, marked as bytes. -/
def quotedBytes (content : List UInt8) : String :=
  let quote :=
    enclosingQuote fun c => content.contains (UInt8.ofNat c.toNat)
  String.ofList
    ('b' :: quote :: content.flatMap (quotedByte quote) ++ [quote])

end ApiAtlas.Text
