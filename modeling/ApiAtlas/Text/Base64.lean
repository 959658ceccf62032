/-!
# Base64

Reading bytes that are written in base64.  Characters outside of the alphabet
are passed over, and two marks of padding at the end of a group, or one behind
three characters, end the text.
-/

namespace ApiAtlas.Text

/-- The value of a character of the alphabet. -/
def base64Value? (c : Char) : Option Nat :=
  if 'A' ≤ c && c ≤ 'Z' then some (c.toNat - 65)
  else if 'a' ≤ c && c ≤ 'z' then some (c.toNat - 71)
  else if c.isDigit then some (c.toNat + 4)
  else if c = '+' then some 62
  else if c = '/' then some 63
  else none

/-- A group of four characters that is not complete. -/
structure Base64Group where
  /-- The number of characters that have been read. -/
  size : Nat
  /-- The bits that belong to the next byte. -/
  bits : Nat
  /-- The number of marks of padding. -/
  pads : Nat

/-- The bytes of a text in base64 behind an incomplete group. -/
def base64From (group : Base64Group) : List Char → Option (List UInt8)
  | [] => if group.size = 0 then some [] else none
  | c :: rest =>
    if c = '=' then
      if group.size < 2 then base64From group rest
      else if 4 ≤ group.size + group.pads + 1 then some []
      else base64From { group with pads := group.pads + 1 } rest
    else
      match base64Value? c with
      | none => base64From group rest
      | some value =>
        match group.size with
        | 0 => base64From ⟨1, value, 0⟩ rest
        | 1 =>
          (base64From ⟨2, value % 16, 0⟩ rest).map
            (UInt8.ofNat (group.bits * 4 + value / 16) :: ·)
        | 2 =>
          (base64From ⟨3, value % 4, 0⟩ rest).map
            (UInt8.ofNat (group.bits * 16 + value / 4) :: ·)
        | _ =>
          (base64From ⟨0, 0, 0⟩ rest).map
            (UInt8.ofNat (group.bits * 64 + value) :: ·)

/-- The bytes of a text in base64. -/
def readBase64 (text : List Char) : Option (List UInt8) :=
  base64From ⟨0, 0, 0⟩ text

end ApiAtlas.Text
