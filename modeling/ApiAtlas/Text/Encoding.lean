import ApiAtlas.Text.Quoted

/-!
# Decoding bytes to text

Three encodings are read: UTF-8, ASCII and Latin-1.  `utf8Step` looks at the
front of a run of bytes and finds a character, an error or the start of a
character whose end has not arrived.  Everything else is built on it: whole
texts, the incremental decoder that keeps an unfinished character for later,
and the lenient reading that puts a replacement mark in place of each error.
-/

namespace ApiAtlas.Text

/-- The encodings that are read. -/
inductive Encoding where
  | utf8
  | ascii
  | latin1
deriving DecidableEq, Repr

/-- Why bytes cannot be decoded. -/
inductive DecodeReason where
  | invalidStart
  | invalidContinuation
  | unexpectedEnd
  | notAscii
deriving DecidableEq, Repr

/-- A run of bytes that cannot be decoded, by its position in the input. -/
structure DecodeFault where
  encoding : Encoding
  /-- The first of the bytes. -/
  byte : UInt8
  position : Nat
  /-- The number of bytes that were taken together. -/
  count : Nat
  reason : DecodeReason
deriving DecidableEq, Repr

/-- The name of an encoding. -/
def Encoding.name : Encoding → String
  | .utf8 => "utf-8"
  | .ascii => "ascii"
  | .latin1 => "latin-1"

/-- The wording of a reason. -/
def DecodeReason.message : DecodeReason → String
  | .invalidStart => "invalid start byte"
  | .invalidContinuation => "invalid continuation byte"
  | .unexpectedEnd => "unexpected end of data"
  | .notAscii => "ordinal not in range(128)"

/-- The wording of a decoding fault. -/
def DecodeFault.message (fault : DecodeFault) : String :=
  "'" ++ fault.encoding.name ++ "' codec can't decode " ++
    (if fault.count = 1 then
      "byte 0x" ++ String.ofList (hexadecimal 2 fault.byte.toNat) ++
        " in position " ++ toString fault.position
    else
      "bytes in position " ++ toString fault.position ++ "-" ++
        toString (fault.position + fault.count - 1)) ++
    ": " ++ fault.reason.message

/-! ## One step of UTF-8 -/

/-- What stands at the front of a run of bytes. -/
inductive Step where
  /-- A character that takes `size` bytes. -/
  | character (c : Char) (size : Nat)
  /-- The start of a character whose end is not there. -/
  | unfinished
  /-- Bytes that begin no character. -/
  | invalid (size : Nat) (reason : DecodeReason)
deriving DecidableEq, Repr

/-- Whether a byte continues a character. -/
def isContinuation (byte : UInt8) : Bool :=
  0x80 ≤ byte && byte ≤ 0xBF

/-- The six bits that a continuation byte carries. -/
def payload (byte : UInt8) : Nat := byte.toNat % 64

/--
The range of the second byte of a character.  It excludes forms that are too
long, surrogates and numbers beyond the last character.
-/
def secondRange (lead : UInt8) : UInt8 × UInt8 :=
  if lead = 0xE0 then (0xA0, 0xBF)
  else if lead = 0xED then (0x80, 0x9F)
  else if lead = 0xF0 then (0x90, 0xBF)
  else if lead = 0xF4 then (0x80, 0x8F)
  else (0x80, 0xBF)

/-- Whether a byte may follow a lead byte. -/
def followsLead (lead byte : UInt8) : Bool :=
  (secondRange lead).1 ≤ byte && byte ≤ (secondRange lead).2

/-- What stands at the front of a lead byte and the bytes after it. -/
def utf8Step (lead : UInt8) (rest : List UInt8) : Step :=
  if lead < 0x80 then .character (Char.ofNat lead.toNat) 1
  else if lead < 0xC2 then .invalid 1 .invalidStart
  else if lead < 0xE0 then
    match rest with
    | [] => .unfinished
    | a :: _ =>
      if followsLead lead a then
        .character (Char.ofNat (lead.toNat % 32 * 64 + payload a)) 2
      else .invalid 1 .invalidContinuation
  else if lead < 0xF0 then
    match rest with
    | [] => .unfinished
    | [a] =>
      if followsLead lead a then .unfinished
      else .invalid 1 .invalidContinuation
    | a :: b :: _ =>
      if !followsLead lead a then .invalid 1 .invalidContinuation
      else if !isContinuation b then .invalid 2 .invalidContinuation
      else
        .character
          (Char.ofNat
            ((lead.toNat % 16 * 64 + payload a) * 64 + payload b)) 3
  else if lead < 0xF5 then
    match rest with
    | [] => .unfinished
    | [a] =>
      if followsLead lead a then .unfinished
      else .invalid 1 .invalidContinuation
    | [a, b] =>
      if !followsLead lead a then .invalid 1 .invalidContinuation
      else if !isContinuation b then .invalid 2 .invalidContinuation
      else .unfinished
    | a :: b :: c :: _ =>
      if !followsLead lead a then .invalid 1 .invalidContinuation
      else if !isContinuation b then .invalid 2 .invalidContinuation
      else if !isContinuation c then .invalid 3 .invalidContinuation
      else
        .character
          (Char.ofNat
            (((lead.toNat % 8 * 64 + payload a) * 64 + payload b) * 64 +
              payload c)) 4
  else .invalid 1 .invalidStart

/-! ## Runs of bytes -/

/-- A decoded text and the bytes of a character that is not complete. -/
structure Decoded where
  characters : List Char
  unfinished : List UInt8
deriving DecidableEq, Repr

/--
Whether bytes are the first two of the three that would stand for one half of
a surrogate pair.  No character begins so, but the error is found only when a
further byte arrives or the input ends.
-/
def isHalfSurrogate (lead : UInt8) : List UInt8 → Bool
  | [second] => lead == 0xED && 0xA0 ≤ second && second ≤ 0xBF
  | _ => false

/-- The decoded text with a character put in front. -/
def Decoded.cons (c : Char) (decoded : Decoded) : Decoded :=
  { decoded with characters := c :: decoded.characters }

/--
The text of a run of UTF-8 bytes that starts at `position`, up to a character
that is not complete.
-/
def decodeUtf8 (position : Nat) : List UInt8 → Except DecodeFault Decoded
  | [] => .ok ⟨[], []⟩
  | lead :: rest =>
    match utf8Step lead rest with
    | .character c size =>
      (decodeUtf8 (position + size) (rest.drop (size - 1))).map
        (Decoded.cons c)
    | .unfinished => .ok ⟨[], lead :: rest⟩
    | .invalid size reason =>
      if isHalfSurrogate lead rest then .ok ⟨[], lead :: rest⟩
      else .error ⟨.utf8, lead, position, size, reason⟩
termination_by bytes => bytes.length
decreasing_by
  simp only [List.length_drop, List.length_cons]
  omega

/-- The text of a run of ASCII bytes that starts at `position`. -/
def decodeAscii (position : Nat) : List UInt8 → Except DecodeFault (List Char)
  | [] => .ok []
  | byte :: rest =>
    if byte < 0x80 then
      (decodeAscii (position + 1) rest).map (Char.ofNat byte.toNat :: ·)
    else .error ⟨.ascii, byte, position, 1, .notAscii⟩

/-- The text of a run of bytes, up to a character that is not complete. -/
def Encoding.decode (encoding : Encoding) (bytes : List UInt8) :
    Except DecodeFault Decoded :=
  match encoding with
  | .utf8 => decodeUtf8 0 bytes
  | .ascii => (decodeAscii 0 bytes).map fun characters => ⟨characters, []⟩
  | .latin1 => .ok ⟨bytes.map fun byte => Char.ofNat byte.toNat, []⟩

/-- The fault of bytes that end within a character. -/
def endFault? (total : Nat) (unfinished : List UInt8) : Option DecodeFault :=
  match unfinished with
  | [] => none
  | byte :: rest =>
    let position := total - (rest.length + 1)
    if isHalfSurrogate byte rest then
      some ⟨.utf8, byte, position, 1, .invalidContinuation⟩
    else some ⟨.utf8, byte, position, rest.length + 1, .unexpectedEnd⟩

/-- The text of bytes after which nothing more comes. -/
def Encoding.decodeAll (encoding : Encoding) (bytes : List UInt8) :
    Except DecodeFault (List Char) := do
  let decoded ← encoding.decode bytes
  match endFault? bytes.length decoded.unfinished with
  | some fault => throw fault
  | none => return decoded.characters

/-- The mark that stands in place of bytes that cannot be decoded. -/
def replacementMark : Char := Char.ofNat 0xFFFD

/-- The text of UTF-8 bytes with a mark in place of each error. -/
def decodeLenient : List UInt8 → List Char
  | [] => []
  | lead :: rest =>
    match utf8Step lead rest with
    | .character c size => c :: decodeLenient (rest.drop (size - 1))
    | .unfinished => [replacementMark]
    | .invalid size _ =>
      replacementMark :: decodeLenient (rest.drop (size - 1))
termination_by bytes => bytes.length
decreasing_by
  all_goals
    simp only [List.length_drop, List.length_cons]
    omega

/-! ## Writing -/

/-- The UTF-8 bytes of a text. -/
def utf8Bytes (text : String) : List UInt8 :=
  text.toList.flatMap String.utf8EncodeChar

end ApiAtlas.Text
