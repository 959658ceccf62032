import ApiAtlas.Proofs.Outcome
import ApiAtlas.Text.Encoding
import Mathlib.Logic.Basic
import Mathlib.Tactic.SplitIfs

/-!
# Decoding UTF-8 as the inverse of encoding

`utf8Step` looks at the front of a run of bytes.  It finds a character exactly
when the bytes of that character stand there, and what it finds does not
change when more bytes arrive behind an error or a character.

From this follow the three facts on which everything about streams rests: the
bytes of a text decode to the text, decoded bytes are those of the decoded
text with at most the beginning of one more sequence behind them, and decoding
in two pieces is decoding at once.  The last two hold for every encoding that
is read, and in all of them a line feed is one byte.
-/

namespace ApiAtlas.Text

/-- The UTF-8 bytes of some characters. -/
def utf8Of (characters : List Char) : List UInt8 :=
  characters.flatMap String.utf8EncodeChar

@[simp]
theorem utf8Of_nil : utf8Of [] = [] := rfl

/-! ## Bytes of one character -/

theorem followsLead_iff (lead byte : UInt8) :
    followsLead lead byte = true ↔
      0x80 ≤ byte.toNat ∧ byte.toNat ≤ 0xBF ∧
        (lead.toNat = 0xE0 → 0xA0 ≤ byte.toNat) ∧
        (lead.toNat = 0xED → byte.toNat ≤ 0x9F) ∧
        (lead.toNat = 0xF0 → 0x90 ≤ byte.toNat) ∧
        (lead.toNat = 0xF4 → byte.toNat ≤ 0x8F) := by
  simp only [followsLead, secondRange, ← UInt8.toNat_inj, UInt8.reduceToNat]
  split_ifs <;>
    simp only [Bool.and_eq_true, decide_eq_true_eq, UInt8.le_iff_toNat_le,
      UInt8.reduceToNat] <;>
    omega

theorem isContinuation_iff (byte : UInt8) :
    isContinuation byte = true ↔
      0x80 ≤ byte.toNat ∧ byte.toNat ≤ 0xBF := by
  simp only [isContinuation, Bool.and_eq_true, decide_eq_true_eq,
    UInt8.le_iff_toNat_le, UInt8.reduceToNat]

theorem toNat_ofNat_of_valid
    (number : Nat) (valid : number.isValidChar) :
    (Char.ofNat number).toNat = number := by
  rw [Char.ofNat, dif_pos valid]
  rfl

theorem ofNat_eq_of_eq_toNat
    (byte : UInt8) {number : Nat} (equal : number = byte.toNat) :
    UInt8.ofNat number = byte := by
  rw [equal, UInt8.ofNat_toNat]

theorem toNat_ofNat_byte
    {number : Nat} (small : number < 256) :
    (UInt8.ofNat number).toNat = number :=
  UInt8.toNat_ofNat_of_lt' small

theorem ofNat_lt_iff
    {number : Nat} (small : number < 256) (bound : UInt8) :
    UInt8.ofNat number < bound ↔ number < bound.toNat := by
  rw [UInt8.lt_iff_toNat_lt, toNat_ofNat_byte small]

/-! ## Lead bytes by the number of bytes that they announce -/

/-- What stands at the front if the lead byte announces two bytes. -/
def twoBytes (lead : UInt8) : List UInt8 → Step
  | [] => .unfinished
  | a :: _ =>
    if followsLead lead a then
      .character (Char.ofNat (lead.toNat % 32 * 64 + payload a)) 2
    else .invalid 1 .invalidContinuation

/-- What stands at the front if the lead byte announces three bytes. -/
def threeBytes (lead : UInt8) : List UInt8 → Step
  | [] => .unfinished
  | [a] =>
    if followsLead lead a then .unfinished
    else .invalid 1 .invalidContinuation
  | a :: b :: _ =>
    if !followsLead lead a then .invalid 1 .invalidContinuation
    else if !isContinuation b then .invalid 2 .invalidContinuation
    else
      .character
        (Char.ofNat ((lead.toNat % 16 * 64 + payload a) * 64 + payload b)) 3

/-- What stands at the front if the lead byte announces four bytes. -/
def fourBytes (lead : UInt8) : List UInt8 → Step
  | [] => .unfinished
  | [a] =>
    if followsLead lead a then .unfinished
    else .invalid 1 .invalidContinuation
  | [a, b] =>
    if !followsLead lead a then .invalid 1 .invalidContinuation
    else if !isContinuation b then .invalid 2 .invalidContinuation
    else .unfinished
  | a :: b :: c :: _ =>
    if !followsLead lead a then .invalid 1 .invalidContinuation
    else if !isContinuation b then .invalid 2 .invalidContinuation
    else if !isContinuation c then .invalid 3 .invalidContinuation
    else
      .character
        (Char.ofNat
          (((lead.toNat % 8 * 64 + payload a) * 64 + payload b) * 64 +
            payload c)) 4

theorem utf8Step_eq (lead : UInt8) (rest : List UInt8) :
    utf8Step lead rest =
      if lead < 0x80 then .character (Char.ofNat lead.toNat) 1
      else if lead < 0xC2 then .invalid 1 .invalidStart
      else if lead < 0xE0 then twoBytes lead rest
      else if lead < 0xF0 then threeBytes lead rest
      else if lead < 0xF5 then fourBytes lead rest
      else .invalid 1 .invalidStart := by
  rfl

/-! ### Two bytes -/

theorem twoBytes_of_number
    {number : Nat} (lower : 0x80 ≤ number) (upper : number ≤ 0x7FF)
    (behind : List UInt8) :
    twoBytes (UInt8.ofNat (number / 64 % 32 + 0xC0))
        (UInt8.ofNat (number % 64 + 0x80) :: behind) =
      .character (Char.ofNat number) 2 := by
  have whole :
      (number / 64 % 32 + 0xC0) % 32 * 64 + (number % 64 + 0x80) % 64 =
        number := by
    omega
  simp (disch := omega) only [twoBytes, followsLead_iff, payload,
    toNat_ofNat_byte]
  rw [if_pos (by omega), whole]

theorem encoded_of_twoBytes
    {c : Char} {lead : UInt8} {rest : List UInt8} {size : Nat}
    (lower : 0xC2 ≤ lead.toNat) (upper : lead.toNat < 0xE0)
    (found : twoBytes lead rest = .character c size) :
    ∃ tail behind,
      rest = tail ++ behind ∧ size = tail.length + 1 ∧
        String.utf8EncodeChar c = lead :: tail := by
  rcases rest with _ | ⟨a, behind⟩
  · cases found
  · simp only [twoBytes, followsLead_iff, payload] at found
    split_ifs at found with follows
    rcases found with ⟨rfl, rfl⟩
    refine ⟨[a], behind, rfl, rfl, ?_⟩
    have number :=
      toNat_ofNat_of_valid (lead.toNat % 32 * 64 + a.toNat % 64)
        (by unfold Nat.isValidChar; omega)
    simp only [String.utf8EncodeChar, Char.toNat_val, number]
    rw [if_neg (by omega), if_pos (by omega),
      ofNat_eq_of_eq_toNat lead (by omega),
      ofNat_eq_of_eq_toNat a (by omega)]

theorem twoBytes_invalid_append
    {lead : UInt8} {rest : List UInt8} {size : Nat} {reason : DecodeReason}
    (found : twoBytes lead rest = .invalid size reason)
    (behind : List UInt8) :
    twoBytes lead (rest ++ behind) = .invalid size reason := by
  rcases rest with _ | ⟨a, rest⟩
  · cases found
  · exact found

theorem eq_nil_of_twoBytes_unfinished
    {lead : UInt8} {rest : List UInt8}
    (found : twoBytes lead rest = .unfinished) : rest = [] := by
  rcases rest with _ | ⟨a, rest⟩
  · rfl
  · simp only [twoBytes] at found
    split_ifs at found

/-! ### Three bytes -/

theorem threeBytes_of_number
    {number : Nat} (lower : 0x800 ≤ number) (upper : number ≤ 0xFFFF)
    (noSurrogate : number < 0xD800 ∨ 0xDFFF < number)
    (behind : List UInt8) :
    threeBytes (UInt8.ofNat (number / 4096 % 16 + 0xE0))
        (UInt8.ofNat (number / 64 % 64 + 0x80) ::
          UInt8.ofNat (number % 64 + 0x80) :: behind) =
      .character (Char.ofNat number) 3 := by
  have whole :
      ((number / 4096 % 16 + 0xE0) % 16 * 64 +
          (number / 64 % 64 + 0x80) % 64) * 64 +
        (number % 64 + 0x80) % 64 = number := by
    omega
  simp (disch := omega) only [threeBytes, Bool.not_eq_true',
    ← Bool.not_eq_true, followsLead_iff, isContinuation_iff, payload,
    toNat_ofNat_byte]
  rw [if_neg (by omega), if_neg (by omega), whole]

theorem encoded_of_threeBytes
    {c : Char} {lead : UInt8} {rest : List UInt8} {size : Nat}
    (lower : 0xE0 ≤ lead.toNat) (upper : lead.toNat < 0xF0)
    (found : threeBytes lead rest = .character c size) :
    ∃ tail behind,
      rest = tail ++ behind ∧ size = tail.length + 1 ∧
        String.utf8EncodeChar c = lead :: tail := by
  rcases rest with _ | ⟨a, _ | ⟨b, behind⟩⟩
  · cases found
  · simp only [threeBytes] at found
    split_ifs at found
  · simp only [threeBytes, Bool.not_eq_true', ← Bool.not_eq_true,
      followsLead_iff, isContinuation_iff, payload] at found
    split_ifs at found with follows continues
    rcases found with ⟨rfl, rfl⟩
    refine ⟨[a, b], behind, rfl, rfl, ?_⟩
    have number :=
      toNat_ofNat_of_valid
        ((lead.toNat % 16 * 64 + a.toNat % 64) * 64 + b.toNat % 64)
        (by unfold Nat.isValidChar; omega)
    simp only [String.utf8EncodeChar, Char.toNat_val, number]
    rw [if_neg (by omega), if_neg (by omega), if_pos (by omega),
      ofNat_eq_of_eq_toNat lead (by omega),
      ofNat_eq_of_eq_toNat a (by omega),
      ofNat_eq_of_eq_toNat b (by omega)]

theorem threeBytes_invalid_append
    {lead : UInt8} {rest : List UInt8} {size : Nat} {reason : DecodeReason}
    (found : threeBytes lead rest = .invalid size reason)
    (behind : List UInt8) :
    threeBytes lead (rest ++ behind) = .invalid size reason := by
  rcases rest with _ | ⟨a, _ | ⟨b, rest⟩⟩
  · cases found
  · simp only [threeBytes] at found
    split_ifs at found with follows
    rcases behind with _ | ⟨b, behind⟩ <;>
      simpa [threeBytes, follows] using found
  · exact found

/-- What may stand before the end of a character are its lead and next byte. -/
theorem le_of_mem_threeBytes_unfinished
    {lead : UInt8} {rest : List UInt8}
    (found : threeBytes lead rest = .unfinished) :
    ∀ byte ∈ rest, 0x80 ≤ byte.toNat := by
  rcases rest with _ | ⟨a, _ | ⟨b, rest⟩⟩
  · simp
  · simp only [threeBytes, followsLead_iff] at found
    split_ifs at found with follows
    simpa using follows.1
  · simp only [threeBytes] at found
    split_ifs at found

/-! ### Four bytes -/

theorem fourBytes_of_number
    {number : Nat} (lower : 0x10000 ≤ number) (upper : number < 0x110000)
    (behind : List UInt8) :
    fourBytes (UInt8.ofNat (number / 262144 % 8 + 0xF0))
        (UInt8.ofNat (number / 4096 % 64 + 0x80) ::
          UInt8.ofNat (number / 64 % 64 + 0x80) ::
            UInt8.ofNat (number % 64 + 0x80) :: behind) =
      .character (Char.ofNat number) 4 := by
  have whole :
      (((number / 262144 % 8 + 0xF0) % 8 * 64 +
            (number / 4096 % 64 + 0x80) % 64) * 64 +
          (number / 64 % 64 + 0x80) % 64) * 64 +
        (number % 64 + 0x80) % 64 = number := by
    omega
  simp (disch := omega) only [fourBytes, Bool.not_eq_true',
    ← Bool.not_eq_true, followsLead_iff, isContinuation_iff, payload,
    toNat_ofNat_byte]
  rw [if_neg (by omega), if_neg (by omega), if_neg (by omega), whole]

theorem encoded_of_fourBytes
    {c : Char} {lead : UInt8} {rest : List UInt8} {size : Nat}
    (lower : 0xF0 ≤ lead.toNat) (upper : lead.toNat < 0xF5)
    (found : fourBytes lead rest = .character c size) :
    ∃ tail behind,
      rest = tail ++ behind ∧ size = tail.length + 1 ∧
        String.utf8EncodeChar c = lead :: tail := by
  rcases rest with _ | ⟨a, _ | ⟨b, _ | ⟨c, behind⟩⟩⟩
  · cases found
  · simp only [fourBytes] at found
    split_ifs at found
  · simp only [fourBytes] at found
    split_ifs at found
  · simp only [fourBytes, Bool.not_eq_true', ← Bool.not_eq_true,
      followsLead_iff, isContinuation_iff, payload] at found
    split_ifs at found with follows continues ends
    rcases found with ⟨rfl, rfl⟩
    refine ⟨[a, b, c], behind, rfl, rfl, ?_⟩
    have number :=
      toNat_ofNat_of_valid
        (((lead.toNat % 8 * 64 + a.toNat % 64) * 64 + b.toNat % 64) * 64 +
          c.toNat % 64)
        (by unfold Nat.isValidChar; omega)
    simp only [String.utf8EncodeChar, Char.toNat_val, number]
    rw [if_neg (by omega), if_neg (by omega), if_neg (by omega),
      ofNat_eq_of_eq_toNat lead (by omega),
      ofNat_eq_of_eq_toNat a (by omega),
      ofNat_eq_of_eq_toNat b (by omega),
      ofNat_eq_of_eq_toNat c (by omega)]

theorem fourBytes_invalid_append
    {lead : UInt8} {rest : List UInt8} {size : Nat} {reason : DecodeReason}
    (found : fourBytes lead rest = .invalid size reason)
    (behind : List UInt8) :
    fourBytes lead (rest ++ behind) = .invalid size reason := by
  rcases rest with _ | ⟨a, _ | ⟨b, _ | ⟨c, rest⟩⟩⟩
  · cases found
  · simp only [fourBytes] at found
    split_ifs at found with follows
    rcases behind with _ | ⟨b, _ | ⟨c, behind⟩⟩ <;>
      simpa [fourBytes, follows] using found
  · simp only [fourBytes] at found
    split_ifs at found with follows continues <;>
      rcases behind with _ | ⟨c, behind⟩ <;>
      simp_all [fourBytes]
  · exact found

theorem le_of_mem_fourBytes_unfinished
    {lead : UInt8} {rest : List UInt8}
    (found : fourBytes lead rest = .unfinished) :
    ∀ byte ∈ rest, 0x80 ≤ byte.toNat := by
  rcases rest with _ | ⟨a, _ | ⟨b, _ | ⟨c, rest⟩⟩⟩
  · simp
  · simp only [fourBytes, followsLead_iff] at found
    split_ifs at found with follows
    simpa using follows.1
  · simp only [fourBytes, Bool.not_eq_true', ← Bool.not_eq_true,
      followsLead_iff, isContinuation_iff] at found
    split_ifs at found with follows continues
    simp only [List.forall_mem_cons]
    exact ⟨by omega, by omega, by simp⟩
  · simp only [fourBytes] at found
    split_ifs at found

/-! ### Every lead byte -/

/-- The bytes of a character are found as that character. -/
theorem utf8Step_of_encoded
    {c : Char} {lead : UInt8} {tail : List UInt8}
    (encoded : String.utf8EncodeChar c = lead :: tail)
    (behind : List UInt8) :
    utf8Step lead (tail ++ behind) = .character c (tail.length + 1) := by
  have valid := c.valid
  have isNumber : Char.ofNat c.toNat = c := Char.ofNat_toNat c
  simp only [UInt32.isValidChar, Nat.isValidChar, Char.toNat_val] at valid
  simp only [String.utf8EncodeChar, Char.toNat_val] at encoded
  generalize c.toNat = number at *
  rw [← isNumber, utf8Step_eq]
  split_ifs at encoded with one two three <;>
    rcases encoded with ⟨rfl, rfl⟩ <;>
    simp (disch := omega) only [ofNat_lt_iff, toNat_ofNat_byte,
      UInt8.reduceToNat]
  · rw [if_pos (by omega)]
    rfl
  · rw [if_neg (by omega), if_neg (by omega), if_pos (by omega)]
    exact twoBytes_of_number (by omega) two behind
  · rw [if_neg (by omega), if_neg (by omega), if_neg (by omega),
      if_pos (by omega)]
    exact threeBytes_of_number (by omega) three (by omega) behind
  · rw [if_neg (by omega), if_neg (by omega), if_neg (by omega),
      if_neg (by omega), if_pos (by omega)]
    exact fourBytes_of_number (by omega) (by omega) behind

/-- What is found as a character is the bytes of that character. -/
theorem encoded_of_utf8Step
    {c : Char} {lead : UInt8} {rest : List UInt8} {size : Nat}
    (found : utf8Step lead rest = .character c size) :
    ∃ tail behind,
      rest = tail ++ behind ∧ size = tail.length + 1 ∧
        String.utf8EncodeChar c = lead :: tail := by
  simp only [utf8Step_eq, UInt8.lt_iff_toNat_lt, UInt8.reduceToNat] at found
  split_ifs at found with one invalid two three four
  · rcases found with ⟨rfl, rfl⟩
    refine ⟨[], rest, rfl, rfl, ?_⟩
    have number := toNat_ofNat_of_valid lead.toNat
      (by unfold Nat.isValidChar; omega)
    simp only [String.utf8EncodeChar, Char.toNat_val, number]
    rw [if_pos (by omega), UInt8.ofNat_toNat]
  · exact encoded_of_twoBytes (by omega) two found
  · exact encoded_of_threeBytes (by omega) three found
  · exact encoded_of_fourBytes (by omega) four found

/-- An error at the front stays the same error when more bytes arrive. -/
theorem utf8Step_invalid_append
    {lead : UInt8} {rest : List UInt8} {size : Nat} {reason : DecodeReason}
    (found : utf8Step lead rest = .invalid size reason)
    (behind : List UInt8) :
    utf8Step lead (rest ++ behind) = .invalid size reason := by
  simp only [utf8Step_eq] at found ⊢
  split_ifs at found ⊢
  · exact found
  · exact twoBytes_invalid_append found behind
  · exact threeBytes_invalid_append found behind
  · exact fourBytes_invalid_append found behind
  · exact found

/-- A line feed never stands in the beginning of a longer character. -/
theorem le_of_mem_unfinished
    {lead : UInt8} {rest : List UInt8}
    (found : utf8Step lead rest = .unfinished) :
    ∀ byte ∈ lead :: rest, 0x80 ≤ byte.toNat := by
  simp only [utf8Step_eq, UInt8.lt_iff_toNat_lt, UInt8.reduceToNat] at found
  rw [List.forall_mem_cons]
  split_ifs at found with one invalid two three four <;>
    refine ⟨by omega, ?_⟩
  · rw [eq_nil_of_twoBytes_unfinished found]
    simp
  · exact le_of_mem_threeBytes_unfinished found
  · exact le_of_mem_fourBytes_unfinished found

theorem le_of_mem_halfSurrogate
    {lead : UInt8} {rest : List UInt8}
    (half : isHalfSurrogate lead rest = true) :
    ∀ byte ∈ lead :: rest, 0x80 ≤ byte.toNat := by
  unfold isHalfSurrogate at half
  split at half
  · next second =>
    simp only [Bool.and_eq_true, beq_iff_eq, decide_eq_true_eq,
      UInt8.le_iff_toNat_le, UInt8.reduceToNat] at half
    rcases half with ⟨⟨rfl, lower⟩, -⟩
    simp only [List.forall_mem_cons]
    exact ⟨by decide, by omega, by simp⟩
  · cases half

/-- More bytes do not make an error into the beginning of a surrogate. -/
theorem not_isHalfSurrogate_append
    {lead : UInt8} {rest : List UInt8} {size : Nat} {reason : DecodeReason}
    (found : utf8Step lead rest = .invalid size reason)
    (whole : ¬ isHalfSurrogate lead rest = true) (behind : List UInt8) :
    ¬ isHalfSurrogate lead (rest ++ behind) = true := by
  rcases rest with _ | ⟨second, rest⟩
  · intro half
    have noError : utf8Step 0xED [] = .unfinished := by decide
    rw [List.nil_append] at half
    unfold isHalfSurrogate at half
    split at half
    · simp only [Bool.and_eq_true, beq_iff_eq] at half
      rw [half.1.1, noError] at found
      cases found
    · cases half
  · rcases rest with _ | ⟨third, rest⟩
    · rcases behind with _ | ⟨third, behind⟩
      · exact whole
      · exact Bool.false_ne_true
    · exact Bool.false_ne_true

/-! ## Runs of bytes -/

/-- A decoded text put behind some characters. -/
def Decoded.after (front : List Char) (decoded : Decoded) : Decoded :=
  { decoded with characters := front ++ decoded.characters }

@[simp]
theorem Decoded.after_nil (decoded : Decoded) :
    decoded.after [] = decoded := rfl

/-- Where the bytes stand matters for the fault only. -/
theorem decodeUtf8_position
    (one other : Nat) (bytes : List UInt8) :
    (decodeUtf8 one bytes).toOption = (decodeUtf8 other bytes).toOption := by
  fun_induction decodeUtf8 one bytes generalizing other with
  | case1 => simp [decodeUtf8]
  | case2 position lead rest c size found ih =>
    rw [decodeUtf8, found]
    simp only [toOption_map, ih (other + size)]
  | case3 position lead rest found =>
    rw [decodeUtf8, found]
  | case4 position lead rest size reason found half =>
    rw [decodeUtf8, found]
    simp only [half, if_true]
  | case5 position lead rest size reason found whole =>
    rw [decodeUtf8, found]
    simp only [if_neg whole]
    rfl

/-- The step of decoding over the bytes of a character. -/
theorem decodeUtf8_encoded_append
    (c : Char) (position : Nat) (behind : List UInt8) :
    (decodeUtf8 position (String.utf8EncodeChar c ++ behind)).toOption =
      (decodeUtf8 position behind).toOption.map (Decoded.cons c) := by
  obtain ⟨lead, tail, encoded⟩ :
      ∃ lead tail, String.utf8EncodeChar c = lead :: tail :=
    List.exists_cons_of_ne_nil String.utf8EncodeChar_ne_nil
  rw [encoded, List.cons_append, decodeUtf8,
    utf8Step_of_encoded encoded behind]
  simp only [toOption_map, Nat.add_sub_cancel, List.drop_left]
  rw [decodeUtf8_position]

/-- The bytes of a text decode to the text. -/
theorem decodeUtf8_utf8Of_append
    (characters : List Char) (position : Nat) (behind : List UInt8) :
    (decodeUtf8 position (utf8Of characters ++ behind)).toOption =
      (decodeUtf8 position behind).toOption.map
        (Decoded.after characters) := by
  induction characters with
  | nil =>
    have unchanged : Decoded.after [] = id := funext Decoded.after_nil
    simp [unchanged]
  | cons c rest ih =>
    rw [utf8Of, List.flatMap_cons, List.append_assoc,
      decodeUtf8_encoded_append, ← utf8Of, ih, Option.map_map]
    rfl

/--
Decoded bytes are those of the decoded text, with bytes behind them that are
not decoded yet.
-/
theorem eq_of_decodeUtf8
    {position : Nat} {bytes : List UInt8} {decoded : Decoded}
    (success : (decodeUtf8 position bytes).toOption = some decoded) :
    bytes = utf8Of decoded.characters ++ decoded.unfinished ∧
      ∀ byte ∈ decoded.unfinished, 0x80 ≤ byte.toNat := by
  fun_induction decodeUtf8 position bytes generalizing decoded with
  | case1 =>
    simp only [Except.toOption, Option.some.injEq] at success
    subst success
    simp
  | case2 position lead rest c size found ih =>
    rcases encoded_of_utf8Step found with ⟨tail, behind, rfl, rfl, encoded⟩
    rw [toOption_map, Option.map_eq_some_iff] at success
    rcases success with ⟨below, success, rfl⟩
    rcases ih success with ⟨bytesEq, high⟩
    simp only [Nat.add_sub_cancel, List.drop_left] at bytesEq
    refine ⟨?_, high⟩
    rw [Decoded.cons, bytesEq, utf8Of, utf8Of, List.flatMap_cons, encoded]
    simp
  | case3 position lead rest found =>
    simp only [Except.toOption, Option.some.injEq] at success
    subst success
    exact ⟨rfl, le_of_mem_unfinished found⟩
  | case4 position lead rest size reason found half =>
    simp only [Except.toOption, Option.some.injEq] at success
    subst success
    exact ⟨rfl, le_of_mem_halfSurrogate half⟩
  | case5 => simp [Except.toOption] at success

/-- An error stays an error when more bytes arrive. -/
theorem decodeUtf8_append_of_none
    {position : Nat} {first : List UInt8}
    (failure : (decodeUtf8 position first).toOption = none)
    (second : List UInt8) :
    (decodeUtf8 position (first ++ second)).toOption = none := by
  fun_induction decodeUtf8 position first with
  | case1 => simp [Except.toOption] at failure
  | case2 position lead rest c size found ih =>
    rcases encoded_of_utf8Step found with ⟨tail, behind, rfl, rfl, encoded⟩
    simp only [toOption_map, Option.map_eq_none_iff, Nat.add_sub_cancel,
      List.drop_left] at failure ih
    rw [List.cons_append, List.append_assoc, ← List.cons_append, ← encoded,
      decodeUtf8_encoded_append, decodeUtf8_position, ih failure]
    rfl
  | case3 => simp [Except.toOption] at failure
  | case4 => simp [Except.toOption] at failure
  | case5 position lead rest size reason found whole =>
    rw [List.cons_append, decodeUtf8, utf8Step_invalid_append found second]
    simp only [if_neg (not_isHalfSurrogate_append found whole second)]
    rfl

/-- Decoding in two pieces is decoding at once. -/
theorem decodeUtf8_append
    (position : Nat) (first second : List UInt8) :
    (decodeUtf8 position (first ++ second)).toOption =
      (decodeUtf8 position first).toOption.bind fun decoded =>
        (decodeUtf8 position (decoded.unfinished ++ second)).toOption.map
          (Decoded.after decoded.characters) := by
  cases outcome : (decodeUtf8 position first).toOption with
  | none => exact decodeUtf8_append_of_none outcome second
  | some decoded =>
    rcases eq_of_decodeUtf8 outcome with ⟨bytesEq, -⟩
    have pieces :
        first ++ second =
          utf8Of decoded.characters ++ (decoded.unfinished ++ second) := by
      rw [← List.append_assoc, ← bytesEq]
    rw [pieces]
    exact decodeUtf8_utf8Of_append decoded.characters position _

/-- A line feed is one byte, which stands in no other character. -/
theorem count_newline_utf8EncodeChar (c : Char) :
    (String.utf8EncodeChar c).count 0x0A = [c].count '\n' := by
  have isNewline : c = '\n' ↔ c.toNat = 10 := by
    rw [← Char.toNat_inj]
    rfl
  simp only [List.count_singleton, beq_iff_eq, isNewline]
  simp only [String.utf8EncodeChar, Char.toNat_val]
  generalize c.toNat = number
  split_ifs with one two three feed feed feed <;>
    simp (disch := omega) only [List.count_cons, List.count_nil,
      beq_iff_eq, ← UInt8.toNat_inj, toNat_ofNat_byte, UInt8.reduceToNat] <;>
    split_ifs <;> omega

theorem count_newline_utf8Of (characters : List Char) :
    (utf8Of characters).count 0x0A = characters.count '\n' := by
  induction characters with
  | nil => rfl
  | cons c rest ih =>
    rw [utf8Of, List.flatMap_cons, List.count_append, ← utf8Of, ih,
      count_newline_utf8EncodeChar, ← List.count_append,
      List.singleton_append]

/-- As many line feeds have been decoded as have arrived. -/
theorem count_newline_of_decodeUtf8
    {position : Nat} {bytes : List UInt8} {decoded : Decoded}
    (success : (decodeUtf8 position bytes).toOption = some decoded) :
    bytes.count 0x0A = decoded.characters.count '\n' := by
  rcases eq_of_decodeUtf8 success with ⟨bytesEq, high⟩
  have noFeed : decoded.unfinished.count 0x0A = 0 := by
    rw [List.count_eq_zero]
    intro member
    have := high 0x0A member
    simp at this
  conv => lhs; rw [bytesEq]
  rw [List.count_append, count_newline_utf8Of, noFeed, Nat.add_zero]

/-- A text is exactly what its bytes decode to. -/
theorem decodeUtf8_eq_iff
    {position : Nat} {bytes : List UInt8} {characters : List Char} :
    (decodeUtf8 position bytes).toOption = some ⟨characters, []⟩ ↔
      bytes = utf8Of characters := by
  constructor
  · intro success
    simpa using (eq_of_decodeUtf8 success).1
  · intro equal
    have whole := decodeUtf8_utf8Of_append characters position []
    rw [List.append_nil, ← equal] at whole
    rw [whole]
    simp [decodeUtf8, Except.toOption, Decoded.after]

/-- The bytes of a text need no mark for an error. -/
theorem decodeLenient_utf8Of (characters : List Char) :
    decodeLenient (utf8Of characters) = characters := by
  induction characters with
  | nil => simp [decodeLenient]
  | cons c rest ih =>
    obtain ⟨lead, tail, encoded⟩ :
        ∃ lead tail, String.utf8EncodeChar c = lead :: tail :=
      List.exists_cons_of_ne_nil String.utf8EncodeChar_ne_nil
    rw [utf8Of, List.flatMap_cons, ← utf8Of, encoded, List.cons_append,
      decodeLenient, utf8Step_of_encoded encoded (utf8Of rest)]
    simp only [Nat.add_sub_cancel, List.drop_left, ih]

/-! ## Every encoding -/

/-- The character whose number a byte is. -/
def byteCharacter (byte : UInt8) : Char := Char.ofNat byte.toNat

theorem toNat_byteCharacter (byte : UInt8) :
    (byteCharacter byte).toNat = byte.toNat := by
  have small := byte.toNat_lt
  exact toNat_ofNat_of_valid byte.toNat (by unfold Nat.isValidChar; omega)

theorem byteCharacter_eq_newline_iff (byte : UInt8) :
    byteCharacter byte = '\n' ↔ byte = 0x0A := by
  rw [← Char.toNat_inj, toNat_byteCharacter, ← UInt8.toNat_inj]
  rfl

/-- The bytes of some characters in an encoding that has them. -/
def Encoding.bytesOf (encoding : Encoding) (characters : List Char) :
    List UInt8 :=
  match encoding with
  | .utf8 => utf8Of characters
  | .ascii | .latin1 => characters.map fun c => UInt8.ofNat c.toNat

theorem bytesOf_map_byteCharacter (bytes : List UInt8) :
    ((bytes.map byteCharacter).map fun c => UInt8.ofNat c.toNat) = bytes := by
  rw [List.map_map]
  refine List.map_id'' (fun byte => ?_) bytes
  rw [Function.comp_apply, toNat_byteCharacter, UInt8.ofNat_toNat]

theorem count_newline_map_byteCharacter (bytes : List UInt8) :
    (bytes.map byteCharacter).count '\n' = bytes.count 0x0A := by
  rw [List.count, List.countP_map, List.count]
  refine List.countP_congr fun byte _ => ?_
  simp only [Function.comp_apply, beq_iff_eq, byteCharacter_eq_newline_iff]

theorem eq_map_of_decodeAscii
    {position : Nat} {bytes : List UInt8} {characters : List Char}
    (success : (decodeAscii position bytes).toOption = some characters) :
    characters = bytes.map byteCharacter := by
  induction bytes generalizing position characters with
  | nil =>
    cases success
    rfl
  | cons byte rest ih =>
    rw [decodeAscii] at success
    split_ifs at success
    · rw [toOption_map, Option.map_eq_some_iff] at success
      rcases success with ⟨others, below, rfl⟩
      rw [List.map_cons, ih below]
      rfl
    · cases success

theorem decodeAscii_append
    (position : Nat) (first second : List UInt8) (other : Nat) :
    (decodeAscii position (first ++ second)).toOption =
      (decodeAscii position first).toOption.bind fun characters =>
        (decodeAscii other second).toOption.map (characters ++ ·) := by
  have samePosition (one other : Nat) (bytes : List UInt8) :
      (decodeAscii one bytes).toOption =
        (decodeAscii other bytes).toOption := by
    induction bytes generalizing one other with
    | nil => rfl
    | cons byte rest ih =>
      simp only [decodeAscii]
      split_ifs
      · rw [toOption_map, toOption_map, ih (one + 1) (other + 1)]
      · rfl
  induction first generalizing position with
  | nil =>
    rw [List.nil_append, samePosition position other]
    simp [decodeAscii, Except.toOption]
  | cons byte rest ih =>
    simp only [List.cons_append, decodeAscii]
    split_ifs
    · rw [toOption_map, toOption_map, ih (position + 1)]
      cases (decodeAscii (position + 1) rest).toOption with
      | none => rfl
      | some characters =>
        simp only [Option.bind_some, Option.map_some, Option.map_map]
        rfl
    · rfl

/-- In every encoding, decoding in two pieces is decoding at once. -/
theorem Encoding.decode_append
    (encoding : Encoding) (first second : List UInt8) :
    (encoding.decode (first ++ second)).toOption =
      (encoding.decode first).toOption.bind fun decoded =>
        (encoding.decode (decoded.unfinished ++ second)).toOption.map
          (Decoded.after decoded.characters) := by
  cases encoding with
  | utf8 => exact decodeUtf8_append 0 first second
  | ascii =>
    simp only [Encoding.decode, toOption_map,
      decodeAscii_append 0 first second 0]
    cases (decodeAscii 0 first).toOption with
    | none => rfl
    | some characters =>
      simp only [Option.bind_some, Option.map_some, List.nil_append,
        Option.map_map]
      rfl
  | latin1 =>
    simp only [Encoding.decode, List.map_append]
    rfl

/-- Outside of UTF-8 every byte is decoded to the character of its number. -/
theorem Encoding.eq_map_of_decode
    {encoding : Encoding} (single : encoding ≠ .utf8)
    {bytes : List UInt8} {decoded : Decoded}
    (success : (encoding.decode bytes).toOption = some decoded) :
    decoded = ⟨bytes.map byteCharacter, []⟩ := by
  cases encoding with
  | utf8 => exact (single rfl).elim
  | ascii =>
    rw [Encoding.decode, toOption_map, Option.map_eq_some_iff] at success
    rcases success with ⟨characters, below, rfl⟩
    rw [eq_map_of_decodeAscii below]
  | latin1 => exact (Option.some.inj success).symm

/-- Decoded bytes are those of the decoded text with the unfinished ones behind. -/
theorem Encoding.eq_of_decode
    {encoding : Encoding} {bytes : List UInt8} {decoded : Decoded}
    (success : (encoding.decode bytes).toOption = some decoded) :
    bytes = encoding.bytesOf decoded.characters ++ decoded.unfinished := by
  by_cases single : encoding = .utf8
  · subst single
    exact (eq_of_decodeUtf8 success).1
  · rw [eq_map_of_decode single success, List.append_nil]
    have written := (bytesOf_map_byteCharacter bytes).symm
    cases encoding with
    | utf8 => exact (single rfl).elim
    | ascii => exact written
    | latin1 => exact written

/-- In every encoding as many line feeds are decoded as have arrived. -/
theorem Encoding.count_newline_of_decode
    {encoding : Encoding} {bytes : List UInt8} {decoded : Decoded}
    (success : (encoding.decode bytes).toOption = some decoded) :
    bytes.count 0x0A = decoded.characters.count '\n' := by
  by_cases single : encoding = .utf8
  · subst single
    exact count_newline_of_decodeUtf8 success
  · rw [eq_map_of_decode single success, count_newline_map_byteCharacter]

theorem Encoding.decode_nil (encoding : Encoding) :
    encoding.decode [] = .ok ⟨[], []⟩ := by
  cases encoding with
  | utf8 => simp [Encoding.decode, decodeUtf8]
  | ascii => rfl
  | latin1 => rfl

/-- What is left unfinished holds no complete character. -/
theorem Encoding.decode_unfinished
    {encoding : Encoding} {bytes : List UInt8} {decoded : Decoded}
    (success : (encoding.decode bytes).toOption = some decoded) :
    (encoding.decode decoded.unfinished).toOption =
      some ⟨[], decoded.unfinished⟩ := by
  have again := encoding.decode_append bytes []
  simp only [List.append_nil, success, Option.bind_some] at again
  rcases Option.map_eq_some_iff.1 again.symm with ⟨below, found, same⟩
  rcases below with ⟨characters, unfinished⟩
  have textEq : decoded.characters ++ characters = decoded.characters :=
    congrArg Decoded.characters same
  have restEq : unfinished = decoded.unfinished :=
    congrArg Decoded.unfinished same
  rw [List.append_right_eq_self] at textEq
  rw [found, textEq, restEq]

/-- Unfinished bytes are a fault when nothing more comes. -/
theorem exists_endFault? (total : Nat) (byte : UInt8) (rest : List UInt8) :
    ∃ fault, endFault? total (byte :: rest) = some fault := by
  simp only [endFault?]
  split
  · exact ⟨_, rfl⟩
  · exact ⟨_, rfl⟩

/-- All bytes make a text when decoding leaves no byte unfinished. -/
theorem Encoding.decodeAll_eq
    (encoding : Encoding) (bytes : List UInt8) :
    (encoding.decodeAll bytes).toOption =
      (encoding.decode bytes).toOption.bind fun decoded =>
        if decoded.unfinished = [] then some decoded.characters else none := by
  rw [Encoding.decodeAll]
  cases encoding.decode bytes with
  | error fault => rfl
  | ok decoded =>
    rcases decoded with ⟨characters, unfinished⟩
    cases unfinished with
    | nil => rfl
    | cons byte rest =>
      rcases exists_endFault? bytes.length byte rest with ⟨fault, ended⟩
      simp only [bind, Except.bind, ended]
      rfl

end ApiAtlas.Text
