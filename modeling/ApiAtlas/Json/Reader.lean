import ApiAtlas.Data.Datum
import ApiAtlas.Json.Fault

/-!
# Reading exchange notation

`Json.read` reads one value and nothing else from a text.  Beyond the standard
notation it accepts the three numbers that have names.  Of a name that occurs
twice in an object the last value counts, at the place of the first.

The reader works on the characters that are left.  A stop is reported with
the number of characters left, from which the position follows; a reader that
succeeds returns fewer characters than it was given, and for that reason the
recursion ends.
-/

namespace ApiAtlas.Json

/-- Why reading stops, with the number of characters left. -/
inductive Stop where
  | problem (problem : Problem) (left : Nat)
  | tooManyDigits (count : Nat)
deriving DecidableEq, Repr

/-- Whether a character is passed over between the parts of a document. -/
def isGap (c : Char) : Bool :=
  c == ' ' || c == '\t' || c == '\n' || c == '\r'

/-- The characters after a gap. -/
def skipGap (characters : List Char) : List Char :=
  characters.dropWhile isGap

theorem length_skipGap_le (characters : List Char) :
    (skipGap characters).length ≤ characters.length :=
  (List.dropWhile_sublist _).length_le

/-- Characters that are fewer than the given ones. -/
abbrev Shorter (characters : List Char) :=
  { rest : List Char // rest.length < characters.length }

/-! ## Texts -/

/-- The value of a hexadecimal digit. -/
def hexValue? (c : Char) : Option Nat :=
  if c.isDigit then some (c.toNat - 48)
  else if 'a' ≤ c ∧ c ≤ 'f' then some (c.toNat - 87)
  else if 'A' ≤ c ∧ c ≤ 'F' then some (c.toNat - 55)
  else none

/-- The number that the first four characters stand for. -/
def hexNumber? : List Char → Option Nat
  | a :: b :: c :: d :: _ => do
    let a ← hexValue? a
    let b ← hexValue? b
    let c ← hexValue? c
    let d ← hexValue? d
    return ((a * 16 + b) * 16 + c) * 16 + d
  | _ => none

/-- Whether a number is the first half of a surrogate pair. -/
def isHighSurrogate (unit : Nat) : Bool := 0xD800 ≤ unit && unit < 0xDC00

/-- Whether a number is the second half of a surrogate pair. -/
def isLowSurrogate (unit : Nat) : Bool := 0xDC00 ≤ unit && unit < 0xE000

/-- The character of a single number; half of a pair alone has none. -/
def unitCharacter (unit : Nat) : Char :=
  if isHighSurrogate unit || isLowSurrogate unit then Char.ofNat 0xFFFD
  else Char.ofNat unit

/--
The character of an escape by number and the count of characters it takes
after the backslash, given the characters after the letter `u`.  The escape
must not end the text, and two halves of a pair make one character.
-/
def unicodeEscape (afterLetter : List Char) : Except Stop (Char × Nat) :=
  if (afterLetter.drop 4).isEmpty then
    .error (.problem .invalidUnicodeEscape (afterLetter.length + 1))
  else
    match hexNumber? afterLetter with
    | none => .error (.problem .invalidUnicodeEscape (afterLetter.length + 1))
    | some unit =>
      let single : Except Stop (Char × Nat) := .ok (unitCharacter unit, 5)
      if !isHighSurrogate unit then single
      else
        match afterLetter.drop 4 with
        | '\\' :: 'u' :: second =>
          if (second.drop 4).isEmpty then single
          else
            match hexNumber? second with
            | none =>
              .error (.problem .invalidUnicodeEscape (second.length + 1))
            | some low =>
              if isLowSurrogate low then
                .ok
                  (Char.ofNat
                    (0x10000 + (unit - 0xD800) * 1024 + (low - 0xDC00)), 11)
              else single
        | _ => single

/--
The character of an escape and the count of characters it takes after the
backslash.  `body` is what follows the opening quote of the text.
-/
def escape (body : List Char) : List Char → Except Stop (Char × Nat)
  | [] => .error (.problem .unterminatedText (body.length + 1))
  | '"' :: _ => .ok ('"', 1)
  | '\\' :: _ => .ok ('\\', 1)
  | '/' :: _ => .ok ('/', 1)
  | 'b' :: _ => .ok ('\x08', 1)
  | 'f' :: _ => .ok ('\x0c', 1)
  | 'n' :: _ => .ok ('\n', 1)
  | 'r' :: _ => .ok ('\r', 1)
  | 't' :: _ => .ok ('\t', 1)
  | 'u' :: rest => unicodeEscape rest
  | _ :: rest => .error (.problem .invalidEscape (rest.length + 2))

/--
The characters of a text up to its closing quote and what follows the quote.
`skipped` characters belong to an escape that has been read.  A text that does
not end is reported at its opening quote, the character before `body`.
-/
def readText (body : List Char) :
    Nat → List Char → Except Stop (List Char × List Char)
  | _, [] => .error (.problem .unterminatedText (body.length + 1))
  | skipped + 1, _ :: rest => readText body skipped rest
  | 0, c :: rest =>
    if c = '"' then .ok ([], rest)
    else if c = '\\' then
      match escape body rest with
      | .error stop => .error stop
      | .ok (character, used) =>
        (readText body used rest).map fun found =>
          (character :: found.1, found.2)
    else if c.toNat < 0x20 then
      .error (.problem .controlCharacter (rest.length + 1))
    else
      (readText body 0 rest).map fun found => (c :: found.1, found.2)

theorem length_of_readText
    {body : List Char} {skipped : Nat} {characters : List Char}
    {found : List Char × List Char}
    (success : readText body skipped characters = .ok found) :
    found.2.length < characters.length := by
  fun_induction readText body skipped characters generalizing found with
  | case1 => simp at success
  | case2 skipped _ rest ih =>
    have := ih success
    simp only [List.length_cons]
    omega
  | case3 rest =>
    simp only [Except.ok.injEq] at success
    subst success
    simp
  | case4 => simp at success
  | case5 rest _ used _ _ ih =>
    cases inner : readText body used rest with
    | error stop => rw [inner] at success; simp [Except.map] at success
    | ok value =>
      have := ih inner
      rw [inner] at success
      simp only [Except.map, Except.ok.injEq] at success
      subst success
      simp only [List.length_cons]
      omega
  | case6 => simp at success
  | case7 c rest _ _ _ ih =>
    cases inner : readText body 0 rest with
    | error stop => rw [inner] at success; simp [Except.map] at success
    | ok value =>
      have := ih inner
      rw [inner] at success
      simp only [Except.map, Except.ok.injEq] at success
      subst success
      simp only [List.length_cons]
      omega

/-! ## Numbers -/

/-- The digits at the front and what follows them. -/
def splitDigits (characters : List Char) : List Char × List Char :=
  (characters.takeWhile Char.isDigit, characters.dropWhile Char.isDigit)

/-- The whole part of a number, which has no leading zero. -/
def wholePart? : List Char → Option (List Char × List Char)
  | '0' :: rest => some (['0'], rest)
  | c :: rest => if c.isDigit then some (splitDigits (c :: rest)) else none
  | [] => none

/-- The digits of a fraction, if one follows. -/
def fractionPart (characters : List Char) : List Char × List Char :=
  match characters with
  | '.' :: c :: rest =>
    if c.isDigit then splitDigits (c :: rest) else ([], characters)
  | _ => ([], characters)

/-- The exponent, if one follows. -/
def exponentPart (characters : List Char) : Option Int × List Char :=
  match characters with
  | mark :: rest =>
    if mark = 'e' ∨ mark = 'E' then
      let (negative, body) := Text.splitSign rest
      let (digits, after) := splitDigits body
      if digits.isEmpty then (none, characters)
      else
        let magnitude : Int :=
          Text.numberOfDigits (digits.map fun c => c.toNat - 48)
        (some (if negative then -magnitude else magnitude), after)
    else (none, characters)
  | [] => (none, characters)

/-- The number at the front of an unsigned text. -/
def unsignedNumber (negative : Bool) (characters : List Char) :
    Option (Except Stop Datum × List Char) := do
  let (whole, rest) ← wholePart? characters
  let (fraction, rest) := fractionPart rest
  let (exponent, rest) := exponentPart rest
  let digits := (whole ++ fraction).map fun c => c.toNat - 48
  let magnitude := Text.numberOfDigits digits
  if fraction.isEmpty && exponent.isNone then
    if Text.digitLimit < digits.length then
      some (.error (.tooManyDigits digits.length), rest)
    else
      some (.ok (.int (if negative then -magnitude else magnitude)), rest)
  else
    let number :=
      Binary64.ofDecimal negative magnitude
        (exponent.getD 0 - fraction.length)
    some (.ok (.float number), rest)

/-- The words that stand for values. -/
def wordValues : List (List Char × Datum) :=
  [("null".toList, .null), ("true".toList, .bool true),
    ("false".toList, .bool false), ("NaN".toList, .float .notANumber),
    ("Infinity".toList, .float (.infinite false)),
    ("-Infinity".toList, .float (.infinite true))]

/-- The word or number at the front of a text and what follows it. -/
def plainValue (characters : List Char) :
    Option (Except Stop Datum × List Char) :=
  match wordValues.find? fun word => word.1.isPrefixOf characters with
  | some word => some (.ok word.2, characters.drop word.1.length)
  | none =>
    match characters with
    | '-' :: rest => unsignedNumber true rest
    | _ => unsignedNumber false characters

theorem length_splitDigits_le (characters : List Char) :
    (splitDigits characters).2.length ≤ characters.length :=
  (List.dropWhile_sublist _).length_le

theorem length_of_wholePart?
    {characters : List Char} {found : List Char × List Char}
    (success : wholePart? characters = some found) :
    found.2.length < characters.length := by
  unfold wholePart? at success
  split at success
  · simp only [Option.some.injEq] at success
    subst success
    simp
  · next c rest _ =>
    split at success
    · next digit =>
      simp only [Option.some.injEq] at success
      subst success
      have := length_splitDigits_le rest
      simp only [splitDigits, List.dropWhile_cons, digit, if_true,
        List.length_cons] at *
      omega
    · simp at success
  · simp at success

theorem length_fractionPart_le (characters : List Char) :
    (fractionPart characters).2.length ≤ characters.length := by
  unfold fractionPart
  split
  · next c rest =>
    split
    · have := length_splitDigits_le (c :: rest)
      simp only [List.length_cons] at *
      omega
    · simp
  · simp

theorem length_exponentPart_le (characters : List Char) :
    (exponentPart characters).2.length ≤ characters.length := by
  unfold exponentPart
  split
  · next mark rest =>
    have sign : (Text.splitSign rest).2.length ≤ rest.length := by
      unfold Text.splitSign
      split <;> simp
    have digits := length_splitDigits_le (Text.splitSign rest).2
    dsimp only
    split
    · split
      · simp
      · simp only [List.length_cons]
        omega
    · simp
  · simp

theorem length_of_unsignedNumber
    {negative : Bool} {characters : List Char}
    {found : Except Stop Datum × List Char}
    (success : unsignedNumber negative characters = some found) :
    found.2.length < characters.length := by
  unfold unsignedNumber at success
  cases whole : wholePart? characters with
  | none => simp [whole] at success
  | some part =>
    have shorter := length_of_wholePart? whole
    have fraction := length_fractionPart_le part.2
    have exponent := length_exponentPart_le (fractionPart part.2).2
    simp only [whole, Option.bind_eq_bind, Option.bind_some] at success
    split at success
    · split at success <;>
      · simp only [Option.some.injEq] at success
        subst success
        dsimp only
        omega
    · simp only [Option.some.injEq] at success
      subst success
      dsimp only
      omega

/-- A word or number is at least one character. -/
theorem length_of_plainValue
    {characters : List Char} {found : Except Stop Datum × List Char}
    (success : plainValue characters = some found) :
    found.2.length < characters.length := by
  unfold plainValue at success
  split at success
  · next word inWords =>
    simp only [Option.some.injEq] at success
    subst success
    have listed := List.mem_of_find?_eq_some inWords
    have isWord := List.find?_some inWords
    have within := (List.isPrefixOf_iff_prefix.1 isWord).length_le
    have nonempty : 0 < word.1.length := by
      simp only [wordValues, List.mem_cons, List.not_mem_nil, or_false]
        at listed
      rcases listed with h | h | h | h | h | h <;> subst h <;> decide
    simp only [List.length_drop]
    omega
  · split at success
    · have := length_of_unsignedNumber success
      simp only [List.length_cons]
      omega
    · exact length_of_unsignedNumber success

/-! ## Values -/

mutual

/-- The value at the front of a text and what follows it. -/
def readValue (characters : List Char) :
    Except Stop (Datum × Shorter characters) :=
  match shape : characters with
  | [] => .error (.problem .expectedValue 0)
  | '"' :: rest =>
    match found : readText rest 0 rest with
    | .error stop => .error stop
    | .ok (text, after) =>
      .ok (.str (String.ofList text), ⟨after, by
        have := length_of_readText found
        simp only [List.length_cons] at *
        omega⟩)
  | '[' :: rest =>
    have gap := length_skipGap_le rest
    match inside : skipGap rest with
    | ']' :: after =>
      .ok (.list [], ⟨after, by
        rw [inside] at gap
        simp only [List.length_cons] at *
        omega⟩)
    | _ => do
      let (items, after) ← readItems (skipGap rest)
      return (.list items, ⟨after.val, by
        have := after.property
        simp only [List.length_cons]
        omega⟩)
  | '{' :: rest =>
    have gap := length_skipGap_le rest
    match inside : skipGap rest with
    | '}' :: after =>
      .ok (.map [], ⟨after, by
        rw [inside] at gap
        simp only [List.length_cons] at *
        omega⟩)
    | _ => do
      let (members, after) ← readMembers [] (skipGap rest)
      return (.object members, ⟨after.val, by
        have := after.property
        simp only [List.length_cons]
        omega⟩)
  | c :: rest =>
    match found : plainValue (c :: rest) with
    | none => .error (.problem .expectedValue (rest.length + 1))
    | some (.error stop, _) => .error stop
    | some (.ok value, after) =>
      .ok (value, ⟨after, length_of_plainValue found⟩)
termination_by (characters.length, 0)
decreasing_by
  all_goals
    subst shape
    simp only [List.length_cons, Prod.lex_def]
    omega

/-- The items of a list up to its closing bracket and what follows it. -/
def readItems (characters : List Char) :
    Except Stop (List Datum × Shorter characters) := do
  let (item, ⟨rest, shorter⟩) ← readValue characters
  have gap := length_skipGap_le rest
  match inside : skipGap rest with
  | ']' :: after =>
    return ([item], ⟨after, by
      rw [inside] at gap
      simp only [List.length_cons] at *
      omega⟩)
  | ',' :: next =>
    have skipped := length_skipGap_le next
    have closer : next.length < rest.length := by
      rw [inside] at gap
      simp only [List.length_cons] at gap
      omega
    let (items, after) ← readItems (skipGap next)
    return (item :: items, ⟨after.val, by
      have := after.property
      omega⟩)
  | other => .error (.problem .expectedComma other.length)
termination_by (characters.length, 1)
decreasing_by
  · exact Prod.Lex.right _ Nat.zero_lt_one
  · exact Prod.Lex.left _ _ (by omega)

/--
The members of an object up to its closing brace and what follows it, put
after the members that have been read.
-/
def readMembers (members : Fields) (characters : List Char) :
    Except Stop (Fields × Shorter characters) :=
  match shape : characters with
  | '"' :: nameStart =>
    match found : readText nameStart 0 nameStart with
    | .error stop => .error stop
    | .ok (name, afterName) =>
      have nameEnd : afterName.length < nameStart.length :=
        length_of_readText found
      have gap := length_skipGap_le afterName
      match colon : skipGap afterName with
      | ':' :: valueStart => do
        have skipped := length_skipGap_le valueStart
        have closer : valueStart.length < afterName.length := by
          rw [colon] at gap
          simp only [List.length_cons] at gap
          omega
        let (value, ⟨rest, shorter⟩) ← readValue (skipGap valueStart)
        let members := Named.put (String.ofList name) value members
        have gap := length_skipGap_le rest
        match inside : skipGap rest with
        | '}' :: after =>
          return (members, ⟨after, by
            rw [inside] at gap
            simp only [List.length_cons] at *
            omega⟩)
        | ',' :: next =>
          have skipped' := length_skipGap_le next
          have closer' : next.length < rest.length := by
            rw [inside] at gap
            simp only [List.length_cons] at gap
            omega
          let (members, after) ← readMembers members (skipGap next)
          return (members, ⟨after.val, by
            have := after.property
            simp only [List.length_cons]
            omega⟩)
        | other => .error (.problem .expectedComma other.length)
      | other => .error (.problem .expectedColon other.length)
  | other => .error (.problem .expectedName other.length)
termination_by (characters.length, 1)
decreasing_by
  all_goals
    subst shape
    simp only [List.length_cons, Prod.lex_def]
    omega

end

/-- The fault that a stop in a text amounts to. -/
def Stop.fault (characters : List Char) : Stop → Fault
  | .problem what left =>
    .malformed what
      (Position.after (characters.take (characters.length - left)))
  | .tooManyDigits count => .tooManyDigits count

/-- The one value of some characters. -/
def readCharacters (characters : List Char) : Except Fault Datum :=
  if characters.head? = some (Char.ofNat 0xFEFF) then
    .error (.malformed .byteOrderMark (Position.after []))
  else
    match readValue (skipGap characters) with
    | .error stop => .error (stop.fault characters)
    | .ok (value, rest) =>
      let after := skipGap rest.val
      if after.isEmpty then .ok value
      else .error (Stop.fault characters (.problem .extraData after.length))

/-- The one value that a text holds. -/
def read (text : String) : Except Fault Datum :=
  readCharacters text.toList

end ApiAtlas.Json
