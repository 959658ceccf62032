import ApiAtlas.Proofs.Json.Quoted
import ApiAtlas.Proofs.Json.Reader
import ApiAtlas.Proofs.Json.Word

/-!
# Values as they are written

A value is written as a word, a number or a text, or as a list or an object of
values with gaps between all the parts.  The reader succeeds if and only if
what is there is written in this way, and what it returns is the value that is
written.  Where a gap is has no influence on the value.
-/

namespace ApiAtlas.Json

/-! ## Reading from the front -/

/-- What is read at the front of a text, and the characters behind it. -/
def front {α : Type} {characters : List Char}
    (result : Except Stop (α × Shorter characters)) :
    Except Stop (α × List Char) :=
  result.map fun found => (found.1, found.2.val)

/-- The value at the front of a text and what follows it. -/
def frontValue (characters : List Char) : Except Stop (Datum × List Char) :=
  front (readValue characters)

/-- The items of a list up to its closing bracket and what follows it. -/
def frontItems (characters : List Char) :
    Except Stop (List Datum × List Char) :=
  front (readItems characters)

/-- The members of an object up to its closing brace and what follows it. -/
def frontMembers (members : Fields) (characters : List Char) :
    Except Stop (Fields × List Char) :=
  front (readMembers members characters)

theorem frontValue_text (rest : List Char) :
    frontValue ('"' :: rest) =
      (readText rest 0 rest).map fun found =>
        (.str (String.ofList found.1), found.2) := by
  rw [frontValue, readValue]
  split
  · next found => simp only [front, Except.map, found]
  · next found => simp only [front, Except.map, found]

theorem frontValue_list (rest : List Char) :
    frontValue ('[' :: rest) =
      match skipGap rest with
      | ']' :: after => .ok (.list [], after)
      | inside =>
        (frontItems inside).map fun found => (.list found.1, found.2) := by
  rw [frontValue, readValue]
  split
  · next inside => simp only [front, Except.map, inside]
  · next other =>
    split
    · next same => exact (other _ same).elim
    · rw [frontItems]
      cases readItems (skipGap rest) <;> rfl

theorem frontValue_map (rest : List Char) :
    frontValue ('\x7b' :: rest) =
      match skipGap rest with
      | '\x7d' :: after => .ok (.map [], after)
      | inside =>
        (frontMembers [] inside).map fun found =>
          (.object found.1, found.2) := by
  rw [frontValue, readValue]
  split
  · next inside => simp only [front, Except.map, inside]
  · next other =>
    split
    · next same => exact (other _ same).elim
    · rw [frontMembers]
      cases readMembers [] (skipGap rest) <;> rfl

theorem frontValue_plain {c : Char} (rest : List Char)
    (noText : c ≠ '"') (noList : c ≠ '[') (noMap : c ≠ '\x7b') :
    frontValue (c :: rest) =
      match plainValue (c :: rest) with
      | none => .error (.problem .expectedValue (rest.length + 1))
      | some (.error stop, _) => .error stop
      | some (.ok value, after) => .ok (value, after) := by
  rw [frontValue, readValue]
  · split <;> next found => simp only [front, Except.map, found]
  · exact noText
  · exact noList
  · exact noMap

theorem frontItems_eq (characters : List Char) :
    frontItems characters = (do
      let (item, rest) ← frontValue characters
      match skipGap rest with
      | ']' :: after => return ([item], after)
      | ',' :: next =>
        let (items, after) ← frontItems (skipGap next)
        return (item :: items, after)
      | other => .error (.problem .expectedComma other.length)) := by
  rw [frontItems, readItems, frontValue]
  cases readValue characters with
  | error stop => rfl
  | ok found =>
    rcases found with ⟨item, rest, shorter⟩
    simp only [front, bind, Except.bind]
    split
    · next inside =>
      simp only [Except.map, pure, Except.pure, inside]
    · next next inside =>
      simp only [Except.map, inside, frontItems, front]
      cases readItems (skipGap next) <;> rfl
    · simp only [Except.map]

theorem frontMembers_eq (members : Fields) (nameStart : List Char) :
    frontMembers members ('"' :: nameStart) = (do
      let (name, afterName) ← readText nameStart 0 nameStart
      match skipGap afterName with
      | ':' :: valueStart =>
        let (value, rest) ← frontValue (skipGap valueStart)
        let members := Named.put (String.ofList name) value members
        match skipGap rest with
        | '\x7d' :: after => return (members, after)
        | ',' :: next => frontMembers members (skipGap next)
        | other => .error (.problem .expectedComma other.length)
      | other => .error (.problem .expectedColon other.length)) := by
  rw [frontMembers, readMembers]
  split
  · next found => simp only [found]; rfl
  · next name afterName found =>
    simp only [found, bind, Except.bind]
    split
    · next valueStart colon =>
      simp only [colon, frontValue]
      cases readValue (skipGap valueStart) with
      | error stop => rfl
      | ok found =>
        rcases found with ⟨value, rest, shorter⟩
        simp only [front]
        split
        · next inside =>
          simp only [Except.map, pure, Except.pure, inside]
        · next next inside =>
          simp only [Except.map, inside, frontMembers, front]
          cases readMembers _ (skipGap next) <;> rfl
        · simp only [Except.map]
    · simp only [front, Except.map]

/-- Members begin with a name. -/
theorem exists_name_of_frontMembers
    {earlier : Fields} {characters : List Char} {found : Fields × List Char}
    (read : frontMembers earlier characters = .ok found) :
    ∃ nameStart, characters = '"' :: nameStart := by
  rw [frontMembers, readMembers.eq_def] at read
  split at read
  · exact ⟨_, rfl⟩
  · cases read

/-! ## Trees -/

/-- What may stand between the parts of a document. -/
structure Gap where
  characters : List Char
  each : ∀ c ∈ characters, isGap c = true

/-- The name of a member, with the gaps around the colon behind it. -/
structure Label where
  name : Pieces
  afterName : Gap
  afterColon : Gap

mutual

/-- A value as it is written. -/
inductive Written where
  | word (word : Word)
  | text (pieces : Pieces)
  | noItems (inside : Gap)
  | list (inside : Gap) (items : WrittenItems)
  | noMembers (inside : Gap)
  | object (inside : Gap) (members : WrittenMembers)

/-- The items of a list, with the closing bracket. -/
inductive WrittenItems where
  | last (item : Written) (behind : Gap)
  | next (item : Written) (behind afterComma : Gap) (rest : WrittenItems)

/-- The members of an object, with the closing brace. -/
inductive WrittenMembers where
  | last (label : Label) (value : Written) (behind : Gap)
  | next (label : Label) (value : Written) (behind afterComma : Gap)
      (rest : WrittenMembers)

end

/-- A text in its quotes. -/
def Pieces.quoted (pieces : Pieces) : List Char :=
  '"' :: (pieces.characters ++ ['"'])

/-- A name with its colon, up to the value. -/
def Label.characters (label : Label) : List Char :=
  label.name.quoted ++
    (label.afterName.characters ++ ':' :: label.afterColon.characters)

mutual

/-- The characters of a value. -/
def Written.characters : Written → List Char
  | .word word => word.characters
  | .text pieces => pieces.quoted
  | .noItems inside => '[' :: (inside.characters ++ [']'])
  | .list inside items => '[' :: (inside.characters ++ items.characters)
  | .noMembers inside => '\x7b' :: (inside.characters ++ ['\x7d'])
  | .object inside members =>
    '\x7b' :: (inside.characters ++ members.characters)

/-- The characters of the items of a list. -/
def WrittenItems.characters : WrittenItems → List Char
  | .last item behind => item.characters ++ (behind.characters ++ [']'])
  | .next item behind afterComma rest =>
    item.characters ++
      (behind.characters ++
        ',' :: (afterComma.characters ++ rest.characters))

/-- The characters of the members of an object. -/
def WrittenMembers.characters : WrittenMembers → List Char
  | .last label value behind =>
    label.characters ++
      (value.characters ++ (behind.characters ++ ['\x7d']))
  | .next label value behind afterComma rest =>
    label.characters ++
      (value.characters ++
        (behind.characters ++
          ',' :: (afterComma.characters ++ rest.characters)))

end

section Append

variable (rest : List Char)

theorem Pieces.quoted_append (pieces : Pieces) :
    pieces.quoted ++ rest = '"' :: (pieces.characters ++ '"' :: rest) := by
  rw [quoted, List.cons_append, List.append_assoc, List.singleton_append]

theorem Label.characters_append (label : Label) :
    label.characters ++ rest =
      label.name.quoted ++
        (label.afterName.characters ++
          ':' :: (label.afterColon.characters ++ rest)) := by
  rw [characters, List.append_assoc, List.append_assoc, List.cons_append]

theorem Written.noItems_append (inside : Gap) :
    (noItems inside).characters ++ rest =
      '[' :: (inside.characters ++ ']' :: rest) := by
  rw [characters, List.cons_append, List.append_assoc, List.singleton_append]

theorem Written.list_append (inside : Gap) (items : WrittenItems) :
    (list inside items).characters ++ rest =
      '[' :: (inside.characters ++ (items.characters ++ rest)) := by
  rw [characters, List.cons_append, List.append_assoc]

theorem Written.noMembers_append (inside : Gap) :
    (noMembers inside).characters ++ rest =
      '\x7b' :: (inside.characters ++ '\x7d' :: rest) := by
  rw [characters, List.cons_append, List.append_assoc, List.singleton_append]

theorem Written.object_append (inside : Gap) (members : WrittenMembers) :
    (object inside members).characters ++ rest =
      '\x7b' :: (inside.characters ++ (members.characters ++ rest)) := by
  rw [characters, List.cons_append, List.append_assoc]

theorem WrittenItems.last_append (item : Written) (behind : Gap) :
    (last item behind).characters ++ rest =
      item.characters ++ (behind.characters ++ ']' :: rest) := by
  rw [characters, List.append_assoc, List.append_assoc, List.singleton_append]

theorem WrittenItems.next_append
    (item : Written) (behind afterComma : Gap) (others : WrittenItems) :
    (next item behind afterComma others).characters ++ rest =
      item.characters ++
        (behind.characters ++
          ',' :: (afterComma.characters ++ (others.characters ++ rest))) := by
  rw [characters, List.append_assoc, List.append_assoc, List.cons_append,
    List.append_assoc]

theorem WrittenMembers.last_append
    (label : Label) (value : Written) (behind : Gap) :
    (last label value behind).characters ++ rest =
      label.characters ++
        (value.characters ++ (behind.characters ++ '\x7d' :: rest)) := by
  rw [characters, List.append_assoc, List.append_assoc, List.append_assoc,
    List.singleton_append]

theorem WrittenMembers.next_append
    (label : Label) (value : Written) (behind afterComma : Gap)
    (others : WrittenMembers) :
    (next label value behind afterComma others).characters ++ rest =
      label.characters ++
        (value.characters ++
          (behind.characters ++
            ',' ::
              (afterComma.characters ++ (others.characters ++ rest)))) := by
  rw [characters, List.append_assoc, List.append_assoc, List.append_assoc,
    List.cons_append, List.append_assoc]

end Append

mutual

/-- The value that is written. -/
def Written.value : Written → Datum
  | .word word => .scalar word.scalar
  | .text pieces => .str pieces.text
  | .noItems _ => .list []
  | .list _ items => .list items.values
  | .noMembers _ => .map []
  | .object _ members => .object (members.fieldsAfter [])

/-- The items that are written. -/
def WrittenItems.values : WrittenItems → List Datum
  | .last item _ => [item.value]
  | .next item _ _ rest => item.value :: rest.values

/-- The members that are written, put after earlier ones. -/
def WrittenMembers.fieldsAfter (earlier : Fields) : WrittenMembers → Fields
  | .last label value _ => Named.put label.name.text value.value earlier
  | .next label value _ _ rest =>
    rest.fieldsAfter (Named.put label.name.text value.value earlier)

end

variable {rest : List Char}

/-! ## Gaps -/

theorem exists_gap (characters : List Char) :
    ∃ gap : Gap, characters = gap.characters ++ skipGap characters :=
  ⟨⟨characters.takeWhile isGap,
      List.all_eq_true.1 (List.all_takeWhile (p := isGap))⟩,
    List.takeWhile_append_dropWhile.symm⟩

theorem skipGap_gap
    (gap : Gap) {c : Char} (noGap : isGap c = false) (rest : List Char) :
    skipGap (gap.characters ++ c :: rest) = c :: rest :=
  skipGap_append_cons gap.each noGap rest

/-- Neither a gap nor what ends a value continues a number. -/
theorem endsNumber_gap
    (gap : Gap) {c : Char} (ends : continuesNumber c = false)
    (rest : List Char) :
    EndsNumber (gap.characters ++ c :: rest) := by
  rcases gap with ⟨- | ⟨d, others⟩, each⟩
  · rintro c ⟨⟩
    exact ends
  · rintro c ⟨⟩
    have isGap := each d List.mem_cons_self
    simp only [Json.isGap, Bool.or_eq_true, beq_iff_eq] at isGap
    rcases isGap with ((rfl | rfl) | rfl) | rfl <;> decide

/-! ## What is read -/

/-- What is read behind a quote is a text that is written there. -/
theorem exists_pieces_of_frontValue
    {behind rest : List Char} {value : Datum}
    (read : frontValue ('"' :: behind) = .ok (value, rest)) :
    ∃ pieces : Pieces,
      '"' :: behind = pieces.quoted ++ rest ∧ value = .str pieces.text := by
  rw [frontValue_text] at read
  rcases exists_of_map_eq_ok read with ⟨found, readText, same⟩
  cases same
  rcases exists_pieces_of_readText readText with ⟨pieces, written, text⟩
  exact
    ⟨pieces, by rw [written, Pieces.quoted_append], by rw [Pieces.text, text]⟩

/-- What is read elsewhere than in brackets is a word or a number. -/
theorem exists_word_of_frontValue
    {c : Char} {behind rest : List Char} {value : Datum}
    (noText : c ≠ '"') (noList : c ≠ '[') (noMap : c ≠ '\x7b')
    (read : frontValue (c :: behind) = .ok (value, rest)) :
    ∃ word : Word,
      c :: behind = word.characters ++ rest ∧ value = .scalar word.scalar := by
  rw [frontValue_plain behind noText noList noMap] at read
  split at read
  · cases read
  · cases read
  · next found =>
    cases read
    exact exists_word_of_plainValue found

mutual

/-- What is read at the front of a text is a value that is written there. -/
theorem exists_written_of_frontValue
    {characters rest : List Char} {value : Datum}
    (read : frontValue characters = .ok (value, rest)) :
    ∃ written : Written,
      characters = written.characters ++ rest ∧ value = written.value := by
  cases form : characters with
  | nil =>
    rw [form, frontValue, readValue] at read
    cases read
  | cons c behind =>
    rw [form] at read
    by_cases isText : c = '"'
    · subst isText
      rcases exists_pieces_of_frontValue read with ⟨pieces, written, same⟩
      exact ⟨.text pieces, written, same⟩
    by_cases isList : c = '['
    · subst isList
      rw [frontValue_list] at read
      rcases exists_gap behind with ⟨gap, parts⟩
      split at read
      · next inside =>
        cases read
        rw [inside] at parts
        exact ⟨.noItems gap, by rw [parts, Written.noItems_append], rfl⟩
      · rcases exists_of_map_eq_ok read with ⟨found, readItems, same⟩
        cases same
        rcases exists_written_of_frontItems readItems with
          ⟨items, written, values⟩
        exact
          ⟨.list gap items, by rw [parts, written, Written.list_append],
            by rw [Written.value, values]⟩
    by_cases isMap : c = '\x7b'
    · subst isMap
      rw [frontValue_map] at read
      rcases exists_gap behind with ⟨gap, parts⟩
      split at read
      · next inside =>
        cases read
        rw [inside] at parts
        exact ⟨.noMembers gap, by rw [parts, Written.noMembers_append], rfl⟩
      · rcases exists_of_map_eq_ok read with ⟨found, readMembers, same⟩
        cases same
        rcases exists_written_of_frontMembers readMembers with
          ⟨members, written, fields⟩
        exact
          ⟨.object gap members, by rw [parts, written, Written.object_append],
            by rw [Written.value, fields]⟩
    · rcases exists_word_of_frontValue isText isList isMap read with
        ⟨word, written, same⟩
      exact ⟨.word word, written, same⟩
termination_by (characters.length, 0)
decreasing_by
  all_goals
    have := length_skipGap_le behind
    rw [form]
    simp only [Prod.lex_def, List.length_cons]
    omega

/-- What is read as the items of a list are items that are written there. -/
theorem exists_written_of_frontItems
    {characters rest : List Char} {values : List Datum}
    (read : frontItems characters = .ok (values, rest)) :
    ∃ written : WrittenItems,
      characters = written.characters ++ rest ∧ values = written.values := by
  rw [frontItems_eq] at read
  rcases exists_of_bind_eq_ok read with ⟨⟨value, between⟩, readItem, read⟩
  rcases exists_written_of_frontValue readItem with ⟨item, parts, rfl⟩
  rcases exists_gap between with ⟨gap, gapParts⟩
  dsimp only at read
  split at read
  · next inside =>
    cases read
    rw [inside] at gapParts
    exact
      ⟨.last item gap, by rw [parts, gapParts, WrittenItems.last_append], rfl⟩
  · next next inside =>
    rcases exists_of_bind_eq_ok read with ⟨⟨others, after⟩, readRest, same⟩
    cases same
    rcases exists_gap next with ⟨afterComma, nextParts⟩
    rw [inside] at gapParts
    have shorter : (skipGap next).length < characters.length := by
      have := length_skipGap_le next
      rw [parts, gapParts]
      simp only [List.length_append, List.length_cons]
      omega
    rcases exists_written_of_frontItems readRest with ⟨items, written, rfl⟩
    rw [nextParts, written] at gapParts
    exact
      ⟨.next item gap afterComma items,
        by rw [parts, gapParts, WrittenItems.next_append], rfl⟩
  · cases read
termination_by (characters.length, 1)
decreasing_by
  · exact Prod.Lex.right _ Nat.zero_lt_one
  · exact Prod.Lex.left _ _ shorter

/-- What is read as the members of an object are members written there. -/
theorem exists_written_of_frontMembers
    {earlier fields : Fields} {characters rest : List Char}
    (read : frontMembers earlier characters = .ok (fields, rest)) :
    ∃ written : WrittenMembers,
      characters = written.characters ++ rest ∧
        fields = written.fieldsAfter earlier := by
  rcases exists_name_of_frontMembers read with ⟨nameStart, form⟩
  rw [form, frontMembers_eq] at read
  rcases exists_of_bind_eq_ok read with ⟨⟨name, afterName⟩, readName, read⟩
  rcases exists_pieces_of_readText readName with ⟨pieces, nameParts, text⟩
  rcases exists_gap afterName with ⟨gapAfterName, afterNameParts⟩
  dsimp only at read nameParts text
  subst text
  split at read
  · next valueStart colon =>
    rcases exists_gap valueStart with ⟨gapAfterColon, valueParts⟩
    rcases exists_of_bind_eq_ok read with ⟨⟨value, between⟩, readMember, read⟩
    rw [colon] at afterNameParts
    have inside : (skipGap valueStart).length < characters.length := by
      have := length_skipGap_le valueStart
      rw [form, nameParts, afterNameParts]
      simp only [List.length_append, List.length_cons]
      omega
    rcases exists_written_of_frontValue readMember with ⟨member, parts, rfl⟩
    rcases exists_gap between with ⟨gap, gapParts⟩
    let label : Label := ⟨pieces, gapAfterName, gapAfterColon⟩
    have labelled :
        characters = label.characters ++ (member.characters ++ between) := by
      rw [form, nameParts, afterNameParts, valueParts, parts,
        Label.characters_append, Pieces.quoted_append]
    dsimp only at read
    split at read
    · next inside =>
      cases read
      rw [inside] at gapParts
      exact
        ⟨.last label member gap,
          by rw [labelled, gapParts, WrittenMembers.last_append], rfl⟩
    · next next inside =>
      rcases exists_gap next with ⟨afterComma, nextParts⟩
      rw [inside] at gapParts
      have shorter : (skipGap next).length < characters.length := by
        have := length_skipGap_le next
        rw [labelled, gapParts]
        simp only [List.length_append, List.length_cons]
        omega
      rcases exists_written_of_frontMembers read with ⟨members, written, rfl⟩
      rw [nextParts, written] at gapParts
      exact
        ⟨.next label member gap afterComma members,
          by rw [labelled, gapParts, WrittenMembers.next_append], rfl⟩
    · cases read
  · cases read
termination_by (characters.length, 1)
decreasing_by
  · exact Prod.Lex.left _ _ inside
  · exact Prod.Lex.left _ _ shorter

end

/-! ## What is written -/

/-- Whether a character begins a word or a number. -/
def startsWord (c : Char) : Bool := c.isDigit || "ntfNI-".toList.contains c

/-- Whether a character begins a value. -/
def startsValue (c : Char) : Bool :=
  startsWord c || c == '"' || c == '[' || c == '\x7b'

theorem Word.exists_head (word : Word) (rest : List Char) :
    ∃ c behind,
      word.characters ++ rest = c :: behind ∧ startsWord c = true := by
  cases word with
  | null => exact ⟨'n', _, rfl, by decide⟩
  | bool value =>
    cases value
    · exact ⟨'f', _, rfl, by decide⟩
    · exact ⟨'t', _, rfl, by decide⟩
  | notANumber => exact ⟨'N', _, rfl, by decide⟩
  | infinity isNegative =>
    cases isNegative
    · exact ⟨'I', _, rfl, by decide⟩
    · exact ⟨'-', _, rfl, by decide⟩
  | number numeral =>
    rcases numeral.exists_digit rest with ⟨c, behind, form, digit⟩
    rw [characters, Numeral.characters, List.append_assoc, form]
    cases numeral.isNegative
    · exact ⟨c, behind, rfl, by rw [startsWord, digit, Bool.true_or]⟩
    · exact ⟨'-', _, rfl, by decide⟩

theorem startsValue_of_startsWord
    {c : Char} (starts : startsWord c = true) : startsValue c = true := by
  rw [startsValue, starts]
  rfl

theorem Written.exists_head (written : Written) (rest : List Char) :
    ∃ c behind,
      written.characters ++ rest = c :: behind ∧ startsValue c = true := by
  cases written with
  | word word =>
    rcases word.exists_head rest with ⟨c, behind, form, starts⟩
    exact ⟨c, behind, form, startsValue_of_startsWord starts⟩
  | text pieces => exact ⟨'"', _, rfl, by decide⟩
  | noItems inside => exact ⟨'[', _, rfl, by decide⟩
  | list inside items => exact ⟨'[', _, rfl, by decide⟩
  | noMembers inside => exact ⟨'\x7b', _, rfl, by decide⟩
  | object inside members => exact ⟨'\x7b', _, rfl, by decide⟩

theorem WrittenItems.exists_head (items : WrittenItems) (rest : List Char) :
    ∃ c behind,
      items.characters ++ rest = c :: behind ∧ startsValue c = true := by
  cases items with
  | last item behind =>
    rw [characters, List.append_assoc]
    exact item.exists_head _
  | next item behind afterComma others =>
    rw [characters, List.append_assoc]
    exact item.exists_head _

theorem WrittenMembers.exists_head
    (members : WrittenMembers) (rest : List Char) :
    ∃ behind, members.characters ++ rest = '"' :: behind := by
  cases members with
  | last label value behind => exact ⟨_, rfl⟩
  | next label value behind afterComma others => exact ⟨_, rfl⟩

theorem isGap_of_startsValue
    {c : Char} (starts : startsValue c = true) : isGap c = false := by
  rw [Bool.eq_false_iff]
  intro gap
  simp only [isGap, Bool.or_eq_true, beq_iff_eq] at gap
  rcases gap with ((rfl | rfl) | rfl) | rfl <;> cases starts

/-- A gap in front of a value is passed over. -/
theorem skipGap_written (gap : Gap) (written : Written) (rest : List Char) :
    skipGap (gap.characters ++ (written.characters ++ rest)) =
      written.characters ++ rest := by
  rcases written.exists_head rest with ⟨c, behind, form, starts⟩
  rw [form, skipGap_gap gap (isGap_of_startsValue starts)]

theorem frontValue_word (word : Word) (ends : EndsNumber rest) :
    frontValue (word.characters ++ rest) = .ok (.scalar word.scalar, rest) := by
  have read := plainValue_append word ends
  rcases word.exists_head rest with ⟨c, behind, form, starts⟩
  rw [form] at read ⊢
  rw [frontValue_plain, read]
  all_goals
    rintro rfl
    cases starts

theorem frontValue_pieces (pieces : Pieces) (rest : List Char) :
    frontValue (pieces.quoted ++ rest) = .ok (.str pieces.text, rest) := by
  rw [Pieces.quoted_append, frontValue_text, readText_characters]
  rfl

/-- A name is read up to the value behind its colon. -/
theorem frontMembers_label
    (earlier : Fields) (label : Label) (value : Written) (rest : List Char) :
    frontMembers earlier (label.characters ++ (value.characters ++ rest)) = (do
      let (value, rest) ← frontValue (value.characters ++ rest)
      let members := Named.put label.name.text value earlier
      match skipGap rest with
      | '\x7d' :: after => return (members, after)
      | ',' :: next => frontMembers members (skipGap next)
      | other => .error (.problem .expectedComma other.length)) := by
  have passed := skipGap_written label.afterColon value rest
  rw [Label.characters_append, Pieces.quoted_append, frontMembers_eq,
    readText_characters]
  simp only [bind, Except.bind]
  rw [skipGap_gap _ (by decide)]
  simp only [passed]
  rfl

mutual

/-- A value that is written at the front of a text is read. -/
theorem frontValue_characters
    {rest : List Char} (ends : EndsNumber rest) :
    (written : Written) →
      frontValue (written.characters ++ rest) = .ok (written.value, rest)
  | .word word => frontValue_word word ends
  | .text pieces => frontValue_pieces pieces rest
  | .noItems inside => by
    rw [Written.noItems_append, frontValue_list,
      skipGap_gap inside (by decide)]
    rfl
  | .list inside items => by
    have read := frontItems_characters rest items
    rcases items.exists_head rest with ⟨c, behind, form, starts⟩
    rw [Written.list_append, frontValue_list, form,
      skipGap_gap inside (isGap_of_startsValue starts), ← form]
    split
    · next same =>
      rw [form] at same
      cases same
      cases starts
    · rw [read]
      rfl
  | .noMembers inside => by
    rw [Written.noMembers_append, frontValue_map,
      skipGap_gap inside (by decide)]
    rfl
  | .object inside members => by
    have read := frontMembers_characters [] rest members
    rcases members.exists_head rest with ⟨behind, form⟩
    rw [Written.object_append, frontValue_map, form,
      skipGap_gap inside (by decide), ← form]
    split
    · next same =>
      rw [form] at same
      cases same
    · rw [read]
      rfl

/-- The items of a list that are written are read. -/
theorem frontItems_characters (rest : List Char) :
    (written : WrittenItems) →
      frontItems (written.characters ++ rest) = .ok (written.values, rest)
  | .last item behind => by
    have ends := endsNumber_gap behind (c := ']') (by decide) rest
    rw [WrittenItems.last_append, frontItems_eq,
      frontValue_characters ends item]
    simp only [bind, Except.bind]
    rw [skipGap_gap behind (by decide)]
    rfl
  | .next item behind afterComma others => by
    have ends :=
      endsNumber_gap behind (c := ',') (by decide)
        (afterComma.characters ++ (others.characters ++ rest))
    have passed :
        skipGap (afterComma.characters ++ (others.characters ++ rest)) =
          others.characters ++ rest := by
      rcases others.exists_head rest with ⟨c, inside, form, starts⟩
      rw [form, skipGap_gap afterComma (isGap_of_startsValue starts)]
    rw [WrittenItems.next_append, frontItems_eq,
      frontValue_characters ends item]
    simp only [bind, Except.bind]
    rw [skipGap_gap behind (by decide)]
    simp only [passed, frontItems_characters rest others]
    rfl

/-- The members of an object that are written are read. -/
theorem frontMembers_characters (earlier : Fields) (rest : List Char) :
    (written : WrittenMembers) →
      frontMembers earlier (written.characters ++ rest) =
        .ok (written.fieldsAfter earlier, rest)
  | .last label value behind => by
    have ends := endsNumber_gap behind (c := '\x7d') (by decide) rest
    rw [WrittenMembers.last_append, frontMembers_label,
      frontValue_characters ends value]
    simp only [bind, Except.bind]
    rw [skipGap_gap behind (by decide)]
    rfl
  | .next label value behind afterComma others => by
    have ends :=
      endsNumber_gap behind (c := ',') (by decide)
        (afterComma.characters ++ (others.characters ++ rest))
    have passed :
        skipGap (afterComma.characters ++ (others.characters ++ rest)) =
          others.characters ++ rest := by
      rcases others.exists_head rest with ⟨inside, form⟩
      rw [form, skipGap_gap afterComma (by decide)]
    rw [WrittenMembers.next_append, frontMembers_label,
      frontValue_characters ends value]
    simp only [bind, Except.bind]
    rw [skipGap_gap behind (by decide)]
    simp only [passed, frontMembers_characters _ rest others]
    rfl

end

/-! ## Documents -/

/-- Whether a value is all that characters write, gaps aside. -/
def Written.Writes (written : Written) (characters : List Char) : Prop :=
  ∃ before behind : Gap,
    characters =
      before.characters ++ (written.characters ++ behind.characters)

/-- Characters are read if and only if a value is written there. -/
theorem readCharacters_eq_ok_iff {characters : List Char} {value : Datum} :
    readCharacters characters = .ok value ↔
      ∃ written : Written, written.Writes characters ∧ written.value = value := by
  constructor
  · intro success
    rw [readCharacters] at success
    split at success
    · cases success
    · split at success
      · cases success
      · next read rest found =>
        dsimp only at success
        split at success
        · next ended =>
          cases success
          have front : frontValue (skipGap characters) = .ok (value, rest.val) := by
            rw [frontValue, found]
            rfl
          rcases exists_written_of_frontValue front with
            ⟨written, parts, rfl⟩
          rcases exists_gap characters with ⟨before, beforeParts⟩
          rcases exists_gap rest.val with ⟨behind, behindParts⟩
          rw [List.isEmpty_iff] at ended
          rw [ended, List.append_nil] at behindParts
          refine ⟨written, ⟨before, behind, ?_⟩, rfl⟩
          rw [← behindParts, ← parts]
          exact beforeParts
        · cases success
  · rintro ⟨written, ⟨before, behind, rfl⟩, rfl⟩
    have ends : EndsNumber behind.characters := by
      have gap := endsNumber_gap behind (c := ',') (by decide) []
      rcases behind with ⟨- | ⟨d, others⟩, each⟩
      · rintro c ⟨⟩
      · exact gap
    rcases exists_of_map_eq_ok (frontValue_characters ends written) with
      ⟨⟨value, rest⟩, found, same⟩
    rcases Prod.mk.inj same with ⟨rfl, ended⟩
    refine
      readCharacters_of_value ?_ (skipGap_written before written _) found
        (by rw [ended, skipGap_of_gap behind.each])
    rcases before with ⟨- | ⟨d, others⟩, each⟩
    · rcases written.exists_head behind.characters with
        ⟨c, inside, form, starts⟩
      rw [List.nil_append, form]
      rintro ⟨⟩
      cases starts
    · have isGap := each d List.mem_cons_self
      rintro ⟨⟩
      cases isGap

/-- A text is read if and only if a value is written there. -/
theorem read_eq_ok_iff {text : String} {value : Datum} :
    read text = .ok value ↔
      ∃ written : Written,
        written.Writes text.toList ∧ written.value = value :=
  readCharacters_eq_ok_iff

end ApiAtlas.Json
