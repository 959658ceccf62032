import ApiAtlas.Document.Load
import ApiAtlas.Proofs.Text.Utf8
import ApiAtlas.Proofs.Yaml.Value

/-!
# Descriptions in JSON

A description in JSON is read from a file as YAML and from an address as JSON.
It is the same description where all its words and texts mean the same in both
notations: where YAML refuses the text, the file is read as JSON as well, and
where it does not, it gives the value that is written.  The line ends of a file
are made one when it is read; they only stand in gaps.

In general the two are not the same: a number with an exponent but no point is
a text in YAML.
-/

namespace ApiAtlas

open Document (normalLines)

/-! ## Line ends -/

namespace Document

theorem normalLines_cons
    {c : Char} (noReturn : c ≠ '\r') (rest : List Char) :
    normalLines (c :: rest) = c :: normalLines rest := by
  rw [normalLines]
  · rintro _ same
    exact absurd same noReturn
  · exact noReturn

theorem normalLines_append_of_not_mem
    {characters : List Char} (noReturn : '\r' ∉ characters)
    (rest : List Char) :
    normalLines (characters ++ rest) = characters ++ normalLines rest := by
  induction characters with
  | nil => rfl
  | cons c others ih =>
    rw [List.mem_cons, not_or] at noReturn
    rw [List.cons_append, normalLines_cons (Ne.symm noReturn.1),
      ih noReturn.2, List.cons_append]

/-- Lines are made normal part by part, where no line end is cut. -/
theorem normalLines_append
    (characters : List Char) {rest : List Char}
    (noFeed : rest.head? ≠ some '\n') :
    normalLines (characters ++ rest) =
      normalLines characters ++ normalLines rest := by
  fun_induction normalLines characters with
  | case1 others ih =>
    rw [List.cons_append, List.cons_append, normalLines, ih, List.cons_append]
  | case2 others lone ih =>
    have alone : ∀ behind, others ++ rest ≠ '\n' :: behind := by
      rintro behind same
      rcases others with - | ⟨c, others⟩
      · rw [List.nil_append] at same
        exact noFeed (congrArg List.head? same)
      · cases same
        exact lone _ rfl
    rw [List.cons_append, normalLines, ih, List.cons_append]
    exact alone
  | case3 c others noEnd noReturn ih =>
    rw [List.cons_append, normalLines_cons noReturn, ih, List.cons_append]
  | case4 => rfl

theorem mem_normalLines
    {characters : List Char} :
    ∀ c ∈ normalLines characters, c = '\n' ∨ c ∈ characters := by
  fun_induction normalLines characters with
  | case1 others ih =>
    refine List.forall_mem_cons.2 ⟨Or.inl rfl, fun c inside => ?_⟩
    exact
      (ih c inside).imp_right fun inside =>
        List.mem_cons_of_mem _ (List.mem_cons_of_mem _ inside)
  | case2 others lone ih =>
    refine List.forall_mem_cons.2 ⟨Or.inl rfl, fun c inside => ?_⟩
    exact (ih c inside).imp_right (List.mem_cons_of_mem _)
  | case3 c others noEnd noReturn ih =>
    refine
      List.forall_mem_cons.2 ⟨Or.inr List.mem_cons_self, fun d inside => ?_⟩
    exact (ih d inside).imp_right (List.mem_cons_of_mem _)
  | case4 => exact List.forall_mem_nil _

end Document

namespace Json

open Document

/-- A gap whose line ends are made one. -/
def Gap.normal (gap : Gap) : Gap :=
  ⟨normalLines gap.characters, fun c inside =>
    (mem_normalLines c inside).elim
      (fun isFeed => isFeed ▸ rfl) (gap.each c)⟩

/-- A label whose line ends are made one. -/
def Label.normal (label : Label) : Label :=
  ⟨label.name, label.afterName.normal, label.afterColon.normal⟩

mutual

/-- A tree whose line ends are made one. -/
def Written.normal : Written → Written
  | .word word => .word word
  | .text pieces => .text pieces
  | .noItems inside => .noItems inside.normal
  | .list inside items => .list inside.normal items.normal
  | .noMembers inside => .noMembers inside.normal
  | .object inside members => .object inside.normal members.normal

/-- Items whose line ends are made one. -/
def WrittenItems.normal : WrittenItems → WrittenItems
  | .last item behind => .last item.normal behind.normal
  | .next item behind afterComma rest =>
    .next item.normal behind.normal afterComma.normal rest.normal

/-- Members whose line ends are made one. -/
def WrittenMembers.normal : WrittenMembers → WrittenMembers
  | .last label value behind => .last label.normal value.normal behind.normal
  | .next label value behind afterComma rest =>
    .next label.normal value.normal behind.normal afterComma.normal
      rest.normal

end

mutual

/-- Line ends have no influence on the value. -/
theorem value_normal : (written : Written) → written.normal.value = written.value
  | .word _ | .text _ | .noItems _ | .noMembers _ => rfl
  | .list _ items => congrArg Datum.list (values_normal items)
  | .object _ members => congrArg Datum.object (fieldsAfter_normal members [])

theorem values_normal : (items : WrittenItems) → items.normal.values = items.values
  | .last item _ => congrArg (fun value => [value]) (value_normal item)
  | .next item _ _ rest =>
    congrArg₂ List.cons (value_normal item) (values_normal rest)

theorem fieldsAfter_normal :
    (members : WrittenMembers) → (earlier : Fields) →
      members.normal.fieldsAfter earlier = members.fieldsAfter earlier
  | .last label value _, earlier =>
    congrArg (fun value => Named.put label.name.text value earlier)
      (value_normal value)
  | .next label value _ _ rest, earlier =>
    (congrArg (fun value =>
        rest.normal.fieldsAfter (Named.put label.name.text value earlier))
      (value_normal value)).trans (fieldsAfter_normal rest _)

end

mutual

theorem Written.IsShared.normal :
    (written : Written) → written.IsShared → written.normal.IsShared
  | .word _, isShared | .text _, isShared => isShared
  | .noItems _, _ | .noMembers _, _ => trivial
  | .list _ items, isShared => WrittenItems.IsShared.normal items isShared
  | .object _ members, isShared =>
    WrittenMembers.IsShared.normal members isShared

theorem WrittenItems.IsShared.normal :
    (items : WrittenItems) → items.IsShared → items.normal.IsShared
  | .last item _, isShared => Written.IsShared.normal item isShared
  | .next item _ _ rest, ⟨isShared, areShared⟩ =>
    ⟨Written.IsShared.normal item isShared,
      WrittenItems.IsShared.normal rest areShared⟩

theorem WrittenMembers.IsShared.normal :
    (members : WrittenMembers) → members.IsShared → members.normal.IsShared
  | .last _ value _, ⟨name, isShared⟩ =>
    ⟨name, Written.IsShared.normal value isShared⟩
  | .next _ value _ _ rest, ⟨name, isShared, areShared⟩ =>
    ⟨name, Written.IsShared.normal value isShared,
      WrittenMembers.IsShared.normal rest areShared⟩

end

theorem not_mem_quoted (pieces : Pieces) : '\r' ∉ pieces.quoted := by
  have inside : '\r' ∉ pieces.characters := by
    rw [Pieces.characters, List.mem_flatMap]
    rintro ⟨piece, -, isPart⟩
    cases piece with
    | own c own =>
      rw [Piece.characters, List.mem_singleton] at isPart
      rw [← isPart] at own
      cases own
    | letter c code stands =>
      rcases List.mem_pair.1 isPart with same | same
      · cases same
      · rw [← same] at stands
        cases stands
    | unit a b c d code stands =>
      have each :=
        List.all_eq_true.1 (Yaml.hexNumber_of_hexNumber? stands).1 '\r'
      simp only [Piece.characters, List.mem_cons] at isPart each
      rcases isPart with same | same | isDigit
      · cases same
      · cases same
      · cases each isDigit
  rw [Pieces.quoted, List.mem_cons, List.mem_append, List.mem_singleton]
  rintro (same | isPart | same)
  · cases same
  · exact inside isPart
  · cases same

theorem normalLines_gap
    (gap : Gap) {rest : List Char} (noFeed : rest.head? ≠ some '\n') :
    normalLines (gap.characters ++ rest) =
      gap.normal.characters ++ normalLines rest :=
  normalLines_append gap.characters noFeed

theorem normalLines_gap_cons
    (gap : Gap) {c : Char} (noGap : isGap c = false) (rest : List Char) :
    normalLines (gap.characters ++ c :: rest) =
      gap.normal.characters ++ c :: normalLines rest := by
  rw [normalLines_gap gap, normalLines_cons]
  · rintro rfl
    cases noGap
  · rintro ⟨⟩
    cases noGap

theorem head?_ne_of_startsValue
    {characters : List Char}
    (head : ∃ c behind, characters = c :: behind ∧ startsValue c = true) :
    characters.head? ≠ some '\n' := by
  rcases head with ⟨c, behind, rfl, starts⟩
  rintro ⟨⟩
  cases starts

theorem normalLines_label
    (label : Label) {rest : List Char} (noFeed : rest.head? ≠ some '\n') :
    normalLines (label.characters ++ rest) =
      label.normal.characters ++ normalLines rest := by
  rw [Label.characters_append, Label.characters_append,
    normalLines_append_of_not_mem (not_mem_quoted label.name),
    normalLines_gap_cons label.afterName rfl,
    normalLines_gap label.afterColon noFeed]
  rfl

mutual

/-- The line ends of a tree are those of its gaps. -/
theorem normalLines_written :
    (written : Written) → written.IsShared → (rest : List Char) →
      normalLines (written.characters ++ rest) =
        written.normal.characters ++ normalLines rest
  | .word word, isShared, rest =>
    normalLines_append_of_not_mem
      (fun inside =>
        absurd (Yaml.mem_wordCharacters_of_word isShared _ inside) (by decide))
      rest
  | .text pieces, _, rest =>
    normalLines_append_of_not_mem (not_mem_quoted pieces) rest
  | .noItems inside, _, rest => by
    rw [Written.normal, Written.noItems_append, Written.noItems_append,
      normalLines_cons (by decide), normalLines_gap_cons inside rfl]
  | .list inside items, isShared, rest => by
    rw [Written.normal, Written.list_append, Written.list_append,
      normalLines_cons (by decide),
      normalLines_gap inside (head?_ne_of_startsValue (items.exists_head rest)),
      normalLines_items items isShared]
  | .noMembers inside, _, rest => by
    rw [Written.normal, Written.noMembers_append, Written.noMembers_append,
      normalLines_cons (by decide), normalLines_gap_cons inside rfl]
  | .object inside members, isShared, rest => by
    rcases members.exists_head rest with ⟨behind, form⟩
    rw [Written.normal, Written.object_append, Written.object_append,
      normalLines_cons (by decide),
      normalLines_gap inside
        (head?_ne_of_startsValue ⟨'"', behind, form, rfl⟩),
      normalLines_members members isShared]

theorem normalLines_items :
    (items : WrittenItems) → items.IsShared → (rest : List Char) →
      normalLines (items.characters ++ rest) =
        items.normal.characters ++ normalLines rest
  | .last item behind, isShared, rest => by
    rw [WrittenItems.normal, WrittenItems.last_append,
      WrittenItems.last_append, normalLines_written item isShared, normalLines_gap_cons behind rfl]
  | .next item behind afterComma others, ⟨isShared, areShared⟩, rest => by
    rw [WrittenItems.normal, WrittenItems.next_append,
      WrittenItems.next_append, normalLines_written item isShared, normalLines_gap_cons behind rfl,
      normalLines_gap afterComma
        (head?_ne_of_startsValue (others.exists_head rest)),
      normalLines_items others areShared]

theorem normalLines_members :
    (members : WrittenMembers) → members.IsShared → (rest : List Char) →
      normalLines (members.characters ++ rest) =
        members.normal.characters ++ normalLines rest
  | .last label value behind, ⟨_, isShared⟩, rest => by
    rw [WrittenMembers.normal, WrittenMembers.last_append,
      WrittenMembers.last_append,
      normalLines_label label
        (head?_ne_of_startsValue (value.exists_head _)),
      normalLines_written value isShared, normalLines_gap_cons behind rfl]
  | .next label value behind afterComma others, ⟨_, isShared, areShared⟩,
      rest => by
    rcases others.exists_head rest with ⟨following, form⟩
    rw [WrittenMembers.normal, WrittenMembers.next_append,
      WrittenMembers.next_append,
      normalLines_label label
        (head?_ne_of_startsValue (value.exists_head _)),
      normalLines_written value isShared, normalLines_gap_cons behind rfl,
      normalLines_gap afterComma
        (head?_ne_of_startsValue ⟨'"', following, form, rfl⟩),
      normalLines_members others areShared]

end

/-- A tree is written with other line ends as well. -/
theorem Written.Writes.normal
    {written : Written} {characters : List Char}
    (writes : written.Writes characters) (isShared : written.IsShared) :
    written.normal.Writes (normalLines characters) := by
  rcases writes with ⟨before, behind, rfl⟩
  have head := written.exists_head behind.characters
  have last : normalLines behind.characters = behind.normal.characters := rfl
  refine ⟨before.normal, behind.normal, ?_⟩
  rw [normalLines_gap before (head?_ne_of_startsValue head),
    normalLines_written written isShared, last]

end Json

/-! ## Descriptions in both notations -/

/--
Whether a text is written in JSON, in words and texts all of which mean the
same in YAML: numbers with an exponent have a point and a sign of the
exponent, there is no infinity and nothing that is no number, line breaks in
texts are escaped or kept, and no escape stands for half a character.
-/
def Json.IsShared (text : String) : Prop :=
  ∃ written : Written, written.Writes text.toList ∧ written.IsShared

namespace Document

open Http (Response)

/-- The text of a file that is stored in UTF-8. -/
theorem readText_utf8Bytes
    {files : Files} {path text : String}
    (stored : readFile files path = .ok (Text.utf8Bytes text)) :
    readText files path = .ok (String.ofList (normalLines text.toList)) := by
  have decoded :
      (Text.Encoding.utf8.decodeAll (Text.utf8Bytes text)).toOption =
        some text.toList := by
    rw [Text.Encoding.decodeAll_eq, Text.Encoding.decode,
      Text.decodeUtf8_eq_iff.2 (rfl : Text.utf8Bytes text = Text.utf8Of _)]
    rfl
  rw [readText, stored]
  cases found : Text.Encoding.utf8.decodeAll (Text.utf8Bytes text) with
  | error fault =>
    rw [found] at decoded
    cases decoded
  | ok characters =>
    rw [found] at decoded
    cases decoded
    simp only [bind, Except.bind, found]
    rfl

/-- A description in UTF-8 is read from an address as JSON. -/
theorem outcome_fetch
    {text : String} {response : Response} {value : Datum} (address : String)
    (isFine : response.isFine = true)
    (body : response.content = .ok (Text.utf8Bytes text))
    (read : Json.read text = .ok value)
    (described : isDescription value = true) :
    (fetch (.ok response) address).outcome = .ok value := by
  have held : Response.valueOf (Text.utf8Bytes text) = .ok value := by
    rw [Response.valueOf, Response.textOf, Text.utf8Bytes, ← Text.utf8Of,
      Text.decodeLenient_utf8Of, String.ofList_toList, read]
    rfl
  rw [fetch, received]
  simp only [bind, Except.bind, isFine, body, held, requireDescription,
    described, if_true]
  rfl

/-- A description that is shared is read from a file as it is written. -/
theorem readValue_normalLines
    {text : String} {written : Json.Written}
    (writes : written.Writes text.toList) (isShared : written.IsShared)
    (described : isDescription written.value = true) :
    readValue (String.ofList (normalLines text.toList)) =
      .ok written.value := by
  have normal :
      written.normal.Writes (String.ofList (normalLines text.toList)).toList :=
    String.toList_ofList ▸ writes.normal isShared
  have asJson :
      Json.read (String.ofList (normalLines text.toList)) =
        .ok written.value :=
    Json.read_eq_ok_iff.2 ⟨_, normal, Json.value_normal written⟩
  have isShared := Json.Written.IsShared.normal written isShared
  cases written with
  | word word => cases described
  | text pieces => cases described
  | noItems inside => cases described
  | list inside items => cases described
  | noMembers inside => cases described
  | object inside members =>
    rw [readValue]
    rcases Yaml.read_object isShared normal with refused | found
    · rw [refused, asJson]
      rfl
    · rw [found]
      exact congrArg Except.ok (Json.value_normal (.object inside members))

/--
A description in JSON whose words and texts mean the same in both notations is
the same from a file and from an address.
-/
theorem loadFile_and_fetch
    {files : Files} {path address text : String} {response : Response}
    {value : Datum}
    (stored : readFile files (normalPath path) = .ok (Text.utf8Bytes text))
    (isFine : response.isFine = true)
    (body : response.content = .ok (Text.utf8Bytes text))
    (read : Json.read text = .ok value)
    (described : isDescription value = true)
    (isShared : Json.IsShared text) :
    loadFile files path = .ok value ∧
      (fetch (.ok response) address).outcome = .ok value := by
  rcases isShared with ⟨written, writes, isShared⟩
  have same : written.value = value :=
    Except.ok.inj
      ((Json.read_eq_ok_iff.2 ⟨written, writes, rfl⟩).symm.trans read)
  subst same
  refine ⟨?_, outcome_fetch address isFine body read described⟩
  rw [loadFile, readText_utf8Bytes stored]
  simp only [bind, Except.bind, readValue_normalLines writes isShared described,
    requireDescription, described, if_true]

/-! ### One description with a number -/

/-- A text that is written as it is. -/
def ownPieces (text : String)
    (own : text.toList.all Json.isOwn = true) : Json.Pieces :=
  text.toList.pmap Json.Piece.own (List.all_eq_true.1 own)

/-- A gap of some characters. -/
def gapOf (characters : List Char)
    (gap : characters.all Json.isGap = true) : Json.Gap :=
  ⟨characters, List.all_eq_true.1 gap⟩

/-- A number of one digit. -/
def digitOf (c : Char) (digit : c.isDigit = true) : Json.Digits :=
  ⟨[c], List.cons_ne_nil _ _, List.forall_mem_singleton.2 digit⟩

/-- A description with a number at a key of its own. -/
def numbered (numeral : Json.Numeral) : Json.Written :=
  .object (gapOf [] rfl)
    (.next ⟨ownPieces "openapi" rfl, gapOf [] rfl, gapOf [' '] rfl⟩
      (.text (ownPieces "3.1.0" rfl)) (gapOf [] rfl) (gapOf ['\r', '\n'] rfl)
      (.last ⟨ownPieces "x" rfl, gapOf [] rfl, gapOf [' '] rfl⟩
        (.word (.number numeral)) (gapOf [] rfl)))

/-- A number that is written with an exponent. -/
def power (fraction : Option Json.Digits) (sign : Option Bool) :
    Json.Numeral :=
  { isNegative := false
    whole := digitOf '1' rfl
    fraction
    exponent := some ⟨false, sign, digitOf '5' rfl⟩
    leading := by decide
    short := by intro _ none; cases none }

/-- Files that all hold one text. -/
def sameFiles (text : String) : Files := fun _ => .ok (Text.utf8Bytes text)

/-- A response whose body is a text. -/
def responseOf (text : String) : Response :=
  ⟨200, "OK", [.bytes (Text.utf8Bytes text)]⟩

/-- A number with a point and a signed exponent is the same from both. -/
theorem loadFile_and_fetch_power :
    let text :=
      "\x7b\"openapi\": \"3.1.0\",\r\n\"x\": 1.0e+5\x7d"
    let value : Datum :=
      .object [("openapi", .str "3.1.0"),
        ("x", .float (Binary64.ofDecimal false 10 4))]
    loadFile (sameFiles text) "openapi.json" = .ok value ∧
      (fetch (.ok (responseOf text)) "http://x").outcome = .ok value := by
  intro text value
  let written : Json.Written :=
    numbered (power (some (digitOf '0' rfl)) (some false))
  have writes : written.Writes text.toList :=
    ⟨gapOf [] rfl, gapOf [] rfl, by decide⟩
  have isShared : written.IsShared :=
    ⟨⟨⟨by decide, by decide⟩, by decide⟩, ⟨⟨by decide, by decide⟩, by decide⟩,
      ⟨⟨by decide, by decide⟩, by decide⟩, rfl⟩
  have content : (responseOf text).content = .ok (Text.utf8Bytes text) :=
    congrArg Except.ok (List.append_nil _)
  have same : written.value = value := by decide +kernel
  exact
    loadFile_and_fetch (by decide +kernel) (by decide) content
      (Json.read_eq_ok_iff.2 ⟨written, writes, same⟩) (by decide +kernel)
      ⟨written, writes, isShared⟩

/-- A number with an exponent but no point is a text in a file. -/
theorem not_forall_loadFile_eq_fetch :
    ¬ ∀ (files : Files) (path address text : String) (response : Response)
        (value : Datum),
      readFile files (normalPath path) = .ok (Text.utf8Bytes text) →
        response.isFine = true →
          response.content = .ok (Text.utf8Bytes text) →
            Json.read text = .ok value → isDescription value = true →
              loadFile files path =
                (fetch (.ok response) address).outcome := by
  intro alike
  let text := "\x7b\"openapi\": \"3.1.0\",\r\n\"x\": 1e5\x7d"
  let written : Json.Written := numbered (power none none)
  have writes : written.Writes text.toList :=
    ⟨gapOf [] rfl, gapOf [] rfl, by decide⟩
  have read : Json.read text = .ok written.value :=
    Json.read_eq_ok_iff.2 ⟨written, writes, rfl⟩
  have content : (responseOf text).content = .ok (Text.utf8Bytes text) :=
    congrArg Except.ok (List.append_nil _)
  have same :=
    alike (sameFiles text) "openapi.json" "http://x" text (responseOf text)
      written.value (by decide +kernel) (by decide) content read
      (by decide +kernel)
  have fromFile :
      (loadFile (sameFiles text) "openapi.json").toOption =
        some (.object [("openapi", .str "3.1.0"), ("x", .str "1e5")]) := by
    decide +kernel
  rw [same, outcome_fetch _ (by decide) content read (by decide +kernel)]
    at fromFile
  revert fromFile
  decide +kernel

end Document

end ApiAtlas
