import ApiAtlas.Filter.Expression
import ApiAtlas.Proofs.Text.Numeral
import ApiAtlas.Proofs.Text.Parts

/-!
# Values that a text selects

A text lists items: they stand between commas with white space around them, and
parts without an item are passed over.  Every text lists the items of exactly
one list.  The list operator reads each of them by the type of the field, in
order, so a rendering of items is read back as these items; the other operators
read the whole text without the white space around it.
-/

namespace ApiAtlas.Filter

open Text (Pads WritesWhole digitLimit)

/-! ## Texts that list items -/

/--
Parts that hold items, each in a part of its own with white space around it;
the other parts are blank.
-/
inductive HoldItems : List (List Char) → List String → Prop where
  | none : HoldItems [] []
  | blank {part : List Char} {parts : List (List Char)} {items : List String}
      (empty : ∀ c ∈ part, Text.isBlank c = true)
      (rest : HoldItems parts items) :
      HoldItems (part :: parts) items
  | item {part : List Char} {parts : List (List Char)}
      {item : String} {items : List String}
      (pads : Pads Text.isBlank part item.toList) (nonempty : item ≠ "")
      (noComma : ',' ∉ item.toList) (rest : HoldItems parts items) :
      HoldItems (part :: parts) (item :: items)

/-- A text that lists items between commas. -/
def ListsItems (text : String) (items : List String) : Prop :=
  ∃ parts, text.toList = [','].intercalate parts ∧ HoldItems parts items

/-- The items that parts are read as. -/
def itemsOf (parts : List (List Char)) : List String :=
  ((parts.map String.ofList).map Text.trim).filter (· ≠ "")

section HoldItems

variable {part : List Char} {parts : List (List Char)} {items : List String}

theorem trim_ofList_eq_iff {inner : String} :
    Text.trim (String.ofList part) = inner ↔
      Pads Text.isBlank part inner.toList := by
  rw [Text.trim_eq_iff, String.toList_ofList]

theorem itemsOf_cons (part : List Char) (parts : List (List Char)) :
    itemsOf (part :: parts) =
      if Text.trim (String.ofList part) = "" then itemsOf parts
      else Text.trim (String.ofList part) :: itemsOf parts := by
  simp only [itemsOf, List.map_cons, List.filter_cons]
  split <;> simp_all

theorem HoldItems.not_mem_comma (hold : HoldItems parts items) :
    ∀ part ∈ parts, ',' ∉ part := by
  induction hold with
  | none => exact List.forall_mem_nil _
  | blank empty rest ih =>
    refine List.forall_mem_cons.2 ⟨fun comma => ?_, ih⟩
    cases empty ',' comma
  | item pads nonempty noComma rest ih =>
    exact List.forall_mem_cons.2 ⟨mt (pads.mem_iff rfl).1 noComma, ih⟩

theorem HoldItems.itemsOf_eq (hold : HoldItems parts items) :
    itemsOf parts = items := by
  induction hold with
  | none => rfl
  | blank empty rest ih =>
    have trimmed : Text.trim (String.ofList _) = "" :=
      trim_ofList_eq_iff.2 (Text.pads_nil_iff.2 empty)
    rw [itemsOf_cons, if_pos trimmed, ih]
  | item pads nonempty noComma rest ih =>
    have trimmed := trim_ofList_eq_iff.2 pads
    rw [itemsOf_cons, trimmed, if_neg nonempty, ih]

theorem holdItems_itemsOf (noComma : ∀ part ∈ parts, ',' ∉ part) :
    HoldItems parts (itemsOf parts) := by
  induction parts with
  | nil => exact .none
  | cons part parts ih =>
    rw [List.forall_mem_cons] at noComma
    rw [itemsOf_cons]
    split
    · next empty =>
      rw [trim_ofList_eq_iff] at empty
      exact .blank (Text.pads_nil_iff.1 empty) (ih noComma.2)
    · next nonempty =>
      have pads :=
        trim_ofList_eq_iff.1 (Eq.refl (Text.trim (String.ofList part)))
      exact
        .item pads nonempty (mt (pads.mem_iff rfl).2 noComma.1) (ih noComma.2)

end HoldItems

/-- A text is read as the items that it lists, and it lists no others. -/
theorem listItems_eq_iff {text : String} {items : List String} :
    listItems text = items ↔ ListsItems text items := by
  constructor
  · rintro rfl
    exact
      ⟨Text.splitAt ',' text.toList, (Text.intercalate_splitAt ',' _).symm,
        holdItems_itemsOf fun part => Text.not_mem_of_mem_splitAt⟩
  · rintro ⟨parts, same, hold⟩
    cases parts with
    | nil =>
      cases hold
      rw [String.toList_eq_nil_iff.1 same]
      decide
    | cons part parts =>
      have cut : Text.splitAt ',' text.toList = part :: parts := by
        rw [same]
        exact
          Text.splitAt_intercalate (List.cons_ne_nil part parts)
            hold.not_mem_comma
      rw [← hold.itemsOf_eq, ← cut]
      rfl

/-! ## Selections -/

/-- The selection of a list of values for a field. -/
def Field.oneOf (field : Field) (values : List Datum) : Expression :=
  ⟨field.path, .oneOf, .list values⟩

/-- A field whose values are kept as texts: no numbers and no truth values. -/
def Field.KeepsTexts (field : Field) : Prop :=
  field.type ≠ some "integer" ∧ field.type ≠ some "number" ∧
    field.type ≠ some "boolean"

variable (field : Field) (text : String)

theorem select_oneOf :
    select field (.str Operator.oneOf.name) (.str text) =
      ((listItems text).mapM (readValue field.type)).map field.oneOf := by
  have named : Operator.ofDatum (.str Operator.oneOf.name) = .ok .oneOf := rfl
  rw [select, named]
  change
    ((listItems text).mapM (readValue field.type) >>= fun values =>
      .ok (field.oneOf values)) = _
  cases (listItems text).mapM (readValue field.type) <;> rfl

theorem select_of_ne_oneOf
    {operator : Operator} (single : operator ≠ .oneOf) :
    select field (.str operator.name) (.str text) =
      (readValue field.type (Text.trim text)).map fun value =>
        ⟨field.path, operator, value⟩ := by
  have named : Operator.ofDatum (.str operator.name) = .ok operator := by
    cases operator <;> rfl
  rw [select, named]
  change (if operator = .oneOf then _ else _) = _
  rw [if_neg single]
  cases readValue field.type (Text.trim text) <;> rfl

/-! ## What is read of each item -/

theorem readValue_of_keepsTexts
    {field : Field} (keeps : field.KeepsTexts) (item : String) :
    readValue field.type item = .ok (.str item) := by
  rcases keeps with ⟨noInteger, noNumber, noBoolean⟩
  rw [readValue]
  · exact noInteger
  · exact noNumber
  · exact noBoolean

theorem readValue_integer_eq_ok_iff {item : String} {value : Datum} :
    readValue (some "integer") item = .ok value ↔
      ∃ number, WritesWhole item number ∧ value = .int number := by
  constructor
  · intro success
    rcases exists_of_map_eq_ok success with ⟨number, read, rfl⟩
    cases whole : Text.readWhole item with
    | error cause =>
      rw [whole] at read
      cases read
    | ok found =>
      rw [whole] at read
      cases read
      exact ⟨number, Text.readWhole_eq_ok_iff.1 whole, rfl⟩
  · rintro ⟨number, writes, rfl⟩
    rw [readValue, Text.readWhole_eq_ok_iff.2 writes]
    rfl

theorem exists_numeral_of_readValue_integer
    {item : String} {fault : Fault}
    (failure : readValue (some "integer") item = .error fault) :
    ∃ cause, fault = .numeral cause := by
  rw [readValue] at failure
  cases whole : Text.readWhole item with
  | error cause =>
    rw [whole] at failure
    cases failure
    exact ⟨cause, rfl⟩
  | ok number =>
    rw [whole] at failure
    cases failure

/-- What the items of a text select for a field. -/
structure SelectsItems (field : Field) (items : List String)
    (outcome : Except Fault Expression) : Prop where
  texts : field.KeepsTexts → outcome = .ok (field.oneOf (items.map .str))
  numbers : field.type = some "integer" → ∀ numbers,
    List.Forall₂ WritesWhole items numbers →
      outcome = .ok (field.oneOf (numbers.map .int))
  decimals : field.type = some "integer" → ∀ numbers : List Int,
    items = numbers.map toString →
      (∀ number ∈ numbers,
        (Nat.toDigits 10 number.natAbs).length ≤ digitLimit) →
        outcome = .ok (field.oneOf (numbers.map .int))
  refused : field.type = some "integer" →
    (∃ item ∈ items, ∀ number, ¬ WritesWhole item number) →
      ∃ cause, outcome = .error (.numeral cause)

theorem selectsItems_listItems :
    SelectsItems field (listItems text)
      (select field (.str Operator.oneOf.name) (.str text)) := by
  rw [select_oneOf]
  have numbers (isInteger : field.type = some "integer") {numbers : List Int}
      (writes : List.Forall₂ WritesWhole (listItems text) numbers) :
      ((listItems text).mapM (readValue field.type)).map field.oneOf =
        .ok (field.oneOf (numbers.map .int)) := by
    have read :
        (listItems text).mapM (readValue field.type) =
          .ok (numbers.map .int) := by
      rw [mapM_eq_ok_iff, List.forall₂_map_right_iff, isInteger]
      refine writes.imp fun item number written => ?_
      exact readValue_integer_eq_ok_iff.2 ⟨number, written, rfl⟩
    rw [read]
    rfl
  refine ⟨?_, fun isInteger _ => numbers isInteger, ?_, ?_⟩
  · intro keeps
    rw [mapM_of_forall_eq_ok fun item _ => readValue_of_keepsTexts keeps item]
    rfl
  · intro isInteger given same short
    apply numbers isInteger
    rw [same, List.forall₂_map_left_iff, List.forall₂_same]
    exact fun number member => Text.writesWhole_toString (short number member)
  · rintro isInteger ⟨item, member, unwritten⟩
    cases read : (listItems text).mapM (readValue field.type) with
    | ok values =>
      rw [mapM_eq_ok_iff] at read
      rcases exists_mem_of_forall₂ read.flip member with ⟨value, -, here⟩
      rw [isInteger, readValue_integer_eq_ok_iff] at here
      rcases here with ⟨number, writes, -⟩
      exact (unwritten number writes).elim
    | error fault =>
      rcases mapM_eq_error_iff.1 read with ⟨index, other, -, failed, -⟩
      rw [isInteger] at failed
      rcases exists_numeral_of_readValue_integer failed with ⟨cause, rfl⟩
      exact ⟨cause, rfl⟩

/--
A text lists the items of exactly one list, and the list operator selects just
these, in order: texts as they are, whole numbers by their writings, and nothing
when an item of an integer field writes no whole number.  Any other operator
selects what the whole text without the white space around it is read as.
-/
theorem select_reads_items :
    (∃! items, ListsItems text items) ∧
      (∀ items, ListsItems text items →
        SelectsItems field items
          (select field (.str Operator.oneOf.name) (.str text))) ∧
      ∀ operator inner, operator ≠ .oneOf →
        Pads Text.isBlank text.toList inner.toList →
          select field (.str operator.name) (.str text) =
            (readValue field.type inner).map fun value =>
              ⟨field.path, operator, value⟩ := by
  refine ⟨⟨_, listItems_eq_iff.1 rfl, ?_⟩, ?_, ?_⟩
  · intro items lists
    exact (listItems_eq_iff.2 lists).symm
  · intro items lists
    rw [← listItems_eq_iff.2 lists]
    exact selectsItems_listItems field text
  · intro operator inner single pads
    rw [select_of_ne_oneOf field text single, Text.trim_eq_iff.2 pads]

/-- Signs, grouped digits, digits of another script, and a blank part. -/
example :
    select ⟨"amount", some "integer", []⟩ (.str "In")
        (.str " +1_0, ,-2\t,\u2003\u0663") =
      .ok ⟨"amount", .oneOf, .list [.int 10, .int (-2), .int 3]⟩ := by
  decide +kernel

end ApiAtlas.Filter
