import ApiAtlas.Proofs.Schema.Synthesis
import Mathlib.Algebra.Field.Rat
import Mathlib.Data.Rat.Cast.Defs
import Mathlib.Order.WithBot

/-!
# Examples conform to their schema

An object that is no reference describes values of one kind: objects with
properties, arrays of items, texts, numbers, truth values, nothing, whatever
one of its branches describes, or anything at all.  A value conforms to a
schema if it is of the kind that the schema describes, in all its parts.

Every example of a schema that is put together from such objects conforms to
it, provided the stated ones do.  A text with choices is made up as the first
of them, so the first one has to be a text.
-/

namespace ApiAtlas

/-! ## Numbers in order -/

/-- The place of a number among all numbers, if it has one. -/
def Binary64.rank? : Binary64 → Option (WithBot (WithTop ℚ))
  | .finite negative significand exponent =>
    let value : ℚ := signed negative significand * 2 ^ exponent
    some (WithBot.some (WithTop.some value))
  | .infinite true => some ⊥
  | .infinite false => some ⊤
  | .notANumber => none

namespace Datum

/-- Whether a value is a number. -/
def IsNumber : Datum → Prop
  | .int _ | .float _ => True
  | _ => False

/-- Whether a value is a whole number. -/
def IsWhole : Datum → Prop
  | .int _ => True
  | .float value => value.toInt?.isSome = true
  | _ => False

theorem IsNumber.exists_eq {value : Datum} (number : value.IsNumber) :
    (∃ whole, value = .int whole) ∨ ∃ float, value = .float float := by
  cases value with
  | scalar scalar =>
    cases scalar with
    | int whole => exact Or.inl ⟨whole, rfl⟩
    | float float => exact Or.inr ⟨float, rfl⟩
    | _ => exact number.elim
  | _ => exact number.elim

theorem IsWhole.isNumber {value : Datum} (whole : value.IsWhole) :
    value.IsNumber := by
  cases value with
  | scalar scalar =>
    cases scalar with
    | int => trivial
    | float => trivial
    | _ => exact whole.elim
  | _ => exact whole.elim

/-- The place of the number that a value is, if it has one. -/
def rank? : Datum → Option (WithBot (WithTop ℚ))
  | .int value =>
    let value : ℚ := value
    some (WithBot.some (WithTop.some value))
  | .float value => value.rank?
  | _ => none

/-- Whether a number is less than another one. -/
def IsBelow (value bound : Datum) : Prop :=
  ∃ here ∈ value.rank?, ∃ there ∈ bound.rank?, here < there

theorem not_isBelow_self (value : Datum) : ¬ value.IsBelow value := by
  rintro ⟨here, isHere, there, isThere, less⟩
  cases Option.mem_unique isHere isThere
  exact lt_irrefl _ less

theorem isBelow_int_iff {value bound : Int} :
    (Datum.int value).IsBelow (.int bound) ↔ value < bound := by
  have order : (value : ℚ) < bound ↔ value < bound :=
    Rat.intCast_lt_intCast
  simp only [IsBelow, rank?, Option.mem_def, Option.some.injEq,
    exists_eq_left', WithBot.coe_lt_coe, WithTop.coe_lt_coe, order]

end Datum

/-- Whether a value stands under a key, however the key is spelled. -/
def Entries.Holds (entries : Entries) (key : Scalar) (value : Datum) : Prop :=
  ∃ entry ∈ entries,
    (entry.1 = key ∨ entry.1.same key = true) ∧ entry.2 = value

namespace Schema

/-! ## What objects describe -/

/-- What an object describes. -/
inductive Kind where
  | object (properties : Entries)
  | array (items : Option Datum)
  | text (choices : Option (List Datum))
  | number (least : Option Datum)
  | whole (least : Option Datum)
  | truth
  | nothing
  | anything
  /-- Whatever one of some branches describes. -/
  | either (branches : List Datum)

namespace Kind

/-- The schemas that a kind is put together from. -/
def parts : Kind → List Datum
  | .object properties => properties.map Prod.snd
  | .array items => items.toList
  | .either branches => branches
  | _ => []

/-- Whether the choices of a text, if they are stated, are not none at all. -/
def HasChoices : Kind → Prop
  | .text (some listed) => listed ≠ []
  | _ => True

/-- Whether the choices of a text, if they are stated, are texts. -/
def ListsTexts : Kind → Prop
  | .text (some listed) => ∀ choice ∈ listed, ∃ text, choice = .str text
  | _ => True

/-- Whether the choices of a text, if they are stated, begin with a text. -/
def BeginsWithText : Kind → Prop
  | .text (some listed) => ∃ text rest, listed = .str text :: rest
  | _ => True

end Kind

/-- The members that say what the parts of values are. -/
def structuralMembers : List String := "type" :: partMembers

/-- The members that say anything about values. -/
def constraintMembers : List String :=
  structuralMembers ++ ["enum", "minimum"]

/-- Whether an object states one type and has no branches. -/
structure IsTyped (entries : Entries) (type : String) : Prop where
  typed : Entries.get? (.str "type") entries = some (.str type)
  unbranched : ∀ member ∈ compositeMembers,
    Entries.get? (.str member) entries = none

/-- The kind of values that an object describes. -/
inductive Describes (entries : Entries) : Kind → Prop where
  | object {properties : Entries} (typed : IsTyped entries "object")
      (held :
        Entries.get? (.str "properties") entries = some (.map properties) ∨
          Entries.get? (.str "properties") entries = none ∧ properties = [])
      (apart :
        List.Pairwise (fun one other => ¬ one.1.same other.1 = true)
          properties) :
      Describes entries (.object properties)
  | array {items : Option Datum} (typed : IsTyped entries "array")
      (held : Entries.get? (.str "items") entries = items) :
      Describes entries (.array items)
  | text {choices : Option (List Datum)} (typed : IsTyped entries "string")
      (held :
        Entries.get? (.str "enum") entries = choices.map Datum.list) :
      Describes entries (.text choices)
  | number {least : Option Datum} (typed : IsTyped entries "number")
      (held : Entries.get? (.str "minimum") entries = least)
      (isNumber : ∀ bound ∈ least, bound.IsNumber) :
      Describes entries (.number least)
  | whole {least : Option Datum} (typed : IsTyped entries "integer")
      (held : Entries.get? (.str "minimum") entries = least)
      (isWhole : ∀ bound ∈ least, bound.IsWhole) :
      Describes entries (.whole least)
  | truth (typed : IsTyped entries "boolean") : Describes entries .truth
  | nothing (typed : IsTyped entries "null") : Describes entries .nothing
  | anything
      (unconstrained : ∀ member ∈ constraintMembers,
        Entries.get? (.str member) entries = none) :
      Describes entries .anything
  | either {member : String} {branches : List Datum}
      (chosen : member = "oneOf" ∨ member = "anyOf")
      (held : Entries.get? (.str member) entries = some (.list branches))
      (some : branches ≠ [])
      (alone : ∀ other ∈ structuralMembers, other ≠ member →
        Entries.get? (.str other) entries = none) :
      Describes entries (.either branches)

/-- Values of a kind, given which values its parts describe. -/
inductive Kind.Fits (conforms : Datum → Datum → Prop) :
    Kind → Datum → Prop where
  | object {properties members : Entries} (value : Scalar × Datum → Datum)
      (held : ∀ property ∈ properties,
        members.Holds property.1 (value property))
      (each : ∀ property ∈ properties,
        conforms property.2 (value property)) :
      Fits conforms (.object properties) (.map members)
  | array {items : Option Datum} {listed : List Datum}
      (each : ∀ inner ∈ items, ∀ item ∈ listed, conforms inner item) :
      Fits conforms (.array items) (.list listed)
  | text {choices : Option (List Datum)} {text : String}
      (chosen : ∀ listed ∈ choices, .str text ∈ listed) :
      Fits conforms (.text choices) (.str text)
  | number {least : Option Datum} {value : Datum} (isNumber : value.IsNumber)
      (bounded : ∀ bound ∈ least, ¬ value.IsBelow bound) :
      Fits conforms (.number least) value
  | whole {least : Option Datum} {value : Datum} (isWhole : value.IsWhole)
      (bounded : ∀ bound ∈ least, ¬ value.IsBelow bound) :
      Fits conforms (.whole least) value
  | truth (value : Bool) : Fits conforms .truth (.bool value)
  | nothing : Fits conforms .nothing .null
  | anything (value : Datum) : Fits conforms .anything value
  | either {branches : List Datum} {branch value : Datum}
      (chosen : branch ∈ branches) (fits : conforms branch value) :
      Fits conforms (.either branches) value

/-- A value that is of the kind that a schema describes, in all its parts. -/
inductive Conforms (definitions : Datum) : Datum → Datum → Prop where
  | intro {node value : Datum} {entries : Entries} {kind : Kind}
      (resolved : Resolves definitions node (.map entries))
      (described : Describes entries kind)
      (fits : kind.Fits (Conforms definitions) value) :
      Conforms definitions node value

/-- The values that an object states as examples. -/
def StatesExample (entries : Entries) (value : Datum) : Prop :=
  Entries.get? (.str "example") entries = some value ∨
    ∃ listed, Entries.get? (.str "examples") entries = some (.list listed) ∧
      value ∈ listed

/--
A schema that is put together from references and from objects which describe
kinds that are admitted, and whose stated examples are right.
-/
inductive Composed (definitions : Datum) (admitted : Kind → Prop) :
    Datum → Prop where
  | intro {node : Datum} {entries : Entries} {kind : Kind}
      (resolved : Resolves definitions node (.map entries))
      (described : Describes entries kind) (admits : admitted kind)
      (stated : ∀ value, StatesExample entries value →
        Conforms definitions (.map entries) value)
      (each : ∀ part ∈ kind.parts, Composed definitions admitted part) :
      Composed definitions admitted node

variable {definitions node value : Datum} {entries : Entries} {kind : Kind}
  {admitted : Kind → Prop}

/-! ## References -/

theorem Conforms.of_reference
    {target : Datum} {text : String}
    (isReference : reference? node = some (.str text))
    (found : resolve text definitions = .ok target)
    (conforms : Conforms definitions target value) :
    Conforms definitions node value := by
  cases conforms with
  | intro resolved described fits =>
    exact .intro (.follow isReference found resolved) described fits

/-- What a composed reference leads to is composed. -/
theorem Composed.of_reference
    {target : Datum} {text : String} (composed : Composed definitions admitted node)
    (isReference : reference? node = some (.str text))
    (found : resolve text definitions = .ok target) :
    Composed definitions admitted target := by
  cases composed with
  | intro resolved described admits stated each =>
    cases resolved with
    | value noReference => cases noReference.symm.trans isReference
    | follow alsoReference alsoFound rest =>
      cases isReference.symm.trans alsoReference
      cases found.symm.trans alsoFound
      exact .intro rest described admits stated each

theorem Composed.exists_entries (composed : Composed definitions admitted node) :
    ∃ inner, node = .map inner := by
  cases composed with
  | intro resolved =>
    cases resolved with
    | value => exact ⟨_, rfl⟩
    | follow isReference =>
      cases node with
      | map inner => exact ⟨inner, rfl⟩
      | _ => cases isReference

/-- The parts of a kind are entered by the walks over the object. -/
theorem Describes.parts_subset
    (described : Describes entries kind)
    (composed : ∀ part ∈ kind.parts, Composed definitions admitted part) :
    kind.parts ⊆ parts entries := by
  intro part isPart
  cases described with
  | object typed held =>
    rcases held with held | ⟨-, rfl⟩
    · exact mem_parts_of_property held isPart
    · cases isPart
  | array typed held =>
    rcases (composed part isPart).exists_entries with ⟨inner, rfl⟩
    rw [Option.mem_toList.1 isPart] at held
    exact mem_parts_of_items (describesArray_of_type typed.typed) held
  | @either member branches chosen held =>
    have isComposite : member ∈ compositeMembers := by
      rcases chosen with rfl | rfl
      · decide
      · decide
    exact mem_parts_of_branch isComposite held isPart
  | _ => cases isPart

/-! ## Examples that are made up -/

/-- A schema for which a walk gives examples, all of which conform to it. -/
def Succeeds (definitions : Datum) (walk : Datum → Except Fault (List Datum))
    (node : Datum) : Prop :=
  ∃ found, walk node = .ok found ∧ found ≠ [] ∧
    ∀ value ∈ found, Conforms definitions node value

variable {walk : Datum → Except Fault (List Datum)}

/-- The first of the examples is one that conforms. -/
theorem Succeeds.exists_first (succeeds : Succeeds definitions walk node) :
    ∃ first rest, walk node = .ok (first :: rest) ∧
      Conforms definitions node first := by
  rcases succeeds with ⟨found, given, some, conform⟩
  rcases List.exists_cons_of_ne_nil some with ⟨first, rest, rfl⟩
  exact ⟨first, rest, given, conform first List.mem_cons_self⟩

/-- The examples of branches conform to one of them each. -/
theorem exists_branchExamples
    {branches : List Datum}
    (each : ∀ branch ∈ branches, Succeeds definitions walk branch) :
    ∃ found, branchExamples walk branches = .ok found ∧
      (found = [] → branches = []) ∧
      ∀ value ∈ found, ∃ branch ∈ branches,
        Conforms definitions branch value := by
  induction branches with
  | nil => exact ⟨[], rfl, fun _ => rfl, List.forall_mem_nil _⟩
  | cons branch rest ih =>
    rw [List.forall_mem_cons] at each
    rcases each.1 with ⟨found, given, some, conform⟩
    rcases ih each.2 with ⟨others, behind, -, othersConform⟩
    refine ⟨found ++ others, ?_, ?_, ?_⟩
    · rw [branchExamples, given, behind]
      rfl
    · intro none
      exact (some (List.append_eq_nil_iff.1 none).1).elim
    · rw [List.forall_mem_append]
      constructor
      · intro value member
        exact ⟨branch, List.mem_cons_self, conform value member⟩
      · intro value member
        rcases othersConform value member with ⟨other, isBranch, conforms⟩
        exact ⟨other, List.mem_cons_of_mem _ isBranch, conforms⟩

theorem compositeExamples_of_unbranched
    {members : List String}
    (unbranched : ∀ member ∈ members,
      Entries.get? (.str member) entries = none) :
    compositeExamples walk entries members = .ok [] := by
  induction members with
  | nil => rfl
  | cons member rest ih =>
    rw [List.forall_mem_cons] at unbranched
    rw [compositeExamples, unbranched.1]
    exact ih unbranched.2

/-- The branches under the only composite member give the examples. -/
theorem compositeExamples_of_alone
    {members : List String} {chosen : String} {branches found : List Datum}
    (isMember : chosen ∈ members)
    (held : Entries.get? (.str chosen) entries = some (.list branches))
    (alone : ∀ other ∈ members, other ≠ chosen →
      Entries.get? (.str other) entries = none)
    (given : branchExamples walk branches = .ok found) (some : found ≠ []) :
    compositeExamples walk entries members = .ok found := by
  induction members with
  | nil => cases isMember
  | cons member rest ih =>
    rw [List.forall_mem_cons] at alone
    rw [compositeExamples]
    by_cases here : member = chosen
    · subst here
      rw [held]
      simp only [given, bind, Except.bind]
      rw [if_neg fun none => some (List.isEmpty_iff.1 none)]
      rfl
    · rw [alone.1 here]
      exact
        ih (List.mem_of_ne_of_mem (Ne.symm here) isMember) alone.2

/-- The object that is made up holds a value for every property. -/
theorem exists_exampleObject
    {properties object : Entries}
    (apart :
      List.Pairwise (fun one other => ¬ one.1.same other.1 = true)
        (object ++ properties))
    (each : ∀ property ∈ properties, Succeeds definitions walk property.2) :
    ∃ made, exampleObject walk object properties = .ok made ∧
      object ⊆ made ∧
      ∀ property ∈ properties, ∃ value, (property.1, value) ∈ made ∧
        Conforms definitions property.2 value := by
  induction properties generalizing object with
  | nil =>
    exact ⟨object, rfl, List.Subset.refl _, List.forall_mem_nil _⟩
  | cons property rest ih =>
    rw [List.forall_mem_cons] at each
    rcases each.1.exists_first with ⟨first, others, given, conforms⟩
    have new : ∀ entry ∈ object, ¬ entry.1.same property.1 = true := by
      intro entry member
      exact
        (List.pairwise_append.1 apart).2.2 entry member property
          List.mem_cons_self
    have next :
        List.Pairwise (fun one other => ¬ one.1.same other.1 = true)
          (Entries.put property.1 first object ++ rest) := by
      rw [Entries.put_of_new new, List.append_assoc, List.singleton_append]
      rw [List.pairwise_append, List.pairwise_cons] at apart ⊢
      refine ⟨apart.1, apart.2.1, fun entry isEntry => ?_⟩
      rw [List.forall_mem_cons]
      exact List.forall_mem_cons.1 (apart.2.2 entry isEntry)
    rcases ih next each.2 with ⟨made, outcome, kept, holds⟩
    have kept := Entries.put_of_new new first ▸ kept
    refine ⟨made, ?_, ?_, ?_⟩
    · rw [exampleObject, given]
      exact outcome
    · exact fun entry member => kept (List.mem_append_left _ member)
    · rw [List.forall_mem_cons]
      refine ⟨⟨first, ?_, conforms⟩, holds⟩
      exact kept (List.mem_append_right _ (List.mem_singleton_self _))

/-! ## Values that are made up for types -/

theorem IsTyped.get?_ne
    {type other : String} (typed : IsTyped entries type)
    (different : type ≠ other) :
    Entries.get? (.str "type") entries ≠ some (.str other) := by
  rw [typed.typed]
  intro same
  cases same
  exact different rfl

theorem exists_objectExample
    {properties : Entries} (typed : IsTyped entries "object")
    (held :
      Entries.get? (.str "properties") entries = some (.map properties) ∨
        Entries.get? (.str "properties") entries = none ∧ properties = [])
    (apart :
      List.Pairwise (fun one other => ¬ one.1.same other.1 = true) properties)
    (each : ∀ property ∈ properties, Succeeds definitions walk property.2) :
    ∃ value, typeExamples walk entries = .ok [value] ∧
      (Kind.object properties).Fits (Conforms definitions) value := by
  have start :
      List.Pairwise (fun one other => ¬ one.1.same other.1 = true)
        ([] ++ properties) :=
    apart
  rcases exists_exampleObject start each with ⟨made, outcome, -, holds⟩
  choose! value present conforms using holds
  refine ⟨.map made, ?_, .object value ?_ conforms⟩
  · rcases held with held | ⟨absent, rfl⟩
    · rw [typeExamples_of_properties typed.typed held, outcome]
      rfl
    · cases outcome
      exact typeExamples_of_no_properties typed.typed absent
  · intro property isProperty
    exact ⟨_, present property isProperty, Or.inl rfl, rfl⟩

theorem exists_arrayExample
    {items : Option Datum} (typed : IsTyped entries "array")
    (held : Entries.get? (.str "items") entries = items)
    (each : ∀ inner ∈ items, Succeeds definitions walk inner) :
    ∃ value, typeExamples walk entries = .ok [value] ∧
      (Kind.array items).Fits (Conforms definitions) value := by
  cases items with
  | none =>
    exact
      ⟨.list [], typeExamples_of_no_items typed.typed held,
        .array fun _ _ => List.forall_mem_nil _⟩
  | some inner =>
    rw [typeExamples_of_items typed.typed held]
    cases present : inner.isTruthy with
    | false => exact ⟨.list [], rfl, .array fun _ _ => List.forall_mem_nil _⟩
    | true =>
      rcases (each inner rfl).exists_first with
        ⟨first, rest, given, conforms⟩
      rw [if_pos rfl, given]
      refine ⟨.list [first], rfl, .array ?_⟩
      rintro _ ⟨⟩
      exact List.forall_mem_singleton.2 conforms

theorem exists_textExample
    {choices : Option (List Datum)} (typed : IsTyped entries "string")
    (held : Entries.get? (.str "enum") entries = choices.map Datum.list)
    (begins : (Kind.text choices).BeginsWithText) :
    ∃ value, fallbackValue entries = .ok value ∧
      (Kind.text choices).Fits (Conforms definitions) value := by
  rw [fallbackValue, typed.typed, held]
  cases choices with
  | none => exact ⟨.str "", rfl, .text fun _ none => by cases none⟩
  | some listed =>
    rcases begins with ⟨text, rest, rfl⟩
    refine ⟨.str text, rfl, .text ?_⟩
    rintro _ ⟨⟩
    exact List.mem_cons_self

/-- The number that is made up is the least one, or zero. -/
theorem fallbackValue_of_number
    {least : Option Datum}
    (typed : IsTyped entries "number" ∨ IsTyped entries "integer")
    (held : Entries.get? (.str "minimum") entries = least)
    (isNumber : ∀ bound ∈ least, bound.IsNumber) :
    fallbackValue entries = .ok (least.getD (.int 0)) := by
  rcases typed with typed | typed
  all_goals
    rw [fallbackValue, typed.typed, held]
    cases least with
    | none => rfl
    | some bound =>
      rcases (isNumber bound rfl).exists_eq with ⟨_, rfl⟩ | ⟨_, rfl⟩
      · rfl
      · rfl

/-- The least number is not below itself. -/
theorem not_isBelow_getD (least : Option Datum) (fallback : Datum) :
    ∀ bound ∈ least, ¬ (least.getD fallback).IsBelow bound := by
  rintro bound ⟨⟩
  exact bound.not_isBelow_self

theorem of_getD_int
    {holds : Datum → Prop} {least : Option Datum} (ofZero : holds (.int 0))
    (ofLeast : ∀ bound ∈ least, holds bound) :
    holds (least.getD (.int 0)) := by
  cases least with
  | none => exact ofZero
  | some bound => exact ofLeast bound rfl

/-- The value that is made up for an object without branches is of its kind. -/
theorem exists_typeExamples
    (described : Describes entries kind) (begins : kind.BeginsWithText)
    (noBranches : ∀ branches, kind ≠ .either branches)
    (each : ∀ part ∈ kind.parts, Succeeds definitions walk part) :
    ∃ value, typeExamples walk entries = .ok [value] ∧
      kind.Fits (Conforms definitions) value := by
  have fallback
      (noObject :
        Entries.get? (.str "type") entries ≠ some (.str "object"))
      (noArray : Entries.get? (.str "type") entries ≠ some (.str "array"))
      (made : ∃ value, fallbackValue entries = .ok value ∧
        kind.Fits (Conforms definitions) value) :
      ∃ value, typeExamples walk entries = .ok [value] ∧
        kind.Fits (Conforms definitions) value := by
    rcases made with ⟨value, outcome, fits⟩
    refine ⟨value, ?_, fits⟩
    rw [typeExamples_of_fallback noObject noArray, outcome]
    rfl
  have ofType {type : String} (typed : IsTyped entries type)
      (noObject : type ≠ "object") (noArray : type ≠ "array") :=
    fallback (typed.get?_ne noObject) (typed.get?_ne noArray)
  cases described with
  | object typed held apart =>
    exact exists_objectExample typed held apart (List.forall_mem_map.1 each)
  | array typed held =>
    exact
      exists_arrayExample typed held fun inner isItems =>
        each inner (Option.mem_toList.2 isItems)
  | text typed held =>
    exact
      ofType typed (by decide) (by decide)
        (exists_textExample typed held begins)
  | @number least typed held isNumber =>
    exact
      ofType typed (by decide) (by decide)
        ⟨_, fallbackValue_of_number (Or.inl typed) held isNumber,
          .number (of_getD_int trivial isNumber) (not_isBelow_getD least _)⟩
  | @whole least typed held isWhole =>
    exact
      ofType typed (by decide) (by decide)
        ⟨_,
          fallbackValue_of_number (Or.inr typed) held fun bound isLeast =>
            (isWhole bound isLeast).isNumber,
          .whole (of_getD_int trivial isWhole) (not_isBelow_getD least _)⟩
  | truth typed =>
    refine ofType typed (by decide) (by decide) ⟨.bool false, ?_, .truth _⟩
    rw [fallbackValue, typed.typed]
    rfl
  | nothing typed =>
    refine ofType typed (by decide) (by decide) ⟨.null, ?_, .nothing⟩
    rw [fallbackValue, typed.typed]
    rfl
  | anything unconstrained =>
    have untyped : Entries.get? (.str "type") entries = none :=
      unconstrained "type" (by decide)
    refine
      fallback (by simp [untyped]) (by simp [untyped])
        ⟨.null, ?_, .anything _⟩
    rw [fallbackValue, untyped]
  | either => exact (noBranches _ rfl).elim

/-! ## Whole schemas -/

theorem statesExample_of_mem
    {stated : List Datum} (states : statedExamples? entries = some stated)
    (member : value ∈ stated) : StatesExample entries value := by
  rw [statedExamples?] at states
  split at states
  · next found =>
    cases states
    exact Or.inl (List.mem_singleton.1 member ▸ found)
  · split at states
    · next found =>
      cases states
      exact Or.inr ⟨_, found, member⟩
    · cases states

/-- An object whose only constraint is not one of its branches has none. -/
theorem Describes.unbranched
    (described : Describes entries kind)
    (noBranches : ∀ branches, kind ≠ .either branches) :
    ∀ member ∈ compositeMembers,
      Entries.get? (.str member) entries = none := by
  cases described with
  | object typed => exact typed.unbranched
  | array typed => exact typed.unbranched
  | text typed => exact typed.unbranched
  | number typed => exact typed.unbranched
  | whole typed => exact typed.unbranched
  | truth typed => exact typed.unbranched
  | nothing typed => exact typed.unbranched
  | anything unconstrained =>
    intro member isComposite
    have isStructural : member ∈ structuralMembers :=
      List.mem_cons_of_mem _ (List.mem_append_left _ isComposite)
    exact unconstrained member (List.mem_append_left _ isStructural)
  | either => exact (noBranches _ rfl).elim

/-- The examples that are made up for an object are of the kind it describes. -/
theorem exists_madeExamples
    (described : Describes entries kind) (begins : kind.BeginsWithText)
    (each : ∀ part ∈ kind.parts, Succeeds definitions walk part) :
    ∃ found,
      (compositeExamples walk entries compositeMembers >>= fun found =>
          if found.isEmpty then typeExamples walk entries else pure found) =
        .ok found ∧
      found ≠ [] ∧
      ∀ value ∈ found, kind.Fits (Conforms definitions) value := by
  by_cases noBranches : ∀ branches, kind ≠ .either branches
  · rcases exists_typeExamples described begins noBranches each with
      ⟨value, made, fits⟩
    refine ⟨[value], ?_, List.cons_ne_nil _ _, ?_⟩
    · rw [compositeExamples_of_unbranched (described.unbranched noBranches)]
      exact made
    · exact List.forall_mem_singleton.2 fits
  · simp only [not_forall, not_not] at noBranches
    rcases noBranches with ⟨branches, rfl⟩
    rcases exists_branchExamples each with ⟨found, given, empty, conform⟩
    cases described with
    | @either member _ chosen held some alone =>
      have notEmpty : found ≠ [] := fun none => some (empty none)
      have isComposite : member ∈ compositeMembers := by
        rcases chosen with rfl | rfl
        · decide
        · decide
      have onlyOne : ∀ other ∈ compositeMembers, other ≠ member →
          Entries.get? (.str other) entries = none := by
        intro other isOther
        exact
          alone other (List.mem_cons_of_mem _ (List.mem_append_left _ isOther))
      refine ⟨found, ?_, notEmpty, ?_⟩
      · rw [compositeExamples_of_alone isComposite held onlyOne given notEmpty]
        simp only [bind, Except.bind]
        rw [if_neg fun none => notEmpty (List.isEmpty_iff.1 none)]
        rfl
      · intro value isFound
        rcases conform value isFound with ⟨branch, isBranch, conforms⟩
        exact .either isBranch conforms

section Walks

variable {result : Datum} {limit : Int} {budget : Nat} {chain : List String}

/-- One step of the walk at an object whose parts it succeeds for. -/
theorem succeeds_of_parts
    (noReference : reference? (.map entries) = none)
    (described : Describes entries kind) (begins : kind.BeginsWithText)
    (stated : ∀ value, StatesExample entries value →
      Conforms definitions (.map entries) value)
    (each : ∀ part ∈ kind.parts,
      Succeeds definitions (examplesWithin definitions limit budget chain)
        part) :
    Succeeds definitions (examplesWithin definitions limit (budget + 1) chain)
      (.map entries) := by
  cases states : statedExamples? entries with
  | some listed =>
    refine
      ⟨listed, examplesWithin_of_stated noReference states,
        statedExamples?_ne_nil states, ?_⟩
    intro value member
    exact stated value (statesExample_of_mem states member)
  | none =>
    rcases exists_madeExamples described begins each with
      ⟨found, made, some, fit⟩
    refine
      ⟨found, (examplesWithin_of_unstated noReference states).trans made, some,
        ?_⟩
    intro value member
    exact .intro (.value noReference) described (fit value member)

/-- Where inlining succeeds so does the walk that makes up examples. -/
theorem succeeds_of_inlineWithin
    (success : inlineWithin definitions limit budget chain node = .ok result)
    (composed : Composed definitions Kind.BeginsWithText node) :
    Succeeds definitions (examplesWithin definitions limit budget chain)
      node := by
  induction success using inlineWithin_induction with
  | follow isReference followed found _ _ ih =>
    rcases ih (composed.of_reference isReference found) with
      ⟨values, given, some, conform⟩
    refine ⟨values, ?_, some, ?_⟩
    · rw [examplesWithin_of_reference isReference, followed]
      exact given
    · intro value member
      exact (conform value member).of_reference isReference found
  | object noReference _ replaced =>
    cases composed with
    | intro resolved described begins stated each =>
      cases resolved with
      | follow refers => cases noReference.symm.trans refers
      | value =>
        apply succeeds_of_parts noReference described begins stated
        intro part isPart
        rcases replaced.exists_of_part (described.parts_subset each isPart)
          with ⟨_, _, ih⟩
        exact ih (each part isPart)
  | value noObject =>
    cases composed with
    | intro resolved =>
      cases resolved with
      | follow refers =>
        cases (reference?_eq_none_of_no_map noObject).symm.trans refers
      | value => exact (noObject _ rfl).elim

end Walks

/--
A schema that is inlined has examples, all of which conform to it, if it is
composed of references and of objects that describe kinds of values, and if
the choices of its texts begin with texts.
-/
theorem examples_conform
    {result : Datum}
    (success : inline node definitions depthLimit = .ok result)
    (composed : Composed definitions Kind.BeginsWithText node) :
    ∃ found, examples node definitions = .ok found ∧ found ≠ [] ∧
      ∀ value ∈ found, Conforms definitions node value :=
  succeeds_of_inlineWithin success composed

/-! ## Entries of a ledger -/

/-- An amount of at least three that states an example. -/
def amount : Entries :=
  Fields.toEntries
    [("type", .str "number"), ("minimum", .int 3), ("example", .int 4)]

/-- A state that is one of two texts. -/
def state : Entries :=
  Fields.toEntries
    [("type", .str "string"), ("enum", .list [.str "new", .str "old"])]

/-- An entry, which has an amount and a state. -/
def ledgerEntry : Entries :=
  Fields.toEntries
    [("type", .str "object"),
      ("properties",
        .object [("amount", .map amount), ("state", .map state)])]

/-- The definition of an entry. -/
def ledger : Entries := Fields.toEntries [("Entry", .map ledgerEntry)]

/-- Entries, or nothing. -/
def entriesOrNothing : Datum :=
  .object
    [("anyOf",
      .list
        [.map (listOf "Entry"), .object [("type", .str "null")]])]

theorem describes_amount : Describes amount (.number (some (.int 3))) := by
  refine .number ⟨rfl, by decide⟩ rfl ?_
  rintro _ ⟨⟩
  trivial

theorem conforms_amount :
    Conforms (.map ledger) (.map amount) (.int 4) := by
  refine .intro (.value rfl) describes_amount (.number trivial ?_)
  rintro _ ⟨⟩ below
  exact absurd (Datum.isBelow_int_iff.1 below) (by decide)

theorem composed_entriesOrNothing :
    Composed (.map ledger) Kind.BeginsWithText entriesOrNothing := by
  have statesNone {entries : Entries}
      (noExample : Entries.get? (.str "example") entries = none)
      (noExamples : Entries.get? (.str "examples") entries = none)
      (value : Datum) (states : StatesExample entries value) :
      Conforms (.map ledger) (.map entries) value := by
    rcases states with found | ⟨listed, found, -⟩
    · cases noExample.symm.trans found
    · cases noExamples.symm.trans found
  have ofAmount : Composed (.map ledger) Kind.BeginsWithText (.map amount) := by
    refine
      .intro (.value rfl) describes_amount trivial ?_ (List.forall_mem_nil _)
    rintro value (found | ⟨listed, found, -⟩)
    · cases found
      exact conforms_amount
    · cases found
  have ofState : Composed (.map ledger) Kind.BeginsWithText (.map state) := by
    have described :
        Describes state (.text (some [.str "new", .str "old"])) :=
      .text ⟨rfl, by decide⟩ rfl
    exact
      .intro (.value rfl) described ⟨_, _, rfl⟩ (statesNone rfl rfl)
        (List.forall_mem_nil _)
  have ofEntry :
      Composed (.map ledger) Kind.BeginsWithText (referring "Entry") := by
    have resolved :
        Resolves (.map ledger) (referring "Entry") (.map ledgerEntry) :=
      .follow rfl (by decide +kernel) (.value rfl)
    refine
      .intro resolved
        (.object ⟨rfl, by decide⟩ (Or.inl rfl)
          (Fields.apart_toEntries (by decide)))
        trivial (statesNone rfl rfl) ?_
    exact
      List.forall_mem_cons.2 ⟨ofAmount, List.forall_mem_singleton.2 ofState⟩
  have ofList :
      Composed (.map ledger) Kind.BeginsWithText (.map (listOf "Entry")) :=
    .intro (.value rfl) (.array ⟨rfl, by decide⟩ rfl) trivial
      (statesNone rfl rfl) (List.forall_mem_singleton.2 ofEntry)
  have ofNothing :
      Composed (.map ledger) Kind.BeginsWithText
        (.object [("type", .str "null")]) :=
    .intro (.value rfl) (.nothing ⟨rfl, by decide⟩) trivial
      (statesNone rfl rfl) (List.forall_mem_nil _)
  refine
    .intro (.value rfl)
      (.either (Or.inr rfl) rfl (List.cons_ne_nil _ _) (by decide)) trivial
      (statesNone rfl rfl) ?_
  exact
    List.forall_mem_cons.2 ⟨ofList, List.forall_mem_singleton.2 ofNothing⟩

/-- An entry with a stated amount and the first of its states, and nothing. -/
theorem examples_conform_ledger :
    examples entriesOrNothing (.map ledger) =
        .ok
          [.list [.object [("amount", .int 4), ("state", .str "new")]],
            .null] ∧
      Conforms (.map ledger) entriesOrNothing
        (.list [.object [("amount", .int 4), ("state", .str "new")]]) := by
  have given :
      examples entriesOrNothing (.map ledger) =
        .ok
          [.list [.object [("amount", .int 4), ("state", .str "new")]],
            .null] := by
    decide +kernel
  have success :
      ∃ result,
        inline entriesOrNothing (.map ledger) depthLimit = .ok result :=
    ⟨_, by rfl⟩
  rcases success with ⟨result, success⟩
  rcases examples_conform success composed_entriesOrNothing with
    ⟨found, same, -, conform⟩
  cases given.symm.trans same
  exact ⟨given, conform _ List.mem_cons_self⟩

/-! ## Choices that do not begin with a text -/

/-- A text that is one of some choices. -/
def choosing (choices : List Datum) : Entries :=
  Fields.toEntries [("type", .str "string"), ("enum", .list choices)]

theorem composed_choosing
    {choices : List Datum} (admits : admitted (.text (some choices))) :
    Composed definitions admitted (.map (choosing choices)) := by
  have unbranched : ∀ member ∈ compositeMembers,
      Entries.get? (.str member) (choosing choices) = none := by
    rw [compositeMembers]
    simp only [List.forall_mem_cons]
    exact ⟨rfl, rfl, rfl, List.forall_mem_nil _⟩
  have described : Describes (choosing choices) (.text (some choices)) :=
    .text ⟨rfl, unbranched⟩ rfl
  refine .intro (.value rfl) described admits ?_ (List.forall_mem_nil _)
  rintro value (found | ⟨listed, found, -⟩)
  · cases found
  · cases found

/-- What conforms to a choice is a text and one of the choices. -/
theorem exists_text_of_conforms
    {choices : List Datum}
    (conforms : Conforms definitions (.map (choosing choices)) value) :
    ∃ text, value = .str text ∧ .str text ∈ choices := by
  have isText :
      Entries.get? (.str "type") (choosing choices) =
        some (.str "string") :=
    rfl
  rcases conforms with ⟨resolved, described, fits⟩
  have itself :
      Resolves definitions (.map (choosing choices))
        (.map (choosing choices)) :=
    .value rfl
  cases resolved.unique itself
  cases described with
  | object typed => exact (typed.get?_ne (by decide) isText).elim
  | array typed => exact (typed.get?_ne (by decide) isText).elim
  | text typed held =>
    rename_i stated
    cases stated with
    | none => cases held
    | some listed =>
      cases held
      cases fits with
      | text chosen => exact ⟨_, rfl, chosen _ rfl⟩
  | number typed => exact (typed.get?_ne (by decide) isText).elim
  | whole typed => exact (typed.get?_ne (by decide) isText).elim
  | truth typed => exact (typed.get?_ne (by decide) isText).elim
  | nothing typed => exact (typed.get?_ne (by decide) isText).elim
  | anything unconstrained => cases unconstrained "type" (by decide)
  | either chosen held =>
    rcases chosen with rfl | rfl
    · cases held
    · cases held

/--
The first choice is the example even if it is no text, and where there is no
choice an empty text is.
-/
theorem not_forall_examples_conform :
    (¬ ∀ node definitions result : Datum,
        inline node definitions depthLimit = .ok result →
          Composed definitions Kind.HasChoices node →
            ∃ found, examples node definitions = .ok found ∧ found ≠ [] ∧
              ∀ value ∈ found, Conforms definitions node value) ∧
      ¬ ∀ node definitions result : Datum,
        inline node definitions depthLimit = .ok result →
          Composed definitions Kind.ListsTexts node →
            ∃ found, examples node definitions = .ok found ∧ found ≠ [] ∧
              ∀ value ∈ found, Conforms definitions node value := by
  constructor
  · intro conform
    have success :
        inline (.map (choosing [.int 1, .str "a"])) (.map []) depthLimit =
          .ok (.map (choosing [.int 1, .str "a"])) := by
      decide +kernel
    have given :
        examples (.map (choosing [.int 1, .str "a"])) (.map []) =
          .ok [.int 1] := by
      decide +kernel
    have composed :
        Composed (.map []) Kind.HasChoices
          (.map (choosing [.int 1, .str "a"])) :=
      composed_choosing (List.cons_ne_nil _ _)
    rcases conform _ _ _ success composed with ⟨found, same, -, all⟩
    cases given.symm.trans same
    rcases exists_text_of_conforms (all _ List.mem_cons_self) with
      ⟨text, isText, -⟩
    cases isText
  · intro conform
    have success :
        inline (.map (choosing [])) (.map []) depthLimit =
          .ok (.map (choosing [])) := by
      decide +kernel
    have given :
        examples (.map (choosing [])) (.map []) = .ok [.str ""] := by
      decide +kernel
    have composed :
        Composed (.map []) Kind.ListsTexts (.map (choosing [])) :=
      composed_choosing (List.forall_mem_nil _)
    rcases conform _ _ _ success composed with ⟨found, same, -, all⟩
    cases given.symm.trans same
    rcases exists_text_of_conforms (all _ List.mem_cons_self) with
      ⟨text, -, none⟩
    cases none

end Schema

end ApiAtlas
