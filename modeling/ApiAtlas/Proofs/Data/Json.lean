import ApiAtlas.Proofs.Data.Clear

/-!
# Values of JSON

A value of JSON is made from the scalars of JSON, lists, and maps all of whose
keys are texts.  Whether a value is one can be computed.

A member of such a map may be absent or empty where a map is expected; what is
asked of the map is then asked of nothing.
-/

namespace ApiAtlas

/-! ## Checks of all scalars and all maps -/

namespace Datum

mutual

/--
Whether all scalars and all maps of a value pass a check.  A set and what is
left out of a value pass none.
-/
def passes (ofScalar : Scalar → Bool) (ofMap : Entries → Bool) : Datum → Bool
  | .scalar value => ofScalar value
  | .list items => itemsPass ofScalar ofMap items
  | .map entries => ofMap entries && entriesPass ofScalar ofMap entries
  | .set _ | .endless => false

/-- Whether all items of a list pass. -/
def itemsPass (ofScalar : Scalar → Bool) (ofMap : Entries → Bool) :
    List Datum → Bool
  | [] => true
  | item :: rest =>
    passes ofScalar ofMap item && itemsPass ofScalar ofMap rest

/-- Whether the values of all entries pass. -/
def entriesPass (ofScalar : Scalar → Bool) (ofMap : Entries → Bool) :
    List (Scalar × Datum) → Bool
  | [] => true
  | (_, value) :: rest =>
    passes ofScalar ofMap value && entriesPass ofScalar ofMap rest

end

variable {ofScalar : Scalar → Bool} {ofMap : Entries → Bool}

mutual

/-- Where a value passes, every map in it does. -/
theorem eachMap_passes :
    ∀ {value : Datum}, value.passes ofScalar ofMap = true →
      value.EachMap fun entries =>
        (Datum.map entries).passes ofScalar ofMap = true
  | .scalar value, _ => .scalar value
  | .list _, pass => .list (eachMap_itemsPass pass)
  | .map _, pass => by
    refine .map pass (eachMap_entriesPass ?_)
    rw [passes, Bool.and_eq_true] at pass
    exact pass.2

theorem eachMap_itemsPass :
    ∀ {items : List Datum}, itemsPass ofScalar ofMap items = true →
      ∀ item ∈ items, item.EachMap fun entries =>
        (Datum.map entries).passes ofScalar ofMap = true
  | [], _ => List.forall_mem_nil _
  | _ :: _, pass => by
    rw [itemsPass, Bool.and_eq_true] at pass
    exact
      List.forall_mem_cons.2
        ⟨eachMap_passes pass.1, eachMap_itemsPass pass.2⟩

theorem eachMap_entriesPass :
    ∀ {entries : Entries}, entriesPass ofScalar ofMap entries = true →
      ∀ entry ∈ entries, entry.2.EachMap fun entries =>
        (Datum.map entries).passes ofScalar ofMap = true
  | [], _ => List.forall_mem_nil _
  | (_, _) :: _, pass => by
    rw [entriesPass, Bool.and_eq_true] at pass
    exact
      List.forall_mem_cons.2
        ⟨eachMap_passes pass.1, eachMap_entriesPass pass.2⟩

end

theorem EachMap.mono
    {holds also : Entries → Prop} {value : Datum}
    (eachMap : value.EachMap holds)
    (more : ∀ entries, holds entries → also entries) : value.EachMap also := by
  induction eachMap with
  | scalar value => exact .scalar value
  | list _ ih => exact .list ih
  | set members => exact .set members
  | map here _ ih => exact .map (more _ here) ih
  | endless => exact .endless

/-- What every map passes holds of every map. -/
theorem eachMap_of_passes
    {value : Datum} (pass : value.passes ofScalar ofMap = true) :
    value.EachMap fun entries => ofMap entries = true := by
  refine (eachMap_passes pass).mono ?_
  intro entries pass
  rw [passes, Bool.and_eq_true] at pass
  exact pass.1

theorem passes_of_mem_entries
    {entries : Entries} (pass : entriesPass ofScalar ofMap entries = true) :
    ∀ entry ∈ entries, entry.2.passes ofScalar ofMap = true := by
  induction entries with
  | nil => exact List.forall_mem_nil _
  | cons entry rest ih =>
    rw [entriesPass, Bool.and_eq_true] at pass
    exact List.forall_mem_cons.2 ⟨pass.1, ih pass.2⟩

/-- What stands under a key of a map that passes does. -/
theorem passes_of_get?
    {entries : Entries} {key : Scalar} {value : Datum}
    (pass : (Datum.map entries).passes ofScalar ofMap = true)
    (found : Entries.get? key entries = some value) :
    value.passes ofScalar ofMap = true := by
  rw [passes, Bool.and_eq_true] at pass
  rcases Entries.exists_mem_of_get? found with ⟨entry, member, rfl⟩
  exact passes_of_mem_entries pass.2 entry member

end Datum

/-! ## JSON -/

/-- Whether a scalar is one of JSON. -/
def Scalar.isJson : Scalar → Bool
  | .null | .bool _ | .int _ | .float _ | .str _ => true
  | .bytes _ | .date _ | .moment _ => false

/-- Whether a scalar is a text. -/
def Scalar.isText : Scalar → Bool
  | .str _ => true
  | _ => false

/-- Whether all keys of some entries are texts. -/
def Entries.keysAreTexts (entries : Entries) : Bool :=
  List.all entries fun entry => entry.1.isText

/-- Whether a value is one of JSON. -/
def Datum.isJson (value : Datum) : Bool :=
  value.passes Scalar.isJson Entries.keysAreTexts

/-- Entries all keys of which are texts. -/
def Entries.HasTextKeys (entries : Entries) : Prop :=
  ∀ key ∈ entries.map Prod.fst, ∃ text, key = .str text

theorem Scalar.eq_str_of_isText
    {scalar : Scalar} (isText : scalar.isText = true) :
    ∃ text, scalar = .str text := by
  cases scalar with
  | str text => exact ⟨text, rfl⟩
  | _ => cases isText

/-- The keys of all maps of a value of JSON are texts. -/
theorem Datum.eachMap_of_isJson
    {value : Datum} (json : value.isJson = true) :
    value.EachMap Entries.HasTextKeys := by
  refine (eachMap_of_passes json).mono ?_
  intro entries texts
  rw [Entries.keysAreTexts, List.all_eq_true] at texts
  rw [Entries.HasTextKeys, List.forall_mem_map]
  intro entry member
  exact Scalar.eq_str_of_isText (texts entry member)

/-- Whether a value is a map. -/
def Datum.isMap : Datum → Bool
  | .map _ => true
  | _ => false

theorem Datum.exists_of_isMap
    {value : Datum} (isMap : value.isMap = true) :
    ∃ entries, value = .map entries := by
  cases value with
  | map entries => exact ⟨entries, rfl⟩
  | _ => cases isMap

/-! ## Members that may be absent -/

/-- What stands under a name, null if nothing does. -/
def Entries.held (name : String) (entries : Entries) : Datum :=
  (Entries.get? (.str name) entries).getD .null

/-- A value that is a map with a property, if it counts as present. -/
def Datum.IsOptionalMap (holds : Entries → Prop) (value : Datum) : Prop :=
  value.isTruthy = true → ∃ entries, value = .map entries ∧ holds entries

theorem Entries.held_of_get?
    {name : String} {value : Datum} {entries : Entries}
    (found : get? (.str name) entries = some value) :
    held name entries = value := by
  rw [held, found, Option.getD_some]

theorem Datum.isOptionalMap_null (holds : Entries → Prop) :
    IsOptionalMap holds .null := by
  intro present
  cases present

/-- An absent map counts as the empty one. -/
theorem Datum.IsOptionalMap.orEmptyMap
    {holds : Entries → Prop} {value : Datum} (optional : value.IsOptionalMap holds)
    (empty : holds []) :
    ∃ entries, value.orEmptyMap = .map entries ∧ holds entries := by
  rw [Datum.orEmptyMap]
  split
  · next present => exact optional present
  · exact ⟨[], rfl, empty⟩

end ApiAtlas
