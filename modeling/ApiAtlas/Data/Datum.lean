import ApiAtlas.Data.Calendar
import ApiAtlas.Data.Named
import ApiAtlas.Number.Binary64

/-!
# Data of documents

A document is built from scalars, lists, sets and maps.  A map is a list of
entries in order of first insertion, and any scalar may be a key; the keys of
the maps of most documents are texts.

Two scalars are the same key when they are equal in value: the whole number
one, the number one with a fraction and the truth value `true` are one key.

A document may hold itself in one of its parts.  Such a value is unrolled as
far as it may matter, and the part that is left out is `endless`.
-/

namespace ApiAtlas

/-- A value without parts. -/
inductive Scalar where
  | null
  | bool (value : Bool)
  | int (value : Int)
  | float (value : Binary64)
  | str (text : String)
  | bytes (content : List UInt8)
  | date (day : CalendarDay)
  | moment (moment : Moment)
deriving DecidableEq, Repr, Inhabited

/-- A value of a document. -/
inductive Datum where
  | scalar (value : Scalar)
  | list (items : List Datum)
  | set (members : List Scalar)
  | map (entries : List (Scalar × Datum))
  /-- What is left out of a value that holds itself. -/
  | endless
deriving Repr, Inhabited

/-- The entries of a map, in order. -/
abbrev Entries := List (Scalar × Datum)

/-- A map whose keys are texts, in order. -/
abbrev Fields := Named Datum

namespace Scalar

/-- The number that a scalar counts as when keys are compared. -/
def number? : Scalar → Option (Sum Int Binary64)
  | .bool value => some (.inl (if value then 1 else 0))
  | .int value => some (.inl value)
  | .float value =>
    match value.toInt? with
    | some whole => some (.inl whole)
    | none => some (.inr value)
  | _ => none

/-- Whether two scalars are the same key. -/
def same (one other : Scalar) : Bool :=
  match one, other with
  | .str a, .str b => a == b
  | .null, .null => true
  | .bytes a, .bytes b => a == b
  | .date a, .date b => a == b
  | .moment a, .moment b => a.sameInstant b
  | a, b =>
    match a.number?, b.number? with
    | some (.inl m), some (.inl n) => m == n
    | some (.inr x), some (.inr y) => x.sameValue y
    | _, _ => false

/-- Whether a scalar counts as present: not null, zero, false or empty. -/
def isTruthy : Scalar → Bool
  | .null => false
  | .bool value => value
  | .int value => value != 0
  | .float value => !value.isZero
  | .str text => text != ""
  | .bytes content => !content.isEmpty
  | .date _ => true
  | .moment _ => true

end Scalar

namespace Entries

/-- The value under a key. -/
def get? (key : Scalar) (entries : Entries) : Option Datum :=
  (List.find? (fun entry => entry.1.same key) entries).map (·.2)

/-- Whether a key is present. -/
def has (key : Scalar) (entries : Entries) : Bool :=
  List.any entries fun entry => entry.1.same key

/--
The entries with a value put under a key: a key that is present keeps its
place and its first spelling, a new one comes last.
-/
def put (key : Scalar) (value : Datum) : Entries → Entries
  | [] => [(key, value)]
  | entry :: rest =>
    if entry.1.same key then (entry.1, value) :: rest
    else entry :: put key value rest

end Entries

namespace Fields

/-- The value under a name. -/
def get? (name : String) (fields : Fields) : Option Datum :=
  (List.find? (fun field => field.1 == name) fields).map (·.2)

/-- The entries whose keys are the names. -/
def toEntries (fields : Fields) : Entries :=
  fields.map fun field => (.str field.1, field.2)

end Fields

namespace Datum

@[match_pattern] abbrev null : Datum := .scalar .null
@[match_pattern] abbrev bool (value : Bool) : Datum := .scalar (.bool value)
@[match_pattern] abbrev int (value : Int) : Datum := .scalar (.int value)
@[match_pattern] abbrev float (value : Binary64) : Datum :=
  .scalar (.float value)
@[match_pattern] abbrev str (text : String) : Datum := .scalar (.str text)
@[match_pattern] abbrev bytes (content : List UInt8) : Datum :=
  .scalar (.bytes content)

/-- The map whose keys are texts. -/
def object (fields : Fields) : Datum := .map (Fields.toEntries fields)

/-- Whether a value counts as present: not null, zero, false or empty. -/
def isTruthy : Datum → Bool
  | .scalar value => value.isTruthy
  | .list items => !items.isEmpty
  | .set members => !members.isEmpty
  | .map entries => !entries.isEmpty
  | .endless => true

/-- The value of a map under a text key; other values have none. -/
def field? (name : String) : Datum → Option Datum
  | .map entries => Entries.get? (.str name) entries
  | _ => none

/-- Whether a value is exactly a given text. -/
def isText (text : String) : Datum → Bool
  | .str other => other == text
  | _ => false

/-- The text that a value is. -/
def text? : Datum → Option String
  | .str text => some text
  | _ => none

/-- The list that a value is. -/
def list? : Datum → Option (List Datum)
  | .list items => some items
  | _ => none

/-! ## Equality of values -/

mutual

/-- Decides whether two values are equal in every part. -/
def decEq : (one other : Datum) → Decidable (one = other)
  | .scalar a, .scalar b =>
    if h : a = b then isTrue (by rw [h]) else isFalse (by simp [h])
  | .list a, .list b =>
    match decEqList a b with
    | isTrue h => isTrue (by rw [h])
    | isFalse h => isFalse (by simp [h])
  | .set a, .set b =>
    if h : a = b then isTrue (by rw [h]) else isFalse (by simp [h])
  | .map a, .map b =>
    match decEqEntries a b with
    | isTrue h => isTrue (by rw [h])
    | isFalse h => isFalse (by simp [h])
  | .endless, .endless => isTrue rfl
  | .scalar _, .list _ | .scalar _, .set _ | .scalar _, .map _
  | .list _, .scalar _ | .list _, .set _ | .list _, .map _
  | .set _, .scalar _ | .set _, .list _ | .set _, .map _
  | .map _, .scalar _ | .map _, .list _ | .map _, .set _
  | .endless, .scalar _ | .endless, .list _ | .endless, .set _
  | .endless, .map _ | .scalar _, .endless | .list _, .endless
  | .set _, .endless | .map _, .endless =>
    isFalse (by simp)

/-- Decides whether two lists of values are equal. -/
def decEqList : (one other : List Datum) → Decidable (one = other)
  | [], [] => isTrue rfl
  | [], _ :: _ | _ :: _, [] => isFalse (by simp)
  | a :: as, b :: bs =>
    match decEq a b, decEqList as bs with
    | isTrue h, isTrue h' => isTrue (by rw [h, h'])
    | isFalse h, _ => isFalse (by simp [h])
    | _, isFalse h => isFalse (by simp [h])

/-- Decides whether two lists of entries are equal. -/
def decEqEntries : (one other : Entries) → Decidable (one = other)
  | [], [] => isTrue rfl
  | [], _ :: _ | _ :: _, [] => isFalse (by simp)
  | (j, a) :: as, (k, b) :: bs =>
    if h : j = k then
      match decEq a b, decEqEntries as bs with
      | isTrue h', isTrue h'' => isTrue (by rw [h, h', h''])
      | isFalse h', _ => isFalse (by simp [h'])
      | _, isFalse h' => isFalse (by simp [h'])
    else isFalse (by simp [h])

end

instance : DecidableEq Datum := decEq

/-! ## Sizes of parts -/

theorem sizeOf_lt_of_mem_list
    {items : List Datum} {item : Datum} (member : item ∈ items) :
    sizeOf item < sizeOf (Datum.list items) := by
  have := List.sizeOf_lt_of_mem member
  simp only [Datum.list.sizeOf_spec]
  omega

theorem sizeOf_lt_of_mem_map
    {entries : Entries} {entry : Scalar × Datum} (member : entry ∈ entries) :
    sizeOf entry.2 < sizeOf (Datum.map entries) := by
  have := List.sizeOf_lt_of_mem member
  obtain ⟨key, value⟩ := entry
  simp only [Datum.map.sizeOf_spec, Prod.mk.sizeOf_spec] at *
  omega

/-- The value under a name is smaller than the map that holds it. -/
theorem sizeOf_lt_of_field?
    {datum value : Datum} {name : String}
    (found : datum.field? name = some value) :
    sizeOf value < sizeOf datum := by
  cases datum with
  | map entries =>
    simp only [field?, Entries.get?, Option.map_eq_some_iff] at found
    obtain ⟨entry, present, rfl⟩ := found
    exact sizeOf_lt_of_mem_map (List.mem_of_find?_eq_some present)
  | scalar _ => simp [field?] at found
  | list _ => simp [field?] at found
  | set _ => simp [field?] at found
  | endless => simp [field?] at found

end Datum

end ApiAtlas
