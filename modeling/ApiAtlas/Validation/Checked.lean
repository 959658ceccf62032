import ApiAtlas.Data.Datum
import ApiAtlas.Text.Encoding
import ApiAtlas.Validation.Issue

/-!
# Checking values against models

A check either gives a value or the list of all issues.  Checks of several
parts are joined by `Checked.both`, which keeps the issues of both sides in
order.  The readers below are lenient in two respects: a text may also be given
by its bytes, and a truth value by the numbers zero and one or by one of a few
words.
-/

namespace ApiAtlas

/-- A value, or everything that is wrong with it. -/
abbrev Checked (α : Type) := Except (List Issue) α

namespace Checked

/-- A single issue at the place that is checked. -/
def issue {α : Type} (kind : IssueKind) : Checked α := .error [⟨kind, []⟩]

/-- Two checks joined; the issues of both are kept. -/
def both {α β : Type} : Checked α → Checked β → Checked (α × β)
  | .ok a, .ok b => .ok (a, b)
  | .ok _, .error issues => .error issues
  | .error issues, .ok _ => .error issues
  | .error issues, .error others => .error (issues ++ others)

/-- The issues of a check placed inside a part. -/
def inside {α : Type} (step : PathStep) (check : Checked α) : Checked α :=
  check.mapError fun issues => issues.map (Issue.inside step)

/-! ## Readers -/

/-- Reads the text that bytes stand for. -/
def readBytes (content : List UInt8) : Checked String :=
  match Text.Encoding.utf8.decodeAll content with
  | .ok characters => .ok (String.ofList characters)
  | .error _ => issue .undecodableText

/-- Reads a text. -/
def readText : Datum → Checked String
  | .str text => .ok text
  | .bytes content => readBytes content
  | _ => issue .notText

/-- Reads a text or nothing. -/
def readOptionalText : Datum → Checked (Option String)
  | .null => .ok none
  | value => (readText value).map some

/-- The words for true. -/
def trueWords : List String := ["1", "t", "true", "y", "yes", "on"]

/-- The words for false. -/
def falseWords : List String := ["0", "f", "false", "n", "no", "off"]

/-- A text with its basic letters small. -/
def smallBasicLetters (text : String) : String :=
  String.ofList (text.toList.map Char.toLower)

/-- The truth value that a whole number stands for. -/
def truthOfWhole (number : Int) : Checked Bool :=
  if number = 0 then .ok false
  else if number = 1 then .ok true
  else issue .unreadableTruthValue

/-- Reads a truth value. -/
def readTruth : Datum → Checked Bool
  | .bool value => .ok value
  | .str text =>
    let word := smallBasicLetters text
    if word ∈ trueWords then .ok true
    else if word ∈ falseWords then .ok false
    else issue .unreadableTruthValue
  | .int number => truthOfWhole number
  | .float number =>
    match number.toInt? with
    | some whole => truthOfWhole whole
    | none => issue .notTruthValue
  | _ => issue .notTruthValue

/-- Reads the items of a list from some position on. -/
def readItemsFrom {α : Type} (read : Datum → Checked α) (position : Int) :
    List Datum → Checked (List α)
  | [] => .ok []
  | item :: rest =>
    (both ((read item).inside (.index position))
      (readItemsFrom read (position + 1) rest)).map fun pair =>
        pair.1 :: pair.2

/-- Reads a list. -/
def readList {α : Type} (read : Datum → Checked α) :
    Datum → Checked (List α)
  | .list items => readItemsFrom read 0 items
  | .set members => readItemsFrom read 0 (members.map .scalar)
  | _ => issue .notList

/-- Reads any value. -/
def readAny (value : Datum) : Checked Datum := .ok value

/-- Whether a whole number is short enough to be a position. -/
def isPosition (value : Int) : Bool :=
  -Int.pow 2 63 ≤ value && value < Int.pow 2 63

/-- The step to the value under a key. -/
def keyStep (shown : Scalar → String) : Scalar → PathStep
  | .str text => .name text
  | .int value =>
    if isPosition value then .index value else .name (shown (.int value))
  | .bool value => .index (if value then 1 else 0)
  | key => .name (shown key)

/-- Reads a key, which has to be a text. -/
def readKey (shown : Scalar → String) (key : Scalar) : Checked String :=
  ((readText (.scalar key)).inside (.name "[key]")).inside
    (keyStep shown key)

/-- Reads the entries of a map whose keys are texts. -/
def readEntries {α : Type} (shown : Scalar → String)
    (read : Datum → Checked α) : Entries → Checked (Named α)
  | [] => .ok []
  | (key, value) :: rest =>
    let entry :=
      both (readKey shown key) ((read value).inside (keyStep shown key))
    (both entry (readEntries shown read rest)).map fun pair =>
      pair.1 :: pair.2

/-- Reads a map whose keys are texts; two keys may give the same text. -/
def readMapping {α : Type} (shown : Scalar → String)
    (read : Datum → Checked α) : Datum → Checked (Named α)
  | .map entries => (readEntries shown read entries).map (Named.putAll [])
  | _ => issue .notMapping

/-- Reads a value or nothing. -/
def readOptional {α : Type} (read : Datum → Checked α) :
    Datum → Checked (Option α)
  | .null => .ok none
  | value => (read value).map some

/-! ## Members of models -/

/-- Reads a member that has to be present. -/
def required {α : Type} (name : String) (read : Datum → Checked α)
    (entries : Entries) : Checked α :=
  match Entries.get? (.str name) entries with
  | some value => (read value).inside (.name name)
  | none => .error [⟨.missing, [.name name]⟩]

/-- Reads a member that may be absent. -/
def optional {α : Type} (name : String) (fallback : α)
    (read : Datum → Checked α) (entries : Entries) : Checked α :=
  match Entries.get? (.str name) entries with
  | some value => (read value).inside (.name name)
  | none => .ok fallback

/-- Reads the members of a model. -/
def readModel {α : Type} (read : Entries → Checked α) : Datum → Checked α
  | .map entries => read entries
  | _ => issue .notModel

end Checked

end ApiAtlas
