import ApiAtlas.Data.Access
import ApiAtlas.Schema.Example
import ApiAtlas.Text.LetterCase

/-!
# Content of bodies

The content of a body lists media types with their schemas.  The media type
that is used is the first one that ends in the word `json`, letter case left
aside, or else the first one.
-/

namespace ApiAtlas.Content

/-- Whether characters end in a word of small letters, letter case left aside. -/
def endsInWord (word : List Char) (characters : List Char) : Bool :=
  let tail := characters.drop (characters.length - word.length)
  decide (tail.length = word.length) &&
    (word.zip tail).all fun pair => Text.matchesLetter pair.1 pair.2

/-- Whether a media type ends in a word, a line end after it left aside. -/
def mediaTypeEndsIn (word mediaType : String) : Bool :=
  Text.endsLine (endsInWord word.toList) mediaType.toList

/-- The first media type that ends in the word `json`, if there is one. -/
def firstJson? : Entries → Except Fault (Option String)
  | [] => .ok none
  | (.str mediaType, _) :: rest =>
    if mediaTypeEndsIn "json" mediaType then .ok (some mediaType)
    else firstJson? rest
  | _ => misused .unsupported

/-- The media type that is used. -/
def mediaType (content : Entries) : Except Fault String := do
  match ← firstJson? content with
  | some mediaType => return mediaType
  | none =>
    match content with
    | (.str mediaType, _) :: _ => return mediaType
    | _ => misused .unsupported

/-- A media type with the schema of its values. -/
structure Typed where
  mediaType : String
  schema : Entries

/-- The used media type of some content with its schema. -/
def read (definitions : Datum) : Datum → Except Fault Typed
  | .map content => do
    let mediaType ← mediaType content
    let entry :=
      ((Entries.get? (.str mediaType) content).getD .null).orEmptyMap
    let schema ← entry.member? "schema"
    let stated ← entry.member? "example"
    let schema ←
      Schema.inlineWithExamples (schema.getD (.map [])) definitions
        (stated.getD .null)
    return ⟨mediaType, schema⟩
  | _ => misused .unsupported

end ApiAtlas.Content
