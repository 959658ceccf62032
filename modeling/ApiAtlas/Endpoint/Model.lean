import ApiAtlas.Endpoint.Basic
import ApiAtlas.Filter.Expression
import ApiAtlas.Validation.Checked

/-!
# Reading endpoints from data

The checks that turn data into the models of this library.  Members that a
model does not know are ignored, and a model that has been written as data is
read back as the same model.
-/

namespace ApiAtlas

open Checked

/-- Reads an object whose keys are texts. -/
def readObject (value : Datum) : Checked Fields :=
  readMapping Scalar.shown readAny value

namespace Filter

/-- Reads the members of a filter field. -/
def Field.readMembers (entries : Entries) : Checked Field :=
  ((both (Checked.required "path" readText entries)
    (both (Checked.required "type" readOptionalText entries)
      (optional "examples" [] (readList readAny) entries))).map
    fun parts => ⟨parts.1, parts.2.1, parts.2.2⟩)

/-- Reads a filter field. -/
def Field.read (value : Datum) : Checked Field :=
  readModel Field.readMembers value

/-- Reads the name of an operator. -/
def Operator.read (value : Datum) : Checked Operator :=
  match value.text?.bind Operator.ofName? with
  | some operator => .ok operator
  | none => issue .notMember

/-- Reads the members of a filter expression. -/
def Expression.readMembers (entries : Entries) : Checked Expression :=
  (both (Checked.required "field_path" readText entries)
    (both (Checked.required "op" Operator.read entries)
      (Checked.required "value" readAny entries))).map
    fun parts => ⟨parts.1, parts.2.1, parts.2.2⟩

/-- Reads a filter expression. -/
def Expression.read (value : Datum) : Checked Expression :=
  readModel Expression.readMembers value

/-- A filter expression as data. -/
def Expression.toDatum (expression : Expression) : Datum :=
  .object
    [("field_path", .str expression.path),
      ("op", .str expression.operator.name),
      ("value", expression.value)]

end Filter

namespace Parameter

/-- Reads the mark that a value of the path is required. -/
def readAlwaysRequired : Datum → Checked Bool
  | .bool true => .ok true
  | _ => issue .notLiteral

/-- Reads the members of a parameter at a location. -/
def readMembers (location : Location) (entries : Entries) :
    Checked Parameter :=
  let name := Checked.required "name" readText entries
  let required := optional "required" false readTruth entries
  let schema := Checked.required "schema_obj" readObject entries
  match location with
  | .path =>
    let always := optional "required" true readAlwaysRequired entries
    (both name (both always schema)).map fun parts =>
      .path parts.1 parts.2.2
  | .query =>
    (both name (both required schema)).map fun parts =>
      .query parts.1 parts.2.1 parts.2.2
  | .entity =>
    (both name (both required schema)).map fun parts =>
      .entity parts.1 parts.2.1 parts.2.2
  | .filter =>
    let fields :=
      Checked.required "fields" (readList Filter.Field.read) entries
    (both name (both required (both fields schema))).map fun parts =>
      .filter parts.1 parts.2.1 parts.2.2.1 parts.2.2.2

/-- Reads a parameter, whose location decides the members it has. -/
def read : Datum → Checked Parameter
  | .map entries =>
    match Entries.get? (.str "location") entries with
    | none => issue .absentTag
    | some tag =>
      match tag.text?.bind Location.ofName? with
      | some location =>
        (readMembers location entries).inside (.name location.name)
      | none => issue .unknownTag
  | _ => issue .notModelMapping

end Parameter

/-- Reads the members of the body of a response. -/
def ResponseBody.readMembers (entries : Entries) : Checked ResponseBody :=
  (both (Checked.required "schema_obj" readObject entries)
    (both (Checked.required "media_type" readText entries)
      (Checked.required "streaming" readTruth entries))).map
    fun parts => ⟨parts.1, parts.2.1, parts.2.2⟩

/-- Reads the body of a response. -/
def ResponseBody.read (value : Datum) : Checked ResponseBody :=
  readModel ResponseBody.readMembers value

/-- Reads the members of an endpoint. -/
def Endpoint.readMembers (entries : Entries) : Checked Endpoint :=
  let text (name : String) := Checked.required name readText entries
  let names :=
    both (text "operation_id") (both (text "method_name")
      (both (text "title") (both (text "method") (text "path"))))
  let parts :=
    both (Checked.required "param_defs" (readList Parameter.read) entries)
      (both
        (Checked.required "response_bodies"
          (readMapping Scalar.shown (readOptional ResponseBody.read)) entries)
        (both (Checked.required "streaming" readTruth entries)
          (Checked.required "tags" (readList readText) entries)))
  (both names parts).map fun found =>
    { operationId := found.1.1
      methodName := found.1.2.1
      title := found.1.2.2.1
      method := found.1.2.2.2.1
      path := found.1.2.2.2.2
      parameters := found.2.1
      responses := found.2.2.1
      streaming := found.2.2.2.1
      tags := found.2.2.2.2 }

/-- Reads an endpoint. -/
def Endpoint.read (value : Datum) : Checked Endpoint :=
  readModel Endpoint.readMembers value

/-- A check as an outcome. -/
def Checked.outcome {α : Type} (check : Checked α) : Except Fault α :=
  check.mapError Fault.invalid

end ApiAtlas
