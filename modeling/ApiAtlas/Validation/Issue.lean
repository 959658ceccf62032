/-!
# Issues of validation

A value that does not fit a model has a list of issues, each with the place
where it was found: a path of field names and positions.
-/

namespace ApiAtlas

/-- One step on the way to a part of a value. -/
inductive PathStep where
  | name (name : String)
  | index (index : Int)
deriving DecidableEq, Repr

/-- What is wrong with a part of a value. -/
inductive IssueKind where
  | missing
  | notText
  | undecodableText
  | notTruthValue
  | unreadableTruthValue
  | notList
  | notMapping
  | notModel
  | notModelMapping
  | notLiteral
  | notMember
  | unknownTag
  | absentTag
deriving DecidableEq, Repr

/-- The code of a kind of issue. -/
def IssueKind.code : IssueKind → String
  | .missing => "missing"
  | .notText => "string_type"
  | .undecodableText => "string_unicode"
  | .notTruthValue => "bool_type"
  | .unreadableTruthValue => "bool_parsing"
  | .notList => "list_type"
  | .notMapping => "dict_type"
  | .notModel => "model_type"
  | .notModelMapping => "model_attributes_type"
  | .notLiteral => "literal_error"
  | .notMember => "enum"
  | .unknownTag => "union_tag_invalid"
  | .absentTag => "union_tag_not_found"

/-- An issue and its place. -/
structure Issue where
  kind : IssueKind
  place : List PathStep
deriving DecidableEq, Repr

/-- The same issue seen from one level further out. -/
def Issue.inside (step : PathStep) (issue : Issue) : Issue :=
  { issue with place := step :: issue.place }

end ApiAtlas
