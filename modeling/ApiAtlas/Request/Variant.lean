import ApiAtlas.Request.Options

/-!
# Example requests

Example options for every variant of the parameters of an endpoint.  The
variant `all` uses every parameter; each optional parameter has a variant of
its own, with the required parameters before it.  A variant has one request
for every choice of one example for each of its parameters.
-/

namespace ApiAtlas.Request

/-- A choice of parameters under a title. -/
structure Variant where
  title : String
  parameters : List Parameter
deriving DecidableEq, Repr

/-- The title of the variant with every parameter. -/
def completeTitle : String := "all"

/-- The variants of parameters. -/
def variants (parameters : List Parameter) : List Variant :=
  let required := parameters.filter (·.required)
  let optional := parameters.filter (!·.required)
  ⟨completeTitle, required ++ optional⟩ ::
    optional.map fun parameter => ⟨parameter.name, required ++ [parameter]⟩

/-- The examples of a parameter; null stands in where it has none. -/
def exampleChoices (parameter : Parameter) : Except Fault (List Datum) :=
  match (Fields.get? "examples" parameter.schema).filter Datum.isTruthy with
  | some examples => examples.parts
  | none => .ok [.null]

/-- A choice from each list, the last list changing fastest. -/
def choices {α : Type} : List (List α) → List (List α)
  | [] => [[]]
  | items :: rest =>
    items.flatMap fun item => (choices rest).map fun others => item :: others

/-- The options with the chosen examples; the last body counts. -/
def chosenOptions (streaming : Bool) (chosen : List (Parameter × Datum)) :
    Options :=
  let placed :=
    (chosen.filter (·.1.inAddress)).map fun pair =>
      (⟨pair.1.location, .str pair.1.name, pair.2⟩ : Placed)
  let bodies := (chosen.filter (!·.1.inAddress)).map (·.2)
  Options.build streaming placed (bodies.getLast?.getD .null)

/-- The keys of a number of requests; a single one needs no number. -/
def variantKeys (title : String) (count : Nat) : List String :=
  if count > 1 then
    (List.range count).map fun index => title ++ "-" ++ toString index
  else [title]

/-- The requests of a variant under their keys. -/
def Variant.requests (streaming : Bool) (variant : Variant) :
    Except Fault (Named Options) := do
  let examples ← variant.parameters.mapM exampleChoices
  let chosen := choices examples
  let options :=
    chosen.map fun values =>
      chosenOptions streaming (variant.parameters.zip values)
  return (variantKeys variant.title options.length).zip options

/-- The example requests for every variant of parameters. -/
def exampleRequests (streaming : Bool) (parameters : List Parameter) :
    Except Fault (Named Options) := do
  let requests ← (variants parameters).mapM (Variant.requests streaming)
  return Named.putAll [] requests.flatten

end ApiAtlas.Request
