import ApiAtlas.CommandLine.Input
import ApiAtlas.Endpoint.Build
import ApiAtlas.Proofs.Data.Entries
import ApiAtlas.Proofs.Outcome
import ApiAtlas.Proofs.Text.Parts

/-!
# Inputs that are written and read back

What is read as a filter is written as its path, the name of its operator and
its value with colons between them, and the path holds no colon; the value may
hold any.  What is read as a parameter is written as its name and its value
with an equals sign between them, and the name is not empty and holds none.

So an input of an endpoint is read back if and only if its path or name is such
a one.  A document may state others: they are shown to a user, and what is
written for them is refused or taken for another input.
-/

namespace ApiAtlas.CommandLine

/-- A filter as a user writes it. -/
def WrittenFilter.text (written : WrittenFilter) : String :=
  written.path ++ ":" ++ written.operator.name ++ ":" ++ written.value

/-- A parameter as a user writes it. -/
def parameterText (name value : String) : String := name ++ "=" ++ value

theorem name_of_ofName? {text : String} {operator : Filter.Operator}
    (named : Filter.Operator.ofName? text = some operator) :
    operator.name = text := by
  simpa using List.find?_some named

theorem colon_not_mem_name (operator : Filter.Operator) :
    ':' ∉ operator.name.toList := by
  cases operator <;> decide

/-- A text is read as a filter if and only if it is written as this filter. -/
theorem filterOf?_eq_some_iff {text : String} {written : WrittenFilter} :
    filterOf? text = some written ↔
      ':' ∉ written.path.toList ∧ text = written.text := by
  constructor
  · intro read
    rw [filterOf?] at read
    rcases cutPath : Text.cutAt ':' text with ⟨path, behindPath⟩
    rw [cutPath] at read
    rcases Option.bind_eq_some_iff.1 read with ⟨rest, rfl, readRest⟩
    rcases cutOperator : Text.cutAt ':' rest with ⟨operator, behind⟩
    rw [cutOperator] at readRest
    rcases Option.bind_eq_some_iff.1 readRest with ⟨found, held, readKnown⟩
    rcases Option.map_eq_some_iff.1 held with ⟨value, rfl, rfl⟩
    rcases Option.bind_eq_some_iff.1 readKnown with ⟨known, named, same⟩
    cases same
    rcases Text.cutAt_eq_some_iff.1 cutPath with ⟨noColon, samePath⟩
    rcases Text.cutAt_eq_some_iff.1 cutOperator with ⟨-, sameOperator⟩
    refine ⟨noColon, ?_⟩
    rw [← String.toList_inj, samePath, sameOperator, WrittenFilter.text,
      name_of_ofName? named]
    simp
  · rintro ⟨noColon, rfl⟩
    have cutPath :
        Text.cutAt ':' written.text =
          (written.path,
            some (written.operator.name ++ ":" ++ written.value)) := by
      rw [Text.cutAt_eq_some_iff]
      exact ⟨noColon, by simp [WrittenFilter.text]⟩
    have cutOperator :
        Text.cutAt ':' (written.operator.name ++ ":" ++ written.value) =
          (written.operator.name, some written.value) := by
      rw [Text.cutAt_eq_some_iff]
      exact ⟨colon_not_mem_name written.operator, by simp⟩
    rw [filterOf?, cutPath]
    simp [cutOperator, Filter.Operator.ofName?_name]

/-- A text is read as a parameter if and only if it is written as this one. -/
theorem parameterOf?_eq_some_iff {text name value : String} :
    parameterOf? text = some (name, value) ↔
      name ≠ "" ∧ '=' ∉ name.toList ∧ text = parameterText name value := by
  have written :
      text = parameterText name value ↔
        text.toList = name.toList ++ '=' :: value.toList := by
    rw [← String.toList_inj, parameterText]
    simp
  rw [written, ← Text.cutAt_eq_some_iff]
  constructor
  · intro read
    rw [parameterOf?] at read
    split at read
    · next front behind cut =>
      split at read
      · cases read
      · next nonempty =>
        cases read
        exact ⟨nonempty, cut⟩
    · cases read
  · rintro ⟨nonempty, cut⟩
    rw [parameterOf?, cut]
    exact if_neg nonempty

/-! ## Inputs of an endpoint -/

section Inputs

open Request

/-- Among the fields at the path of one of them the last one is found. -/
theorem exists_fieldAt?
    {fields : List Filter.Field} {field : Filter.Field}
    (member : field ∈ fields) :
    ∃ typed ∈ fields, typed.path = field.path ∧
      fieldAt? field.path fields = some typed := by
  cases found : fieldAt? field.path fields with
  | none =>
    have none := List.find?_eq_none.1 found field (List.mem_reverse.2 member)
    simp at none
  | some typed =>
    exact
      ⟨typed, List.mem_reverse.1 (List.mem_of_find?_eq_some found),
        by simpa using List.find?_some found, rfl⟩

theorem expression_selection
    {fields : List Filter.Field} {typed : Filter.Field} {path : String}
    (found : fieldAt? path fields = some typed) (operator : Filter.Operator)
    (value : String) :
    (WrittenFilter.mk path operator value).selection.expression fields =
      Filter.select typed (.str operator.name) (.str value) := by
  have field : selectedField fields (.str path) = .ok typed := by
    change Except.ok ((fieldAt? path fields).getD _) = _
    rw [found, Option.getD_some]
  rw [WrittenFilter.selection, Selection.expression, field]
  rfl

/--
A filter of a shown field is read back from its writing if and only if the path
of the field holds no colon, and it then is a selection of a field of this path.
A parameter is read back if and only if its name is not empty and holds no
equals sign, and its value then stands under this name.
-/
theorem inputs_readBack (endpoint : Endpoint) :
    (∀ field ∈ endpoint.inputs.fields,
      ∃ typed ∈ endpoint.inputs.fields, typed.path = field.path ∧
        ∀ (operator : Filter.Operator) (value : String),
          let written := WrittenFilter.mk field.path operator value
          (filterOf? written.text = some written ↔
              ':' ∉ field.path.toList) ∧
            written.selection.expression endpoint.inputs.fields =
              Filter.select typed (.str operator.name) (.str value)) ∧
      ∀ parameter ∈ endpoint.inputs.parameters, ∀ value,
        (parameterOf? (parameterText parameter.name value) =
            some (parameter.name, value) ↔
          parameter.name ≠ "" ∧ '=' ∉ parameter.name.toList) ∧
          givenValue? (valuesOf [(parameter.name, value)]) parameter =
            some ⟨parameter.location, .str parameter.name, .str value⟩ := by
  constructor
  · intro field member
    rcases exists_fieldAt? member with ⟨typed, isField, samePath, found⟩
    refine ⟨typed, isField, samePath, fun operator value => ?_⟩
    refine ⟨?_, expression_selection found operator value⟩
    rw [filterOf?_eq_some_iff]
    exact and_iff_left rfl
  · intro parameter member value
    constructor
    · rw [parameterOf?_eq_some_iff, ← and_assoc]
      exact and_iff_left rfl
    · rw [givenValue?, valuesOf, List.foldl_cons, List.foldl_nil,
        Entries.get?_put_self]
      rfl

/-- What is written for a path with a colon may be taken for another field. -/
example :
    filterOf? (WrittenFilter.mk "a:Eq" .greater "1").text =
      some ⟨"a", .equal, "Gt:1"⟩ := by
  decide

/-! ## Inputs with marks in their names -/

/-- A stream of rows whose inputs have marks in their names or no name. -/
def markedOperation : Operation :=
  { path := .str "/rows"
    method := .str "post"
    content :=
      .object
        [("operationId", .str "rows"),
          ("parameters",
            .list
              [.object [("name", .str "a=b")], .object [("name", .str "")]]),
          ("requestBody",
            .object
              [("content",
                .object
                  [("application/json",
                    .object
                      [("schema",
                        .object
                          [("type", .str "object"),
                            ("properties",
                              .object
                                [("a:Eq",
                                  .object [("type", .str "integer")])])])])])]),
          ("responses",
            .object
              [("200",
                .object
                  [("content",
                    .object [("application/x-ndjson", .object [])])])])]
    shared := .null }

/-- What a user is shown of that operation. -/
def markedInputs : EndpointInputs :=
  { parameters :=
      [.query "a=b" false [("examples", .list [.null])],
        .query "" false [("examples", .list [.null])]]
    fields := [⟨"a:Eq", some "integer", [.int 0]⟩] }

theorem exists_endpoint_markedOperation :
    ∃ endpoint, markedOperation.endpoint (.map []) = .ok endpoint ∧
      endpoint.inputs = markedInputs := by
  have inputs :
      (markedOperation.endpoint (.map [])).map Endpoint.inputs =
        .ok markedInputs := by
    decide +kernel
  exact exists_of_map_eq_ok inputs

/--
A colon in a path, an equals sign in a name and an empty name each keep an
input from being read back.
-/
theorem not_forall_inputs_readBack :
    (¬ ∀ definitions (operation : Operation) endpoint,
        operation.endpoint definitions = .ok endpoint →
          ∀ field ∈ endpoint.inputs.fields,
            ∀ (operator : Filter.Operator) (value : String),
              let written := WrittenFilter.mk field.path operator value
              filterOf? written.text = some written) ∧
      (¬ ∀ definitions (operation : Operation) endpoint,
        operation.endpoint definitions = .ok endpoint →
          ∀ parameter ∈ endpoint.inputs.parameters, parameter.name ≠ "" →
            ∀ value, parameterOf? (parameterText parameter.name value) =
              some (parameter.name, value)) ∧
      ¬ ∀ definitions (operation : Operation) endpoint,
        operation.endpoint definitions = .ok endpoint →
          ∀ parameter ∈ endpoint.inputs.parameters,
            '=' ∉ parameter.name.toList →
              ∀ value, parameterOf? (parameterText parameter.name value) =
                some (parameter.name, value) := by
  rcases exists_endpoint_markedOperation with ⟨endpoint, made, inputs⟩
  refine ⟨fun readBack => ?_, fun readBack => ?_, fun readBack => ?_⟩
  · have read := readBack _ _ _ made
    rw [inputs] at read
    have same := read _ List.mem_cons_self .greater "1"
    revert same
    decide
  · have read := readBack _ _ _ made
    rw [inputs] at read
    have same := read _ List.mem_cons_self (by decide) "1"
    revert same
    decide
  · have read := readBack _ _ _ made
    rw [inputs] at read
    have same :=
      read _ (List.mem_cons_of_mem _ List.mem_cons_self) (by decide) "1"
    revert same
    decide

end Inputs

end ApiAtlas.CommandLine
