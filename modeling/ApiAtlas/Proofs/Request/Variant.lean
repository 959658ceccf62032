import ApiAtlas.Proofs.Data.Named
import ApiAtlas.Proofs.Outcome
import ApiAtlas.Request.Variant
import Mathlib.Data.List.Perm.Basic
import Mathlib.Data.List.Perm.Subperm
import Mathlib.Algebra.GroupWithZero.Nat

/-!
# Example requests

A variant of parameters has one request for every combination of their
examples, where null stands in for the examples of a parameter that has none.
So every variant has at least one request, and all of them are among the
example requests, though requests of equal keys replace each other.
-/

namespace ApiAtlas

/-! ## Examples of parameters -/

/-- A schema that lists at least one example. -/
def Schema.HasExamples (schema : Fields) : Prop :=
  ∃ first rest,
    Fields.get? "examples" schema = some (.list (first :: rest))

/-- A schema whose examples are a list, if it has any. -/
def Schema.ListsExamples (schema : Fields) : Prop :=
  ∀ stated, Fields.get? "examples" schema = some stated →
    ∃ items, stated = .list items

theorem Schema.HasExamples.listsExamples
    {schema : Fields} (some : HasExamples schema) : ListsExamples schema := by
  rcases some with ⟨first, rest, found⟩
  intro stated same
  cases found.symm.trans same
  exact ⟨first :: rest, rfl⟩

namespace Parameter

/-- The examples that a parameter lists. -/
def listedExamples (parameter : Parameter) : List Datum :=
  ((Fields.get? "examples" parameter.schema).bind Datum.list?).getD []

/-- The examples that requests use: the listed ones, or else null. -/
def usedExamples (parameter : Parameter) : List Datum :=
  if parameter.listedExamples = [] then [.null]
  else parameter.listedExamples

theorem usedExamples_ne_nil (parameter : Parameter) :
    parameter.usedExamples ≠ [] := by
  rw [usedExamples]
  split
  · exact List.cons_ne_nil _ _
  · next some => exact some

/-- A parameter with examples uses no stand-in. -/
theorem usedExamples_of_hasExamples
    {parameter : Parameter} (some : Schema.HasExamples parameter.schema) :
    parameter.usedExamples = parameter.listedExamples := by
  rcases some with ⟨first, rest, found⟩
  have listed : parameter.listedExamples = first :: rest := by
    rw [listedExamples, found]
    rfl
  rw [usedExamples, if_neg]
  rw [listed]
  exact List.cons_ne_nil _ _

end Parameter

namespace Request

/-! ## Choices -/

/-- A choice takes one item of each list. -/
theorem mem_choices_iff
    {α : Type} {lists : List (List α)} {chosen : List α} :
    chosen ∈ choices lists ↔
      List.Forall₂ (fun item items => item ∈ items) chosen lists := by
  induction lists generalizing chosen with
  | nil => rw [choices, List.mem_singleton, List.forall₂_nil_right_iff]
  | cons items rest ih =>
    rw [choices, List.mem_flatMap, List.forall₂_cons_right_iff]
    constructor
    · rintro ⟨item, member, made⟩
      rcases List.mem_map.1 made with ⟨others, isChoice, rfl⟩
      exact ⟨item, others, member, ih.1 isChoice, rfl⟩
    · rintro ⟨item, others, member, each, rfl⟩
      exact ⟨item, member, List.mem_map_of_mem (ih.2 each)⟩

/-- There are as many choices as the product of the lengths. -/
theorem length_choices {α : Type} (lists : List (List α)) :
    (choices lists).length = (lists.map List.length).prod := by
  induction lists with
  | nil => rfl
  | cons items rest ih =>
    have each (item : α) :
        ((choices rest).map (item :: ·)).length =
          (rest.map List.length).prod := by
      rw [List.length_map, ih]
    rw [choices, List.length_flatMap]
    simp only [each, List.map_const', List.sum_replicate_nat, List.map_cons,
      List.prod_cons]

/-- A choice can be made from lists that are not empty. -/
theorem choices_ne_nil
    {α : Type} {lists : List (List α)} (some : ∀ items ∈ lists, items ≠ []) :
    choices lists ≠ [] := by
  induction lists with
  | nil => exact List.cons_ne_nil _ _
  | cons items rest ih =>
    rw [List.forall_mem_cons] at some
    rcases List.exists_cons_of_ne_nil some.1 with ⟨item, others, rfl⟩
    rcases List.exists_cons_of_ne_nil (ih some.2) with ⟨first, more, chosen⟩
    rw [choices, List.flatMap_cons, chosen, List.map_cons, List.cons_append]
    exact List.cons_ne_nil _ _

/-- The choices for a parameter are the examples that requests use. -/
theorem exampleChoices_eq
    {parameter : Parameter} (lists : Schema.ListsExamples parameter.schema) :
    exampleChoices parameter = .ok parameter.usedExamples := by
  cases found : Fields.get? "examples" parameter.schema with
  | none =>
    rw [exampleChoices, Parameter.usedExamples, Parameter.listedExamples,
      found]
    rfl
  | some stated =>
    rcases lists stated found with ⟨items, rfl⟩
    rw [exampleChoices, Parameter.usedExamples, Parameter.listedExamples,
      found]
    cases items with
    | nil => rfl
    | cons first rest => rfl

/-- The examples of a parameter are its own if it has any. -/
theorem exampleChoices_of_hasExamples
    {parameter : Parameter} {first : Datum} {rest : List Datum}
    (listed :
      Fields.get? "examples" parameter.schema =
        some (.list (first :: rest))) :
    exampleChoices parameter = .ok (first :: rest) := by
  have hasExamples : Schema.HasExamples parameter.schema :=
    ⟨first, rest, listed⟩
  rw [exampleChoices_eq hasExamples.listsExamples,
    Parameter.usedExamples_of_hasExamples hasExamples,
    Parameter.listedExamples, listed]
  rfl

/-! ## Requests of a variant -/

theorem variantKeys_ne_nil (title : String) (count : Nat) :
    variantKeys title count ≠ [] := by
  rw [variantKeys]
  split
  · next several =>
    rw [Ne, List.map_eq_nil_iff, List.range_eq_nil]
    exact Nat.ne_of_gt (Nat.lt_trans Nat.zero_lt_one several)
  · exact List.cons_ne_nil _ _

namespace Variant

/-- The combinations of one example for each parameter. -/
def combinations (variant : Variant) : List (List Datum) :=
  choices (variant.parameters.map Parameter.usedExamples)

/-- The options for one combination. -/
def options (streaming : Bool) (variant : Variant) (chosen : List Datum) :
    Options :=
  chosenOptions streaming (variant.parameters.zip chosen)

/-- The keys of all combinations. -/
def keys (variant : Variant) : List String :=
  variantKeys variant.title variant.combinations.length

theorem combinations_ne_nil (variant : Variant) :
    variant.combinations ≠ [] := by
  apply choices_ne_nil
  rw [List.forall_mem_map]
  exact fun parameter _ => parameter.usedExamples_ne_nil

/-- A variant has the requests of its combinations under its keys. -/
theorem requests_eq
    {variant : Variant}
    (lists : ∀ parameter ∈ variant.parameters,
      Schema.ListsExamples parameter.schema)
    (streaming : Bool) :
    variant.requests streaming =
      .ok (variant.keys.zip
        (variant.combinations.map (variant.options streaming))) := by
  have made :
      variant.parameters.mapM exampleChoices =
        .ok (variant.parameters.map Parameter.usedExamples) :=
    mapM_of_forall_eq_ok fun parameter member =>
      exampleChoices_eq (lists parameter member)
  rw [requests, made]
  simp only [bind, Except.bind, List.length_map]
  rfl

/-- Every variant has a request. -/
theorem zip_keys_ne_nil (streaming : Bool) (variant : Variant) :
    variant.keys.zip
      (variant.combinations.map (variant.options streaming)) ≠ [] := by
  rw [Ne, List.zip_eq_nil_iff, not_or, List.map_eq_nil_iff]
  exact ⟨variantKeys_ne_nil _ _, variant.combinations_ne_nil⟩

end Variant

/-! ## Requests of all variants -/

/-- The parameters of a variant are some of all parameters, each once. -/
theorem subperm_of_mem_variants
    {parameters : List Parameter} {variant : Variant}
    (isVariant : variant ∈ variants parameters) :
    variant.parameters.Subperm parameters := by
  have all :
      (parameters.filter (·.required) ++
        parameters.filter (!·.required)).Perm parameters :=
    List.filter_append_perm _ _
  rw [variants] at isVariant
  rcases List.mem_cons.1 isVariant with rfl | single
  · exact all.subperm
  · rcases List.mem_map.1 single with ⟨own, optional, rfl⟩
    have part := List.singleton_sublist.2 optional
    exact (part.append_left _).subperm.trans all.subperm

theorem mem_of_mem_variants
    {parameters : List Parameter} {variant : Variant}
    (isVariant : variant ∈ variants parameters) {parameter : Parameter}
    (member : parameter ∈ variant.parameters) : parameter ∈ parameters :=
  (subperm_of_mem_variants isVariant).subset member

/-- The requests of all variants one after the other, whatever their keys. -/
def listedRequests (streaming : Bool) (parameters : List Parameter) :
    Named Options :=
  (variants parameters).flatMap fun variant =>
    variant.keys.zip (variant.combinations.map (variant.options streaming))

/-- The example requests are those of all variants, put under their keys. -/
theorem exampleRequests_eq
    {parameters : List Parameter}
    (lists : ∀ parameter ∈ parameters, Schema.ListsExamples parameter.schema)
    (streaming : Bool) :
    exampleRequests streaming parameters =
      .ok (Named.putAll [] (listedRequests streaming parameters)) := by
  have made :=
    mapM_of_forall_eq_ok fun variant (isVariant : variant ∈ variants parameters) =>
      Variant.requests_eq
        (fun parameter member =>
          lists parameter (mem_of_mem_variants isVariant member))
        streaming
  rw [exampleRequests, made, listedRequests, List.flatMap_def]
  rfl

/-- Parameters with examples have requests for all their variants. -/
theorem exists_exampleRequests
    {parameters : List Parameter}
    (each :
      ∀ parameter ∈ parameters, Schema.HasExamples parameter.schema)
    (streaming : Bool) :
    ∃ requests, exampleRequests streaming parameters = .ok requests ∧
      ∀ variant ∈ variants parameters,
        ∃ first rest, variant.requests streaming = .ok (first :: rest) ∧
          ∀ request ∈ first :: rest, request.1 ∈ requests.map Prod.fst := by
  have lists : ∀ parameter ∈ parameters,
      Schema.ListsExamples parameter.schema :=
    fun parameter member => (each parameter member).listsExamples
  refine ⟨_, exampleRequests_eq lists streaming, ?_⟩
  intro variant isVariant
  rcases List.exists_cons_of_ne_nil (variant.zip_keys_ne_nil streaming) with
    ⟨first, rest, same⟩
  refine ⟨first, rest, ?_, ?_⟩
  · rw [← same]
    exact
      Variant.requests_eq
        (fun parameter member =>
          lists parameter (mem_of_mem_variants isVariant member))
        streaming
  · intro request member
    rw [Named.mem_keys_putAll]
    right
    apply List.mem_map_of_mem
    rw [listedRequests, List.mem_flatMap]
    exact ⟨variant, isVariant, same ▸ member⟩

end Request

end ApiAtlas
