import ApiAtlas.Proofs.Data.Shown
import ApiAtlas.Proofs.Request.Variant
import ApiAtlas.Proofs.Text.Parts
import Mathlib.Data.List.Nodup

/-!
# Keys of example requests

A variant with one request has its title as the key of that request; one with
several requests has its title and a number for each of them.  The keys of one
variant are different, because the number can be told from what stands before
it.

The keys of two variants may meet: titles are names of parameters, which are
free, and the title of the variant with every parameter is a fixed word.
Requests are lost in just these cases.
-/

namespace ApiAtlas.Request

/-! ## Numbered titles -/

/-- The key of one of several requests under a title. -/
def numbered (title : String) (index : Nat) : String :=
  title ++ "-" ++ toString index

theorem toList_numbered (title : String) (index : Nat) :
    (numbered title index).toList =
      title.toList ++ '-' :: Nat.toDigits 10 index := by
  rw [numbered, String.toList_append, String.toList_append,
    Nat.toString_eq_repr, Nat.toList_repr, List.append_assoc]
  rfl

theorem dash_notMem_toDigits (index : Nat) : '-' ∉ Nat.toDigits 10 index := by
  intro member
  have isDigit : '-'.isDigit = true :=
    Nat.isDigit_of_mem_toDigits (by decide) (by decide) member
  revert isDigit
  decide

/-- The title and the number can be read off the key. -/
theorem numbered_inj {one other : String} {first second : Nat} :
    numbered one first = numbered other second ↔
      one = other ∧ first = second := by
  rw [← String.toList_inj, toList_numbered, toList_numbered,
    Text.append_mark_inj (dash_notMem_toDigits first)
      (dash_notMem_toDigits second),
    String.toList_inj, toDigits_inj]

/-! ## Keys of one variant -/

theorem variantKeys_of_several
    {count : Nat} (several : 1 < count) (title : String) :
    variantKeys title count = (List.range count).map (numbered title) := by
  rw [variantKeys, if_pos several]
  rfl

theorem variantKeys_of_not_several
    {count : Nat} (single : ¬ 1 < count) (title : String) :
    variantKeys title count = [title] := by
  rw [variantKeys, if_neg single]

theorem length_variantKeys
    {count : Nat} (some : 0 < count) (title : String) :
    (variantKeys title count).length = count := by
  by_cases several : 1 < count
  · rw [variantKeys_of_several several, List.length_map, List.length_range]
  · rw [variantKeys_of_not_several several, List.length_singleton]
    omega

/-- The requests of one variant have different keys. -/
theorem nodup_variantKeys (title : String) (count : Nat) :
    (variantKeys title count).Nodup := by
  by_cases several : 1 < count
  · rw [variantKeys_of_several several]
    refine List.Nodup.map ?_ List.nodup_range
    intro first second same
    exact (numbered_inj.1 same).2
  · rw [variantKeys_of_not_several several]
    exact List.nodup_singleton title

/-! ## Keys of two variants -/

/--
Titles, each with a number of requests, that never give the same key.  Two
single requests need different titles, and so do two groups of several; the
key of a single request may not be a numbered title of the others.
-/
def TitlesApart (one : String) (count : Nat) (other : String)
    (otherCount : Nat) : Prop :=
  if 1 < count then
    if 1 < otherCount then one ≠ other
    else ∀ index < count, other ≠ numbered one index
  else
    if 1 < otherCount then ∀ index < otherCount, one ≠ numbered other index
    else one ≠ other

instance (one : String) (count : Nat) (other : String) (otherCount : Nat) :
    Decidable (TitlesApart one count other otherCount) :=
  inferInstanceAs
    (Decidable
      (if 1 < count then
        if 1 < otherCount then one ≠ other
        else ∀ index < count, other ≠ numbered one index
      else
        if 1 < otherCount then
          ∀ index < otherCount, one ≠ numbered other index
        else one ≠ other))

theorem mem_numbered_iff {key title : String} {count : Nat} :
    key ∈ (List.range count).map (numbered title) ↔
      ∃ index < count, numbered title index = key := by
  simp only [List.mem_map, List.mem_range]

theorem disjoint_variantKeys_iff
    {one other : String} {count otherCount : Nat} :
    List.Disjoint (variantKeys one count) (variantKeys other otherCount) ↔
      TitlesApart one count other otherCount := by
  rw [TitlesApart]
  split
  · next several =>
    rw [variantKeys_of_several several]
    split
    · next severalOthers =>
      rw [variantKeys_of_several severalOthers]
      constructor
      · rintro disjoint rfl
        exact
          disjoint
            (mem_numbered_iff.2 ⟨0, Nat.zero_lt_of_lt several, rfl⟩)
            (mem_numbered_iff.2 ⟨0, Nat.zero_lt_of_lt severalOthers, rfl⟩)
      · intro different key here there
        rcases mem_numbered_iff.1 here with ⟨first, -, rfl⟩
        rcases mem_numbered_iff.1 there with ⟨second, -, same⟩
        exact different (numbered_inj.1 same).1.symm
    · next singleOther =>
      rw [variantKeys_of_not_several singleOther, List.disjoint_singleton,
        mem_numbered_iff]
      simp only [not_exists, not_and, eq_comm, Ne]
  · next single =>
    rw [variantKeys_of_not_several single, List.singleton_disjoint]
    split
    · next severalOthers =>
      rw [variantKeys_of_several severalOthers, mem_numbered_iff]
      simp only [not_exists, not_and, eq_comm, Ne]
    · next singleOther =>
      rw [variantKeys_of_not_several singleOther, List.mem_singleton]

/-! ## Keys of all variants -/

namespace Variant

theorem length_combinations_pos (variant : Variant) :
    0 < variant.combinations.length :=
  List.length_pos_iff.2 variant.combinations_ne_nil

/-- There is a key for every combination. -/
theorem length_keys (variant : Variant) :
    variant.keys.length = variant.combinations.length :=
  length_variantKeys variant.length_combinations_pos variant.title

/-- Variants whose requests never have the same key. -/
def KeysApart (one other : Variant) : Prop :=
  TitlesApart one.title one.combinations.length other.title
    other.combinations.length

instance (one other : Variant) : Decidable (KeysApart one other) :=
  inferInstanceAs (Decidable (TitlesApart _ _ _ _))

end Variant

/-- Each variant of parameters with each of its combinations. -/
def combined (parameters : List Parameter) : List (Variant × List Datum) :=
  (variants parameters).flatMap fun variant =>
    variant.combinations.map fun chosen => (variant, chosen)

/-- The number of combinations of the examples of all variants. -/
def combinationCount (parameters : List Parameter) : Nat :=
  ((variants parameters).map fun variant =>
    (variant.parameters.map fun parameter =>
      parameter.listedExamples.length).prod).sum

theorem keys_listedRequests (streaming : Bool) (parameters : List Parameter) :
    (listedRequests streaming parameters).map Prod.fst =
      (variants parameters).flatMap Variant.keys := by
  rw [listedRequests, List.map_flatMap]
  congr 1
  funext variant
  apply List.map_fst_zip
  rw [List.length_map]
  exact Nat.le_of_eq variant.length_keys

theorem options_listedRequests
    (streaming : Bool) (parameters : List Parameter) :
    (listedRequests streaming parameters).map Prod.snd =
      (combined parameters).map fun pair => pair.1.options streaming pair.2 := by
  rw [listedRequests, combined, List.map_flatMap, List.map_flatMap]
  congr 1
  funext variant
  rw [List.map_map]
  apply List.map_snd_zip
  rw [List.length_map]
  exact Nat.le_of_eq variant.length_keys.symm

/-- The keys are different if and only if those of any two variants are. -/
theorem nodup_keys_listedRequests_iff
    {streaming : Bool} {parameters : List Parameter} :
    ((listedRequests streaming parameters).map Prod.fst).Nodup ↔
      (variants parameters).Pairwise Variant.KeysApart := by
  rw [keys_listedRequests, List.nodup_flatMap]
  constructor
  · rintro ⟨-, apart⟩
    exact apart.imp disjoint_variantKeys_iff.1
  · intro apart
    exact
      ⟨fun variant _ => nodup_variantKeys _ _,
        apart.imp disjoint_variantKeys_iff.2⟩

/-! ## Requests that are lost -/

/-- A variant has as many combinations as its parameters list examples. -/
theorem Variant.length_combinations
    {variant : Variant}
    (each : ∀ parameter ∈ variant.parameters,
      Schema.HasExamples parameter.schema) :
    variant.combinations.length =
      (variant.parameters.map fun parameter =>
        parameter.listedExamples.length).prod := by
  rw [combinations, length_choices, List.map_map]
  congr 1
  refine List.map_congr_left fun parameter member => ?_
  rw [Function.comp_apply,
    Parameter.usedExamples_of_hasExamples (each parameter member)]

theorem length_listedRequests
    {parameters : List Parameter}
    (each : ∀ parameter ∈ parameters, Schema.HasExamples parameter.schema)
    (streaming : Bool) :
    (listedRequests streaming parameters).length =
      combinationCount parameters := by
  rw [listedRequests, List.length_flatMap, combinationCount]
  congr 1
  refine List.map_congr_left fun variant isVariant => ?_
  rw [List.length_zip, List.length_map, variant.length_keys, Nat.min_self]
  exact
    Variant.length_combinations fun parameter member =>
      each parameter (mem_of_mem_variants isVariant member)

theorem mem_combined_iff
    {parameters : List Parameter}
    (each : ∀ parameter ∈ parameters, Schema.HasExamples parameter.schema)
    {variant : Variant} {chosen : List Datum} :
    (variant, chosen) ∈ combined parameters ↔
      variant ∈ variants parameters ∧
        List.Forall₂
          (fun value parameter => value ∈ parameter.listedExamples) chosen
          variant.parameters := by
  have own (isVariant : variant ∈ variants parameters) :
      variant.parameters.map Parameter.usedExamples =
        variant.parameters.map Parameter.listedExamples :=
    List.map_congr_left fun parameter member =>
      Parameter.usedExamples_of_hasExamples
        (each parameter (mem_of_mem_variants isVariant member))
  rw [combined, List.mem_flatMap]
  constructor
  · rintro ⟨other, isVariant, member⟩
    rcases List.mem_map.1 member with ⟨values, isChoice, same⟩
    cases same
    rw [Variant.combinations, own isVariant, mem_choices_iff,
      List.forall₂_map_right_iff] at isChoice
    exact ⟨isVariant, isChoice⟩
  · rintro ⟨isVariant, isChoice⟩
    refine ⟨variant, isVariant, List.mem_map_of_mem ?_⟩
    rw [Variant.combinations, own isVariant, mem_choices_iff,
      List.forall₂_map_right_iff]
    exact isChoice

/--
Parameters with examples have example requests, each under a key of its own.
They are the requests for all variants with all combinations of examples, one
for each, if the keys of any two variants are apart.  If they are not, there
are fewer requests than combinations.
-/
theorem exampleRequests_complete
    {parameters : List Parameter}
    (each : ∀ parameter ∈ parameters, Schema.HasExamples parameter.schema)
    (streaming : Bool) :
    ∃ requests, exampleRequests streaming parameters = .ok requests ∧
      (requests.map Prod.fst).Nodup ∧
      (∀ variant chosen,
        (variant, chosen) ∈ combined parameters ↔
          variant ∈ variants parameters ∧
            List.Forall₂
              (fun value parameter => value ∈ parameter.listedExamples) chosen
              variant.parameters) ∧
      (combined parameters).length = combinationCount parameters ∧
      ((variants parameters).Pairwise Variant.KeysApart →
        requests.map Prod.snd =
            (combined parameters).map (fun pair =>
              pair.1.options streaming pair.2) ∧
          requests.length = combinationCount parameters) ∧
      (¬ (variants parameters).Pairwise Variant.KeysApart →
        requests.length < combinationCount parameters) := by
  have made :=
    exampleRequests_eq
      (fun parameter member => (each parameter member).listsExamples)
      streaming
  have counted := length_listedRequests each streaming
  have optionsEq := options_listedRequests streaming parameters
  refine ⟨_, made, Named.nodup_keys_putAll List.nodup_nil, ?_, ?_, ?_, ?_⟩
  · exact fun variant chosen => mem_combined_iff each
  · have lengths := congrArg List.length optionsEq
    rw [List.length_map, List.length_map] at lengths
    rw [← lengths, counted]
  · intro apart
    have whole :
        Named.putAll [] (listedRequests streaming parameters) =
          listedRequests streaming parameters :=
      Named.putAll_of_nodup (nodup_keys_listedRequests_iff.2 apart)
    rw [whole]
    exact ⟨optionsEq, counted⟩
  · intro meet
    have again :
        ¬ (([] ++ listedRequests streaming parameters).map Prod.fst).Nodup :=
      mt nodup_keys_listedRequests_iff.1 meet
    have empty : (List.map Prod.fst ([] : Named Options)).Nodup :=
      List.nodup_nil
    have lost := Named.length_putAll_lt empty again
    rw [List.length_nil, Nat.zero_add, counted] at lost
    exact lost

/-- A schema that lists examples. -/
def listing (examples : List Datum) : Fields :=
  [("examples", .list examples)]

/-- The id of a row, an optional limit with two examples, and an optional body. -/
def rowParameters : List Parameter :=
  [.path "id" (listing [.str "a"]),
    .query "limit" false (listing [.int 1, .int 2]),
    .entity "application/json" false (listing [.map []])]

/-- Two requests with everything, two with a limit, and one with a body. -/
theorem exampleRequests_complete_rows :
    (variants rowParameters).Pairwise Variant.KeysApart ∧
      ∃ requests, exampleRequests false rowParameters = .ok requests ∧
        requests.length = 5 := by
  have each : ∀ parameter ∈ rowParameters,
      Schema.HasExamples parameter.schema := by
    simp only [rowParameters, List.forall_mem_cons]
    exact
      ⟨⟨_, _, rfl⟩, ⟨_, _, rfl⟩, ⟨_, _, rfl⟩, List.forall_mem_nil _⟩
  have apart : (variants rowParameters).Pairwise Variant.KeysApart := by
    decide +kernel
  rcases exampleRequests_complete each false with
    ⟨requests, made, -, -, -, whole, -⟩
  have five : combinationCount rowParameters = 5 := by decide
  exact ⟨apart, requests, made, (whole apart).2.trans five⟩

/-- A limit, and a parameter named like the variant with every parameter. -/
def limitAndAll : List Parameter :=
  [.query "limit" false (listing [.int 1]),
    .query completeTitle false (listing [.bool true])]

/--
The request with every parameter is lost when an optional parameter has the
title of its variant.
-/
theorem not_forall_exampleRequests_complete :
    ¬ ∀ (parameters : List Parameter) (streaming : Bool),
      (parameters.map fun parameter =>
          (parameter.location, parameter.name)).Nodup →
        (∀ parameter ∈ parameters, Schema.HasExamples parameter.schema) →
          ∃ requests, exampleRequests streaming parameters = .ok requests ∧
            requests.length = combinationCount parameters := by
  intro complete
  have each : ∀ parameter ∈ limitAndAll,
      Schema.HasExamples parameter.schema := by
    simp only [limitAndAll, List.forall_mem_cons]
    exact ⟨⟨_, _, rfl⟩, ⟨_, _, rfl⟩, List.forall_mem_nil _⟩
  rcases complete limitAndAll false (by decide) each with
    ⟨requests, made, counted⟩
  have two :
      (exampleRequests false limitAndAll).map List.length = .ok 2 := by
    decide +kernel
  rw [made, Except.map, counted] at two
  revert two
  decide

end ApiAtlas.Request
