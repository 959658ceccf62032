import ApiAtlas.Proofs.Data.Places
import ApiAtlas.Proofs.Request.Variant
import Mathlib.Data.List.Induction
import Mathlib.Data.List.Nodup

/-!
# What example requests hold

A request holds the values of its parameters grouped by location, each under
its name, and its body.  The value that is held under a name at a location is
the last one placed there, so a request made from parameters that differ in
location or name holds a value for each of them and nothing else.

An example request is made from one variant and one combination of examples.
A body of null is no body.
-/

namespace ApiAtlas

theorem Location.name_inj {one other : Location} :
    one.name = other.name ↔ one = other := by
  constructor
  · intro same
    have found := congrArg Location.ofName? same
    rw [ofName?_name, ofName?_name] at found
    exact Option.some.inj found
  · rintro rfl
    rfl

namespace Request

/-! ## Values at locations -/

/-- The values at a location, if there is a group for it. -/
def groupAt? (location : Location) (groups : List (Location × Entries)) :
    Option Entries :=
  (groups.find? fun group => group.1 = location).map (·.2)

theorem groupAt?_cons
    (location : Location) (group : Location × Entries)
    (rest : List (Location × Entries)) :
    groupAt? location (group :: rest) =
      if group.1 = location then some group.2 else groupAt? location rest := by
  rw [groupAt?, List.find?_cons]
  by_cases here : group.1 = location
  · simp only [here, decide_true, if_true, Option.map_some]
  · simp only [here, decide_false, if_false]
    rfl

/-- A placed value is put into the group of its location. -/
theorem groupAt?_putPlaced
    (location : Location) (placed : Placed)
    (groups : List (Location × Entries)) :
    groupAt? location (putPlaced placed groups) =
      if placed.location = location then
        some
          (Entries.put placed.name placed.value
            ((groupAt? location groups).getD []))
      else groupAt? location groups := by
  induction groups with
  | nil =>
    rw [putPlaced, groupAt?_cons]
    rfl
  | cons group rest ih =>
    rcases group with ⟨own, values⟩
    rw [putPlaced]
    by_cases here : own = placed.location
    · rw [if_pos here, groupAt?_cons, groupAt?_cons, here]
      split <;> rfl
    · rw [if_neg here, groupAt?_cons, groupAt?_cons, ih]
      by_cases there : placed.location = location
      · rw [if_pos there, if_pos there, if_neg (there ▸ here),
          if_neg (there ▸ here)]
      · rw [if_neg there, if_neg there]

namespace Options

/-- What a request holds under a name at a location. -/
def held (location : Location) (name : String) (options : Options) :
    Option Datum :=
  Datum.valueAt [.str location.name, .str name] options.toDatum

/-- The body of a request, if it has one. -/
def body? (options : Options) : Option Datum :=
  options.toDatum.field? bodyName

/-- A request has the members of its flags, its groups and its body. -/
theorem field?_toDatum (name : String) (options : Options) :
    options.toDatum.field? name =
      (((Fields.get? name [(throwingName, .bool false)]).or
          (Fields.get? name
            (if options.streaming then [(streamingName, .bool true)]
              else []))).or
        (Fields.get? name
          (options.groups.map fun group =>
            (group.1.name, .map group.2)))).or
        (Fields.get? name
          (if options.body = .null then []
            else [(bodyName, options.body)])) := by
  rw [toDatum, Datum.object, Datum.field?, Fields.get?_toEntries,
    Fields.get?_append, Fields.get?_append, Fields.get?_append]

theorem get?_groups
    (location : Location) (groups : List (Location × Entries)) :
    Fields.get? location.name
        (groups.map fun group => (group.1.name, .map group.2)) =
      (groupAt? location groups).map Datum.map := by
  induction groups with
  | nil => rfl
  | cons group rest ih =>
    rw [groupAt?_cons, List.map_cons, Fields.get?_cons, ih]
    simp only [Location.name_inj]
    split <;> rfl

/-- Under the name of a location stands the group of the location. -/
theorem field?_location (location : Location) (options : Options) :
    options.toDatum.field? location.name =
      (groupAt? location options.groups).map Datum.map := by
  have noFlag :
      Fields.get? location.name [(throwingName, .bool false)] = none := by
    cases location <;> rfl
  have noStreaming :
      Fields.get? location.name
          (if options.streaming then [(streamingName, .bool true)] else []) =
        none := by
    cases options.streaming <;> cases location <;> rfl
  have noBody :
      Fields.get? location.name
          (if options.body = .null then []
            else [(bodyName, options.body)]) = none := by
    split
    · rfl
    · cases location <;> rfl
  rw [field?_toDatum, noFlag, noStreaming, noBody, get?_groups]
  simp only [Option.none_or, Option.or_none]

/-- What is held is found in the group of the location. -/
theorem held_eq (location : Location) (name : String) (options : Options) :
    options.held location name =
      (groupAt? location options.groups).bind
        (Entries.get? (.str name)) := by
  have grouped := field?_location location options
  rw [toDatum, Datum.object, Datum.field?] at grouped
  rw [held, toDatum, Datum.object, Datum.valueAt_cons, grouped]
  cases groupAt? location options.groups with
  | none => rfl
  | some values =>
    rw [Option.map_some, Option.bind_some, Option.bind_some,
      Datum.valueAt_cons]
    exact Option.bind_fun_some _

theorem get?_groups_body (groups : List (Location × Entries)) :
    Fields.get? bodyName
        (groups.map fun group => (group.1.name, .map group.2)) = none := by
  induction groups with
  | nil => rfl
  | cons group rest ih =>
    have other : group.1.name ≠ bodyName := by cases group.1 <;> decide
    rw [List.map_cons, Fields.get?_cons, if_neg other, ih]

/-- A request has a body unless it is null. -/
theorem body?_eq (options : Options) :
    options.body? =
      if options.body = .null then none else some options.body := by
  have noFlag :
      Fields.get? bodyName [(throwingName, .bool false)] = none := rfl
  have noStreaming :
      Fields.get? bodyName
          (if options.streaming then [(streamingName, .bool true)] else []) =
        none := by
    cases options.streaming <;> rfl
  rw [body?, field?_toDatum, noFlag, noStreaming, get?_groups_body]
  split <;> rfl

end Options

/-! ## Values that have been placed -/

theorem build_groups_concat
    (streaming : Bool) (values : List Placed) (last : Placed) (body : Datum) :
    (Options.build streaming (values ++ [last]) body).groups =
      putPlaced last (Options.build streaming values body).groups := by
  simp only [Options.build, List.foldl_append, List.foldl_cons, List.foldl_nil]

/-- What is held is the last value placed under the name at the location. -/
theorem held_build
    (streaming : Bool) (values : List Placed) (body : Datum)
    (location : Location) (name : String) :
    (Options.build streaming values body).held location name =
      (values.reverse.find? fun placed =>
        placed.location = location ∧ placed.name = .str name).map
          (·.value) := by
  rw [Options.held_eq]
  induction values using List.reverseRecOn with
  | nil => rfl
  | append_singleton values last ih =>
    rw [build_groups_concat, groupAt?_putPlaced, List.reverse_append,
      List.reverse_singleton, List.singleton_append, List.find?_cons]
    by_cases there : last.location = location
    · rw [if_pos there, Option.bind_some, Entries.get?_text_put]
      by_cases named : last.name = .str name
      · rw [if_pos named]
        simp only [there, named, and_self, decide_true, Option.map_some]
      · rw [if_neg named]
        simp only [named, and_false, decide_false]
        rw [← ih]
        cases groupAt? location
            (Options.build streaming values body).groups <;> rfl
    · rw [if_neg there, ih]
      simp only [there, false_and, decide_false]

theorem exists_of_held_build
    {streaming : Bool} {values : List Placed} {body value : Datum}
    {location : Location} {name : String}
    (found :
      (Options.build streaming values body).held location name = some value) :
    ∃ placed ∈ values, placed.location = location ∧
      placed.name = .str name ∧ placed.value = value := by
  rw [held_build, Option.map_eq_some_iff] at found
  rcases found with ⟨placed, present, same⟩
  have matched := List.find?_some present
  rw [decide_eq_true_iff] at matched
  exact
    ⟨placed, List.mem_reverse.1 (List.mem_of_find?_eq_some present), matched.1,
      matched.2, same⟩

/-- Where something has been placed, something is held. -/
theorem held_build_ne_none
    {values : List Placed} {placed : Placed} {name : String}
    (member : placed ∈ values) (named : placed.name = .str name)
    (streaming : Bool) (body : Datum) :
    (Options.build streaming values body).held placed.location name ≠ none := by
  rw [held_build, Ne, Option.map_eq_none_iff, List.find?_eq_none]
  intro absent
  exact
    absent placed (List.mem_reverse.2 member)
      (decide_eq_true ⟨rfl, named⟩)

/-! ## Chosen examples -/

/-- What identifies a parameter among those of an endpoint. -/
def identity (parameter : Parameter) : Location × String :=
  (parameter.location, parameter.name)

section Chosen

variable {streaming : Bool} {chosen : List (Parameter × Datum)}

theorem exists_of_held_chosenOptions
    {location : Location} {name : String} {value : Datum}
    (found :
      (chosenOptions streaming chosen).held location name = some value) :
    ∃ parameter, (parameter, value) ∈ chosen ∧
      parameter.inAddress = true ∧ identity parameter = (location, name) := by
  rw [chosenOptions] at found
  rcases exists_of_held_build found with ⟨placed, member, here, named, same⟩
  rcases List.mem_map.1 member with ⟨pair, present, rfl⟩
  rcases List.mem_filter.1 present with ⟨isChosen, inAddress⟩
  subst same
  exact
    ⟨pair.1, isChosen, inAddress, Prod.ext here (Scalar.str.inj named)⟩

/-- Of parameters that differ, each has its chosen example held. -/
theorem held_chosenOptions
    (apart : (chosen.map fun pair => identity pair.1).Nodup)
    {parameter : Parameter} {value : Datum}
    (member : (parameter, value) ∈ chosen)
    (inAddress : parameter.inAddress = true) :
    (chosenOptions streaming chosen).held parameter.location parameter.name =
      some value := by
  have placed :
      (⟨parameter.location, .str parameter.name, value⟩ : Placed) ∈
        (chosen.filter (·.1.inAddress)).map fun pair =>
          (⟨pair.1.location, .str pair.1.name, pair.2⟩ : Placed) :=
    List.mem_map.2
      ⟨(parameter, value), List.mem_filter.2 ⟨member, inAddress⟩, rfl⟩
  cases found :
      (chosenOptions streaming chosen).held parameter.location
        parameter.name with
  | none => exact (held_build_ne_none placed rfl _ _ found).elim
  | some other =>
    rcases exists_of_held_chosenOptions found with ⟨own, present, -, same⟩
    have equal :=
      List.inj_on_of_nodup_map apart present member same
    cases equal
    rfl

/-- The body is the example chosen for the one parameter that is a body. -/
theorem body?_chosenOptions_eq_some_iff
    (single : (chosen.filter (!·.1.inAddress)).length ≤ 1) {value : Datum} :
    (chosenOptions streaming chosen).body? = some value ↔
      value ≠ .null ∧ ∃ parameter, (parameter, value) ∈ chosen ∧
        parameter.inAddress = false := by
  have bodies :
      (∃ parameter, (parameter, value) ∈ chosen ∧
          parameter.inAddress = false) ↔
        ∃ pair ∈ chosen.filter (!·.1.inAddress), pair.2 = value := by
    constructor
    · rintro ⟨parameter, member, isBody⟩
      have kept : (!parameter.inAddress) = true := by
        rw [isBody]
        rfl
      exact ⟨_, List.mem_filter.2 ⟨member, kept⟩, rfl⟩
    · rintro ⟨pair, member, rfl⟩
      rcases List.mem_filter.1 member with ⟨isChosen, kept⟩
      exact ⟨pair.1, isChosen, by simpa only [Bool.not_eq_true'] using kept⟩
  have bodyEq :
      (chosenOptions streaming chosen).body =
        ((chosen.filter (!·.1.inAddress)).map (·.2)).getLast?.getD .null :=
    rfl
  rw [Options.body?_eq, bodies, bodyEq]
  cases listed : chosen.filter (!·.1.inAddress) with
  | nil =>
    constructor
    · intro found
      cases found
    · rintro ⟨-, pair, member, -⟩
      cases member
  | cons pair rest =>
    rw [listed, List.length_cons] at single
    have alone : rest = [] := List.length_eq_zero_iff.1 (by omega)
    subst alone
    rw [List.map_singleton, List.getLast?_singleton, Option.getD_some]
    constructor
    · intro found
      split at found
      · cases found
      · next some =>
        cases found
        exact ⟨some, pair, List.mem_singleton_self pair, rfl⟩
    · rintro ⟨some, other, member, rfl⟩
      rw [List.mem_singleton.1 member] at some ⊢
      rw [if_neg some]

end Chosen

/-! ## Requests of variants -/

/--
The request of a variant in which an example is chosen for each of its
parameters.
-/
structure Variant.IsMade (variant : Variant) (chosen : List Datum)
    (request : Options) : Prop where
  /-- The examples of a parameter are its own, or null if it has none. -/
  examples :
    List.Forall₂ (fun value parameter => value ∈ parameter.usedExamples) chosen
      variant.parameters
  /-- Every value for the address is held under its location and name. -/
  held : ∀ parameter value, (parameter, value) ∈ variant.parameters.zip chosen →
    parameter.inAddress = true →
      request.held parameter.location parameter.name = some value
  /-- Nothing else is held. -/
  nothingElse : ∀ location name value,
    request.held location name = some value →
      ∃ parameter ∈ variant.parameters, parameter.inAddress = true ∧
        identity parameter = (location, name)
  /-- The body is the example of a parameter that is a body, unless it is null. -/
  body : ∀ value, request.body? = some value ↔
    value ≠ .null ∧
      ∃ parameter, (parameter, value) ∈ variant.parameters.zip chosen ∧
        parameter.inAddress = false

theorem map_fst_zip_of_examples
    {variant : Variant} {chosen : List Datum}
    (examples :
      List.Forall₂ (fun value parameter => value ∈ parameter.usedExamples)
        chosen variant.parameters) :
    (variant.parameters.zip chosen).map Prod.fst = variant.parameters :=
  List.map_fst_zip (Nat.le_of_eq examples.length_eq.symm)

/-- Every parameter of the address has one of its examples held. -/
theorem Variant.IsMade.exists_held
    {variant : Variant} {chosen : List Datum} {request : Options}
    (isMade : variant.IsMade chosen request) {parameter : Parameter}
    (member : parameter ∈ variant.parameters)
    (inAddress : parameter.inAddress = true) :
    ∃ value ∈ parameter.usedExamples,
      request.held parameter.location parameter.name = some value := by
  rw [← map_fst_zip_of_examples isMade.examples] at member
  rcases List.mem_map.1 member with ⟨⟨own, value⟩, paired, rfl⟩
  have used := (List.forall₂_iff_zip.1 isMade.examples.flip).2 paired
  exact ⟨value, used, isMade.held own value paired inAddress⟩

/-- The options for a choice of examples are a request of the variant. -/
theorem Variant.isMade_options
    {variant : Variant}
    (apart : (variant.parameters.map identity).Nodup)
    (single : (variant.parameters.filter (!·.inAddress)).length ≤ 1)
    {chosen : List Datum}
    (examples :
      List.Forall₂ (fun value parameter => value ∈ parameter.usedExamples)
        chosen variant.parameters)
    (streaming : Bool) :
    variant.IsMade chosen (variant.options streaming chosen) := by
  have parametersEq := map_fst_zip_of_examples examples
  refine ⟨examples, ?_, ?_, ?_⟩
  · intro parameter value member inAddress
    rw [← parametersEq, List.map_map] at apart
    exact held_chosenOptions apart member inAddress
  · intro location name value found
    rcases exists_of_held_chosenOptions found with
      ⟨parameter, member, inAddress, same⟩
    exact ⟨parameter, (List.of_mem_zip member).1, inAddress, same⟩
  · intro value
    refine body?_chosenOptions_eq_some_iff ?_
    rw [← parametersEq, List.filter_map, List.length_map] at single
    exact single

theorem nodup_identities_of_mem_variants
    {parameters : List Parameter} {variant : Variant}
    (apart : (parameters.map identity).Nodup)
    (isVariant : variant ∈ variants parameters) :
    (variant.parameters.map identity).Nodup := by
  rcases subperm_of_mem_variants isVariant with ⟨some, same, part⟩
  exact (same.map identity).nodup_iff.1 (apart.sublist (part.map identity))

/-- Parameters that are required belong to every variant. -/
theorem mem_of_required
    {parameters : List Parameter} {variant : Variant}
    (isVariant : variant ∈ variants parameters) {parameter : Parameter}
    (member : parameter ∈ parameters) (required : parameter.required = true) :
    parameter ∈ variant.parameters := by
  have kept : parameter ∈ parameters.filter (·.required) :=
    List.mem_filter.2 ⟨member, required⟩
  rw [variants] at isVariant
  rcases List.mem_cons.1 isVariant with rfl | single
  · exact List.mem_append_left _ kept
  · rcases List.mem_map.1 single with ⟨own, -, rfl⟩
    exact List.mem_append_left _ kept

/-- Every example request is made for a variant. -/
theorem exists_of_mem_exampleRequests
    {streaming : Bool} {parameters : List Parameter}
    {request : String × Options}
    (member :
      request ∈ Named.putAll [] (listedRequests streaming parameters)) :
    ∃ variant ∈ variants parameters, ∃ chosen ∈ variant.combinations,
      request.1 ∈ variant.keys ∧
        request.2 = variant.options streaming chosen := by
  rcases Named.mem_or_mem_of_mem_putAll member with none | listed
  · cases none
  · rcases List.mem_flatMap.1 listed with ⟨variant, isVariant, paired⟩
    rcases List.of_mem_zip paired with ⟨isKey, isOptions⟩
    rcases List.mem_map.1 isOptions with ⟨chosen, isChoice, same⟩
    exact ⟨variant, isVariant, chosen, isChoice, isKey, same.symm⟩

/-- Two bodies among at most one are the same. -/
theorem eq_of_bodies
    {parameters : List Parameter}
    (single : (parameters.filter (!·.inAddress)).length ≤ 1)
    {one other : Parameter} (isOne : one ∈ parameters)
    (isOther : other ∈ parameters) (bodyOne : one.inAddress = false)
    (bodyOther : other.inAddress = false) : one = other := by
  have kept {parameter : Parameter} (member : parameter ∈ parameters)
      (isBody : parameter.inAddress = false) :
      parameter ∈ parameters.filter (!·.inAddress) := by
    refine List.mem_filter.2 ⟨member, ?_⟩
    rw [isBody]
    rfl
  have first := kept isOne bodyOne
  have second := kept isOther bodyOther
  match bodies : parameters.filter (!·.inAddress) with
  | [] =>
    rw [bodies] at first
    cases first
  | [body] =>
    rw [bodies, List.mem_singleton] at first second
    rw [first, second]
  | _ :: _ :: _ =>
    rw [bodies, List.length_cons, List.length_cons] at single
    omega

/--
Parameters of different location or name, at most one of which is a body, have
well-formed example requests.  Each of them is the request of a variant and a
choice of examples.  It holds a value for every required parameter of the
address and for no parameter that is not in its variant.
-/
theorem exampleRequests_wellFormed
    {parameters : List Parameter}
    (apart : (parameters.map identity).Nodup)
    (lists : ∀ parameter ∈ parameters, Schema.ListsExamples parameter.schema)
    (single : (parameters.filter (!·.inAddress)).length ≤ 1)
    (streaming : Bool) :
    ∃ requests, exampleRequests streaming parameters = .ok requests ∧
      ∀ request ∈ requests, ∃ variant ∈ variants parameters, ∃ chosen,
        request.1 ∈ variant.keys ∧ variant.IsMade chosen request.2 ∧
          (∀ parameter ∈ parameters, parameter.required = true →
            parameter ∈ variant.parameters ∧
              (parameter.inAddress = true →
                ∃ value ∈ parameter.usedExamples,
                  request.2.held parameter.location parameter.name =
                    some value)) ∧
          ∀ parameter ∈ parameters, parameter ∉ variant.parameters →
            request.2.held parameter.location parameter.name = none ∧
              (parameter.inAddress = false → request.2.body? = none) := by
  refine ⟨_, exampleRequests_eq lists streaming, ?_⟩
  intro request member
  rcases exists_of_mem_exampleRequests member with
    ⟨variant, isVariant, chosen, isChoice, isKey, made⟩
  have part := subperm_of_mem_variants isVariant
  have examples := isChoice
  rw [Variant.combinations, mem_choices_iff, List.forall₂_map_right_iff]
    at examples
  have isMade : variant.IsMade chosen request.2 := by
    rw [made]
    exact
      Variant.isMade_options
        (nodup_identities_of_mem_variants apart isVariant)
        (Nat.le_trans (part.filter _).length_le single) examples streaming
  refine ⟨variant, isVariant, chosen, isKey, isMade, ?_, ?_⟩
  · intro parameter isParameter required
    have inside := mem_of_required isVariant isParameter required
    exact ⟨inside, isMade.exists_held inside⟩
  · intro parameter isParameter outside
    constructor
    · rw [Option.eq_none_iff_forall_ne_some]
      intro value found
      rcases isMade.nothingElse _ _ value found with
        ⟨other, inside, -, same⟩
      have equal :=
        List.inj_on_of_nodup_map apart (part.subset inside) isParameter same
      exact outside (equal ▸ inside)
    · intro isBody
      rw [Option.eq_none_iff_forall_ne_some]
      intro value found
      rcases ((isMade.body value).1 found).2 with ⟨other, paired, bodyOther⟩
      have inside := (List.of_mem_zip paired).1
      have equal :=
        eq_of_bodies single (part.subset inside) isParameter bodyOther isBody
      exact outside (equal ▸ inside)

/-- The id of a row, an optional mark without examples, and an optional body. -/
def markParameters : List Parameter :=
  [.path "id" [("examples", .list [.str "a"])],
    .query "mark" false [],
    .entity "application/json" false [("examples", .list [.null, .int 1])]]

/-- All requests for a row hold its id. -/
theorem exampleRequests_wellFormed_mark :
    ∃ requests, exampleRequests false markParameters = .ok requests ∧
      requests.length = 5 ∧
        ∀ request ∈ requests,
          request.2.held .path "id" = some (.str "a") := by
  have lists : ∀ parameter ∈ markParameters,
      Schema.ListsExamples parameter.schema := by
    simp only [markParameters, List.forall_mem_cons]
    refine ⟨?_, ?_, ?_, List.forall_mem_nil _⟩
    · rintro _ ⟨⟩
      exact ⟨_, rfl⟩
    · rintro _ ⟨⟩
    · rintro _ ⟨⟩
      exact ⟨_, rfl⟩
  rcases exampleRequests_wellFormed (by decide) lists (by decide) false with
    ⟨requests, made, each⟩
  have five :
      (exampleRequests false markParameters).map List.length = .ok 5 := by
    decide +kernel
  rw [made] at five
  refine ⟨requests, made, Except.ok.inj five, ?_⟩
  intro request member
  rcases each request member with
    ⟨variant, -, chosen, -, -, required, -⟩
  rcases (required _ List.mem_cons_self rfl).2 rfl with ⟨value, used, held⟩
  cases List.mem_singleton.1 used
  exact held

end Request

end ApiAtlas
