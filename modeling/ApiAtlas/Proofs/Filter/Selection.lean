import ApiAtlas.Proofs.Filter.Apart
import Mathlib.Data.List.Induction

/-!
# Bodies of several selections

A body is filled by one selection after another.  A selection changes what
stands at its own place and the maps on the way there, and nothing at a place
that its own diverges from.  As the fields of a schema lie apart, no selection
is lost to another: the last value for a field and an operator is the one that
stands in the body, and only the order of keys depends on the order in which
different fields and operators are selected.
-/

namespace ApiAtlas.Filter

open Datum (valueAt valueAt_cons valueAt_append valueAt_append_cons_empty)

/-- The keys under which a body holds what is selected for a path. -/
def keysOf (path : String) : List Scalar := (pathNames path).map .str

/-- The place of the value of an operator. -/
def placeOf (path : String) (operator : Operator) : List Scalar :=
  keysOf path ++ [.str operator.name]

/-! ## One value put in its place -/

section PutAt

variable {operator : Operator} {value : Datum} {names : List String}
  {body : Entries} {keys : List Scalar}

/-- Behind its place stands what the value itself holds. -/
theorem valueAt_putAt_behind (names : List String) (body : Entries)
    (rest : List Scalar) :
    valueAt (names.map .str ++ .str operator.name :: rest)
        (.map (putAt operator value names body)) =
      valueAt rest value := by
  induction names generalizing body with
  | nil =>
    rw [List.map_nil, List.nil_append, valueAt_cons, putAt,
      Entries.get?_put_self]
    rfl
  | cons name names ih =>
    rw [List.map_cons, List.cons_append, valueAt_cons, putAt,
      Entries.get?_put_self]
    exact ih (membersAt name body)

/-- On the way to its place are maps. -/
theorem exists_valueAt_putAt
    (body : Entries) (begins : keys <+: names.map .str) :
    ∃ members,
      valueAt keys (.map (putAt operator value names body)) =
        some (.map members) := by
  induction names generalizing body keys with
  | nil =>
    rw [List.map_nil, List.prefix_nil] at begins
    subst begins
    exact ⟨_, rfl⟩
  | cons name names ih =>
    cases keys with
    | nil => exact ⟨_, rfl⟩
    | cons key keys =>
      rw [List.map_cons, List.cons_prefix_cons] at begins
      rcases begins with ⟨rfl, begins⟩
      rw [valueAt_cons, putAt, Entries.get?_put_self]
      exact ih (membersAt name body) begins

/-- Below a name stands what its members hold; others than maps hold nothing. -/
theorem valueAt_membersAt (name : String) (key : Scalar) (rest : List Scalar) :
    valueAt (key :: rest) (.map (membersAt name body)) =
      (Entries.get? (.str name) body).bind (valueAt (key :: rest)) := by
  rw [membersAt]
  split
  · next members found => rw [found, Option.bind_some]
  · next noMap =>
    cases found : Entries.get? (.str name) body with
    | none => rfl
    | some held =>
      cases held with
      | map members => exact (noMap members found).elim
      | _ => rfl

/-- At a place that diverges from its own nothing changes. -/
theorem valueAt_putAt_of_diverge
    (diverge : Diverge keys (names.map .str ++ [.str operator.name])) :
    valueAt keys (.map (putAt operator value names body)) =
      valueAt keys (.map body) := by
  induction names generalizing body keys with
  | nil =>
    cases keys with
    | nil => exact (diverge.1 (List.nil_prefix)).elim
    | cons key rest =>
      have other : key ≠ .str operator.name := by
        rintro rfl
        exact diverge.2 (List.prefix_append [Scalar.str operator.name] rest)
      rw [valueAt_cons, valueAt_cons, putAt, Entries.get?_put_text,
        if_neg other]
  | cons name names ih =>
    cases keys with
    | nil => exact (diverge.1 (List.nil_prefix)).elim
    | cons key rest =>
      rw [valueAt_cons, valueAt_cons, putAt, Entries.get?_put_text]
      by_cases same : key = .str name
      · subst same
        have below :
            Diverge rest (names.map .str ++ [.str operator.name]) := by
          rw [Diverge, List.map_cons, List.cons_append,
            List.cons_prefix_cons, List.cons_prefix_cons] at diverge
          exact
            ⟨fun begins => diverge.1 ⟨rfl, begins⟩,
              fun begins => diverge.2 ⟨rfl, begins⟩⟩
        rw [if_pos rfl, Option.bind_some, ih below]
        cases rest with
        | nil => exact (below.1 (List.nil_prefix)).elim
        | cons next rest => exact valueAt_membersAt name next rest
      · rw [if_neg same]

/-- A place is on the way to the place of a value, behind it, or elsewhere. -/
theorem way_behind_or_diverge (keys : List Scalar) (path : String)
    (operator : Operator) :
    keys <+: keysOf path ∨ placeOf path operator <+: keys ∨
      Diverge keys (placeOf path operator) := by
  by_cases way : keys <+: keysOf path
  · exact Or.inl way
  · by_cases behind : placeOf path operator <+: keys
    · exact Or.inr (Or.inl behind)
    · refine Or.inr (Or.inr ⟨?_, behind⟩)
      intro begins
      rcases List.prefix_concat_iff.1 begins with same | begins
      · exact behind (same ▸ List.prefix_rfl)
      · exact way begins

theorem isProper_putAt
    (proper : Datum.IsProper (.map body)) (inner : value.IsProper) :
    Datum.IsProper (.map (putAt operator value names body)) := by
  induction names generalizing body with
  | nil => exact proper.put inner
  | cons name names ih =>
    refine proper.put (ih ?_)
    rw [membersAt]
    split
    · next members found => exact proper.of_get? found
    · exact .empty

end PutAt

/-! ## Selections one after another -/

/-- The selections of one operator for one path, in order. -/
def selectionsOf (path : String) (operator : Operator)
    (selections : List Expression) : List Expression :=
  selections.filter fun selected =>
    selected.path = path ∧ selected.operator = operator

/-- The value that was selected last for a path and an operator. -/
def lastValue (path : String) (operator : Operator)
    (selections : List Expression) : Option Datum :=
  (selectionsOf path operator selections).getLast?.map Expression.value

/--
A body that holds under every selected path the operators selected for it with
their last values, and nothing else anywhere.
-/
structure Holds (selections : List Expression) (body : Entries) : Prop where
  operators : ∀ selected ∈ selections, ∃ members,
    valueAt (keysOf selected.path) (.map body) = some (.map members) ∧
      ∀ key value,
        Entries.get? key members = some value ↔
          ∃ operator, key = .str operator.name ∧
            lastValue selected.path operator selections = some value
  nothingElse : ∀ keys value, valueAt keys (.map body) = some value →
    keys = [] ∨ ∃ selected ∈ selections,
      keys <+: keysOf selected.path ∨
        placeOf selected.path selected.operator <+: keys

theorem bodyOf_concat (selections : List Expression) (last : Expression) :
    bodyOf (selections ++ [last]) = addExpression (bodyOf selections) last :=
  List.foldl_concat ..

theorem lastValue_concat
    (path : String) (operator : Operator) (selections : List Expression)
    (last : Expression) :
    lastValue path operator (selections ++ [last]) =
      if last.path = path ∧ last.operator = operator then some last.value
      else lastValue path operator selections := by
  rw [lastValue, selectionsOf, List.filter_append]
  split
  · next same => simp [same]
  · next other => simp [other, lastValue, selectionsOf]

/-- Paths whose keys diverge. -/
def LieApart (isPath : String → Prop) : Prop :=
  ∀ one other, isPath one → isPath other → one ≠ other →
    Diverge (keysOf one) (keysOf other)

section LieApart

variable {isPath : String → Prop} {selections others : List Expression}

theorem diverge_placeOf
    (apart : LieApart isPath) {one other : String} (isOne : isPath one)
    (isOther : isPath other) {operator another : Operator}
    (different : ¬ (other = one ∧ another = operator)) :
    Diverge (placeOf one operator) (placeOf other another) := by
  by_cases same : other = one
  · subst same
    apply diverge_append_cons
    intro names
    have operators := congrArg Operator.ofName? (Scalar.str.inj names)
    rw [Operator.ofName?_name, Operator.ofName?_name, Option.some.injEq]
      at operators
    exact different ⟨rfl, operators.symm⟩
  · exact (apart one other isOne isOther (Ne.symm same)).append _ _

/-- At its place stands the value that was selected last. -/
theorem valueAt_placeOf
    (apart : LieApart isPath)
    (among : ∀ selected ∈ selections, isPath selected.path) {path : String}
    (isOne : isPath path) (operator : Operator) :
    valueAt (placeOf path operator) (.map (bodyOf selections)) =
      lastValue path operator selections := by
  induction selections using List.reverseRecOn with
  | nil => exact valueAt_append_cons_empty _ _ _
  | append_singleton selections last ih =>
    rw [List.forall_mem_append, List.forall_mem_singleton] at among
    rw [bodyOf_concat, lastValue_concat, addExpression]
    split
    · next same =>
      rcases same with ⟨rfl, rfl⟩
      exact valueAt_putAt_behind (pathNames last.path) _ []
    · next different =>
      rw [← ih among.1]
      exact
        valueAt_putAt_of_diverge
          (diverge_placeOf apart isOne among.2 different)

/-- Under a selected path stands a map. -/
theorem exists_valueAt_keysOf
    (apart : LieApart isPath)
    (among : ∀ selected ∈ selections, isPath selected.path)
    {selected : Expression} (member : selected ∈ selections) :
    ∃ members,
      valueAt (keysOf selected.path) (.map (bodyOf selections)) =
        some (.map members) := by
  induction selections using List.reverseRecOn with
  | nil => cases member
  | append_singleton selections last ih =>
    have isOne := among selected member
    rw [List.forall_mem_append, List.forall_mem_singleton] at among
    rw [bodyOf_concat, addExpression]
    by_cases same : selected.path = last.path
    · rw [same]
      exact exists_valueAt_putAt _ List.prefix_rfl
    · have earlier : selected ∈ selections := by
        rcases List.mem_append.1 member with earlier | now
        · exact earlier
        · exact (same (congrArg _ (List.mem_singleton.1 now))).elim
      rcases ih among.1 earlier with ⟨members, found⟩
      refine ⟨members, Eq.trans (valueAt_putAt_of_diverge ?_) found⟩
      have diverge :=
        (apart _ _ isOne among.2 same).append [] [.str last.operator.name]
      rwa [List.append_nil] at diverge

/-- What stands in a body is on the way to a selected value or part of one. -/
theorem exists_selected_of_valueAt
    {keys : List Scalar} {value : Datum}
    (found : valueAt keys (.map (bodyOf selections)) = some value) :
    keys = [] ∨ ∃ selected ∈ selections,
      keys <+: keysOf selected.path ∨
        placeOf selected.path selected.operator <+: keys := by
  induction selections using List.reverseRecOn with
  | nil =>
    cases keys with
    | nil => exact Or.inl rfl
    | cons key rest => cases found
  | append_singleton selections last ih =>
    have lastMember : last ∈ selections ++ [last] := by simp
    rcases way_behind_or_diverge keys last.path last.operator with
      way | behind | diverge
    · exact Or.inr ⟨last, lastMember, Or.inl way⟩
    · exact Or.inr ⟨last, lastMember, Or.inr behind⟩
    · rw [bodyOf_concat, addExpression] at found
      have before := (valueAt_putAt_of_diverge diverge).symm.trans found
      rcases ih before with none | ⟨selected, member, near⟩
      · exact Or.inl none
      · exact Or.inr ⟨selected, List.mem_append_left _ member, near⟩

/-- The only keys under a selected path are the operators selected for it. -/
theorem eq_operator_of_valueAt
    (apart : LieApart isPath)
    (among : ∀ selected ∈ selections, isPath selected.path) {path : String}
    (isOne : isPath path) {key : Scalar} {value : Datum}
    (found :
      valueAt (keysOf path ++ [key]) (.map (bodyOf selections)) =
        some value) :
    ∃ operator : Operator, key = .str operator.name := by
  rcases exists_selected_of_valueAt found with
    none | ⟨selected, member, way | behind⟩
  · simp at none
  · by_cases same : path = selected.path
    · subst same
      have longer := way.length_le
      rw [List.length_append] at longer
      exact (Nat.not_succ_le_self _ longer).elim
    · have diverge := apart _ _ isOne (among selected member) same
      exact
        (diverge.1 ((List.prefix_append _ _).trans way)).elim
  · by_cases same : path = selected.path
    · subst same
      rw [placeOf, List.prefix_append_right_inj] at behind
      exact
        ⟨selected.operator, (List.cons_prefix_cons.1 behind).1.symm⟩
    · have diverge :=
        (apart _ _ isOne (among selected member) same).append [key]
          [.str selected.operator.name]
      exact (diverge.2 behind).elim

theorem holds_bodyOf
    (apart : LieApart isPath)
    (among : ∀ selected ∈ selections, isPath selected.path) :
    Holds selections (bodyOf selections) := by
  refine ⟨?_, fun _ _ found => exists_selected_of_valueAt found⟩
  intro selected member
  have isOne := among selected member
  rcases exists_valueAt_keysOf apart among member with ⟨members, held⟩
  have under (key : Scalar) :
      valueAt (keysOf selected.path ++ [key]) (.map (bodyOf selections)) =
        Entries.get? key members := by
    rw [valueAt_append, held, Option.bind_some, valueAt_cons]
    exact Option.bind_fun_some _
  refine ⟨members, held, ?_⟩
  intro key value
  constructor
  · intro found
    rw [← under] at found
    rcases eq_operator_of_valueAt apart among isOne found with
      ⟨operator, rfl⟩
    exact
      ⟨operator, rfl,
        (valueAt_placeOf apart among isOne operator).symm.trans found⟩
  · rintro ⟨operator, rfl, last⟩
    rw [← under]
    exact (valueAt_placeOf apart among isOne operator).trans last

end LieApart

theorem isProper_bodyOf
    {selections : List Expression}
    (proper : ∀ selected ∈ selections, selected.value.IsProper) :
    Datum.IsProper (.map (bodyOf selections)) := by
  induction selections using List.reverseRecOn with
  | nil => exact .empty
  | append_singleton selections last ih =>
    rw [List.forall_mem_append, List.forall_mem_singleton] at proper
    rw [bodyOf_concat]
    exact isProper_putAt (ih proper.1) proper.2

/-! ## Selections in another order -/

/-- Selections of the same values, those of one path and operator in one order. -/
def KeepsOrder (selections others : List Expression) : Prop :=
  ∀ path operator,
    selectionsOf path operator others = selectionsOf path operator selections

/-- Neighbours that differ in path or operator may change places. -/
theorem keepsOrder_swap
    {one other : Expression}
    (different : one.path ≠ other.path ∨ one.operator ≠ other.operator)
    (front behind : List Expression) :
    KeepsOrder (front ++ one :: other :: behind)
      (front ++ other :: one :: behind) := by
  intro path operator
  simp only [selectionsOf, List.filter_append]
  congr 1
  by_cases isOne : one.path = path ∧ one.operator = operator
  · have notOther : ¬ (other.path = path ∧ other.operator = operator) := by
      rintro ⟨pathEq, operatorEq⟩
      rcases different with paths | operators
      · exact paths (isOne.1.trans pathEq.symm)
      · exact operators (isOne.2.trans operatorEq.symm)
    simp [isOne, notOther]
  · simp [List.filter_cons, isOne]

section KeepsOrder

variable {isPath : String → Prop} {selections others : List Expression}

theorem KeepsOrder.mem_iff
    (keeps : KeepsOrder selections others) (selected : Expression) :
    selected ∈ others ↔ selected ∈ selections := by
  have mem_iff (list : List Expression) :
      selected ∈ list ↔
        selected ∈ selectionsOf selected.path selected.operator list := by
    simp [selectionsOf]
  rw [mem_iff others, mem_iff selections, keeps]

/--
What a body holds at each place does not depend on the order: maps on the way
to a selected path, the last value at its place, and nothing elsewhere.
-/
theorem KeepsOrder.sameAtPlaces
    (apart : LieApart isPath)
    (among : ∀ selected ∈ selections, isPath selected.path)
    (keeps : KeepsOrder selections others) :
    Datum.SameAtPlaces (.map (bodyOf selections)) (.map (bodyOf others)) := by
  have amongOthers : ∀ selected ∈ others, isPath selected.path :=
    fun selected member => among selected ((keeps.mem_iff selected).1 member)
  intro keys
  by_cases way : ∃ selected ∈ selections, keys <+: keysOf selected.path
  · rcases way with ⟨selected, member, begins⟩
    have isMap {list : List Expression}
        (amongList : ∀ selected ∈ list, isPath selected.path)
        (memberOf : selected ∈ list) :
        ∃ members, valueAt keys (.map (bodyOf list)) = some (.map members) :=
      Datum.exists_map_on_way begins
        (exists_valueAt_keysOf apart amongList memberOf)
    rcases isMap among member with ⟨members, found⟩
    rcases isMap amongOthers ((keeps.mem_iff selected).2 member) with
      ⟨otherMembers, foundOther⟩
    rw [found, foundOther]
    rfl
  by_cases behind :
      ∃ selected ∈ selections,
        placeOf selected.path selected.operator <+: keys
  · rcases behind with ⟨selected, member, rest, rfl⟩
    have isOne := among selected member
    rw [valueAt_append, valueAt_append,
      valueAt_placeOf apart among isOne,
      valueAt_placeOf apart amongOthers isOne, lastValue, lastValue, keeps]
  · cases keys with
    | nil => rfl
    | cons key rest =>
      have absent {list : List Expression}
          (same : ∀ selected, selected ∈ list → selected ∈ selections) :
          valueAt (key :: rest) (.map (bodyOf list)) = none := by
        rw [Option.eq_none_iff_forall_ne_some]
        intro value found
        rcases exists_selected_of_valueAt found with
          none | ⟨selected, member, onWay | within⟩
        · cases none
        · exact way ⟨selected, same selected member, onWay⟩
        · exact behind ⟨selected, same selected member, within⟩
      rw [absent fun _ member => member,
        absent fun selected member => (keeps.mem_iff selected).1 member]

end KeepsOrder

/-! ## Selections of the fields of a schema -/

theorem diverge_keysOf
    {one other : String} (diverge : Diverge (pathNames one) (pathNames other)) :
    Diverge (keysOf one) (keysOf other) := by
  have injective : Function.Injective Scalar.str := fun _ _ => Scalar.str.inj
  rw [Diverge, keysOf, keysOf, List.prefix_map_iff_of_injective injective,
    List.prefix_map_iff_of_injective injective]
  exact diverge

theorem lieApart_of_pairwise
    {fields : List Field}
    (pairwise :
      fields.Pairwise fun one other =>
        Diverge (pathNames one.path) (pathNames other.path)) :
    LieApart fun path => ∃ field ∈ fields, path = field.path := by
  rintro _ _ ⟨one, memberOne, rfl⟩ ⟨other, memberOther, rfl⟩ different
  have symmetric :
      Std.Symm fun one other : Field =>
        Diverge (pathNames one.path) (pathNames other.path) :=
    ⟨fun _ _ => Diverge.symm⟩
  apply diverge_keysOf
  exact
    pairwise.forall memberOne memberOther
      fun same => different (congrArg Field.path same)

/--
The fields of a schema have different paths, none of whose names begin with
those of another.  Whatever is selected for them, a body holds under each
selected path exactly the selected operators with their last values, and
nothing else.  Selections that differ in field or operator may be made in any
order.
-/
theorem bodyOf_holds_selections
    {schema : Datum} {fields : List Field} (proper : schema.IsProper)
    (clear : ∀ trail leaf, LeafAt schema trail leaf →
      ∀ name ∈ namesOf trail, IsClearName name)
    (found : fieldsOf schema = .ok fields) :
    (fields.map Field.path).Nodup ∧
      (fields.Pairwise fun one other =>
        Diverge (pathNames one.path) (pathNames other.path)) ∧
      ∀ selections : List Expression,
        (∀ selected ∈ selections, ∃ field ∈ fields,
          selected.path = field.path) →
        Holds selections (bodyOf selections) ∧
          ((∀ selected ∈ selections, selected.value.IsProper) →
            Datum.IsProper (.map (bodyOf selections))) ∧
          ∀ others, KeepsOrder selections others →
            Datum.Alike (.map (bodyOf selections))
              (.map (bodyOf others)) := by
  have pairwise := pairwise_diverge_of_fieldsOf proper clear found
  have apart := lieApart_of_pairwise pairwise
  refine ⟨?_, pairwise, ?_⟩
  · rw [List.Nodup, List.pairwise_map]
    refine pairwise.imp ?_
    intro one other diverge same
    exact diverge.1 (same ▸ List.prefix_rfl)
  · intro selections among
    refine ⟨holds_bodyOf apart among, isProper_bodyOf, ?_⟩
    intro others keeps
    exact (keeps.sameAtPlaces apart among).alike

/-! ## A span with two ends -/

theorem isClearName_of_object
    {entries properties : Entries} (noWrapper : leaf? (.map entries) = none)
    (noBranch : containerBranch? entries = none)
    (isObject : Entries.get? (.str "type") entries = some (.str "object"))
    (held :
      Entries.get? (.str "properties") entries = some (.map properties))
    (each : ∀ property ∈ properties, IsClearName property.1 ∧
      ∀ trail leaf, LeafAt property.2 trail leaf →
        ∀ name ∈ namesOf trail, IsClearName name) :
    ∀ trail leaf, LeafAt (.map entries) trail leaf →
      ∀ name ∈ namesOf trail, IsClearName name := by
  intro trail leaf found
  rcases leafAt_cases noWrapper noBranch found with
    ⟨others, name, node, rest, -, otherHeld, member, below, rfl⟩ |
      ⟨inner, rest, isArray, -⟩ | ⟨type, stated, isScalar, -⟩
  · cases held.symm.trans otherHeld
    rw [namesOf, List.forall_mem_cons]
    exact ⟨(each _ member).1, (each _ member).2 rest leaf below⟩
  · simp [isObject] at isArray
  · cases isObject.symm.trans stated
    simp [scalarTypes] at isScalar

/-- A schema of a status and of a span between two numbers. -/
def spanSchema : Entries :=
  Fields.toEntries
    [("type", .str "object"),
      ("properties",
        .object
          [("status", .object [("type", .str "string")]),
            ("span",
              .object
                [("type", .str "object"),
                  ("properties",
                    .object
                      [("from", .object [("type", .str "integer")]),
                        ("to", .object [("type", .str "integer")])])])])]

theorem isProper_spanSchema : Datum.IsProper (.map spanSchema) := by
  have stated (type : String) :
      Datum.IsProper (.object [("type", .str type)]) :=
    .object (List.pairwise_singleton _ _)
      (List.forall_mem_singleton.2 (.scalar _))
  refine .object (by decide) ?_
  rw [List.forall_mem_cons, List.forall_mem_singleton]
  refine ⟨.scalar _, .object (by decide) ?_⟩
  rw [List.forall_mem_cons, List.forall_mem_singleton]
  refine ⟨stated _, .object (by decide) ?_⟩
  rw [List.forall_mem_cons, List.forall_mem_singleton]
  refine ⟨.scalar _, .object (by decide) ?_⟩
  rw [List.forall_mem_cons, List.forall_mem_singleton]
  exact ⟨stated _, stated _⟩

theorem isClearName_of_spanSchema :
    ∀ trail leaf, LeafAt (.map spanSchema) trail leaf →
      ∀ name ∈ namesOf trail, IsClearName name := by
  have ofScalar (type : String) (isScalar : type ∈ scalarTypes) :
      ∀ trail leaf, LeafAt (.object [("type", .str type)]) trail leaf →
        ∀ name ∈ namesOf trail, IsClearName name := by
    intro trail leaf found
    have same : trail = [] :=
      (eq_of_leafAt_scalar (leaf?_eq_none rfl rfl) rfl rfl isScalar found).1
    rw [same]
    exact List.forall_mem_nil _
  apply isClearName_of_object (leaf?_eq_none rfl rfl) rfl rfl rfl
  rintro property (_ | ⟨_, _ | ⟨_, none⟩⟩)
  · exact ⟨.text (by decide) (by decide +kernel), ofScalar "string" (by decide)⟩
  · refine ⟨.text (by decide) (by decide +kernel), ?_⟩
    apply isClearName_of_object (leaf?_eq_none rfl rfl) rfl rfl rfl
    rintro property (_ | ⟨_, _ | ⟨_, none⟩⟩)
    · exact ⟨.text (by decide) (by decide +kernel), ofScalar "integer" (by decide)⟩
    · exact ⟨.text (by decide) (by decide +kernel), ofScalar "integer" (by decide)⟩
    · cases none
  · cases none

def spanFromOne : Expression := ⟨"span.from", .atLeast, .int 1⟩

def statusNew : Expression := ⟨"status", .equal, .str "new"⟩

/-- A value may look like what is selected for a field. -/
def spanToObject : Expression :=
  ⟨"span.to", .less, .object [("Lt", .int 9)]⟩

/-- The two ends keep each other's place, whichever comes first. -/
theorem bodyOf_holds_selections_span :
    Holds [spanFromOne, statusNew, spanToObject]
        (bodyOf [spanFromOne, statusNew, spanToObject]) ∧
      Datum.IsProper (.map (bodyOf [spanFromOne, statusNew, spanToObject])) ∧
        Datum.Alike
          (.map (bodyOf [spanFromOne, statusNew, spanToObject]))
          (.map (bodyOf [statusNew, spanFromOne, spanToObject])) := by
  have found :
      fieldsOf (.map spanSchema) =
        .ok
          [⟨"status", some "string", [.str "example"]⟩,
            ⟨"span.from", some "integer", [.int 0]⟩,
            ⟨"span.to", some "integer", [.int 0]⟩] := by
    decide +kernel
  rcases
      bodyOf_holds_selections isProper_spanSchema isClearName_of_spanSchema
        found with
    ⟨-, -, holds⟩
  rcases holds [spanFromOne, statusNew, spanToObject]
      (by simp [spanFromOne, statusNew, spanToObject]) with
    ⟨body, proper, alike⟩
  refine ⟨body, proper ?_, alike _ ?_⟩
  · rw [List.forall_mem_cons, List.forall_mem_cons, List.forall_mem_singleton]
    refine ⟨.scalar _, .scalar _, ?_⟩
    exact
      .object (List.pairwise_singleton _ _)
        (List.forall_mem_singleton.2 (.scalar _))
  · exact keepsOrder_swap (Or.inl (by decide)) [] [spanToObject]

end ApiAtlas.Filter
