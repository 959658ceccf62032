import ApiAtlas.Proofs.Outcome
import ApiAtlas.Proofs.Table.Column
import ApiAtlas.Table.Calls
import Mathlib.Data.List.Induction

/-!
# View stacks after any calls

One call either gives a new table, which is put on top or is the only one left,
or takes the top table off, or changes nothing.  So each table of a stack was
opened by one of the calls before, and all but the lowest one from a cell of
the table below.
-/

namespace ApiAtlas.Table

/-! ## One call -/

namespace Call

variable {endpoint : Endpoint} {rows value : Datum} {field : DisplayField}
  {call : Call} {level : Level} {stack : ViewStack}

theorem perform_openRoot (endpoint : Endpoint) (rows : Datum)
    (stack : ViewStack) :
    (openRoot endpoint rows).perform stack =
      match ViewStack.rootLevel endpoint rows with
      | .ok level => (.ok (some level), ⟨[level]⟩)
      | .error fault => (.error fault, stack) := by
  rw [perform, steps]
  cases ViewStack.rootLevel endpoint rows <;> rfl

theorem perform_drillDown (value : Datum) (field : DisplayField)
    (stack : ViewStack) :
    (drillDown value field).perform stack =
      match ViewStack.nestedLevel? value field with
      | some level => (.ok (some level), stack.push level)
      | none => (.ok none, stack) := by
  rw [perform, steps]
  cases ViewStack.nestedLevel? value field <;> rfl

/-- The call opens a table that was not there. -/
def Opens (call : Call) (stack : ViewStack) (level : Level) : Prop :=
  call ≠ back ∧ (call.perform stack).1 = .ok (some level)

theorem opens_openRoot_iff :
    (openRoot endpoint rows).Opens stack level ↔
      ViewStack.rootLevel endpoint rows = .ok level := by
  rw [Opens, perform_openRoot]
  cases ViewStack.rootLevel endpoint rows <;> simp

theorem opens_drillDown_iff :
    (drillDown value field).Opens stack level ↔
      ViewStack.nestedLevel? value field = some level := by
  rw [Opens, perform_drillDown]
  cases ViewStack.nestedLevel? value field <;> simp

theorem not_opens_back : ¬ back.Opens stack level := by
  intro opens
  exact opens.1 rfl

/-- What a call that opens a table leaves of the others. -/
theorem exists_levels_of_opens (opens : call.Opens stack level) :
    ∃ below, (call.perform stack).2.levels = level :: below ∧
      (below = [] ∨
        below = stack.levels ∧ ∃ value field, call = drillDown value field) := by
  cases call with
  | openRoot endpoint rows =>
    rw [perform_openRoot, opens_openRoot_iff.1 opens]
    exact ⟨[], rfl, Or.inl rfl⟩
  | drillDown value field =>
    rw [perform_drillDown, opens_drillDown_iff.1 opens]
    exact ⟨stack.levels, rfl, Or.inr ⟨rfl, value, field, rfl⟩⟩
  | back => exact (not_opens_back opens).elim

/-- A call that opens no table leaves the stack or takes its top off. -/
theorem perform_of_not_opens
    (opensNone : ∀ level, ¬ call.Opens stack level) :
    (call.perform stack).2 = stack ∨ (call.perform stack).2 = stack.back := by
  cases call with
  | openRoot endpoint rows =>
    rw [perform_openRoot]
    cases made : ViewStack.rootLevel endpoint rows with
    | ok level => exact (opensNone level (opens_openRoot_iff.2 made)).elim
    | error fault => exact Or.inl rfl
  | drillDown value field =>
    rw [perform_drillDown]
    cases made : ViewStack.nestedLevel? value field with
    | some level => exact (opensNone level (opens_drillDown_iff.2 made)).elim
    | none => exact Or.inl rfl
  | back => exact Or.inr rfl

end Call

/-! ## Tables that calls open -/

/-- A table opened from a cell: it has records and no key column. -/
structure Level.IsNested (level : Level) : Prop where
  records : ∃ first rest, level.rows = .map first :: rest
  noKeys : ∀ column ∈ level.columns, column.2.isKey = false

/-- No column of a table is an object. -/
def Level.HasNoObjects (level : Level) : Prop :=
  ∀ column ∈ level.columns, column.2.kind ≠ .object

theorem nestedLevel?_eq_some
    {value : Datum} {field : DisplayField} {level : Level}
    (made : ViewStack.nestedLevel? value field = some level) :
    value = .list level.rows ∧ level.label = field.name ∧ level.IsNested ∧
      level.HasNoObjects := by
  rw [ViewStack.nestedLevel?] at made
  split at made
  · rw [Option.map_eq_some_iff] at made
    rcases made with ⟨rows, held, rfl⟩
    unfold ViewStack.records? at held
    split at held
    · next first rest =>
      cases held
      refine ⟨rfl, rfl, ⟨⟨first, rest, rfl⟩, ?_⟩, ?_⟩
      · intro column member
        cases isKey : column.2.isKey with
        | false => rfl
        | true => cases (isColumn_of_mem_columns member).keyAtRoot isKey
      · intro column member
        exact (isColumn_of_mem_columns member).noObject
    · cases held
  · cases made

theorem hasNoObjects_rootLevel
    {endpoint : Endpoint} {rows : Datum} {level : Level}
    (made : ViewStack.rootLevel endpoint rows = .ok level) :
    level.HasNoObjects := by
  rcases exists_of_bind_eq_ok made with ⟨tree, -, made⟩
  rcases exists_of_bind_eq_ok made with ⟨shown, -, same⟩
  cases same
  intro column member
  exact (isColumn_of_mem_columns member).noObject

theorem Call.Opens.hasNoObjects
    {call : Call} {stack : ViewStack} {level : Level}
    (opens : call.Opens stack level) : level.HasNoObjects := by
  cases call with
  | openRoot endpoint rows =>
    exact hasNoObjects_rootLevel (opens_openRoot_iff.1 opens)
  | drillDown value field =>
    exact (nestedLevel?_eq_some (opens_drillDown_iff.1 opens)).2.2.2
  | back => exact (not_opens_back opens).elim

/-! ## Runs of calls -/

/-- A run of calls on the empty stack in which a call opens a table. -/
def OpenedBy (calls : List Call) (call : Call) (level : Level) : Prop :=
  ∃ earlier later, calls = earlier ++ call :: later ∧
    call.Opens (ViewStack.empty.after earlier) level

variable {calls : List Call} {call : Call} {level : Level} {stack : ViewStack}

theorem after_concat (calls : List Call) (call : Call) :
    stack.after (calls ++ [call]) = (call.perform (stack.after calls)).2 := by
  rw [ViewStack.after, ViewStack.after, List.foldl_append]
  rfl

theorem openedBy_concat_iff {other : Call} :
    OpenedBy (calls ++ [call]) other level ↔
      OpenedBy calls other level ∨
        other = call ∧ call.Opens (ViewStack.empty.after calls) level := by
  constructor
  · rintro ⟨earlier, later, cut, opens⟩
    rcases List.eq_nil_or_concat later with rfl | ⟨front, last, rfl⟩
    · rcases List.append_inj' cut rfl with ⟨rfl, same⟩
      cases same
      exact Or.inr ⟨rfl, opens⟩
    · rw [List.concat_eq_append, ← List.cons_append, ← List.append_assoc] at cut
      rcases List.append_inj' cut rfl with ⟨rfl, -⟩
      exact Or.inl ⟨earlier, front, rfl, opens⟩
  · rintro (⟨earlier, later, rfl, opens⟩ | ⟨rfl, opens⟩)
    · exact ⟨earlier, later ++ [call], by simp, opens⟩
    · exact ⟨calls, [], rfl, opens⟩

/-- Going back takes one table off a stack of several. -/
theorem back_levels (stack : ViewStack) :
    stack.back = stack ∧ stack.levels.length ≤ 1 ∨
      ∃ top, stack.levels = top :: stack.back.levels ∧
        stack.back.levels ≠ [] := by
  rcases stack with ⟨levels⟩
  match levels with
  | [] => exact Or.inl ⟨rfl, Nat.zero_le 1⟩
  | [only] => exact Or.inl ⟨rfl, Nat.le_refl 1⟩
  | top :: below :: rest => exact Or.inr ⟨top, rfl, List.cons_ne_nil _ _⟩

/-- The tables of a stack come from the calls of a run. -/
structure ComesFrom (calls : List Call) (stack : ViewStack) : Prop where
  /-- Nothing is open only until the first call that opened a table. -/
  empty_iff : stack.levels = [] ↔ ∀ call level, ¬ OpenedBy calls call level
  opened : ∀ level ∈ stack.levels, ∃ call, OpenedBy calls call level
  /-- All but the lowest table were opened from cells. -/
  above : ∀ level ∈ stack.levels.dropLast,
    ∃ value field, OpenedBy calls (.drillDown value field) level

theorem ComesFrom.concat_of_opens
    (before : ComesFrom calls (ViewStack.empty.after calls))
    (opens : call.Opens (ViewStack.empty.after calls) level) :
    ComesFrom (calls ++ [call])
      (call.perform (ViewStack.empty.after calls)).2 := by
  have here : OpenedBy (calls ++ [call]) call level :=
    openedBy_concat_iff.2 (Or.inr ⟨rfl, opens⟩)
  have earlier {other : Call} {older : Level}
      (opened : OpenedBy calls other older) :
      OpenedBy (calls ++ [call]) other older :=
    openedBy_concat_iff.2 (Or.inl opened)
  rcases Call.exists_levels_of_opens opens with ⟨below, levels, kept⟩
  refine ⟨?_, ?_, ?_⟩
  · rw [levels]
    constructor
    · intro empty
      cases empty
    · intro none
      exact (none call level here).elim
  · rw [levels]
    intro other member
    rcases List.mem_cons.1 member with rfl | under
    · exact ⟨call, here⟩
    · rcases kept with rfl | ⟨rfl, -⟩
      · cases under
      · rcases before.opened other under with ⟨older, opened⟩
        exact ⟨older, earlier opened⟩
  · rw [levels]
    intro other member
    rcases kept with rfl | ⟨rfl, value, field, rfl⟩
    · cases member
    · cases stands : (ViewStack.empty.after calls).levels with
      | nil =>
        rw [stands] at member
        cases member
      | cons top rest =>
        rw [stands, List.dropLast_cons_cons, ← stands] at member
        rcases List.mem_cons.1 member with rfl | under
        · exact ⟨value, field, here⟩
        · rcases before.above other under with ⟨value, field, opened⟩
          exact ⟨value, field, earlier opened⟩

theorem ComesFrom.concat_of_not_opens
    (before : ComesFrom calls (ViewStack.empty.after calls))
    (opensNone : ∀ level, ¬ call.Opens (ViewStack.empty.after calls) level) :
    ComesFrom (calls ++ [call])
      (call.perform (ViewStack.empty.after calls)).2 := by
  have same (other : Call) (older : Level) :
      OpenedBy (calls ++ [call]) other older ↔ OpenedBy calls other older := by
    rw [openedBy_concat_iff]
    exact or_iff_left fun new => opensNone older new.2
  have kept : ComesFrom (calls ++ [call]) (ViewStack.empty.after calls) := by
    refine ⟨?_, ?_, ?_⟩
    · simp only [same]
      exact before.empty_iff
    · simp only [same]
      exact before.opened
    · simp only [same]
      exact before.above
  rcases Call.perform_of_not_opens opensNone with unchanged | wentBack
  · rw [unchanged]
    exact kept
  · rw [wentBack]
    rcases back_levels (ViewStack.empty.after calls) with
      ⟨unchanged, -⟩ | ⟨top, levels, stays⟩
    · rw [unchanged]
      exact kept
    · refine ⟨?_, ?_, ?_⟩
      · rw [← kept.empty_iff, levels]
        exact iff_of_false stays (List.cons_ne_nil _ _)
      · intro level member
        apply kept.opened
        rw [levels]
        exact List.mem_cons_of_mem _ member
      · intro level member
        apply kept.above
        rw [levels, List.dropLast_cons_of_ne_nil stays]
        exact List.mem_cons_of_mem _ member

/-- The run is followed call by call from its front. -/
theorem comesFrom_after (calls : List Call) :
    ComesFrom calls (ViewStack.empty.after calls) := by
  induction calls using List.reverseRecOn with
  | nil =>
    refine ⟨?_, ?_, ?_⟩
    · refine iff_of_true rfl ?_
      rintro call level ⟨earlier, later, cut, -⟩
      exact List.append_ne_nil_of_right_ne_nil _ (List.cons_ne_nil _ _) cut.symm
    · intro level member
      cases member
    · intro level member
      cases member
  | append_singleton calls call before =>
    rw [after_concat]
    by_cases opensOne :
        ∃ level, call.Opens (ViewStack.empty.after calls) level
    · rcases opensOne with ⟨level, opens⟩
      exact before.concat_of_opens opens
    · rw [not_exists] at opensOne
      exact before.concat_of_not_opens opensOne

/-! ## What holds after every run and of every call -/

/-- The headers and the caption of a stack tell of its upper two tables. -/
structure IsDescribed (stack : ViewStack) : Prop where
  none : stack.levels = [] → stack.headers = [] ∧ stack.caption = ""
  one : ∀ only, stack.levels = [only] →
    stack.headers = only.columns.map Prod.fst ∧ stack.caption = only.label
  more : ∀ top below rest, stack.levels = top :: below :: rest →
    stack.headers = top.columns.map Prod.fst ∧
      stack.caption = below.label ++ " / " ++ top.label

theorem isDescribed (stack : ViewStack) : IsDescribed stack := by
  rcases stack with ⟨levels⟩
  refine ⟨?_, ?_, ?_⟩
  · rintro rfl
    exact ⟨rfl, rfl⟩
  · rintro only rfl
    exact ⟨rfl, rfl⟩
  · rintro top below rest rfl
    exact ⟨rfl, rfl⟩

/-- What each of the calls does to a stack. -/
structure IsMoved (stack : ViewStack) : Prop where
  failed : ∀ (call : Call) (fault : Fault),
    (call.perform stack).1 = .error fault → (call.perform stack).2 = stack
  openRoot : ∀ endpoint rows opened,
    ((Call.openRoot endpoint rows).perform stack).1 = .ok opened →
      ∃ level, opened = some level ∧
        ((Call.openRoot endpoint rows).perform stack).2.levels = [level]
  drillDown : ∀ value field,
    (∃ level,
        (Call.drillDown value field).perform stack =
            (.ok (some level), ⟨level :: stack.levels⟩) ∧
          value = .list level.rows ∧ level.label = field.name) ∨
      (Call.drillDown value field).perform stack = (.ok none, stack)
  back : (Call.back.perform stack).2 = stack ∧ stack.levels.length ≤ 1 ∨
    ∃ top, stack.levels = top :: (Call.back.perform stack).2.levels ∧
      (Call.back.perform stack).2.levels ≠ []
  undone : ∀ value field level, stack.levels ≠ [] →
    ((Call.drillDown value field).perform stack).1 = .ok (some level) →
      Call.back.perform ((Call.drillDown value field).perform stack).2 =
        (.ok stack.current?, stack)

theorem isMoved (stack : ViewStack) : IsMoved stack := by
  refine ⟨?_, ?_, ?_, back_levels stack, ?_⟩
  · intro call fault failed
    cases call with
    | openRoot endpoint rows =>
      rw [Call.perform_openRoot] at failed ⊢
      cases made : ViewStack.rootLevel endpoint rows with
      | ok level =>
        rw [made] at failed
        cases failed
      | error fault => rfl
    | drillDown value field =>
      rw [Call.perform_drillDown] at failed
      cases made : ViewStack.nestedLevel? value field <;>
        · rw [made] at failed
          cases failed
    | back => cases failed
  · intro endpoint rows opened success
    rw [Call.perform_openRoot] at success ⊢
    cases made : ViewStack.rootLevel endpoint rows with
    | ok level =>
      rw [made] at success
      cases success
      exact ⟨level, rfl, rfl⟩
    | error fault =>
      rw [made] at success
      cases success
  · intro value field
    rw [Call.perform_drillDown]
    cases made : ViewStack.nestedLevel? value field with
    | some level =>
      rcases nestedLevel?_eq_some made with ⟨isList, label, -⟩
      exact Or.inl ⟨level, rfl, isList, label⟩
    | none => exact Or.inr rfl
  · intro value field level some success
    have made : ViewStack.nestedLevel? value field = .some level :=
      Call.opens_drillDown_iff.1 ⟨nofun, success⟩
    rcases stack with ⟨levels⟩
    rcases List.exists_cons_of_ne_nil some with ⟨top, rest, rfl⟩
    rw [Call.perform_drillDown, made]
    rfl

/--
After every run of calls on the empty stack each table was opened by a call of
the run, all but the lowest one from cells, and none has a column for an
object.  Every table opened from a cell has records and no key column.  On
every stack a call that fails changes nothing, and the other calls change no
more than the top, or start anew.
-/
theorem viewStack_after :
    (∀ calls : List Call,
        ComesFrom calls (ViewStack.empty.after calls) ∧
          (∀ value field level,
            OpenedBy calls (.drillDown value field) level → level.IsNested) ∧
          (∀ level ∈ (ViewStack.empty.after calls).levels,
            level.HasNoObjects) ∧
          IsDescribed (ViewStack.empty.after calls)) ∧
      ∀ stack : ViewStack, IsMoved stack := by
  constructor
  · intro calls
    refine ⟨comesFrom_after calls, ?_, ?_, isDescribed _⟩
    · rintro value field level ⟨earlier, later, -, opens⟩
      exact (nestedLevel?_eq_some (Call.opens_drillDown_iff.1 opens)).2.2.1
    · intro level member
      rcases (comesFrom_after calls).opened level member with
        ⟨call, earlier, later, -, opens⟩
      exact opens.hasNoObjects
  · exact isMoved

end ApiAtlas.Table
