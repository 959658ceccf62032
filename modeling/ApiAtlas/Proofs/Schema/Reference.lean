import ApiAtlas.Proofs.Schema.Parts

/-!
# Following references

What it takes to follow a reference, and the three ways in which a node
without references comes about: from the definition of a reference, from an
object whose parts are replaced, or from a value that is kept.
-/

namespace ApiAtlas.Schema

/-- The object that refers to a definition. -/
def referring (name : String) : Datum :=
  .object [(referenceMember, .str (referenceTo name))]

variable {definitions node result : Datum} {limit : Int} {chain : List String}
  {budget : Nat}

theorem resolve_eq_ok_iff {text : String} {target : Datum} :
    resolve text definitions = .ok target ↔
      ∃ name, referenceName text = .ok name ∧
        definition? definitions name = .ok (some target) := by
  rw [resolve]
  constructor
  · intro success
    rcases exists_of_bind_eq_ok success with ⟨name, named, success⟩
    rcases exists_of_bind_eq_ok success with ⟨found, looked, success⟩
    cases found with
    | none => cases success
    | some found =>
      cases success
      exact ⟨name, named, looked⟩
  · rintro ⟨name, named, found⟩
    rw [named]
    simp only [bind, Except.bind, found]
    rfl

/-- A reference is followed if its name is new and has a definition. -/
theorem followReference_eq_ok_iff
    {reference target : Datum} {name : String} :
    followReference definitions chain reference = .ok (name, target) ↔
      ∃ text, reference = .str text ∧ referenceName text = .ok name ∧
        name ∉ chain ∧ definition? definitions name = .ok (some target) := by
  rw [followReference]
  constructor
  · intro success
    rcases exists_of_bind_eq_ok success with ⟨text, isText, success⟩
    rcases exists_of_bind_eq_ok success with ⟨other, named, success⟩
    have textEq : reference = .str text := by
      unfold referenceText at isText
      split at isText
      · cases isText
        rfl
      · cases isText
    by_cases old : other ∈ chain
    · rw [if_pos old] at success
      cases success
    · rw [if_neg old] at success
      rcases exists_of_bind_eq_ok success with ⟨found, resolved, same⟩
      cases same
      rcases resolve_eq_ok_iff.1 resolved with ⟨again, namedAgain, defined⟩
      cases named.symm.trans namedAgain
      exact ⟨text, textEq, named, old, defined⟩
  · rintro ⟨text, rfl, named, new, defined⟩
    have resolved : resolve text definitions = .ok target :=
      resolve_eq_ok_iff.2 ⟨name, named, defined⟩
    simp only [referenceText, bind, Except.bind, named, if_neg new, resolved]
    rfl

/-! ## One step of the walk -/

/-- A walk has no smaller budget under a larger limit. -/
theorem walkBudget_mono {limit larger : Int} (le : limit ≤ larger) :
    walkBudget limit ≤ walkBudget larger :=
  Int.toNat_le_toNat (Int.add_le_add_right le 1)

theorem inlineWithin_of_reference
    {reference : Datum} (isReference : reference? node = some reference) :
    inlineWithin definitions limit (budget + 1) chain node =
      (followReference definitions chain reference >>= fun followed =>
        inlineWithin definitions limit budget (chain ++ [followed.1])
          followed.2) := by
  conv_lhs => unfold inlineWithin
  rw [isReference]

theorem inlineWithin_of_object
    {entries : Entries} (noReference : reference? (.map entries) = none) :
    inlineWithin definitions limit (budget + 1) chain (.map entries) =
      replaceParts (inlineWithin definitions limit budget chain) entries := by
  unfold inlineWithin
  rw [noReference]

theorem reference?_eq_none_of_no_map
    (noMap : ∀ entries, node ≠ .map entries) : reference? node = none := by
  cases node with
  | map entries => exact (noMap entries rfl).elim
  | _ => rfl

theorem inlineWithin_of_no_map (noMap : ∀ entries, node ≠ .map entries) :
    inlineWithin definitions limit (budget + 1) chain node = .ok node := by
  unfold inlineWithin
  rw [reference?_eq_none_of_no_map noMap]
  cases node with
  | map entries => exact (noMap entries rfl).elim
  | _ => rfl

/--
Induction on a walk that succeeds: it follows a reference, replaces the parts
of an object, or keeps a value that is no object.
-/
@[elab_as_elim]
theorem inlineWithin_induction
    {motive :
      ∀ budget chain node result,
        inlineWithin definitions limit budget chain node = .ok result → Prop}
    (follow :
      ∀ {budget chain node result text name target},
        reference? node = some (.str text) →
        followReference definitions chain (.str text) = .ok (name, target) →
        resolve text definitions = .ok target →
        ∀ (success :
            inlineWithin definitions limit (budget + 1) chain node =
              .ok result)
          (below :
            inlineWithin definitions limit budget (chain ++ [name]) target =
              .ok result),
          motive budget (chain ++ [name]) target result below →
            motive (budget + 1) chain node result success)
    (object :
      ∀ {budget chain entries others},
        reference? (.map entries) = none →
        ∀ (success :
            inlineWithin definitions limit (budget + 1) chain (.map entries) =
              .ok (.map others)),
          Replaced
              (fun part new =>
                ∃ done :
                    inlineWithin definitions limit budget chain part = .ok new,
                  motive budget chain part new done)
              partMembers entries others →
            motive (budget + 1) chain (.map entries) (.map others) success)
    (value :
      ∀ {budget chain node}, (∀ entries, node ≠ .map entries) →
        ∀ success :
            inlineWithin definitions limit (budget + 1) chain node = .ok node,
          motive (budget + 1) chain node node success)
    {budget : Nat} {chain : List String} {node result : Datum}
    (success : inlineWithin definitions limit budget chain node = .ok result) :
    motive budget chain node result success := by
  induction budget generalizing chain node result with
  | zero => cases success
  | succ budget ih =>
    cases isReference : reference? node with
    | some reference =>
      have followed := success
      rw [inlineWithin_of_reference isReference] at followed
      rcases exists_of_bind_eq_ok followed with
        ⟨⟨name, target⟩, followed, below⟩
      rcases followReference_eq_ok_iff.1 followed with
        ⟨text, rfl, named, -, defined⟩
      have found : resolve text definitions = .ok target :=
        resolve_eq_ok_iff.2 ⟨name, named, defined⟩
      exact follow isReference followed found success below (ih below)
    | none =>
      by_cases isObject : ∃ entries, node = .map entries
      · rcases isObject with ⟨entries, rfl⟩
        have replacing := success
        rw [inlineWithin_of_object isReference] at replacing
        rcases replaced_of_replaceParts replacing with ⟨others, rfl, replaced⟩
        exact
          object isReference success
            (replaced.imp fun _ _ done => ⟨done, ih done⟩)
      · rw [not_exists] at isObject
        have kept := success
        rw [inlineWithin_of_no_map isObject] at kept
        cases kept
        exact value isObject success

/--
Induction on a walk that fails: its budget is spent, a reference is refused, or
it fails below a reference or at the first part that cannot be replaced.
-/
@[elab_as_elim]
theorem inlineWithin_error_induction
    {fault : Fault}
    {motive :
      ∀ budget chain node,
        inlineWithin definitions limit budget chain node = .error fault → Prop}
    (spent :
      ∀ {chain node},
        fault = .cyclicReference chain (.depthAbove limit) →
        ∀ failure :
            inlineWithin definitions limit 0 chain node = .error fault,
          motive 0 chain node failure)
    (refused :
      ∀ {budget chain node reference},
        reference? node = some reference →
        followReference definitions chain reference = .error fault →
        ∀ failure :
            inlineWithin definitions limit (budget + 1) chain node =
              .error fault,
          motive (budget + 1) chain node failure)
    (follow :
      ∀ {budget chain node text name target},
        reference? node = some (.str text) →
        followReference definitions chain (.str text) = .ok (name, target) →
        ∀ (failure :
            inlineWithin definitions limit (budget + 1) chain node =
              .error fault)
          (below :
            inlineWithin definitions limit budget (chain ++ [name]) target =
              .error fault),
          motive budget (chain ++ [name]) target below →
            motive (budget + 1) chain node failure)
    (part :
      ∀ {budget chain entries} {index : Nat} {part},
        reference? (.map entries) = none →
        (parts entries)[index]? = some part →
        (∀ earlier < index, ∀ before,
          (parts entries)[earlier]? = some before →
            ∃ replaced,
              inlineWithin definitions limit budget chain before =
                .ok replaced) →
        ∀ (failure :
            inlineWithin definitions limit (budget + 1) chain (.map entries) =
              .error fault)
          (below :
            inlineWithin definitions limit budget chain part = .error fault),
          motive budget chain part below →
            motive (budget + 1) chain (.map entries) failure)
    {budget : Nat} {chain : List String} {node : Datum}
    (failure :
      inlineWithin definitions limit budget chain node = .error fault) :
    motive budget chain node failure := by
  induction budget generalizing chain node with
  | zero =>
    have same : .cyclicReference chain (.depthAbove limit) = fault :=
      Except.error.inj failure
    exact spent same.symm failure
  | succ budget ih =>
    have failed := failure
    cases isReference : reference? node with
    | some reference =>
      rw [inlineWithin_of_reference isReference] at failed
      cases followed : followReference definitions chain reference with
      | error cause =>
        rw [followed] at failed
        cases failed
        exact refused isReference followed failure
      | ok next =>
        rw [followed] at failed
        rcases followReference_eq_ok_iff.1 followed with ⟨text, rfl, -⟩
        exact follow isReference followed failure failed (ih failed)
    | none =>
      by_cases isObject : ∃ entries, node = .map entries
      · rcases isObject with ⟨entries, rfl⟩
        rw [inlineWithin_of_object isReference] at failed
        rcases replaceParts_eq_error_iff.1 failed with
          ⟨index, first, found, below, earlier⟩
        exact part isReference found earlier failure below (ih below)
      · rw [not_exists] at isObject
        rw [inlineWithin_of_no_map isObject] at failed
        cases failed

end ApiAtlas.Schema
