import ApiAtlas.Proofs.Schema.Cycle
import ApiAtlas.Schema.Example

/-!
# Definitions that are asked for by name

A definition is asked for by its name, or by a reference that has been made
from the name.  The name is read back from the reference if and only if it is a
line that is not empty, so for these names, and for no others, it makes no
difference how the definition is asked for.

A reference adds its name to the chain of names that have been followed.  This
changes no result: a definition that comes back to its own name cannot be
inlined behind any chain.
-/

namespace ApiAtlas.Schema

/-! ## Names in references -/

/-- Only a line that is not empty is kept as it is behind the front. -/
theorem nameAfterFront_eq_some_self_iff (characters : List Char) :
    nameAfterFront characters = some characters ↔
      characters ≠ [] ∧ '\n' ∉ characters := by
  unfold nameAfterFront
  by_cases ended : characters.getLast? = some '\n'
  · have member : '\n' ∈ characters := List.mem_of_getLast? ended
    have nonempty : characters ≠ [] := List.ne_nil_of_mem member
    have shorter : characters.dropLast ≠ characters := by
      intro same
      have lengths := congrArg List.length same
      have positive := List.length_pos_iff.2 nonempty
      rw [List.length_dropLast] at lengths
      omega
    simp [ended, member, shorter]
  · simp [ended]

/-- The name is what is read behind the front of a reference. -/
theorem referenceName_referenceTo (name : String) :
    referenceName (referenceTo name) =
      match nameAfterFront name.toList with
      | some line => .ok (String.ofList line)
      | none => .error (.unresolvedReference (referenceTo name)) := by
  have whole :
      (referenceTo name).toList = referenceFront.toList ++ name.toList :=
    String.toList_append
  have front :
      referenceFront.toList.isPrefixOf
        (referenceFront.toList ++ name.toList) = true :=
    List.isPrefixOf_iff_prefix.2 (List.prefix_append _ _)
  cases found : nameAfterFront name.toList with
  | none =>
    simp only [referenceName, whole, front, if_true, List.drop_left, found]
  | some line =>
    simp only [referenceName, whole, front, if_true, List.drop_left, found]

/-- A name is read back from its reference if it is a line that is not empty. -/
theorem referenceName_referenceTo_eq_iff (name : String) :
    referenceName (referenceTo name) = .ok name ↔
      name ≠ "" ∧ '\n' ∉ name.toList := by
  rw [referenceName_referenceTo, ne_eq, ← String.toList_eq_nil_iff,
    ← ne_eq, ← nameAfterFront_eq_some_self_iff]
  cases nameAfterFront name.toList with
  | none => simp
  | some line => simp [← String.toList_inj]

/-! ## Chains that make no difference -/

variable {definitions node middle last result : Datum}
  {chain other names behind : List String} {place further : List Nat}
  {limit larger : Int} {budget : Nat} {name : String}

theorem Walk.append
    (walk : Walk definitions node place names middle)
    (next : Walk definitions middle further behind last) :
    Walk definitions node (place ++ further) (names ++ behind) last := by
  induction walk with
  | here => exact next
  | part noReference found _ ih => exact .part noReference found (ih next)
  | expand isReference named defined _ ih =>
    exact .expand isReference named defined (ih next)

/-- A walk that expands a name comes to the definition of the name. -/
theorem Walk.exists_expanded
    (walk : Walk definitions node place names last) {target : Datum}
    (defined : definition? definitions name = .ok (some target))
    (expanded : name ∈ names) :
    ∃ way before, Walk definitions node way (before ++ [name]) target := by
  induction walk with
  | here => cases expanded
  | part noReference found _ ih =>
    rcases ih expanded with ⟨way, before, walk⟩
    exact ⟨_, before, .part noReference found walk⟩
  | expand isReference named definedHere _ ih =>
    rcases List.mem_cons.1 expanded with rfl | later
    · cases definedHere.symm.trans defined
      exact ⟨_, [], .expand isReference named defined (.here target)⟩
    · rcases ih later with ⟨way, before, walk⟩
      exact ⟨_, _ :: before, .expand isReference named definedHere walk⟩

/--
A definition whose walks can go on does not come back to its own name: to go
around once more would expand the name twice.
-/
theorem IsUnbroken.name_notMem
    (unbroken : IsUnbroken definitions [] node)
    (defined : definition? definitions name = .ok (some node))
    (walk : Walk definitions node place names last) : name ∉ names := by
  intro expanded
  rcases walk.exists_expanded defined expanded with ⟨way, before, circle⟩
  have nodup := (unbroken _ _ _ (circle.append circle)).1
  rw [List.nil_append, List.nodup_append] at nodup
  have isLast : name ∈ before ++ [name] :=
    List.mem_append_right before (List.mem_singleton_self name)
  exact nodup.2.2 name isLast name isLast rfl

theorem isUnbroken_of_own_name_iff
    (defined : definition? definitions name = .ok (some node)) :
    IsUnbroken definitions [name] node ↔ IsUnbroken definitions [] node := by
  constructor
  · intro unbroken place names last walk
    have here := unbroken place names last walk
    exact ⟨(List.nodup_cons.1 here.1).2, here.2⟩
  · intro unbroken place names last walk
    have here := unbroken place names last walk
    exact
      ⟨List.nodup_cons.2 ⟨unbroken.name_notMem defined walk, here.1⟩, here.2⟩

/-- What is inlined behind one chain is inlined behind all that break no walk. -/
theorem inlineWithin_of_isUnbroken
    (unbroken : IsUnbroken definitions other node)
    (success :
      inlineWithin definitions limit budget chain node = .ok result) :
    inlineWithin definitions larger budget other node = .ok result := by
  induction success using inlineWithin_induction generalizing other with
  | @follow _ _ _ _ text name target isReference followed _ _ _ ih =>
    rcases followReference_eq_ok_iff.1 followed with
      ⟨_, same, named, -, defined⟩
    cases same
    have unbrokenBelow : IsUnbroken definitions (other ++ [name]) target := by
      intro place names last walk
      have onWalk := unbroken _ _ _ (.expand isReference named defined walk)
      rwa [List.append_assoc]
    have nodup := (unbrokenBelow _ _ _ (.here target)).1
    rw [List.append_nil, ← List.concat_eq_append, List.nodup_concat] at nodup
    rw [inlineWithin_of_reference isReference,
      followReference_eq_ok_iff.2 ⟨text, rfl, named, nodup.1, defined⟩]
    exact ih unbrokenBelow
  | object noReference success replaced =>
    rw [inlineWithin_of_object noReference] at success ⊢
    rw [← success]
    apply replaceParts_congr
    intro part isPart
    rcases replaced.exists_of_part isPart with ⟨_, passed, ih⟩
    rcases List.mem_iff_getElem?.1 isPart with ⟨index, found⟩
    rw [passed]
    exact ih fun place names last walk =>
      unbroken _ _ _ (.part noReference found walk)
  | value noObject => exact inlineWithin_of_no_map noObject

/-! ## References to definitions -/

/-- The budget of a reference is one more than that of its definition. -/
theorem walkBudget_of_succ (present : walkBudget (limit + 1) = budget + 1) :
    walkBudget limit = budget := by
  rw [walkBudget] at present ⊢
  omega

/-- A reference under a limit leads to its definition under one less. -/
theorem inline_referring_eq_ok_iff
    (named : referenceName (referenceTo name) = .ok name)
    (defined : definition? definitions name = .ok (some node)) :
    inline (referring name) definitions (limit + 1) = .ok result ↔
      inline node definitions limit = .ok result := by
  have isReference :
      reference? (referring name) = some (.str (referenceTo name)) := rfl
  have followed :
      followReference definitions [] (.str (referenceTo name)) =
        .ok (name, node) :=
    followReference_eq_ok_iff.2
      ⟨_, rfl, named, List.not_mem_nil, defined⟩
  rw [inline, inline]
  cases present : walkBudget (limit + 1) with
  | zero =>
    have none : walkBudget limit = 0 := by
      rw [walkBudget] at present ⊢
      omega
    rw [none]
    constructor
    · intro success
      cases success
    · intro success
      cases success
  | succ budget =>
    rw [walkBudget_of_succ present, inlineWithin_of_reference isReference,
      followed]
    constructor
    · intro success
      have unbroken :=
        isUnbroken_of_inlineWithin (List.nodup_singleton name) success
      exact
        inlineWithin_of_isUnbroken
          ((isUnbroken_of_own_name_iff defined).1 unbroken) success
    · intro success
      have unbroken := isUnbroken_of_inlineWithin List.nodup_nil success
      exact
        inlineWithin_of_isUnbroken
          ((isUnbroken_of_own_name_iff defined).2 unbroken) success

/--
A name that leads to a definition however it is asked for.  As a reference is
one step on the way, it reaches its definition under a limit that is one less.
-/
structure LeadsTo (definitions : Entries) (name : String) (node : Datum) :
    Prop where
  resolved : resolve (referenceTo name) (.map definitions) = .ok node
  named :
    inlineNamed name (.map definitions) =
      inline node (.map definitions) depthLimit
  examples :
    examplesNamed name (.map definitions) =
      Schema.examples node (.map definitions)
  referred : ∀ (limit : Int) (result : Datum),
    inline (referring name) (.map definitions) (limit + 1) = .ok result ↔
      inline node (.map definitions) limit = .ok result

/-- A name that is said to be unresolved however it is asked for. -/
structure LeadsNowhere (definitions : Entries) (name : String) : Prop where
  named :
    inlineNamed name (.map definitions) =
      .error (.unresolvedReference (referenceTo name))
  examples :
    examplesNamed name (.map definitions) =
      .error (.unresolvedReference (referenceTo name))
  referred : ∀ limit : Int, 0 ≤ limit →
    inline (referring name) (.map definitions) limit =
      .error (.unresolvedReference (referenceTo name))

/-- A name that leads to the definition under it, and nowhere without one. -/
structure LeadsToOwn (definitions : Entries) (name : String) : Prop where
  present : ∀ node, Entries.get? (.str name) definitions = some node →
    LeadsTo definitions name node
  absent : Entries.get? (.str name) definitions = none →
    LeadsNowhere definitions name

section Names

variable {definitions : Entries} {node : Datum}

theorem inlineNamed_of_get?
    (found : Entries.get? (.str name) definitions = some node) :
    inlineNamed name (.map definitions) =
      inline node (.map definitions) depthLimit := by
  rw [inlineNamed, definition?_map, found]
  rfl

theorem leadsTo_of_get?
    (named : referenceName (referenceTo name) = .ok name)
    (found : Entries.get? (.str name) definitions = some node) :
    LeadsTo definitions name node := by
  have defined : definition? (.map definitions) name = .ok (some node) := by
    rw [definition?_map, found]
  have resolved := resolve_eq_ok_iff.2 ⟨name, named, defined⟩
  refine ⟨resolved, inlineNamed_of_get? found, ?_, ?_⟩
  · rw [examplesNamed, resolved]
    rfl
  · intro limit result
    exact inline_referring_eq_ok_iff named defined

theorem leadsNowhere_of_get?
    (named : referenceName (referenceTo name) = .ok name)
    (missing : Entries.get? (.str name) definitions = none) :
    LeadsNowhere definitions name := by
  have unresolved :
      resolve (referenceTo name) (.map definitions) =
        .error (.unresolvedReference (referenceTo name)) := by
    rw [resolve, named]
    simp only [bind, Except.bind, definition?_map, missing]
    rfl
  refine ⟨?_, ?_, ?_⟩
  · rw [inlineNamed, definition?_map, missing]
    rfl
  · rw [examplesNamed, unresolved]
    rfl
  · intro limit nonnegative
    have isReference :
        reference? (referring name) = some (.str (referenceTo name)) := rfl
    have budget : walkBudget limit = limit.toNat + 1 := by
      rw [walkBudget]
      omega
    rw [inline, budget, inlineWithin_of_reference isReference,
      followReference, referenceText]
    simp only [bind, Except.bind, named, List.not_mem_nil, if_false,
      unresolved]

/-- A name that leads to its definition is read back from its reference. -/
theorem referenceName_of_leadsTo
    (leads : LeadsTo [(.str name, node)] name node) :
    referenceName (referenceTo name) = .ok name := by
  rcases resolve_eq_ok_iff.1 leads.resolved with ⟨other, named, defined⟩
  rw [definition?_map, Except.ok.injEq, Entries.get?_cons] at defined
  split at defined
  · next same =>
    rw [Scalar.str_same_iff, Scalar.str.injEq] at same
    rw [named, same]
  · cases defined

end Names

/--
A name leads to the definition under it in every map of definitions, and
nowhere where there is none, if and only if it is a line that is not empty.
-/
theorem leadsToOwn_iff (name : String) :
    (∀ definitions : Entries, LeadsToOwn definitions name) ↔
      name ≠ "" ∧ '\n' ∉ name.toList := by
  rw [← referenceName_referenceTo_eq_iff]
  constructor
  · intro leads
    have alone :
        Entries.get? (.str name) [(.str name, .null)] = some .null := by
      rw [Entries.get?_cons, if_pos (Scalar.same_str_iff.2 rfl)]
    exact referenceName_of_leadsTo ((leads _).present _ alone)
  · intro named definitions
    exact
      ⟨fun _ => leadsTo_of_get? named, leadsNowhere_of_get? named⟩

/-- A definition whose name ends a line, beside one whose name does not. -/
def twoNames : Entries :=
  Fields.toEntries
    [("Name\n", .object [("type", .str "string")]),
      ("Name", .object [("type", .str "integer")])]

/-- A reference to a name that ends a line leads to another definition. -/
theorem not_forall_leadsToOwn :
    ¬ ∀ (definitions : Entries) (name : String),
      LeadsToOwn definitions name := by
  intro leads
  have found :
      Entries.get? (.str "Name\n") twoNames =
        some (.object [("type", .str "string")]) := by
    decide
  have own := ((leads twoNames "Name\n").present _ found).resolved
  have another :
      resolve (referenceTo "Name\n") (.map twoNames) =
        .ok (.object [("type", .str "integer")]) := by
    decide +kernel
  exact absurd (own.symm.trans another) (by decide)

end ApiAtlas.Schema
