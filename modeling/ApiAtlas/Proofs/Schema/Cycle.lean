import ApiAtlas.Proofs.Schema.Depth
import Mathlib.Data.List.Nodup

/-!
# Cycles among references

A walk goes from a node to one of its parts or, where it meets a reference,
into the definition.  A reference is a defect when it cannot be resolved, or
when its name has been expanded on the way to it; that the name was expanded
on another way does not matter.

Under a limit that no walk meets, inlining gives a schema exactly when there
is no defect.  Otherwise it stops with the first defect, parts being gone
through in order and each to its end.
-/

namespace ApiAtlas.Schema

/--
A walk from a node to another one, with the positions of the parts that are
entered and the names that are expanded.
-/
inductive Walk (definitions : Datum) :
    Datum → List Nat → List String → Datum → Prop where
  | here (node : Datum) : Walk definitions node [] [] node
  | part {entries : Entries} {index : Nat} {part last : Datum}
      {place : List Nat} {names : List String}
      (noReference : reference? (.map entries) = none)
      (found : (parts entries)[index]? = some part)
      (below : Walk definitions part place names last) :
      Walk definitions (.map entries) (index :: place) names last
  | expand {node target last : Datum} {text name : String}
      {place : List Nat} {names : List String}
      (isReference : reference? node = some (.str text))
      (named : referenceName text = .ok name)
      (defined : definition? definitions name = .ok (some target))
      (below : Walk definitions target place names last) :
      Walk definitions node (0 :: place) (name :: names) last

/-- Why a reference that is met cannot be followed. -/
inductive Broken (definitions : Datum) (expanded : List String) (node : Datum) :
    Fault → Prop where
  | unresolved {text : String} (isReference : reference? node = some (.str text))
      (missing :
        resolve text definitions = .error (.unresolvedReference text)) :
      Broken definitions expanded node (.unresolvedReference text)
  | repeated {text name : String}
      (isReference : reference? node = some (.str text))
      (named : referenceName text = .ok name) (old : name ∈ expanded) :
      Broken definitions expanded node
        (.cyclicReference (expanded ++ [name]) .cycle)

/--
A reference that cannot be followed at a place below a node, which is reached
after the names of a chain.
-/
def Defect (definitions : Datum) (chain : List String) (node : Datum)
    (place : List Nat) (fault : Fault) : Prop :=
  ∃ names last, Walk definitions node place names last ∧
    (chain ++ names).Nodup ∧ Broken definitions (chain ++ names) last fault

/-- A defect before which no other one comes. -/
def IsFirstDefect (definitions node : Datum) (fault : Fault) : Prop :=
  ∃ place, Defect definitions [] node place fault ∧
    ∀ other otherFault, Defect definitions [] node other otherFault →
      ¬ List.Lex (· < ·) other place

/-- Every walk can go on: no name comes again, and references are resolved. -/
def IsUnbroken (definitions : Datum) (chain : List String) (node : Datum) :
    Prop :=
  ∀ place names last, Walk definitions node place names last →
    (chain ++ names).Nodup ∧
      ∀ reference, reference? last = some reference →
        ∃ text target, reference = .str text ∧
          resolve text definitions = .ok target

/-- Every reference on a walk is a text. -/
def RefersByText (definitions node : Datum) : Prop :=
  ∀ place names last, Walk definitions node place names last →
    ∀ reference, reference? last = some reference →
      ∃ text, reference = .str text

/-- The names of a chain have definitions and are different. -/
structure IsChain (definitions : Datum) (chain : List String) : Prop where
  nodup : chain.Nodup
  defined : ∀ name ∈ chain, ∃ target,
    definition? definitions name = .ok (some target)

variable {definitions node last : Datum} {chain names : List String}
  {place : List Nat} {limit : Int} {budget : Nat} {fault : Fault}

/-! ## Walks -/

theorem nodup_append_new
    {name : String} (nodup : chain.Nodup) (new : name ∉ chain) :
    (chain ++ [name]).Nodup := by
  rw [← List.concat_eq_append]
  exact nodup.concat new

theorem IsChain.append
    {name : String} {target : Datum} (isChain : IsChain definitions chain)
    (new : name ∉ chain)
    (defined : definition? definitions name = .ok (some target)) :
    IsChain definitions (chain ++ [name]) := by
  refine ⟨nodup_append_new isChain.nodup new, ?_⟩
  intro other member
  rcases List.mem_append.1 member with old | isName
  · exact isChain.defined other old
  · rw [List.mem_singleton.1 isName]
    exact ⟨target, defined⟩

/-- The names that a walk expands have definitions. -/
theorem Walk.defined
    (walk : Walk definitions node place names last) :
    ∀ name ∈ names, ∃ target,
      definition? definitions name = .ok (some target) := by
  induction walk with
  | here => simp
  | part _ _ _ ih => exact ih
  | expand _ _ defined _ ih =>
    rw [List.forall_mem_cons]
    exact ⟨⟨_, defined⟩, ih⟩

/-- A walk to a reference goes on in the definition of its name. -/
theorem Walk.expandLast
    {text name : String} {target : Datum}
    (walk : Walk definitions node place names last)
    (isReference : reference? last = some (.str text))
    (named : referenceName text = .ok name)
    (defined : definition? definitions name = .ok (some target)) :
    Walk definitions node (place ++ [0]) (names ++ [name]) target := by
  induction walk with
  | here => exact .expand isReference named defined (.here target)
  | part noReference found _ ih =>
    exact .part noReference found (ih isReference)
  | expand isReference' named' defined' _ ih =>
    exact .expand isReference' named' defined' (ih isReference)

/-- A walk from a reference ends there or goes into the definition. -/
theorem Walk.cases_of_reference
    {text name : String} {target : Datum}
    (isReference : reference? node = some (.str text))
    (named : referenceName text = .ok name)
    (defined : definition? definitions name = .ok (some target))
    (walk : Walk definitions node place names last) :
    (place = [] ∧ names = [] ∧ last = node) ∨
      ∃ below others, place = 0 :: below ∧ names = name :: others ∧
        Walk definitions target below others last := by
  cases walk with
  | here => exact Or.inl ⟨rfl, rfl, rfl⟩
  | part noReference => cases noReference.symm.trans isReference
  | expand isReference' named' defined' below =>
    cases isReference.symm.trans isReference'
    cases named.symm.trans named'
    cases defined.symm.trans defined'
    exact Or.inr ⟨_, _, rfl, rfl, below⟩

/-- A walk from an object ends there or goes into one of its parts. -/
theorem Walk.cases_of_object
    {entries : Entries} (noReference : reference? (.map entries) = none)
    (walk : Walk definitions (.map entries) place names last) :
    (place = [] ∧ names = [] ∧ last = .map entries) ∨
      ∃ index part below, place = index :: below ∧
        (parts entries)[index]? = some part ∧
        Walk definitions part below names last := by
  cases walk with
  | here => exact Or.inl ⟨rfl, rfl, rfl⟩
  | part _ found below => exact Or.inr ⟨_, _, _, rfl, found, below⟩
  | expand isReference => cases noReference.symm.trans isReference

/-- A walk from anything else ends there. -/
theorem Walk.eq_of_no_map
    (noObject : ∀ entries, node ≠ .map entries)
    (walk : Walk definitions node place names last) :
    place = [] ∧ names = [] ∧ last = node := by
  have noReference := reference?_eq_none_of_no_map noObject
  cases walk with
  | here => exact ⟨rfl, rfl, rfl⟩
  | part => exact (noObject _ rfl).elim
  | expand isReference => cases noReference.symm.trans isReference

/-! ## Defects -/

theorem Broken.exists_reference
    (broken : Broken definitions chain node fault) :
    ∃ text, reference? node = some (.str text) := by
  cases broken with
  | unresolved isReference => exact ⟨_, isReference⟩
  | repeated isReference => exact ⟨_, isReference⟩

/-- A reference that is followed is not broken. -/
theorem not_broken_of_followed
    {text name : String} {target : Datum}
    (isReference : reference? node = some (.str text))
    (named : referenceName text = .ok name) (new : name ∉ chain)
    (defined : definition? definitions name = .ok (some target)) :
    ¬ Broken definitions chain node fault := by
  intro broken
  cases broken with
  | unresolved isReference' missing =>
    cases isReference.symm.trans isReference'
    have resolved := resolve_eq_ok_iff.2 ⟨name, named, defined⟩
    cases missing.symm.trans resolved
  | repeated isReference' named' old =>
    cases isReference.symm.trans isReference'
    cases named.symm.trans named'
    exact new old

/-- A reference is broken for one reason. -/
theorem Broken.unique
    {other : Fault} (isChain : IsChain definitions chain)
    (broken : Broken definitions chain node fault)
    (also : Broken definitions chain node other) : fault = other := by
  have resolves {text name : String} (named : referenceName text = .ok name)
      (old : name ∈ chain) :
      resolve text definitions ≠ .error (.unresolvedReference text) := by
    rcases isChain.defined name old with ⟨target, defined⟩
    rw [resolve_eq_ok_iff.2 ⟨name, named, defined⟩]
    exact fun none => by cases none
  cases broken with
  | unresolved isReference missing =>
    cases also with
    | unresolved isReference' =>
      cases isReference.symm.trans isReference'
      rfl
    | repeated isReference' named old =>
      cases isReference.symm.trans isReference'
      exact (resolves named old missing).elim
  | repeated isReference named old =>
    cases also with
    | unresolved isReference' missing =>
      cases isReference.symm.trans isReference'
      exact (resolves named old missing).elim
    | repeated isReference' named' =>
      cases isReference.symm.trans isReference'
      cases named.symm.trans named'
      rfl

/-- Where there is a defect some walk cannot go on. -/
theorem Defect.not_isUnbroken
    (isChain : IsChain definitions chain)
    (defect : Defect definitions chain node place fault) :
    ¬ IsUnbroken definitions chain node := by
  rintro unbroken
  rcases defect with ⟨names, last, walk, -, broken⟩
  cases broken with
  | unresolved isReference missing =>
    rcases (unbroken _ _ _ walk).2 _ isReference with
      ⟨same, target, textEq, resolved⟩
    cases textEq
    cases missing.symm.trans resolved
  | @repeated text name isReference named old =>
    have defined : ∃ target,
        definition? definitions name = .ok (some target) := by
      rcases List.mem_append.1 old with inChain | inWalk
      · exact isChain.defined name inChain
      · exact walk.defined name inWalk
    rcases defined with ⟨target, defined⟩
    have longer := walk.expandLast isReference named defined
    have nodup := (unbroken _ _ _ longer).1
    rw [← List.append_assoc, List.nodup_append] at nodup
    exact nodup.2.2 name old name (List.mem_singleton_self name) rfl

/-! ## What the outcome of inlining says of walks -/

theorem ends_of_noReference
    (nodup : chain.Nodup) (noReference : reference? node = none) :
    (chain ++ []).Nodup ∧
      ∀ reference, reference? node = some reference →
        ∃ text target, reference = .str text ∧
          resolve text definitions = .ok target := by
  rw [List.append_nil]
  refine ⟨nodup, ?_⟩
  intro reference isReference
  cases noReference.symm.trans isReference

/-- A node that is inlined has no walk that cannot go on. -/
theorem isUnbroken_of_inlineWithin
    {result : Datum} (nodup : chain.Nodup)
    (success :
      inlineWithin definitions limit budget chain node = .ok result) :
    IsUnbroken definitions chain node := by
  induction success using inlineWithin_induction with
  | follow isReference followed found _ _ ih =>
    intro place names last walk
    rcases followReference_eq_ok_iff.1 followed with
      ⟨_, same, named, new, defined⟩
    cases same
    rcases walk.cases_of_reference isReference named defined with
      ⟨rfl, rfl, rfl⟩ | ⟨rest, others, rfl, rfl, behind⟩
    · rw [List.append_nil]
      refine ⟨nodup, ?_⟩
      intro other isReference'
      cases isReference.symm.trans isReference'
      exact ⟨_, _, rfl, found⟩
    · have unbroken := ih (nodup_append_new nodup new) rest others last behind
      rwa [List.append_assoc] at unbroken
  | object noReference _ replaced =>
    intro place names last walk
    rcases walk.cases_of_object noReference with
      ⟨rfl, rfl, rfl⟩ | ⟨index, part, rest, rfl, found, behind⟩
    · exact ends_of_noReference nodup noReference
    · rcases replaced.exists_of_part (List.mem_of_getElem? found) with
        ⟨_, _, ih⟩
      exact ih nodup rest names last behind
  | value noObject =>
    intro place names last walk
    rcases walk.eq_of_no_map noObject with ⟨rfl, rfl, rfl⟩
    exact ends_of_noReference nodup (reference?_eq_none_of_no_map noObject)

/-- A defect with which or after which all others come. -/
def ComesFirst (definitions : Datum) (chain : List String) (node : Datum)
    (fault : Fault) : Prop :=
  ∃ place, Defect definitions chain node place fault ∧
    ∀ other otherFault, Defect definitions chain node other otherFault →
      (place = other ∧ fault = otherFault) ∨ List.Lex (· < ·) place other

/-- A reference that is itself broken comes before all that is below it. -/
theorem comesFirst_of_broken
    (isChain : IsChain definitions chain)
    (broken : Broken definitions chain node fault) :
    ComesFirst definitions chain node fault := by
  have here : (chain ++ []).Nodup := by
    rw [List.append_nil]
    exact isChain.nodup
  refine ⟨[], ⟨[], node, .here node, here, ?_⟩, ?_⟩
  · rwa [List.append_nil]
  · rintro other otherFault ⟨names, last, walk, nodup, also⟩
    cases walk with
    | here =>
      rw [List.append_nil] at also
      exact Or.inl ⟨rfl, broken.unique isChain also⟩
    | part => exact Or.inr .nil
    | expand => exact Or.inr .nil

theorem comesFirst_of_target
    {text name : String} {target : Datum}
    (isReference : reference? node = some (.str text))
    (named : referenceName text = .ok name) (new : name ∉ chain)
    (defined : definition? definitions name = .ok (some target))
    (first : ComesFirst definitions (chain ++ [name]) target fault) :
    ComesFirst definitions chain node fault := by
  rcases first with ⟨place, ⟨names, last, walk, nodup, broken⟩, others⟩
  rw [List.append_assoc] at nodup broken
  refine
    ⟨0 :: place,
      ⟨name :: names, last, .expand isReference named defined walk, nodup,
        broken⟩, ?_⟩
  rintro other otherFault ⟨otherNames, otherLast, walk, nodup, also⟩
  rcases walk.cases_of_reference isReference named defined with
    ⟨rfl, rfl, rfl⟩ | ⟨rest, more, rfl, rfl, behind⟩
  · rw [List.append_nil] at also
    exact (not_broken_of_followed isReference named new defined also).elim
  · have below : Defect definitions (chain ++ [name]) target rest otherFault :=
      ⟨more, otherLast, behind, by rwa [List.append_assoc],
        by rwa [List.append_assoc]⟩
    rcases others rest otherFault below with ⟨rfl, rfl⟩ | before
    · exact Or.inl ⟨rfl, rfl⟩
    · exact Or.inr (.cons before)

/-- The first defect of the first part that has one comes first. -/
theorem comesFirst_of_part
    {entries : Entries} (isChain : IsChain definitions chain)
    (noReference : reference? (.map entries) = none) {index : Nat}
    {part : Datum} (found : (parts entries)[index]? = some part)
    (first : ComesFirst definitions chain part fault)
    (earlier : ∀ position < index, ∀ before,
      (parts entries)[position]? = some before →
        IsUnbroken definitions chain before) :
    ComesFirst definitions chain (.map entries) fault := by
  rcases first with ⟨place, ⟨names, last, walk, nodup, broken⟩, others⟩
  refine
    ⟨index :: place,
      ⟨names, last, .part noReference found walk, nodup, broken⟩, ?_⟩
  rintro other otherFault ⟨otherNames, otherLast, walk, nodup, also⟩
  rcases walk.cases_of_object noReference with
    ⟨rfl, rfl, rfl⟩ | ⟨position, there, rest, rfl, foundThere, walk⟩
  · rcases also.exists_reference with ⟨text, isReference⟩
    cases noReference.symm.trans isReference
  · have below : Defect definitions chain there rest otherFault :=
      ⟨otherNames, otherLast, walk, nodup, also⟩
    rcases Nat.lt_trichotomy position index with before | rfl | behind
    · exact
        (below.not_isUnbroken isChain
          (earlier position before there foundThere)).elim
    · cases found.symm.trans foundThere
      rcases others rest otherFault below with ⟨rfl, rfl⟩ | before
      · exact Or.inl ⟨rfl, rfl⟩
      · exact Or.inr (.cons before)
    · exact Or.inr (.rel behind)

/-- A node that is not inlined has met the limit or its first defect. -/
theorem comesFirst_of_inlineWithin
    {definitions : Entries} (isChain : IsChain (.map definitions) chain)
    (texts : RefersByText (.map definitions) node)
    (failure :
      inlineWithin (.map definitions) limit budget chain node =
        .error fault) :
    IsDepthFault limit fault ∨
      ComesFirst (.map definitions) chain node fault := by
  induction failure using inlineWithin_error_induction with
  | spent same => exact Or.inl ⟨_, same⟩
  | refused isReference followed =>
    rcases texts _ _ _ (.here _) _ isReference with ⟨text, rfl⟩
    refine Or.inr (comesFirst_of_broken isChain ?_)
    rcases followReference_eq_error followed with
      ⟨rfl, missing⟩ | ⟨name, named, old, rfl⟩
    · exact .unresolved isReference missing
    · exact .repeated isReference named old
  | @follow _ _ _ _ _ target isReference followed _ _ ih =>
    rcases followReference_eq_ok_iff.1 followed with
      ⟨text, same, named, new, defined⟩
    cases same
    have textsBelow : RefersByText (.map definitions) target := by
      intro place names last walk
      exact texts _ _ _ (.expand isReference named defined walk)
    rcases ih (isChain.append new defined) textsBelow with deep | first
    · exact Or.inl deep
    · exact
        Or.inr (comesFirst_of_target isReference named new defined first)
  | @part _ _ _ _ part noReference found earlier _ _ ih =>
    have textsBelow : RefersByText (.map definitions) part := by
      intro place names last walk
      exact texts _ _ _ (.part noReference found walk)
    rcases ih isChain textsBelow with deep | first
    · exact Or.inl deep
    · refine Or.inr (comesFirst_of_part isChain noReference found first ?_)
      intro position before there foundThere
      rcases earlier position before there foundThere with
        ⟨replaced, passed⟩
      exact isUnbroken_of_inlineWithin isChain.nodup passed

/-! ## The outcome under a limit that is large enough -/

theorem isChain_nil (definitions : Datum) : IsChain definitions [] :=
  ⟨List.nodup_nil, by simp⟩

/-- Under a limit that no walk meets the outcome is that of the walks. -/
theorem inline_of_enough
    {definitions : Entries} (texts : RefersByText (.map definitions) node)
    (enough : (depthBound node definitions : Int) ≤ limit) :
    (∀ result, inline node (.map definitions) limit = .ok result →
        IsUnbroken (.map definitions) [] node) ∧
      ∀ fault, inline node (.map definitions) limit = .error fault →
        ComesFirst (.map definitions) [] node fault := by
  constructor
  · intro result success
    exact isUnbroken_of_inlineWithin List.nodup_nil success
  · intro fault failure
    have budget :
        node.nesting + pendingNesting [] definitions < walkBudget limit := by
      rw [depthBound] at enough
      rw [walkBudget]
      omega
    have shallow := not_isDepthFault_of_enough budget failure
    rcases comesFirst_of_inlineWithin (isChain_nil _) texts failure with
      deep | first
    · exact (shallow deep).elim
    · exact first

theorem ComesFirst.isFirstDefect
    (first : ComesFirst definitions [] node fault) :
    IsFirstDefect definitions node fault := by
  rcases first with ⟨place, defect, others⟩
  refine ⟨place, defect, ?_⟩
  intro other otherFault also before
  rcases others other otherFault also with ⟨rfl, -⟩ | behind
  · exact List.lex_irrefl Nat.lt_irrefl _ before
  · exact List.lex_asymm (fun one other => Nat.lt_asymm one other) before behind

theorem ComesFirst.eq_of_isFirstDefect
    {other : Fault} (first : ComesFirst definitions [] node fault)
    (also : IsFirstDefect definitions node other) : fault = other := by
  rcases first with ⟨place, defect, others⟩
  rcases also with ⟨there, alsoDefect, noneBefore⟩
  rcases others there other alsoDefect with ⟨-, same⟩ | before
  · exact same
  · exact (noneBefore place fault defect before).elim

/--
Under every limit from a bound on, a node is inlined if and only if no walk
from it expands a name twice and every reference on a walk is resolved.
Otherwise the fault is that of the first defect.  Under any limit the outcome
is that under every larger one unless the limit is met.
-/
theorem inline_eq_ok_iff
    {node : Datum} {definitions : Entries}
    (texts : RefersByText (.map definitions) node) :
    (∀ limit : Int, (depthBound node definitions : Int) ≤ limit →
      ((∃ result, inline node (.map definitions) limit = .ok result) ↔
          ∀ place names last,
            Walk (.map definitions) node place names last →
              names.Nodup ∧
                ∀ reference, reference? last = some reference →
                  ∃ text target, reference = .str text ∧
                    resolve text (.map definitions) = .ok target) ∧
        ∀ fault, inline node (.map definitions) limit = .error fault ↔
          IsFirstDefect (.map definitions) node fault) ∧
      ∀ limit larger : Int, limit ≤ larger →
        (∃ chain, inline node (.map definitions) limit =
            .error (.cyclicReference chain (.depthAbove limit))) ∨
          inline node (.map definitions) limit =
            inline node (.map definitions) larger := by
  refine ⟨?_, fun limit larger => sameUnlessDeep_inline⟩
  intro limit enough
  rcases inline_of_enough texts enough with ⟨ofSuccess, ofFailure⟩
  refine ⟨⟨?_, ?_⟩, ?_⟩
  · rintro ⟨result, success⟩
    exact ofSuccess result success
  · intro unbroken
    cases outcome : inline node (.map definitions) limit with
    | ok result => exact ⟨result, rfl⟩
    | error fault =>
      rcases ofFailure fault outcome with ⟨place, defect, -⟩
      exact (defect.not_isUnbroken (isChain_nil _) unbroken).elim
  · intro fault
    constructor
    · intro failure
      exact (ofFailure fault failure).isFirstDefect
    · intro first
      cases outcome : inline node (.map definitions) limit with
      | ok result =>
        rcases first with ⟨place, defect, -⟩
        exact
          (defect.not_isUnbroken (isChain_nil _)
            (ofSuccess result outcome)).elim
      | error other =>
        rw [(ofFailure other outcome).eq_of_isFirstDefect first]

/-! ## A definition that is shared -/

theorem IsUnbroken.refersByText
    (unbroken : IsUnbroken definitions chain node) :
    RefersByText definitions node := by
  intro place names last walk reference isReference
  rcases (unbroken place names last walk).2 reference isReference with
    ⟨text, -, isText, -⟩
  exact ⟨text, isText⟩

/-- A text, and a pair whose two properties are the text. -/
def sharedText : Entries :=
  Fields.toEntries
    [("Text", .object [("type", .str "string")]),
      ("Pair",
        .object
          [("properties",
            .object
              [("left", referring "Text"), ("right", referring "Text")])])]

/-- Two ways to one definition are no cycle. -/
theorem inline_eq_ok_iff_sharedText :
    RefersByText (.map sharedText) (referring "Pair") ∧
      ∀ place names last,
        Walk (.map sharedText) (referring "Pair") place names last →
          names.Nodup := by
  have success :
      inline (referring "Pair") (.map sharedText)
          (depthBound (referring "Pair") sharedText) =
        .ok
          (.object
            [("properties",
              .object
                [("left", .object [("type", .str "string")]),
                  ("right", .object [("type", .str "string")])])]) := by
    decide +kernel
  have texts : RefersByText (.map sharedText) (referring "Pair") :=
    (isUnbroken_of_inlineWithin List.nodup_nil success).refersByText
  refine ⟨texts, ?_⟩
  intro place names last walk
  exact
    (((inline_eq_ok_iff texts).1 _ (Int.le_refl _)).1.1 ⟨_, success⟩
      place names last walk).1

end ApiAtlas.Schema
