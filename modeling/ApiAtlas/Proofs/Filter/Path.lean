import ApiAtlas.Filter.Expression
import ApiAtlas.Proofs.Filter.Leaf
import ApiAtlas.Proofs.Text.Parts
import Mathlib.Logic.Basic

/-!
# Paths of filter fields

A path is made of parts, each of which is a name with an array marker for
every array behind it.  A path is cut at its points again when the body is
made, but only one array marker is taken away from each part.
-/

namespace ApiAtlas.Filter

/-- A name that is a text, not empty, and holds no point and no array marker. -/
inductive IsPlain : Scalar → Prop where
  | text {name : String} (nonempty : name ≠ "") (noPoint : '.' ∉ name.toList)
      (noMarker : ¬ arrayMarker.toList <:+: name.toList) :
      IsPlain (.str name)

/-- A text that holds no point and no array marker; it may be empty. -/
inductive IsClearName : Scalar → Prop where
  | text {name : String} (noPoint : '.' ∉ name.toList)
      (noMarker : ¬ arrayMarker.toList <:+: name.toList) :
      IsClearName (.str name)

theorem IsPlain.isClearName {name : Scalar} (plain : IsPlain name) :
    IsClearName name := by
  cases plain with
  | text _ noPoint noMarker => exact .text noPoint noMarker

/-- A part of a path: a name and the number of arrays behind it. -/
structure Part where
  name : String
  arrays : Nat
deriving DecidableEq, Repr

/-- Characters with some array markers behind them. -/
def markedTimes (characters : List Char) : Nat → List Char
  | 0 => characters
  | count + 1 => markedTimes characters count ++ arrayMarker.toList

namespace Part

/-- A part as it stands in a path. -/
def text (part : Part) : String :=
  String.ofList (markedTimes part.name.toList part.arrays)

/-- The key that a part becomes in a body. -/
def key (part : Part) : String :=
  text { part with arrays := part.arrays - 1 }

/-- A part whose name holds neither a point nor an array marker. -/
structure IsClear (part : Part) : Prop where
  noPoint : '.' ∉ part.name.toList
  noMarker : ¬ arrayMarker.toList <:+: part.name.toList

end Part

theorem notMem_markedTimes
    {c : Char} {characters : List Char} (absent : c ∉ characters)
    (noMark : c ∉ arrayMarker.toList) (count : Nat) :
    c ∉ markedTimes characters count := by
  induction count with
  | zero => exact absent
  | succ count ih =>
    rw [markedTimes, List.mem_append, not_or]
    exact ⟨ih, noMark⟩

theorem length_markedTimes (characters : List Char) (count : Nat) :
    (markedTimes characters count).length =
      characters.length + 2 * count := by
  induction count with
  | zero => rfl
  | succ count ih =>
    have markLength : arrayMarker.toList.length = 2 := by decide
    rw [markedTimes, List.length_append, ih, markLength]
    omega

/-- One array marker is taken away from the end. -/
theorem unmarked_marked (characters : List Char) :
    unmarked (String.ofList (characters ++ arrayMarker.toList)) =
      String.ofList characters := by
  have marker : arrayMarker.toList = ['[', ']'] := by decide
  rw [unmarked, String.toList_ofList, marker, List.reverse_append]
  simp

/-- Nothing is taken away from a name without array markers. -/
theorem unmarked_of_noMarker
    {characters : List Char}
    (noMarker : ¬ arrayMarker.toList <:+: characters) :
    unmarked (String.ofList characters) = String.ofList characters := by
  have absent (front behind : List Char)
      (reversed : characters.reverse = front ++ behind) :
      arrayMarker.toList.reverse.isPrefixOf behind = false := by
    rw [Bool.eq_false_iff]
    intro begins
    rcases List.isPrefixOf_iff_prefix.1 begins with ⟨rest, rfl⟩
    apply noMarker
    refine ⟨rest.reverse, front.reverse, ?_⟩
    rw [← List.reverse_reverse characters, reversed]
    simp only [List.reverse_append, List.reverse_reverse]
  rw [unmarked, String.toList_ofList]
  split
  · next rest begins =>
    simp only [absent ['\n'] rest begins, Bool.false_eq_true, if_false,
      List.reverse_reverse]
  · simp only [absent [] characters.reverse rfl, Bool.false_eq_true, if_false,
      List.reverse_reverse]

theorem Part.IsClear.unmarked_text
    {part : Part} (clear : part.IsClear) :
    unmarked part.text = part.key := by
  rcases part with ⟨name, arrays⟩
  cases arrays with
  | zero => exact unmarked_of_noMarker clear.noMarker
  | succ count => exact unmarked_marked (markedTimes name.toList count)

theorem Part.IsClear.point_notMem_text
    {part : Part} (clear : part.IsClear) : '.' ∉ part.text.toList := by
  rw [Part.text, String.toList_ofList]
  exact notMem_markedTimes clear.noPoint (by decide) part.arrays

/-- A part loses nothing of its name when it becomes a key, at most a marker. -/
theorem Part.key_eq_name_iff (part : Part) :
    part.key = part.name ↔ part.arrays ≤ 1 := by
  rcases part with ⟨name, arrays⟩
  rw [Part.key, Part.text, ← String.toList_inj, String.toList_ofList]
  constructor
  · intro same
    have lengths := congrArg List.length same
    rw [length_markedTimes] at lengths
    dsimp only at lengths ⊢
    omega
  · intro few
    have none : arrays - 1 = 0 := Nat.sub_eq_zero_of_le few
    dsimp only
    rw [none, markedTimes]

/-! ## Paths of parts -/

/-- Parts as they stand in a path. -/
def shown (parts : List Part) : List Scalar :=
  parts.map fun part => .str part.text

theorem mapM_texts
    {read : Scalar → Except Fault String}
    (reads : ∀ text, read (.str text) = .ok text) (texts : List String) :
    (texts.map Scalar.str).mapM read = .ok texts := by
  induction texts with
  | nil => rfl
  | cons text rest ih =>
    rw [List.map_cons, List.mapM_cons, ih, reads]
    rfl

theorem joinPath_texts (texts : List String) :
    joinPath (texts.map .str) = .ok (String.intercalate "." texts) := by
  rw [joinPath, mapM_texts fun _ => rfl]
  rfl

/-- The names of a path of clear parts are their keys. -/
theorem pathNames_intercalate
    {parts : List Part} (nonempty : parts ≠ [])
    (clear : ∀ part ∈ parts, part.IsClear) :
    pathNames (String.intercalate "." (parts.map Part.text)) =
      parts.map Part.key := by
  have cut :
      Text.parts '.' (String.intercalate "." (parts.map Part.text)) =
        parts.map Part.text := by
    apply Text.parts_intercalate (by decide)
    · simpa using nonempty
    · intro text member
      rcases List.mem_map.1 member with ⟨part, within, rfl⟩
      exact (clear part within).point_notMem_text
  rw [pathNames, cut, List.map_map]
  apply List.map_congr_left
  intro part within
  exact (clear part within).unmarked_text

/-! ## Parts of a trail -/

/-- Parts with one more array behind the last of them. -/
def markLast : List Part → List Part
  | [] => [⟨"", 1⟩]
  | [part] => [{ part with arrays := part.arrays + 1 }]
  | part :: rest => part :: markLast rest

theorem Part.text_succ (name : String) (count : Nat) :
    Part.text ⟨name, count + 1⟩ = Part.text ⟨name, count⟩ ++ arrayMarker := by
  rw [← String.toList_inj, String.toList_append, Part.text, Part.text,
    String.toList_ofList, String.toList_ofList, markedTimes]

theorem markArray_shown (parts : List Part) :
    markArray (shown parts) = .ok (shown (markLast parts)) := by
  fun_induction markLast parts with
  | case1 => rfl
  | case2 part =>
    rw [shown, shown, List.map_singleton, List.map_singleton, markArray,
      Part.text_succ]
  | case3 part rest noLast ih =>
    cases rest with
    | nil => exact (noLast rfl).elim
    | cons next rest =>
      simp only [shown, List.map_cons] at ih ⊢
      rw [markArray, ih]
      · rfl
      · simp
      · simp

/-- The names of the properties among some steps. -/
def namesOf : List Step → List Scalar
  | [] => []
  | .property name :: trail => name :: namesOf trail
  | .items :: trail => namesOf trail

/-- The number of arrays that some steps begin with. -/
def arraysAhead : List Step → Nat
  | .items :: trail => arraysAhead trail + 1
  | _ => 0

/-- The text that a name is. -/
def nameText : Scalar → String
  | .str text => text
  | _ => ""

/-- The parts of the path from the first property on. -/
def partsBehind : List Step → List Part
  | [] => []
  | .property name :: trail =>
    ⟨nameText name, arraysAhead trail⟩ :: partsBehind trail
  | .items :: trail => partsBehind trail

/-- Parts with some more arrays behind the last of them. -/
def markLastTimes : Nat → List Part → List Part
  | 0, parts => parts
  | count + 1, parts => markLastTimes count (markLast parts)

theorem markLast_append (parts : List Part) (part : Part) :
    markLast (parts ++ [part]) =
      parts ++ [{ part with arrays := part.arrays + 1 }] := by
  induction parts with
  | nil => rfl
  | cons first rest ih =>
    rw [List.cons_append, markLast, ih]
    · rfl
    · simp

theorem markLastTimes_append (parts : List Part) (part : Part) (count : Nat) :
    markLastTimes count (parts ++ [part]) =
      parts ++ [{ part with arrays := part.arrays + count }] := by
  induction count generalizing part with
  | zero => rfl
  | succ count ih =>
    rw [markLastTimes, markLast_append, ih]
    dsimp only
    rw [Nat.add_assoc, Nat.add_comm 1]

/-- Arrays at the root make a part without a name. -/
theorem markLastTimes_nil_succ (count : Nat) :
    markLastTimes (count + 1) [] = [⟨"", count + 1⟩] := by
  have marked := markLastTimes_append [] ⟨"", 1⟩ count
  rw [List.nil_append, List.nil_append, Nat.add_comm] at marked
  rwa [markLastTimes, markLast]

theorem Part.text_zero (name : String) : Part.text ⟨name, 0⟩ = name :=
  String.ofList_toList

/-- The parts that steps with clear names lead to, from some parts on. -/
theorem partsFrom_shown
    (parts : List Part) {trail : List Step}
    (clear : ∀ name ∈ namesOf trail, IsClearName name) :
    partsFrom (shown parts) trail =
      .ok
        (shown
          (markLastTimes (arraysAhead trail) parts ++ partsBehind trail)) := by
  induction trail generalizing parts with
  | nil =>
    rw [partsBehind, List.append_nil]
    rfl
  | cons step trail ih =>
    cases step with
    | items =>
      rw [partsFrom, markArray_shown]
      exact ih (markLast parts) clear
    | property name =>
      rw [namesOf, List.forall_mem_cons] at clear
      rcases clear with ⟨⟨-, -⟩, clear⟩
      next text =>
      have start :
          shown parts ++ [.str text] = shown (parts ++ [⟨text, 0⟩]) := by
        simp only [shown, List.map_append, List.map_singleton,
          Part.text_zero]
      rw [partsFrom, start, ih _ clear, markLastTimes_append,
        List.append_assoc]
      simp only [Nat.zero_add]
      rfl

/-- The names behind are those of the properties. -/
theorem map_name_partsBehind
    {trail : List Step} (clear : ∀ name ∈ namesOf trail, IsClearName name) :
    (partsBehind trail).map (fun part => .str part.name) = namesOf trail := by
  induction trail with
  | nil => rfl
  | cons step trail ih =>
    cases step with
    | items => exact ih clear
    | property name =>
      rw [namesOf, List.forall_mem_cons] at clear
      rcases clear with ⟨⟨-, -⟩, clear⟩
      rw [partsBehind, List.map_cons, ih clear]
      rfl

theorem isClear_of_mem_partsBehind
    {trail : List Step} (clear : ∀ name ∈ namesOf trail, IsClearName name) :
    ∀ part ∈ partsBehind trail, part.IsClear := by
  induction trail with
  | nil => simp [partsBehind]
  | cons step trail ih =>
    cases step with
    | items => exact ih clear
    | property name =>
      rw [namesOf, List.forall_mem_cons] at clear
      rcases clear with ⟨⟨noPoint, noMarker⟩, clear⟩
      rw [partsBehind, List.forall_mem_cons]
      exact ⟨⟨noPoint, noMarker⟩, ih clear⟩

/-- No array holds arrays if and only if no part stands for more than one. -/
theorem items_items_infix_iff (trail : List Step) :
    [.items, .items] <:+: trail ↔
      2 ≤ arraysAhead trail ∨ ∃ part ∈ partsBehind trail, 2 ≤ part.arrays := by
  induction trail with
  | nil => simp [arraysAhead, partsBehind]
  | cons step trail ih =>
    rw [List.infix_cons_iff, ih]
    cases step with
    | property name => simp [arraysAhead, partsBehind]
    | items =>
      cases trail with
      | nil => simp [arraysAhead, partsBehind]
      | cons next trail =>
        cases next with
        | items => simp [arraysAhead]
        | property name => simp [arraysAhead, partsBehind]

end ApiAtlas.Filter
