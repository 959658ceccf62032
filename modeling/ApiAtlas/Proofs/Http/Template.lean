import ApiAtlas.Http.Transport
import ApiAtlas.Proofs.Text.Percent
import ApiAtlas.Proofs.Text.Replacement
import Mathlib.Data.List.Basic

/-!
# Templates of paths

A template is made of texts without braces and of places for values, which are
names between braces.  A transport replaces one name after the other in the
whole path, but no encoded value has a brace, so that each replacement finds
the places of its own name and nothing else.  The path is therefore the
template with all places filled at once, whatever the order of the values.
-/

namespace ApiAtlas.Http

/-! ## Templates -/

/-- The brace before the name of a place. -/
def openBrace : Char := '\x7b'

/-- The brace behind the name of a place. -/
def closeBrace : Char := '\x7d'

/-- Characters without braces. -/
def BraceFree (characters : List Char) : Prop :=
  openBrace ∉ characters ∧ closeBrace ∉ characters

instance (characters : List Char) : Decidable (BraceFree characters) :=
  inferInstanceAs (Decidable (_ ∧ _))

/-- The name of a place: a text that is not empty and has no braces. -/
structure PlaceName where
  text : String
  nonempty : text ≠ ""
  braceFree : BraceFree text.toList
deriving DecidableEq

/-- A piece of a template. -/
inductive Piece where
  | text (characters : List Char) (braceFree : BraceFree characters)
  | place (name : PlaceName)

/-- A template of a path. -/
abbrev Template := List Piece

/-- A place as it is written: its name between braces. -/
def PlaceName.written (name : PlaceName) : List Char :=
  openBrace :: (name.text.toList ++ [closeBrace])

/-- A piece as it is written. -/
def Piece.written : Piece → List Char
  | .text characters _ => characters
  | .place name => name.written

/-- A template as it is written. -/
def Template.written (template : Template) : List Char :=
  template.flatMap Piece.written

/-- A value as it stands in an address. -/
def encoded (value : Datum) : List Char :=
  (Text.percentEncode value.plain).toList

/-- A piece with the value of its name in its place, if there is one. -/
def Piece.filled (value? : PlaceName → Option Datum) : Piece → List Char
  | .text characters _ => characters
  | .place name => (value? name).elim name.written encoded

/-- A template in which each place that has a value is filled. -/
def Template.filled
    (value? : PlaceName → Option Datum) (template : Template) : List Char :=
  template.flatMap (Piece.filled value?)

/-- The name of a place. -/
def Piece.name? : Piece → Option PlaceName
  | .text _ _ => none
  | .place name => some name

/-- The names of the places of a template, in order. -/
def Template.names (template : Template) : List PlaceName :=
  template.filterMap Piece.name?

/-! ## Encoded values -/

theorem braceFree_encoded (value : Datum) : BraceFree (encoded value) :=
  ⟨Text.notMem_percentEncode (by decide) (by decide) value.plain,
    Text.notMem_percentEncode (by decide) (by decide) value.plain⟩

/-! ## One name after the other -/

/-- A piece in which the places of a name have become a text. -/
def Piece.put (name : PlaceName) (value : Datum) : Piece → Piece
  | .text characters braceFree => .text characters braceFree
  | .place other =>
    if other = name then .text (encoded value) (braceFree_encoded value)
    else .place other

/-- A template in which the places of a name have become a text. -/
def Template.put
    (name : PlaceName) (value : Datum) (template : Template) : Template :=
  template.map (Piece.put name value)

/-- A place is found only where its own name stands between braces. -/
theorem written_prefix_written_append_iff
    {name other : PlaceName} {rest : List Char} :
    name.written <+: other.written ++ rest ↔ name = other := by
  rw [PlaceName.written, PlaceName.written, List.cons_append,
    List.cons_prefix_cons, List.append_assoc, List.singleton_append,
    Text.append_mark_prefix_append_mark_iff name.braceFree.2
      other.braceFree.2]
  constructor
  · rintro ⟨-, same⟩
    rcases name with ⟨text, nonempty, braceFree⟩
    rcases other with ⟨otherText, otherNonempty, otherBraceFree⟩
    cases String.toList_inj.1 same
    rfl
  · rintro rfl
    exact ⟨rfl, rfl⟩

/-- Replacing the places of a name in front of a text. -/
theorem replaceFrom_piece
    (name : PlaceName) (value : Datum) (piece : Piece) (rest : List Char) :
    Text.replaceFrom name.written (encoded value) 0 (piece.written ++ rest) =
      (piece.put name value).written ++
        Text.replaceFrom name.written (encoded value) 0 rest := by
  cases piece with
  | text characters braceFree =>
    exact Text.replaceFrom_append_of_not_mem braceFree.1 rest
  | place other =>
    rw [Piece.put]
    split
    · next same =>
      subst same
      exact Text.replaceFrom_self_append rest
    · next different =>
      have begins : ¬ name.written <+: other.written ++ rest :=
        fun found => different (written_prefix_written_append_iff.1 found).symm
      have noOpen : openBrace ∉ other.text.toList ++ [closeBrace] := by
        rw [List.mem_append, List.mem_singleton, not_or]
        exact ⟨other.braceFree.1, by decide⟩
      rw [PlaceName.written, PlaceName.written, List.cons_append] at begins
      change
        Text.replaceFrom name.written (encoded value) 0 (other.written ++ rest) =
          other.written ++ _
      rw [PlaceName.written, PlaceName.written, List.cons_append,
        Text.replaceFrom_cons_of_not_prefix begins,
        Text.replaceFrom_append_of_not_mem noOpen, List.cons_append]

theorem replaceFrom_written
    (name : PlaceName) (value : Datum) (template : Template) :
    Text.replaceFrom name.written (encoded value) 0 template.written =
      (template.put name value).written := by
  induction template with
  | nil => rfl
  | cons piece rest ih =>
    rw [Template.written, List.flatMap_cons, replaceFrom_piece,
      ← Template.written, ih]
    rfl

/-- The values of places as the entries of a map. -/
def placeEntries (values : List (PlaceName × Datum)) : Entries :=
  values.map fun value => (.str value.1.text, value.2)

/-- What stands in a place: the value that is listed first under its name. -/
def valueIn (values : List (PlaceName × Datum)) (name : PlaceName) :
    Option Datum :=
  values.lookup name

variable {name : PlaceName} {value : Datum} {values : List (PlaceName × Datum)}

theorem valueIn_cons (name other : PlaceName) (value : Datum) :
    valueIn ((name, value) :: values) other =
      if other = name then some value else valueIn values other := by
  rw [valueIn, List.lookup_cons, valueIn]
  by_cases same : other = name
  · rw [if_pos same, beq_iff_eq.2 same]
  · rw [if_neg same, beq_false_of_ne same]

/-- A place that has become a text is filled already. -/
theorem Piece.filled_put (piece : Piece) :
    (piece.put name value).filled (valueIn values) =
      piece.filled (valueIn ((name, value) :: values)) := by
  cases piece with
  | text characters braceFree => rfl
  | place other =>
    rw [Piece.put, Piece.filled, valueIn_cons]
    by_cases same : other = name
    · rw [if_pos same, if_pos same]
      rfl
    · rw [if_neg same, if_neg same]
      rfl

theorem Template.filled_put (template : Template) :
    (template.put name value).filled (valueIn values) =
      template.filled (valueIn ((name, value) :: values)) := by
  rw [Template.filled, Template.put, List.flatMap_map]
  exact List.flatMap_congr fun piece _ => piece.filled_put

theorem Template.filled_nil (template : Template) :
    template.filled (valueIn []) = template.written := by
  refine List.flatMap_congr fun piece _ => ?_
  cases piece with
  | text characters braceFree => rfl
  | place name => rfl

theorem toList_placeOf (name : PlaceName) :
    (placeOf (.str name.text)).toList = name.written := by
  rw [placeOf, String.toList_append, String.toList_append]
  rfl

/-- Names that are replaced one after the other are replaced all at once. -/
theorem fillPath_eq (template : Template) :
    fillPath (String.ofList template.written) (placeEntries values) =
      String.ofList (template.filled (valueIn values)) := by
  induction values generalizing template with
  | nil => exact congrArg String.ofList template.filled_nil.symm
  | cons first rest ih =>
    rcases first with ⟨name, value⟩
    have replaced :
        Text.replaceAll (placeOf (.str name.text))
            (Text.percentEncode value.plain)
            (String.ofList template.written) =
          String.ofList (template.put name value).written := by
      rw [Text.replaceAll, toList_placeOf, String.toList_ofList, ← encoded,
        replaceFrom_written]
    have step :
        fillPath (String.ofList template.written)
            (placeEntries ((name, value) :: rest)) =
          fillPath
            (Text.replaceAll (placeOf (.str name.text))
              (Text.percentEncode value.plain)
              (String.ofList template.written))
            (placeEntries rest) := rfl
    rw [step, replaced, ih, Template.filled_put]

/-! ## The order of the values -/

theorem valueIn_eq_some_iff
    (different : (values.map Prod.fst).Nodup) :
    valueIn values name = some value ↔ (name, value) ∈ values := by
  induction values with
  | nil => simp [valueIn]
  | cons first rest ih =>
    rcases first with ⟨other, own⟩
    rw [List.map_cons, List.nodup_cons] at different
    rw [valueIn_cons, List.mem_cons, Prod.mk.injEq]
    by_cases same : name = other
    · rw [if_pos same, Option.some.injEq, eq_comm]
      constructor
      · exact fun equal => Or.inl ⟨same, equal⟩
      · rintro (⟨-, equal⟩ | behind)
        · exact equal
        · exact (different.1 (List.mem_map.2 ⟨_, behind, same⟩)).elim
    · rw [if_neg same, ih different.2]
      exact ⟨Or.inr, fun found => found.resolve_left fun equal => same equal.1⟩

/-- Values under different names may be given in any order. -/
theorem valueIn_eq_of_perm
    {order : List (PlaceName × Datum)}
    (different : (values.map Prod.fst).Nodup) (reordered : order.Perm values) :
    valueIn order = valueIn values := by
  have differentToo : (order.map Prod.fst).Nodup :=
    (reordered.map Prod.fst).nodup_iff.2 different
  funext name
  refine Option.ext fun value => ?_
  rw [valueIn_eq_some_iff different, valueIn_eq_some_iff differentToo,
    reordered.mem_iff]

end ApiAtlas.Http
