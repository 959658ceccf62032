import ApiAtlas.Proofs.Data.Entries

/-!
# Places in values

A place in a value is given by the keys on the way to it.  Maps that were
filled in another order hold alike values at all places; which of them comes
first is all that may differ.
-/

namespace ApiAtlas

/-- Lists neither of which begins with the other. -/
def Diverge {α : Type} (one other : List α) : Prop :=
  ¬ one <+: other ∧ ¬ other <+: one

section Diverge

variable {α : Type} {one other : List α}

theorem Diverge.symm (diverge : Diverge one other) : Diverge other one :=
  ⟨diverge.2, diverge.1⟩

/-- Lists that diverge still do so whatever comes behind them. -/
theorem Diverge.append
    (diverge : Diverge one other) (behindOne behindOther : List α) :
    Diverge (one ++ behindOne) (other ++ behindOther) := by
  have apart {front back rest : List α}
      (begins : front <+: back ++ rest) :
      front <+: back ∨ back <+: front :=
    List.prefix_or_prefix_of_prefix begins (List.prefix_append back rest)
  constructor
  · intro begins
    rcases apart ((List.prefix_append one behindOne).trans begins) with
      front | back
    · exact diverge.1 front
    · exact diverge.2 back
  · intro begins
    rcases apart ((List.prefix_append other behindOther).trans begins) with
      front | back
    · exact diverge.2 front
    · exact diverge.1 back

/-- Lists diverge where they go on with different items. -/
theorem diverge_append_cons
    (common : List α) {here there : α} (different : here ≠ there)
    (behindOne behindOther : List α) :
    Diverge (common ++ here :: behindOne)
      (common ++ there :: behindOther) := by
  constructor
  · intro begins
    rw [List.prefix_append_right_inj, List.cons_prefix_cons] at begins
    exact different begins.1
  · intro begins
    rw [List.prefix_append_right_inj, List.cons_prefix_cons] at begins
    exact different begins.1.symm

end Diverge

theorem Entries.sizeOf_lt_of_get?
    {entries : Entries} {key : Scalar} {value : Datum}
    (found : Entries.get? key entries = some value) :
    sizeOf value < sizeOf (Datum.map entries) := by
  rcases exists_mem_of_get? found with ⟨entry, present, rfl⟩
  exact Datum.sizeOf_lt_of_mem_map present

namespace Datum

/-- What stands under some keys, each in the map under the one before. -/
def valueAt : List Scalar → Datum → Option Datum
  | [], value => some value
  | key :: rest, .map entries => (Entries.get? key entries).bind (valueAt rest)
  | _ :: _, _ => none

theorem valueAt_cons (key : Scalar) (rest : List Scalar) (entries : Entries) :
    valueAt (key :: rest) (.map entries) =
      (Entries.get? key entries).bind (valueAt rest) :=
  rfl

theorem valueAt_append (keys rest : List Scalar) (value : Datum) :
    valueAt (keys ++ rest) value = (valueAt keys value).bind (valueAt rest) := by
  induction keys generalizing value with
  | nil => rfl
  | cons key keys ih =>
    cases value with
    | map entries =>
      rw [List.cons_append, valueAt_cons, valueAt_cons, Option.bind_assoc]
      exact congrArg _ (funext ih)
    | _ => rfl

/-- Nothing stands at a place in an empty map. -/
theorem valueAt_append_cons_empty
    (keys : List Scalar) (key : Scalar) (rest : List Scalar) :
    valueAt (keys ++ key :: rest) (.map []) = none := by
  cases keys <;> rfl

/-- On the way to a map are maps. -/
theorem exists_map_on_way
    {keys longer : List Scalar} {value : Datum} (begins : keys <+: longer)
    (found : ∃ members, valueAt longer value = some (.map members)) :
    ∃ members, valueAt keys value = some (.map members) := by
  rcases begins with ⟨rest, rfl⟩
  rcases found with ⟨members, found⟩
  rw [valueAt_append, Option.bind_eq_some_iff] at found
  rcases found with ⟨held, here, below⟩
  cases rest with
  | nil => exact ⟨members, here.trans below⟩
  | cons key rest =>
    cases held with
    | map entries => exact ⟨entries, here⟩
    | _ => cases below

/-! ## Values that are alike -/

/-- Values that differ at most in the order in which maps hold their keys. -/
inductive Alike : Datum → Datum → Prop where
  | refl (value : Datum) : Alike value value
  | map {entries others : Entries}
      (keys : ∀ key,
        Entries.get? key entries = none ↔ Entries.get? key others = none)
      (values : ∀ key value other, Entries.get? key entries = some value →
        Entries.get? key others = some other → Alike value other) :
      Alike (.map entries) (.map others)

/-- A value without the entries that it has if it is a map. -/
def withoutEntries : Datum → Datum
  | .map _ => .map []
  | value => value

/-- Values that hold the same at every place, entries of maps aside. -/
def SameAtPlaces (one other : Datum) : Prop :=
  ∀ keys,
    (valueAt keys one).map withoutEntries =
      (valueAt keys other).map withoutEntries

theorem SameAtPlaces.under
    {entries others : Entries} {key : Scalar} {value other : Datum}
    (same : SameAtPlaces (.map entries) (.map others))
    (found : Entries.get? key entries = some value)
    (foundOther : Entries.get? key others = some other) :
    SameAtPlaces value other := by
  intro keys
  have here := same (key :: keys)
  rwa [valueAt_cons, valueAt_cons, found, foundOther] at here

theorem SameAtPlaces.get?_eq_none_iff
    {entries others : Entries} (same : SameAtPlaces (.map entries) (.map others))
    (key : Scalar) :
    Entries.get? key entries = none ↔ Entries.get? key others = none := by
  have here := same [key]
  rw [valueAt_cons, valueAt_cons] at here
  cases found : Entries.get? key entries <;>
    cases foundOther : Entries.get? key others <;>
    simp_all [valueAt]

theorem eq_or_maps_of_withoutEntries_eq
    {one other : Datum} (same : withoutEntries one = withoutEntries other) :
    one = other ∨
      ∃ entries others, one = .map entries ∧ other = .map others := by
  cases one with
  | map entries =>
    cases other with
    | map others => exact Or.inr ⟨entries, others, rfl, rfl⟩
    | _ => cases same
  | _ =>
    cases other with
    | map others => cases same
    | _ => exact Or.inl same

/-- Values that hold the same at every place are alike. -/
theorem SameAtPlaces.alike
    {one other : Datum} (same : SameAtPlaces one other) : Alike one other := by
  induction size : sizeOf one using Nat.strongRecOn generalizing one other with
  | ind bound ih =>
    rcases eq_or_maps_of_withoutEntries_eq (Option.some.inj (same [])) with
      rfl | ⟨entries, others, rfl, rfl⟩
    · exact .refl one
    · apply Alike.map same.get?_eq_none_iff
      intro key value other found foundOther
      exact
        ih _ (size ▸ Entries.sizeOf_lt_of_get? found)
          (same.under found foundOther) rfl

end Datum

end ApiAtlas
