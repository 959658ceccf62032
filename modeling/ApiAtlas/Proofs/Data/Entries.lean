import ApiAtlas.Data.Datum
import Mathlib.Data.List.Forall2

/-!
# Entries of maps

What stands under a key after a value has been put under a text, and when two
lists of entries agree except under some keys.
-/

namespace ApiAtlas

@[simp]
theorem Scalar.same_str_iff {key : Scalar} {text : String} :
    key.same (.str text) = true ↔ key = .str text := by
  cases key <;> simp [Scalar.same, Scalar.number?]

@[simp]
theorem Scalar.str_same_iff {key : Scalar} {text : String} :
    (Scalar.str text).same key = true ↔ key = .str text := by
  cases key with
  | str other => simp [Scalar.same, eq_comm (a := other)]
  | _ => simp [Scalar.same, Scalar.number?]

namespace Entries

theorem get?_cons (key : Scalar) (entry : Scalar × Datum) (rest : Entries) :
    get? key (entry :: rest) =
      if entry.1.same key then some entry.2 else get? key rest := by
  rw [get?, List.find?_cons]
  cases entry.1.same key <;> rfl

/-- What is found under a key is the value of an entry. -/
theorem exists_mem_of_get?
    {key : Scalar} {value : Datum} {entries : Entries}
    (found : get? key entries = some value) :
    ∃ entry ∈ entries, entry.2 = value := by
  rw [get?, Option.map_eq_some_iff] at found
  rcases found with ⟨entry, present, same⟩
  exact ⟨entry, List.mem_of_find?_eq_some present, same⟩

/-- A value is found under its key, and nothing else is moved. -/
theorem get?_put_text (text : String) (value : Datum) (key : Scalar)
    (entries : Entries) :
    get? key (put (.str text) value entries) =
      if key = .str text then some value else get? key entries := by
  induction entries with
  | nil =>
    rw [put, get?_cons]
    simp only [Scalar.str_same_iff]
  | cons entry rest ih =>
    rw [put]
    by_cases here : entry.1 = .str text
    · rw [if_pos (Scalar.same_str_iff.2 here), get?_cons, get?_cons]
      simp only [here, Scalar.str_same_iff]
      split <;> rfl
    · rw [if_neg (mt Scalar.same_str_iff.1 here), get?_cons, get?_cons, ih]
      by_cases there : key = .str text
      · subst there
        simp only [if_true, if_neg (mt Scalar.same_str_iff.1 here)]
      · simp only [if_neg there]

theorem get?_put_self (text : String) (value : Datum) (entries : Entries) :
    get? (.str text) (put (.str text) value entries) = some value := by
  rw [get?_put_text, if_pos rfl]

theorem get?_put_of_ne
    {name text : String} (different : name ≠ text) (value : Datum)
    (entries : Entries) :
    get? (.str name) (put (.str text) value entries) =
      get? (.str name) entries := by
  rw [get?_put_text, if_neg]
  exact fun same => different (Scalar.str.inj same)

/-- Only a value put under a text is found under it. -/
theorem get?_text_put (text : String) (key : Scalar) (value : Datum)
    (entries : Entries) :
    get? (.str text) (put key value entries) =
      if key = .str text then some value else get? (.str text) entries := by
  induction entries with
  | nil =>
    rw [put, get?_cons]
    simp only [Scalar.same_str_iff]
  | cons entry rest ih =>
    rw [put]
    by_cases here : entry.1.same key = true
    · rw [if_pos here, get?_cons, get?_cons]
      simp only [Scalar.same_str_iff]
      by_cases same : key = .str text
      · rw [same, Scalar.same_str_iff] at here
        rw [if_pos here, if_pos same]
      · have other : entry.1 ≠ .str text := by
          intro isText
          rw [isText, Scalar.str_same_iff] at here
          exact same here
        rw [if_neg other, if_neg other, if_neg same]
    · rw [if_neg here, get?_cons, get?_cons, ih]
      simp only [Scalar.same_str_iff]
      by_cases same : key = .str text
      · rw [same, Scalar.same_str_iff] at here
        rw [if_neg here, if_pos same, if_pos same]
      · rw [if_neg same, if_neg same]

/-- A value put under a new key comes last. -/
theorem put_of_new
    {key : Scalar} {entries : Entries}
    (new : ∀ entry ∈ entries, ¬ entry.1.same key = true) (value : Datum) :
    put key value entries = entries ++ [(key, value)] := by
  induction entries with
  | nil => rfl
  | cons entry rest ih =>
    rw [List.forall_mem_cons] at new
    rw [put, if_neg new.1, ih new.2]
    rfl

/-- Putting what stands there already changes nothing. -/
theorem put_of_get?
    {text : String} {value : Datum} {entries : Entries}
    (found : get? (.str text) entries = some value) :
    put (.str text) value entries = entries := by
  induction entries with
  | nil => cases found
  | cons entry rest ih =>
    rw [get?_cons] at found
    rw [put]
    split
    · next here =>
      rw [if_pos here] at found
      cases found
      rfl
    · next other =>
      rw [if_neg other] at found
      rw [ih found]

/-- Of two values put under one text the later one stays. -/
theorem put_put_text (text : String) (value other : Datum) (entries : Entries) :
    put (.str text) value (put (.str text) other entries) =
      put (.str text) value entries := by
  induction entries with
  | nil => simp [put]
  | cons entry rest ih =>
    rw [put, put]
    split
    · next here => rw [put, if_pos here]
    · next elsewhere => rw [put, if_neg elsewhere, ih]

/-- Values are put under two present texts in any order. -/
theorem put_comm_text
    {one other : String} (different : one ≠ other) {entries : Entries}
    (foundOne : get? (.str one) entries ≠ none)
    (foundOther : get? (.str other) entries ≠ none) (first second : Datum) :
    put (.str one) first (put (.str other) second entries) =
      put (.str other) second (put (.str one) first entries) := by
  induction entries with
  | nil => exact (foundOne rfl).elim
  | cons entry rest ih =>
    rw [get?_cons] at foundOne foundOther
    by_cases here : entry.1 = .str one
    · have elsewhere : ¬ entry.1.same (.str other) = true := by
        rw [here, Scalar.same_str_iff]
        exact fun same => different (Scalar.str.inj same)
      rw [← Scalar.same_str_iff] at here
      rw [put, put, if_neg elsewhere, if_pos here, put, put, if_pos here,
        if_neg elsewhere]
    · rw [← Scalar.same_str_iff] at here
      by_cases there : entry.1.same (.str other) = true
      · rw [put, put, if_pos there, if_neg here, put, put, if_neg here,
          if_pos there]
      · rw [if_neg here] at foundOne
        rw [if_neg there] at foundOther
        rw [put, put, if_neg there, if_neg here, put, put, if_neg here,
          if_neg there, ih foundOne foundOther]

/-! ## Agreement except under some keys -/

/-- Entries with the same keys in order whose values differ at most under some of them. -/
def AgreeExcept (changed : Scalar → Prop) (entries others : Entries) : Prop :=
  List.Forall₂
    (fun entry other =>
      entry.1 = other.1 ∧ (¬ changed entry.1 → entry.2 = other.2))
    entries others

variable {changed alsoChanged : Scalar → Prop} {entries middle others : Entries}

theorem AgreeExcept.refl (changed : Scalar → Prop) (entries : Entries) :
    AgreeExcept changed entries entries :=
  List.forall₂_same.2 fun _ _ => ⟨rfl, fun _ => rfl⟩

theorem AgreeExcept.mono
    (agree : AgreeExcept changed entries others)
    (more : ∀ key, changed key → alsoChanged key) :
    AgreeExcept alsoChanged entries others :=
  agree.imp fun _ _ same =>
    ⟨same.1, fun kept => same.2 fun moved => kept (more _ moved)⟩

theorem AgreeExcept.trans
    (first : AgreeExcept changed entries middle)
    (second : AgreeExcept changed middle others) :
    AgreeExcept changed entries others := by
  induction first generalizing others with
  | nil => exact second
  | cons same _ ih =>
    cases second with
    | cons next below =>
      refine .cons ⟨same.1.trans next.1, fun kept => ?_⟩ (ih below)
      rw [same.2 kept, next.2 (same.1 ▸ kept)]

theorem AgreeExcept.keys (agree : AgreeExcept changed entries others) :
    others.map Prod.fst = entries.map Prod.fst := by
  induction agree with
  | nil => rfl
  | cons same _ ih => rw [List.map_cons, List.map_cons, same.1, ih]

/-- What stands under a text whose value has not changed. -/
theorem AgreeExcept.get?_eq
    (agree : AgreeExcept changed entries others) {text : String}
    (kept : ¬ changed (.str text)) :
    get? (.str text) others = get? (.str text) entries := by
  induction agree with
  | nil => rfl
  | @cons entry other _ _ same _ ih =>
    rw [get?_cons, get?_cons, ← same.1, ih]
    by_cases here : entry.1 = .str text
    · rw [same.2 (here ▸ kept)]
    · rw [if_neg (mt Scalar.same_str_iff.1 here),
        if_neg (mt Scalar.same_str_iff.1 here)]

/-- No key is lost or gained. -/
theorem AgreeExcept.get?_eq_none_iff
    (agree : AgreeExcept changed entries others) (key : Scalar) :
    get? key others = none ↔ get? key entries = none := by
  induction agree with
  | nil => rfl
  | @cons entry other _ _ same _ ih =>
    rw [get?_cons, get?_cons, ← same.1]
    split
    · simp
    · exact ih

/-- Putting a value under a present text changes nothing else. -/
theorem agreeExcept_put
    {text : String} {value : Datum} (found : get? (.str text) entries ≠ none)
    (here : changed (.str text)) :
    AgreeExcept changed entries (put (.str text) value entries) := by
  induction entries with
  | nil => exact (found rfl).elim
  | cons entry rest ih =>
    rw [put]
    by_cases same : entry.1 = .str text
    · rw [if_pos (Scalar.same_str_iff.2 same)]
      exact
        .cons ⟨rfl, fun kept => (kept (same ▸ here)).elim⟩
          (AgreeExcept.refl changed rest)
    · rw [if_neg (mt Scalar.same_str_iff.1 same)]
      rw [get?_cons, if_neg (mt Scalar.same_str_iff.1 same)] at found
      exact .cons ⟨rfl, fun _ => rfl⟩ (ih found)

end Entries

end ApiAtlas
