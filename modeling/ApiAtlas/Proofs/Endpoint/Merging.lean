import ApiAtlas.Proofs.Endpoint.Building
import ApiAtlas.Proofs.Occurrence
import Mathlib.Data.List.Induction
import Mathlib.Data.List.Nodup

/-!
# Parameters put together

The parameters that a path shares and those that an operation states itself are
put together by the name and the place that they state.  One parameter stays
for each such pair, where the pair first occurs, and it is the last one that
states the pair.  So an own parameter replaces the shared one.

Numbers may count as one key without being equal, but no number is the name or
the place of a parameter: an endpoint is built only if every stated pair is the
same only as itself.
-/

namespace ApiAtlas

/-! ## Lists of objects -/

/-- The objects of a list. -/
def Datum.objects : Datum → List Entries
  | .list items => items.filterMap fun item => item.entries.toOption
  | _ => []

/-- A value whose parts are objects is a list of them. -/
theorem Datum.objects_of_parts
    {value : Datum} {stated : List Entries}
    (found : value.parts = .ok (stated.map Datum.map)) :
    value.objects = stated := by
  have noScalars {α : Type} {values : List α} {f : α → Scalar}
      (same :
        Except.ok (values.map fun item => Datum.scalar (f item)) =
          (Except.ok (stated.map Datum.map) : Except Fault (List Datum))) :
      [] = stated := by
    cases stated with
    | nil => rfl
    | cons first rest =>
      cases values with
      | nil => cases same
      | cons item others => cases (List.cons.inj (Except.ok.inj same)).1
  cases value with
  | list items =>
    cases found
    rw [objects, List.filterMap_map]
    exact List.filterMap_some
  | set members => exact noScalars found
  | map entries => exact noScalars found
  | endless =>
    cases stated with
    | nil => rfl
    | cons first rest => cases found
  | scalar value =>
    cases value with
    | str text => exact noScalars found
    | bytes content => exact noScalars found
    | _ => cases found

theorem Datum.EachMap.of_mem_objects
    {holds : Entries → Prop} {value : Datum} {entries : Entries}
    (eachMap : value.EachMap holds) (member : entries ∈ value.objects) :
    Datum.EachMap holds (.map entries) := by
  cases eachMap with
  | list each =>
    rcases List.mem_filterMap.1 member with ⟨item, present, found⟩
    cases item with
    | map own =>
      cases found
      exact each _ present
    | _ => cases found
  | _ => cases member

/-! ## Scalars that are the same only as themselves -/

namespace Scalar

/-- A scalar that is the same key only as itself. -/
def IsExact (value : Scalar) : Prop :=
  ∀ other : Scalar,
    (other.same value = true ↔ other = value) ∧
      (value.same other = true ↔ other = value)

theorem isExact_str (text : String) : IsExact (.str text) :=
  fun _ => ⟨same_str_iff, str_same_iff⟩

theorem isExact_bytes (content : List UInt8) : IsExact (.bytes content) := by
  intro other
  cases other with
  | bytes own => simp [same, eq_comm (a := own)]
  | _ => simp [same, number?]

theorem isExact_null : IsExact .null := by
  intro other
  cases other <;> simp [same, number?]

end Scalar

namespace Operation

/-! ## Stated keys -/

/-- What a parameter states as its name and its place, null where it does not. -/
def statedKey (entries : Entries) : Datum × Datum :=
  (entries.held "name", entries.held "in")

/-- The pair of values that a key consists of. -/
def ParameterKey.stated (key : ParameterKey) : Datum × Datum :=
  (.scalar key.name, .scalar key.place)

theorem ParameterKey.stated_inj {one other : ParameterKey} :
    one.stated = other.stated ↔ one = other := by
  constructor
  · intro same
    rcases one with ⟨name, place⟩
    cases same
    rfl
  · rintro rfl
    rfl

/-- The last parameter that states a key. -/
def lastStated? (key : Datum × Datum) (stated : List Entries) : Option Entries :=
  stated.reverse.find? fun entries => statedKey entries = key

/-- The different keys of parameters, in order of first occurrence. -/
def statedKeys (stated : List Entries) : List (Datum × Datum) :=
  (stated.map statedKey).eraseDups

/-- Those that are put last decide. -/
theorem lastStated?_append
    (key : Datum × Datum) (stated others : List Entries) :
    lastStated? key (stated ++ others) =
      (lastStated? key others).or (lastStated? key stated) := by
  rw [lastStated?, List.reverse_append, List.find?_append]
  rfl

theorem lastStated?_append_singleton
    (key : Datum × Datum) (stated : List Entries) (entries : Entries) :
    lastStated? key (stated ++ [entries]) =
      if statedKey entries = key then some entries
      else lastStated? key stated := by
  rw [lastStated?_append, lastStated?, List.reverse_singleton,
    List.find?_singleton]
  by_cases here : statedKey entries = key
  · rw [if_pos here, if_pos (decide_eq_true here), Option.some_or]
  · rw [if_neg here, if_neg (mt of_decide_eq_true here), Option.none_or]

theorem of_lastStated?
    {key : Datum × Datum} {stated : List Entries} {entries : Entries}
    (found : lastStated? key stated = some entries) :
    entries ∈ stated ∧ statedKey entries = key := by
  rw [lastStated?] at found
  have states := List.find?_some found
  exact
    ⟨List.mem_reverse.1 (List.mem_of_find?_eq_some found),
      of_decide_eq_true states⟩

theorem exists_lastStated?
    {stated : List Entries} {entries : Entries} (member : entries ∈ stated) :
    ∃ last, lastStated? (statedKey entries) stated = some last := by
  rw [← Option.isSome_iff_exists, lastStated?, List.find?_isSome]
  exact ⟨entries, List.mem_reverse.2 member, decide_eq_true rfl⟩

/-- A key that comes again adds nothing. -/
theorem statedKeys_append_of_mem
    {stated : List Entries} {entries : Entries}
    (known : statedKey entries ∈ statedKeys stated) :
    statedKeys (stated ++ [entries]) = statedKeys stated := by
  rw [statedKeys, List.mem_eraseDups] at known
  rw [statedKeys, List.map_append, List.map_singleton,
    eraseDups_concat_of_mem known, ← statedKeys]

/-- A new key comes last. -/
theorem statedKeys_append_of_notMem
    {stated : List Entries} {entries : Entries}
    (new : statedKey entries ∉ statedKeys stated) :
    statedKeys (stated ++ [entries]) =
      statedKeys stated ++ [statedKey entries] := by
  rw [statedKeys, List.mem_eraseDups] at new
  rw [statedKeys, List.map_append, List.map_singleton,
    eraseDups_concat_of_notMem new, ← statedKeys]

theorem nodup_statedKeys (stated : List Entries) :
    (statedKeys stated).Nodup :=
  nodup_eraseDups _

/-! ## Putting parameters one by one -/

/-- The parameters with others put among them, one by one. -/
def putParameters (added merged : Merged) : Merged :=
  added.foldl (fun merged entry => putParameter entry.1 entry.2 merged) merged

theorem putParameters_append_singleton
    (added merged : Merged) (entry : ParameterKey × Entries) :
    putParameters (added ++ [entry]) merged =
      putParameter entry.1 entry.2 (putParameters added merged) := by
  rw [putParameters, List.foldl_append]
  rfl

/-- A put parameter states the key under which it is put. -/
def Merged.StatesKeys (merged : Merged) : Prop :=
  ∀ entry ∈ merged, statedKey entry.2 = entry.1.stated

theorem exists_of_foldlM_mergeParameter
    {parts : List Datum} {merged others : Merged}
    (success : parts.foldlM mergeParameter merged = .ok others) :
    ∃ added : Merged,
      parts = (added.map Prod.snd).map Datum.map ∧
        added.StatesKeys ∧ others = putParameters added merged := by
  induction parts generalizing merged with
  | nil =>
    cases success
    exact ⟨[], rfl, List.forall_mem_nil _, rfl⟩
  | cons part rest ih =>
    rw [List.foldlM_cons] at success
    rcases exists_of_bind_eq_ok success with ⟨next, step, success⟩
    rcases ih success with ⟨added, rfl, states, rfl⟩
    rw [mergeParameter] at step
    rcases exists_of_bind_eq_ok step with ⟨entries, found, step⟩
    rcases exists_of_bind_eq_ok step with ⟨name, named, step⟩
    rcases exists_of_bind_eq_ok step with ⟨place, placed, same⟩
    cases same
    refine ⟨(⟨name, place⟩, entries) :: added, ?_, ?_, rfl⟩
    · rw [Datum.eq_map_of_entries found]
      rfl
    · refine List.forall_mem_cons.2 ⟨?_, states⟩
      exact
        Prod.ext (Datum.eq_scalar_of_key named) (Datum.eq_scalar_of_key placed)

/-- The parts of what a path shares; there are none if nothing is shared. -/
def sharedParts (shared : Datum) : Except Fault (List Datum) :=
  if shared.isTruthy then shared.parts else .ok []

/-- The shared parameters are put together first, and then the own ones. -/
theorem mergeParameters_eq (shared own : Datum) :
    mergeParameters shared own =
      (sharedParts shared >>= fun sharedParts =>
        sharedParts.foldlM mergeParameter [] >>= fun merged =>
          own.parts >>= fun ownParts =>
            ownParts.foldlM mergeParameter merged >>= fun merged =>
              .ok (merged.map Prod.snd)) := by
  rw [mergeParameters, sharedParts]
  split <;> rfl

theorem objects_of_sharedParts
    {shared : Datum} {stated : List Entries}
    (found : sharedParts shared = .ok (stated.map Datum.map)) :
    shared.objects = stated := by
  rw [sharedParts] at found
  split at found
  · exact Datum.objects_of_parts found
  · next absent =>
    rw [List.map_eq_nil_iff.1 (Except.ok.inj found).symm]
    cases shared with
    | list items =>
      cases items with
      | nil => rfl
      | cons item rest => exact (absent rfl).elim
    | _ => rfl

/-- What has been put together are the shared and the own parameters. -/
theorem exists_of_mergeParameters
    {shared own : Datum} {merged : List Entries}
    (success : mergeParameters shared own = .ok merged) :
    ∃ added : Merged,
      shared.objects ++ own.objects = added.map Prod.snd ∧
        added.StatesKeys ∧ merged = (putParameters added []).map Prod.snd := by
  rw [mergeParameters_eq] at success
  rcases exists_of_bind_eq_ok success with ⟨parts, isShared, success⟩
  rcases exists_of_bind_eq_ok success with ⟨first, before, success⟩
  rcases exists_of_bind_eq_ok success with ⟨ownParts, isOwn, success⟩
  rcases exists_of_bind_eq_ok success with ⟨all, behind, same⟩
  cases same
  rcases exists_of_foldlM_mergeParameter before with ⟨added, rfl, states, rfl⟩
  rcases exists_of_foldlM_mergeParameter behind with
    ⟨others, rfl, otherStates, rfl⟩
  refine ⟨added ++ others, ?_, List.forall_mem_append.2 ⟨states, otherStates⟩, ?_⟩
  · rw [List.map_append, objects_of_sharedParts isShared,
      Datum.objects_of_parts isOwn]
  · rw [putParameters, putParameters, putParameters, List.foldl_append]

/-! ## Keys that are the same only as themselves -/

/-- A parameter key that is the same only as itself. -/
def ParameterKey.IsExact (key : ParameterKey) : Prop :=
  ∀ other : ParameterKey,
    (other.same key = true ↔ other = key) ∧
      (key.same other = true ↔ other = key)

/-- A known key under which a parameter with a key is put. -/
def ParameterKey.Takes (known key : ParameterKey) : Prop :=
  known = key ∨ known.same key = true

variable {merged added : Merged} {key : ParameterKey} {parameter : Entries}

/-- A parameter is put under its key or under one that counts as the same. -/
theorem mem_putParameter
    {entry : ParameterKey × Entries}
    (member : entry ∈ putParameter key parameter merged) :
    entry ∈ merged ∨ entry.2 = parameter ∧ entry.1.Takes key := by
  induction merged with
  | nil =>
    rw [putParameter, List.mem_singleton] at member
    rw [member]
    exact Or.inr ⟨rfl, Or.inl rfl⟩
  | cons first rest ih =>
    rw [putParameter] at member
    split at member
    · next same =>
      rcases List.mem_cons.1 member with rfl | behind
      · exact Or.inr ⟨rfl, Or.inr same⟩
      · exact Or.inl (List.mem_cons_of_mem _ behind)
    · rcases List.mem_cons.1 member with rfl | behind
      · exact Or.inl List.mem_cons_self
      · exact (ih behind).imp_left (List.mem_cons_of_mem _)

/-- A put adds a key or leaves the keys as they are. -/
theorem keys_putParameter :
    (putParameter key parameter merged).map Prod.fst =
        merged.map Prod.fst ++ [key] ∨
      (putParameter key parameter merged).map Prod.fst =
          merged.map Prod.fst ∧
        ∃ known ∈ merged.map Prod.fst, known.same key = true := by
  induction merged with
  | nil => exact Or.inl rfl
  | cons first rest ih =>
    rw [putParameter]
    split
    · next same =>
      exact Or.inr ⟨rfl, first.1, List.mem_cons_self, same⟩
    · simp only [List.map_cons]
      rcases ih with added | ⟨kept, known, present, same⟩
      · exact Or.inl (congrArg (first.1 :: ·) added)
      · exact
          Or.inr
            ⟨congrArg (first.1 :: ·) kept, known,
              List.mem_cons_of_mem _ present, same⟩

/-- What stays has been put under its key or under one that counts as the same. -/
theorem exists_of_mem_putParameters
    {entry : ParameterKey × Entries}
    (member : entry ∈ putParameters added []) :
    ∃ put ∈ added, entry.2 = put.2 ∧ entry.1.Takes put.1 := by
  induction added using List.reverseRecOn with
  | nil => cases member
  | append_singleton added last ih =>
    rw [putParameters_append_singleton] at member
    rcases mem_putParameter member with before | new
    · rcases ih before with ⟨put, present, same⟩
      exact ⟨put, List.mem_append_left _ present, same⟩
    · exact ⟨last, List.mem_append_right _ List.mem_cons_self, new⟩

/-- Every key that is put stays, or one that counts as the same. -/
theorem exists_key_putParameters
    {put : ParameterKey × Entries} (member : put ∈ added) :
    ∃ known ∈ (putParameters added []).map Prod.fst, known.Takes put.1 := by
  induction added using List.reverseRecOn with
  | nil => cases member
  | append_singleton added last ih =>
    rw [putParameters_append_singleton]
    rcases List.mem_append.1 member with before | isLast
    · rcases ih before with ⟨known, present, same⟩
      refine ⟨known, ?_, same⟩
      rcases keys_putParameter with keys | ⟨keys, -⟩
      · rw [keys]
        exact List.mem_append_left _ present
      · rw [keys]
        exact present
    · rw [List.mem_singleton.1 isLast]
      rcases keys_putParameter with keys | ⟨keys, known, present, same⟩
      · refine ⟨last.1, ?_, Or.inl rfl⟩
        rw [keys]
        exact List.mem_append_right _ List.mem_cons_self
      · refine ⟨known, ?_, Or.inr same⟩
        rw [keys]
        exact present

/-- If all that stays states exact keys, all keys that have been put are exact. -/
theorem isExact_of_putParameters
    (states : added.StatesKeys)
    (exact : ∀ entry ∈ putParameters added [], ∃ key : ParameterKey,
      key.IsExact ∧ statedKey entry.2 = key.stated) :
    ∀ put ∈ added, put.1.IsExact := by
  intro put member
  rcases exists_key_putParameters member with ⟨known, present, meets⟩
  rcases List.mem_map.1 present with ⟨entry, stays, rfl⟩
  rcases exists_of_mem_putParameters stays with ⟨other, isPut, same, near⟩
  rcases exact entry stays with ⟨key, exactKey, statesKey⟩
  rw [same, states other isPut, ParameterKey.stated_inj] at statesKey
  rw [statesKey] at near
  have entryKey : entry.1 = key :=
    near.elim id ((exactKey entry.1).1.1)
  rw [entryKey] at meets
  have putKey : put.1 = key :=
    meets.elim Eq.symm ((exactKey put.1).2.1)
  rw [putKey]
  exact exactKey

/-! ## The last parameter of each key -/

theorem putParameter_of_notMem
    (exact : key.IsExact) (new : key ∉ merged.map Prod.fst) :
    putParameter key parameter merged = merged ++ [(key, parameter)] := by
  induction merged with
  | nil => rfl
  | cons first rest ih =>
    rw [List.map_cons, List.mem_cons, not_or] at new
    have other : ¬ first.1.same key = true :=
      fun same => new.1 ((exact first.1).1.1 same).symm
    rw [putParameter, if_neg other, ih new.2, List.cons_append]

theorem keys_putParameter_of_mem
    (exact : key.IsExact) (known : key ∈ merged.map Prod.fst) :
    (putParameter key parameter merged).map Prod.fst =
      merged.map Prod.fst := by
  induction merged with
  | nil => cases known
  | cons first rest ih =>
    rw [putParameter]
    split
    · rfl
    · next other =>
      rw [List.map_cons, List.mem_cons] at known
      have behind : key ∈ rest.map Prod.fst :=
        known.resolve_left fun same => other ((exact first.1).1.2 same.symm)
      rw [List.map_cons, List.map_cons, ih behind]

/-- A parameter is put in the place of the only one under its key. -/
theorem eq_or_ne_of_mem_putParameter
    (exact : key.IsExact) (different : (merged.map Prod.fst).Nodup)
    {entry : ParameterKey × Entries}
    (member : entry ∈ putParameter key parameter merged) :
    entry = (key, parameter) ∨ entry ∈ merged ∧ entry.1 ≠ key := by
  induction merged with
  | nil => exact Or.inl (List.mem_singleton.1 member)
  | cons first rest ih =>
    rw [List.map_cons, List.nodup_cons] at different
    rw [putParameter] at member
    split at member
    · next same =>
      have isKey := (exact first.1).1.1 same
      rcases List.mem_cons.1 member with rfl | behind
      · exact Or.inl (congrArg (·, parameter) isKey)
      · refine Or.inr ⟨List.mem_cons_of_mem _ behind, ?_⟩
        rintro equal
        apply different.1
        rw [isKey, ← equal]
        exact List.mem_map_of_mem behind
    · next other =>
      rcases List.mem_cons.1 member with rfl | behind
      · refine Or.inr ⟨List.mem_cons_self, ?_⟩
        exact fun same => other ((exact entry.1).1.2 same)
      · exact
          (ih different.2 behind).imp_right fun old =>
            ⟨List.mem_cons_of_mem _ old.1, old.2⟩

/-- The last of the stated parameters for each key, where the key first occurs. -/
structure Merged.KeepsLast (merged : Merged) (stated : List Entries) : Prop where
  keys :
    (merged.map Prod.fst).map ParameterKey.stated = statedKeys stated
  last : ∀ entry ∈ merged, lastStated? entry.1.stated stated = some entry.2

/-- After one more parameter with an exact key it is the last one of its key. -/
theorem Merged.KeepsLast.put
    {stated : List Entries} (keeps : merged.KeepsLast stated)
    (exact : key.IsExact) (states : statedKey parameter = key.stated) :
    Merged.KeepsLast (putParameter key parameter merged)
      (stated ++ [parameter]) := by
  have known_iff :
      key ∈ merged.map Prod.fst ↔ statedKey parameter ∈ statedKeys stated := by
    rw [← keeps.keys, states,
      List.mem_map_of_injective fun _ _ => ParameterKey.stated_inj.1]
  have different : (merged.map Prod.fst).Nodup := by
    apply List.Nodup.of_map ParameterKey.stated
    rw [keeps.keys]
    exact nodup_statedKeys _
  constructor
  · by_cases known : key ∈ merged.map Prod.fst
    · rw [statedKeys_append_of_mem (known_iff.1 known), ← keeps.keys,
        keys_putParameter_of_mem exact known]
    · rw [statedKeys_append_of_notMem (mt known_iff.2 known), ← keeps.keys,
        putParameter_of_notMem exact known, List.map_append, List.map_append,
        states]
      rfl
  · intro entry member
    rw [lastStated?_append_singleton, states]
    rcases eq_or_ne_of_mem_putParameter exact different member with
      rfl | ⟨old, other⟩
    · rw [if_pos rfl]
    · rw [if_neg fun same => other (ParameterKey.stated_inj.1 same).symm]
      exact keeps.last entry old

theorem keepsLast_putParameters
    (states : added.StatesKeys) (exact : ∀ put ∈ added, put.1.IsExact) :
    (putParameters added []).KeepsLast (added.map Prod.snd) := by
  induction added using List.reverseRecOn with
  | nil => exact ⟨rfl, List.forall_mem_nil _⟩
  | append_singleton added last ih =>
    rw [Merged.StatesKeys, List.forall_mem_append,
      List.forall_mem_singleton] at states
    rw [List.forall_mem_append, List.forall_mem_singleton] at exact
    rw [putParameters_append_singleton, List.map_append, List.map_singleton]
    exact (ih states.1 exact.1).put exact.2 states.2

/-- The parameters that have been put together, if they state exact keys. -/
theorem forall₂_of_mergeParameters
    {shared own : Datum} {parameters : List Entries}
    (success : mergeParameters shared own = .ok parameters)
    (exact : ∀ entries ∈ parameters, ∃ key : ParameterKey,
      key.IsExact ∧ statedKey entries = key.stated) :
    List.Forall₂
      (fun key entries =>
        lastStated? key (shared.objects ++ own.objects) = some entries)
      (statedKeys (shared.objects ++ own.objects)) parameters := by
  rcases exists_of_mergeParameters success with ⟨added, same, states, rfl⟩
  rw [List.forall_mem_map] at exact
  have keeps :=
    keepsLast_putParameters states (isExact_of_putParameters states exact)
  rw [same, ← keeps.keys, List.forall₂_map_left_iff,
    List.forall₂_map_left_iff, List.forall₂_map_right_iff, List.forall₂_same]
  exact keeps.last

theorem mem_of_mergeParameters
    {shared own : Datum} {parameters : List Entries}
    (success : mergeParameters shared own = .ok parameters) {entries : Entries}
    (member : entries ∈ parameters) :
    entries ∈ shared.objects ++ own.objects := by
  rcases exists_of_mergeParameters success with ⟨added, same, -, rfl⟩
  rcases List.mem_map.1 member with ⟨entry, stays, rfl⟩
  rcases exists_of_mem_putParameters stays with ⟨put, isPut, kept, -⟩
  rw [same, kept]
  exact List.mem_map_of_mem isPut

/-! ## The parameters of an endpoint -/

theorem ParameterKey.isExact
    {name place : Scalar} (exactName : name.IsExact)
    (exactPlace : place.IsExact) : IsExact ⟨name, place⟩ := by
  rintro ⟨otherName, otherPlace⟩
  simp only [same, Bool.and_eq_true, ParameterKey.mk.injEq]
  exact
    ⟨and_congr (exactName otherName).1 (exactPlace otherPlace).1,
      and_congr (exactName otherName).2 (exactPlace otherPlace).2⟩

/-- A place that is a text is stated as the text, or is not stated. -/
theorem held_of_statedPlace
    {entries : Entries} {text : String}
    (stated : statedPlace entries = .str text) :
    entries.held "in" = .null ∧ text = Location.query.name ∨
      entries.held "in" = .str text := by
  rw [statedPlace] at stated
  rw [Entries.held]
  cases found : Entries.get? (.str "in") entries with
  | none =>
    rw [found] at stated
    cases stated
    exact Or.inl ⟨rfl, rfl⟩
  | some value =>
    rw [found, Option.getD_some] at stated
    exact Or.inr stated

/-- A parameter of an endpoint states an exact key. -/
theorem IsAddressParameter.exists_isExact
    {definitions : Datum} {entries : Entries} {parameter : Parameter}
    (made : IsAddressParameter definitions entries parameter) :
    ∃ key : ParameterKey, key.IsExact ∧ statedKey entries = key.stated := by
  have name :
      ∃ name : Scalar, name.IsExact ∧ entries.held "name" = .scalar name := by
    have read := made.name
    cases held : entries.held "name" with
    | scalar value =>
      rw [held] at read
      cases value with
      | str text => exact ⟨_, Scalar.isExact_str text, rfl⟩
      | bytes content => exact ⟨_, Scalar.isExact_bytes content, rfl⟩
      | _ => cases read
    | _ =>
      rw [held] at read
      cases read
  have place :
      ∃ place : Scalar, place.IsExact ∧ entries.held "in" = .scalar place := by
    rcases held_of_statedPlace made.place with ⟨absent, -⟩ | stated
    · exact ⟨_, Scalar.isExact_null, absent⟩
    · exact ⟨_, Scalar.isExact_str _, stated⟩
  rcases name with ⟨name, exactName, heldName⟩
  rcases place with ⟨place, exactPlace, heldPlace⟩
  exact
    ⟨⟨name, place⟩, ParameterKey.isExact exactName exactPlace,
      Prod.ext heldName heldPlace⟩

/-- A parameter made from the last one that states a key. -/
def IsLastStated
    (definitions : Datum)
    (stated : List Entries)
    (key : Datum × Datum)
    (parameter : Parameter) : Prop :=
  ∃ entries,
    lastStated? key stated = some entries ∧
      IsAddressParameter definitions entries parameter

/-- The parameters that all operations of a path share. -/
def sharedParameters (operation : Operation) : List Entries :=
  operation.shared.objects

/-- The parameters that an operation states itself. -/
def ownParameters (operation : Operation) : List Entries :=
  operation.parameterList.objects

/-- The parameters that are stated, the shared ones first. -/
def statedParameters (operation : Operation) : List Entries :=
  operation.sharedParameters ++ operation.ownParameters

/-- An endpoint has one parameter for each stated key, and maybe a body. -/
theorem IsBuilt.exists_parameters
    {definitions : Datum} {operation : Operation} {endpoint : Endpoint}
    (built : IsBuilt definitions operation endpoint) :
    ∃ (address : List Parameter) (body : Option Parameter),
      List.Forall₂ (IsLastStated definitions operation.statedParameters)
          (statedKeys operation.statedParameters) address ∧
        Option.Rel
          (IsRequestBody definitions endpoint.method endpoint.streaming)
          operation.requestBody? body ∧
        endpoint.parameters = address ++ body.toList := by
  rcases built.parameters with
    ⟨parameters, address, body, merged, each, isBody, parametersEq⟩
  have exact :
      ∀ entries ∈ parameters, ∃ key : ParameterKey,
        key.IsExact ∧ statedKey entries = key.stated := by
    intro entries member
    rcases exists_mem_of_forall₂ each.flip member with ⟨parameter, -, made⟩
    exact made.exists_isExact
  exact
    ⟨address, body, forall₂_trans (forall₂_of_mergeParameters merged exact) each,
      isBody, parametersEq⟩

end Operation

end ApiAtlas
