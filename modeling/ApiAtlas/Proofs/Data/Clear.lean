import ApiAtlas.Proofs.Data.Access
import ApiAtlas.Proofs.Data.Proper

/-!
# Maps with clear keys

The models of this library hold maps whose keys are texts, and read a key that
is given as bytes as the text of the bytes.  So two different keys of a map may
become one, and a key may become another one than it was.  The keys of a map
are clear when neither can happen: no key comes twice, and none is given as
bytes.
-/

namespace ApiAtlas

/-! ## A property of all maps of a value -/

/-- A value in which every map has a property. -/
inductive Datum.EachMap (holds : Entries → Prop) : Datum → Prop where
  | scalar (value : Scalar) : EachMap holds (.scalar value)
  | list {items : List Datum} (each : ∀ item ∈ items, EachMap holds item) :
      EachMap holds (.list items)
  | set (members : List Scalar) : EachMap holds (.set members)
  | map {entries : Entries} (here : holds entries)
      (each : ∀ entry ∈ entries, EachMap holds entry.2) :
      EachMap holds (.map entries)
  | endless : EachMap holds .endless

namespace Datum.EachMap

variable {holds : Entries → Prop} {value : Datum} {entries : Entries}

theorem of_map (eachMap : EachMap holds (.map entries)) : holds entries := by
  cases eachMap with
  | map here _ => exact here

theorem of_mem_map
    (eachMap : EachMap holds (.map entries)) {entry : Scalar × Datum}
    (member : entry ∈ entries) : entry.2.EachMap holds := by
  cases eachMap with
  | map _ each => exact each entry member

theorem of_get?
    (eachMap : EachMap holds (.map entries)) {key : Scalar}
    (found : Entries.get? key entries = some value) : value.EachMap holds := by
  rcases Entries.exists_mem_of_get? found with ⟨entry, present, rfl⟩
  exact eachMap.of_mem_map present

theorem of_getD
    (eachMap : EachMap holds (.map entries)) (key : Scalar)
    {fallback : Datum} (other : fallback.EachMap holds) :
    ((Entries.get? key entries).getD fallback).EachMap holds := by
  cases found : Entries.get? key entries with
  | none => exact other
  | some value => exact eachMap.of_get? found

theorem of_member?
    (eachMap : value.EachMap holds) {name : String} {found : Datum}
    (looked : value.member? name = .ok (some found)) : found.EachMap holds := by
  rcases exists_of_member? looked with ⟨entries, rfl, present⟩
  exact eachMap.of_get? present

theorem of_field?
    (eachMap : value.EachMap holds) {name : String} {found : Datum}
    (present : value.field? name = some found) : found.EachMap holds := by
  cases value with
  | map entries => exact eachMap.of_get? present
  | _ => cases present

theorem of_field?_getD
    (eachMap : value.EachMap holds) (name : String) {fallback : Datum}
    (other : fallback.EachMap holds) :
    ((value.field? name).getD fallback).EachMap holds := by
  cases found : value.field? name with
  | none => exact other
  | some value => exact eachMap.of_field? found

theorem of_held?
    (eachMap : value.EachMap holds) {name : String} {found : Datum}
    (looked : value.held? name = .ok (some found)) : found.EachMap holds :=
  eachMap.of_field? (field?_of_held? looked)

theorem orEmptyMap (eachMap : value.EachMap holds) (empty : holds []) :
    value.orEmptyMap.EachMap holds := by
  rw [Datum.orEmptyMap]
  split
  · exact eachMap
  · exact .map empty (List.forall_mem_nil _)

end Datum.EachMap

/-! ## Clear keys -/

/-- Entries whose keys come once each and are not given as bytes. -/
structure Entries.HasClearKeys (entries : Entries) : Prop where
  apart : List.Pairwise (fun one other => ¬ one.1.same other.1 = true) entries
  noBytes : ∀ entry ∈ entries, ∀ content, entry.1 ≠ .bytes content

namespace Entries.HasClearKeys

variable {entries others : Entries}

theorem empty : HasClearKeys [] := ⟨List.Pairwise.nil, List.forall_mem_nil _⟩

/-- Whether keys are clear does not depend on what stands under them. -/
theorem of_keys
    (clear : HasClearKeys entries)
    (keys : others.map Prod.fst = entries.map Prod.fst) :
    HasClearKeys others := by
  constructor
  · have apart :
        List.Pairwise (fun one other => ¬ one.same other = true)
          (entries.map Prod.fst) :=
      List.pairwise_map.2 clear.apart
    rw [← keys] at apart
    exact List.pairwise_map.1 apart
  · intro entry member content
    have known : entry.1 ∈ entries.map Prod.fst := by
      rw [← keys]
      exact List.mem_map_of_mem member
    rcases List.mem_map.1 known with ⟨other, present, same⟩
    rw [← same]
    exact clear.noBytes other present content

/-- A value put under a text leaves the keys clear. -/
theorem put
    (clear : HasClearKeys entries) (text : String) (value : Datum) :
    HasClearKeys (Entries.put (.str text) value entries) := by
  refine ⟨apart_put clear.apart _ value, ?_⟩
  intro entry member content
  rcases mem_put member with old | ⟨-, isText | ⟨other, present, same⟩⟩
  · exact clear.noBytes entry old content
  · rw [isText]
    exact Scalar.noConfusion
  · rw [← same]
    exact clear.noBytes other present content

end Entries.HasClearKeys

/-- A value in which the keys of every map are clear. -/
abbrev Datum.IsClear (value : Datum) : Prop :=
  value.EachMap Entries.HasClearKeys

theorem Datum.isClear_empty : IsClear (.map []) :=
  .map .empty (List.forall_mem_nil _)

/-- An object is clear if its names are different and its values are clear. -/
theorem Datum.isClear_object
    {fields : Fields} (apart : (fields.map Prod.fst).Nodup)
    (each : ∀ field ∈ fields, field.2.IsClear) : IsClear (.object fields) := by
  refine .map ⟨Fields.apart_toEntries apart, ?_⟩ ?_
  · rw [Fields.toEntries, List.forall_mem_map]
    intro field _ content
    exact Scalar.noConfusion
  · rw [Fields.toEntries, List.forall_mem_map]
    exact each

end ApiAtlas
