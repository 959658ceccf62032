import Mathlib.Data.List.Induction
import Mathlib.Data.List.Nodup

/-!
# First and repeated occurrences

The different items of a list stand in order of first occurrence in
`List.eraseDups`.  The items whose key has been there before are the others: an
item that is added at the end either brings a new key or is one of them.
-/

namespace ApiAtlas

variable {α β : Type} [BEq β] [LawfulBEq β] {keys : List β} {last : β}

/-- A key that comes again adds nothing. -/
theorem eraseDups_concat_of_mem (known : last ∈ keys) :
    (keys ++ [last]).eraseDups = keys.eraseDups := by
  rw [List.eraseDups_append, List.removeAll, List.filter_cons_of_neg,
    List.filter_nil, List.eraseDups_nil, List.append_nil]
  simpa using known

/-- A new key comes last. -/
theorem eraseDups_concat_of_notMem (new : last ∉ keys) :
    (keys ++ [last]).eraseDups = keys.eraseDups ++ [last] := by
  rw [List.eraseDups_append, List.removeAll, List.filter_cons_of_pos,
    List.filter_nil, List.eraseDups_cons, List.filter_nil, List.eraseDups_nil]
  simpa using new

theorem nodup_eraseDups (keys : List β) : keys.eraseDups.Nodup := by
  induction keys using List.reverseRecOn with
  | nil => exact List.Pairwise.nil
  | append_singleton keys last ih =>
    by_cases known : last ∈ keys
    · rw [eraseDups_concat_of_mem known]
      exact ih
    · rw [eraseDups_concat_of_notMem known, ← List.concat_eq_append]
      exact ih.concat (mt List.mem_eraseDups.1 known)

/-- The items of a list whose key an earlier item has already. -/
def repeated (key : α → β) (items : List α) : List α :=
  (items.zipIdx.filter fun place =>
    key place.1 ∈ (items.take place.2).map key).map Prod.fst

/-- Whether the last item comes again makes no difference to the others. -/
theorem repeated_concat (key : α → β) (items : List α) (last : α) :
    repeated key (items ++ [last]) =
      repeated key items ++ if key last ∈ items.map key then [last] else [] := by
  have before :
      (items.zipIdx.filter fun place =>
          key place.1 ∈ ((items ++ [last]).take place.2).map key) =
        items.zipIdx.filter fun place =>
          key place.1 ∈ (items.take place.2).map key := by
    refine List.filter_congr fun place member => ?_
    have bound := List.snd_lt_of_mem_zipIdx member
    rw [List.take_append_of_le_length (by omega)]
  rw [repeated, List.zipIdx_append, List.filter_append, before,
    List.map_append, ← repeated, List.zipIdx_singleton, List.filter_singleton,
    Nat.zero_add, List.take_left]
  by_cases known : key last ∈ items.map key
  · rw [if_pos known, decide_eq_true known]
    rfl
  · rw [if_neg known, decide_eq_false known]
    rfl

/-- The repeated items and the different keys are as many as the items. -/
theorem length_repeated_add_length_eraseDups
    (key : α → β) (items : List α) :
    (repeated key items).length + (items.map key).eraseDups.length =
      items.length := by
  induction items using List.reverseRecOn with
  | nil => rfl
  | append_singleton items last ih =>
    rw [repeated_concat, List.map_append, List.map_singleton,
      List.length_append, List.length_append, List.length_singleton]
    by_cases known : key last ∈ items.map key
    · rw [if_pos known, eraseDups_concat_of_mem known, List.length_singleton]
      omega
    · rw [if_neg known, eraseDups_concat_of_notMem known, List.length_append,
        List.length_nil, List.length_singleton]
      omega

theorem eraseDups_of_nodup (different : keys.Nodup) : keys.eraseDups = keys := by
  induction keys using List.reverseRecOn with
  | nil => rfl
  | append_singleton keys last ih =>
    rw [← List.concat_eq_append, List.nodup_concat] at different
    rw [eraseDups_concat_of_notMem different.1, ih different.2]

/-- Keys that are not all different are more than the different ones. -/
theorem length_eraseDups_lt (notDifferent : ¬ keys.Nodup) :
    keys.eraseDups.length < keys.length := by
  induction keys using List.reverseRecOn with
  | nil => exact (notDifferent List.Pairwise.nil).elim
  | append_singleton keys last ih =>
    rw [← List.concat_eq_append, List.nodup_concat, not_and] at notDifferent
    rw [List.length_append, List.length_singleton]
    by_cases known : last ∈ keys
    · have whole := length_repeated_add_length_eraseDups id keys
      rw [List.map_id] at whole
      rw [eraseDups_concat_of_mem known]
      omega
    · have fewer := ih (notDifferent known)
      rw [eraseDups_concat_of_notMem known, List.length_append,
        List.length_singleton]
      omega

end ApiAtlas
