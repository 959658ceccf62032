import ApiAtlas.Data.Datum
import ApiAtlas.Proofs.Data.Entries

/-!
# Values under different names

Values whose names are different are put among others without any of them
being replaced, so they stay as they are; when a name comes again, an earlier
value is lost.  As entries of a map they are found under their names.
-/

namespace ApiAtlas

namespace Named

variable {α : Type} {values others : Named α}

theorem put_of_notMem
    {name : String} (new : name ∉ values.map Prod.fst) (value : α) :
    put name value values = values ++ [(name, value)] := by
  induction values with
  | nil => rfl
  | cons first rest ih =>
    rw [List.map_cons, List.mem_cons, not_or] at new
    have other : ¬ (first.1 == name) = true := by
      intro same
      exact new.1 (beq_iff_eq.1 same).symm
    rw [put, if_neg other, ih new.2, List.cons_append]

/-- What is found after a put is what was put or was there before. -/
theorem eq_or_mem_of_mem_put
    {name : String} {value : α} {entry : String × α}
    (member : entry ∈ put name value values) :
    entry = (name, value) ∨ entry ∈ values := by
  induction values with
  | nil => exact Or.inl (List.mem_singleton.1 member)
  | cons first rest ih =>
    rw [put] at member
    split at member
    · rcases List.mem_cons.1 member with new | behind
      · exact Or.inl new
      · exact Or.inr (List.mem_cons_of_mem _ behind)
    · rcases List.mem_cons.1 member with rfl | behind
      · exact Or.inr List.mem_cons_self
      · exact (ih behind).imp_right (List.mem_cons_of_mem _)

/-- What is found after a sequence of puts was put or was there before. -/
theorem mem_or_mem_of_mem_putAll
    {entry : String × α} (member : entry ∈ putAll values others) :
    entry ∈ values ∨ entry ∈ others := by
  induction others generalizing values with
  | nil => exact Or.inl member
  | cons first rest ih =>
    rcases ih member with before | behind
    · rcases eq_or_mem_of_mem_put before with rfl | known
      · exact Or.inr List.mem_cons_self
      · exact Or.inl known
    · exact Or.inr (List.mem_cons_of_mem _ behind)

theorem mem_keys_put {name other : String} {value : α} :
    other ∈ (put name value values).map Prod.fst ↔
      other = name ∨ other ∈ values.map Prod.fst := by
  induction values with
  | nil => simp [put]
  | cons first rest ih =>
    rw [put]
    split
    · next same =>
      rw [beq_iff_eq] at same
      rw [List.map_cons, List.map_cons, List.mem_cons, List.mem_cons, same]
      exact ⟨Or.inr, fun known => known.elim Or.inl id⟩
    · rw [List.map_cons, List.mem_cons, ih, List.map_cons, List.mem_cons]
      exact or_left_comm

/-- The names after a sequence of puts are those before and those put. -/
theorem mem_keys_putAll {name : String} :
    name ∈ (putAll values others).map Prod.fst ↔
      name ∈ values.map Prod.fst ∨ name ∈ others.map Prod.fst := by
  induction others generalizing values with
  | nil => simp [putAll]
  | cons first rest ih =>
    rw [putAll, List.foldl_cons, ← putAll, ih, mem_keys_put, List.map_cons,
      List.mem_cons, or_assoc, or_left_comm]

/-- Values of different names are only added. -/
theorem putAll_of_nodup
    (different : ((values ++ others).map Prod.fst).Nodup) :
    putAll values others = values ++ others := by
  induction others generalizing values with
  | nil => rw [List.append_nil]; rfl
  | cons first rest ih =>
    have new : first.1 ∉ values.map Prod.fst := by
      intro known
      rw [List.map_append, List.nodup_append] at different
      exact different.2.2 _ known _ List.mem_cons_self rfl
    rw [List.append_cons] at different ⊢
    rw [← ih different, ← put_of_notMem new]
    rfl

/-! ## Names that come again -/

/-- A put under a known name neither adds nor moves a name. -/
theorem keys_put_of_mem
    {name : String} (known : name ∈ values.map Prod.fst) (value : α) :
    (put name value values).map Prod.fst = values.map Prod.fst := by
  induction values with
  | nil => cases known
  | cons first rest ih =>
    rw [put]
    split
    · next same => rw [List.map_cons, List.map_cons, beq_iff_eq.1 same]
    · next other =>
      rw [List.map_cons, List.mem_cons] at known
      have behind : name ∈ rest.map Prod.fst :=
        known.resolve_left fun same => other (beq_iff_eq.2 same.symm)
      rw [List.map_cons, List.map_cons, ih behind]

theorem nodup_keys_put
    (different : (values.map Prod.fst).Nodup) (name : String) (value : α) :
    ((put name value values).map Prod.fst).Nodup := by
  by_cases known : name ∈ values.map Prod.fst
  · rw [keys_put_of_mem known]
    exact different
  · rw [put_of_notMem known, List.map_append]
    refine List.nodup_append.2 ⟨different, List.pairwise_singleton _ _, ?_⟩
    intro other present last member same
    rw [same, List.mem_singleton.1 member] at present
    exact known present

/-- Of values with different names, those that stay after a put have other names. -/
theorem eq_or_ne_of_mem_put
    (different : (values.map Prod.fst).Nodup)
    {name : String} {value : α} {entry : String × α}
    (member : entry ∈ put name value values) :
    entry = (name, value) ∨ entry ∈ values ∧ entry.1 ≠ name := by
  induction values with
  | nil => exact Or.inl (List.mem_singleton.1 member)
  | cons first rest ih =>
    rw [List.map_cons, List.nodup_cons] at different
    rw [put] at member
    split at member
    · next same =>
      rw [beq_iff_eq] at same
      rcases List.mem_cons.1 member with new | behind
      · exact Or.inl new
      · refine Or.inr ⟨List.mem_cons_of_mem _ behind, ?_⟩
        rintro rfl
        rw [same] at different
        exact different.1 (List.mem_map_of_mem behind)
    · next other =>
      rcases List.mem_cons.1 member with rfl | behind
      · exact Or.inr ⟨List.mem_cons_self, fun same => other (beq_iff_eq.2 same)⟩
      · exact
          (ih different.2 behind).imp_right
            (And.imp_left (List.mem_cons_of_mem _))

theorem putAll_cons (first : String × α) (rest : Named α) :
    putAll values (first :: rest) =
      putAll (put first.1 first.2 values) rest :=
  rfl

/-- However often a name is put, it is there once. -/
theorem nodup_keys_putAll
    (different : (values.map Prod.fst).Nodup) :
    ((putAll values others).map Prod.fst).Nodup := by
  induction others generalizing values with
  | nil => exact different
  | cons first rest ih => exact ih (nodup_keys_put different first.1 first.2)

theorem length_put_of_mem
    {name : String} (known : name ∈ values.map Prod.fst) (value : α) :
    (put name value values).length = values.length := by
  simpa only [List.length_map] using
    congrArg List.length (keys_put_of_mem known value)

theorem length_put_of_notMem
    {name : String} (new : name ∉ values.map Prod.fst) (value : α) :
    (put name value values).length = values.length + 1 := by
  rw [put_of_notMem new, List.length_append, List.length_singleton]

theorem length_putAll_le :
    (putAll values others).length ≤ values.length + others.length := by
  induction others generalizing values with
  | nil => exact Nat.le_refl _
  | cons first rest ih =>
    have below :
        (putAll (put first.1 first.2 values) rest).length ≤
          (put first.1 first.2 values).length + rest.length := ih
    rw [putAll_cons, List.length_cons]
    by_cases known : first.1 ∈ values.map Prod.fst
    · rw [length_put_of_mem known] at below
      omega
    · rw [length_put_of_notMem known] at below
      omega

/-- When a name comes again, a value is lost. -/
theorem length_putAll_lt
    (different : (values.map Prod.fst).Nodup)
    (again : ¬ ((values ++ others).map Prod.fst).Nodup) :
    (putAll values others).length < values.length + others.length := by
  induction others generalizing values with
  | nil =>
    rw [List.append_nil] at again
    exact (again different).elim
  | cons first rest ih =>
    rw [putAll_cons, List.length_cons]
    by_cases known : first.1 ∈ values.map Prod.fst
    · have below :
          (putAll (put first.1 first.2 values) rest).length ≤
            (put first.1 first.2 values).length + rest.length :=
        length_putAll_le
      rw [length_put_of_mem known] at below
      omega
    · rw [List.append_cons, ← put_of_notMem known] at again
      have below := ih (nodup_keys_put different first.1 first.2) again
      rw [length_put_of_notMem known] at below
      omega

/-! ## The last value under a name -/

theorem find?_cons (name : String) (first : String × α) (rest : Named α) :
    List.find? (fun entry => entry.1 == name) (first :: rest) =
      if first.1 = name then some first
      else rest.find? fun entry => entry.1 == name := by
  rw [List.find?_cons]
  by_cases here : first.1 = name
  · rw [beq_iff_eq.2 here, if_pos here]
  · rw [beq_false_of_ne here, if_neg here]

theorem find?_put (name other : String) (value : α) (values : Named α) :
    (put name value values).find? (fun entry => entry.1 == other) =
      if name = other then some (name, value)
      else values.find? fun entry => entry.1 == other := by
  induction values with
  | nil => exact find?_cons other (name, value) []
  | cons first rest ih =>
    rw [put]
    split
    · next known =>
      rw [beq_iff_eq] at known
      rw [find?_cons, find?_cons, known]
      split <;> rfl
    · next unknown =>
      rw [beq_iff_eq] at unknown
      rw [find?_cons, find?_cons, ih]
      by_cases same : name = other
      · rw [if_pos same, if_pos same, if_neg (same ▸ unknown)]
      · rw [if_neg same, if_neg same]

/-- Of values that are put under one name the last one is found. -/
theorem find?_putAll (name : String) (values others : Named α) :
    (putAll values others).find? (fun entry => entry.1 == name) =
      (others.reverse.find? fun entry => entry.1 == name).or
        (values.find? fun entry => entry.1 == name) := by
  induction others generalizing values with
  | nil => rfl
  | cons first rest ih =>
    rw [putAll_cons, ih, find?_put, List.reverse_cons, List.find?_append,
      Option.or_assoc, List.find?_singleton]
    by_cases same : first.1 = name
    · rw [if_pos same, if_pos (beq_iff_eq.2 same), Option.some_or]
    · rw [if_neg same, if_neg (mt beq_iff_eq.1 same), Option.none_or]

end Named

namespace Fields

theorem get?_cons (name : String) (field : String × Datum) (rest : Fields) :
    get? name (field :: rest) =
      if field.1 = name then some field.2 else get? name rest := by
  rw [get?, List.find?_cons]
  by_cases here : field.1 = name
  · rw [here, beq_self_eq_true, if_pos rfl]
    rfl
  · rw [beq_false_of_ne here, if_neg here]
    rfl

theorem get?_append (name : String) (fields others : Fields) :
    get? name (fields ++ others) =
      (get? name fields).or (get? name others) := by
  simp only [get?, List.find?_append, Option.map_or]

/-- A field is found as the entry of the map that the fields make. -/
theorem get?_toEntries (name : String) (fields : Fields) :
    Entries.get? (.str name) (toEntries fields) = get? name fields := by
  induction fields with
  | nil => rfl
  | cons field rest ih =>
    rw [toEntries, List.map_cons, ← toEntries, Entries.get?_cons, ih, get?_cons]
    simp only [Scalar.same_str_iff, Scalar.str.injEq]

end Fields

end ApiAtlas
