import ApiAtlas.Proofs.Data.Named
import ApiAtlas.Table.Column

/-!
# Fields that are columns

Objects are entered until a field is met that is none, and a field that
identifies its row is passed over below the root.  So no column is an object,
and a table that is opened below the root has no key column.
-/

namespace ApiAtlas

namespace Table

/-- A field that may be a column: no object, and a key field at the root only. -/
structure IsColumn (atRoot : Bool) (field : DisplayField) : Prop where
  noObject : field.kind ≠ .object
  keyAtRoot : field.isKey = true → atRoot = true

theorem IsColumn.atRoot
    {field : DisplayField} (column : IsColumn false field) (atRoot : Bool) :
    IsColumn atRoot field := by
  refine ⟨column.noObject, ?_⟩
  intro isKey
  cases column.keyAtRoot isKey

/-- Sorting keeps the columns. -/
theorem keysFirst_perm (columns : Columns) : columns.keysFirst.Perm columns :=
  List.filter_append_perm _ columns

theorem mem_keysFirst_iff
    {columns : Columns} {column : String × DisplayField} :
    column ∈ columns.keysFirst ↔ column ∈ columns :=
  (keysFirst_perm columns).mem_iff

/-- The columns that are put together are some of those that were found. -/
theorem mem_of_mem_arranged
    {found : List (String × DisplayField)} {column : String × DisplayField}
    (member : column ∈ Columns.keysFirst (Named.putAll [] found)) :
    column ∈ found := by
  rcases Named.mem_or_mem_of_mem_putAll (mem_keysFirst_iff.1 member) with
    none | behind
  · cases none
  · exact behind

mutual

/-- The columns of a field are the field itself or columns inside it. -/
theorem isColumn_of_mem_fieldColumns
    (atRoot : Bool) (path : String) (field : DisplayField)
    {column : String × DisplayField}
    (member : column ∈ fieldColumns atRoot path field) :
    IsColumn atRoot column.2 := by
  match field with
  | .make name kind isKey children =>
    unfold fieldColumns at member
    split at member
    · cases member
    · next shown =>
      split at member
      · exact (isColumn_of_mem_childColumns path children member).atRoot atRoot
      · next noObject =>
        rw [List.mem_singleton] at member
        subst member
        refine ⟨noObject, ?_⟩
        intro key
        change isKey = true at key
        rw [key] at shown
        cases atRoot with
        | true => rfl
        | false => exact (shown rfl).elim

theorem isColumn_of_mem_childColumns
    (path : String) (children : Option (List (String × DisplayField)))
    {column : String × DisplayField}
    (member : column ∈ childColumns path children) :
    IsColumn false column.2 := by
  match children with
  | none => cases member
  | some tree =>
    rw [childColumns] at member
    exact
      isColumn_of_mem_treeColumns false path tree (mem_of_mem_arranged member)

theorem isColumn_of_mem_treeColumns
    (atRoot : Bool) (path : String) (tree : List (String × DisplayField))
    {column : String × DisplayField}
    (member : column ∈ treeColumns atRoot path tree) :
    IsColumn atRoot column.2 := by
  match tree with
  | [] => cases member
  | (key, field) :: rest =>
    rw [treeColumns, List.mem_append] at member
    rcases member with here | behind
    · exact isColumn_of_mem_fieldColumns atRoot (joinKey path key) field here
    · exact isColumn_of_mem_treeColumns atRoot path rest behind

end

theorem isColumn_of_mem_columns
    {tree : DisplayTree} {path : String} {atRoot : Bool}
    {column : String × DisplayField}
    (member : column ∈ columns tree path atRoot) :
    IsColumn atRoot column.2 :=
  isColumn_of_mem_treeColumns atRoot path tree (mem_of_mem_arranged member)

/-- No two columns have the same name. -/
theorem nodup_names_columns
    (tree : DisplayTree) (path : String) (atRoot : Bool) :
    ((columns tree path atRoot).map Prod.fst).Nodup := by
  have sorted := (keysFirst_perm (Named.putAll [] (treeColumns atRoot path tree)))
  exact (sorted.map Prod.fst).nodup_iff.2 (Named.nodup_keys_putAll List.nodup_nil)

end Table

end ApiAtlas
