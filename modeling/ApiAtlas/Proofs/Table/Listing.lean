import ApiAtlas.Proofs.Table.Column
import ApiAtlas.Proofs.Table.KeyPath

/-!
# The columns of a tree

Every field that is a column is listed once, under the keys that lead to it,
and none is lost when the columns inside an object are put among the others:
as long as the keys are plain, different keys make different names.

Below the root no column is a key column, so only the columns of the root are
moved when the key columns are put first.  The others stay in the order in
which the tree is read.
-/

namespace ApiAtlas.Table

/-! ## Fields that are reached -/

/-- A field with the keys that lead to it. -/
abbrev Place := List String × DisplayField

/-- Trees whose keys are plain, and different from each other, at all levels. -/
inductive HasPlainKeys : DisplayTree → Prop where
  | intro {tree : DisplayTree}
      (different : (tree.map Prod.fst).Nodup)
      (plain : ∀ entry ∈ tree, IsPlainKey entry.1)
      (inside : ∀ entry ∈ tree, HasPlainKeys entry.2.inner) :
      HasPlainKeys tree

/--
A column is reached through objects that are shown.  A key field is shown at
the root only, be it a column or an object that is entered.
-/
inductive IsReached : Bool → DisplayTree → List String → DisplayField → Prop where
  | column {atRoot : Bool} {tree : DisplayTree} {key : String}
      {field : DisplayField} (present : (key, field) ∈ tree)
      (column : IsColumn atRoot field) :
      IsReached atRoot tree [key] field
  | inside {atRoot : Bool} {tree : DisplayTree} {key : String}
      {object field : DisplayField} {keys : List String}
      (present : (key, object) ∈ tree) (isObject : object.kind = .object)
      (shown : object.isKey = true → atRoot = true)
      (below : IsReached false object.inner keys field) :
      IsReached atRoot tree (key :: keys) field

/-- Keys that come before others in a tree that is read depth first. -/
inductive Precedes : DisplayTree → List String → List String → Prop where
  | apart {tree : DisplayTree} {key other : String} {keys others : List String}
      (inOrder : [key, other].Sublist (tree.map Prod.fst)) :
      Precedes tree (key :: keys) (other :: others)
  | inside {tree : DisplayTree} {key : String} {object : DisplayField}
      {keys others : List String} (present : (key, object) ∈ tree)
      (below : Precedes object.inner keys others) :
      Precedes tree (key :: keys) (key :: others)

section Reached

variable {atRoot : Bool} {tree larger : DisplayTree} {keys others : List String}
  {key : String} {field found : DisplayField}

theorem IsReached.isColumn
    (reached : IsReached atRoot tree keys field) : IsColumn atRoot field := by
  induction reached with
  | column present column => exact column
  | inside present isObject shown below ih => exact ih.atRoot _

theorem IsReached.exists_eq_cons
    (reached : IsReached atRoot tree keys field) :
    ∃ key ∈ tree.map Prod.fst, ∃ rest, keys = key :: rest := by
  cases reached with
  | column present column => exact ⟨_, List.mem_map_of_mem present, _, rfl⟩
  | inside present isObject shown below =>
    exact ⟨_, List.mem_map_of_mem present, _, rfl⟩

theorem IsReached.ne_nil
    (reached : IsReached atRoot tree keys field) : keys ≠ [] := by
  rcases reached.exists_eq_cons with ⟨key, present, rest, rfl⟩
  exact List.cons_ne_nil key rest

theorem IsReached.plain
    (reached : IsReached atRoot tree keys field) (plain : HasPlainKeys tree) :
    ∀ key ∈ keys, IsPlainKey key := by
  induction reached with
  | column present column =>
    rcases plain with ⟨different, plain, inside⟩
    intro key member
    rw [List.mem_singleton.1 member]
    exact plain _ present
  | inside present isObject shown below ih =>
    rcases plain with ⟨different, plain, inside⟩
    intro key member
    rcases List.mem_cons.1 member with rfl | behind
    · exact plain _ present
    · exact ih (inside _ present) key behind

/-- What is reached in a tree is reached in its first field or in the others. -/
theorem isReached_cons_iff {entry : String × DisplayField} :
    IsReached atRoot (entry :: tree) keys field ↔
      IsReached atRoot [entry] keys field ∨ IsReached atRoot tree keys field := by
  constructor
  · intro reached
    cases reached with
    | column present column =>
      rcases List.mem_cons.1 present with rfl | behind
      · exact Or.inl (.column (List.mem_singleton_self _) column)
      · exact Or.inr (.column behind column)
    | inside present isObject shown below =>
      rcases List.mem_cons.1 present with rfl | behind
      · exact Or.inl (.inside (List.mem_singleton_self _) isObject shown below)
      · exact Or.inr (.inside behind isObject shown below)
  · have within {part : DisplayTree} (sub : part ⊆ entry :: tree)
        (reached : IsReached atRoot part keys field) :
        IsReached atRoot (entry :: tree) keys field := by
      cases reached with
      | column present column => exact .column (sub present) column
      | inside present isObject shown below =>
        exact .inside (sub present) isObject shown below
    rintro (here | behind)
    · exact within (List.cons_subset_cons entry (List.nil_subset tree)) here
    · exact within (List.subset_cons_self entry tree) behind

/-- A field is reached as a column, or what is inside it if it is an object. -/
theorem isReached_singleton_iff :
    IsReached atRoot [(key, field)] keys found ↔
      (keys = [key] ∧ found = field ∧ IsColumn atRoot field) ∨
        field.kind = .object ∧ (field.isKey = true → atRoot = true) ∧
          ∃ below, keys = key :: below ∧
            IsReached false field.inner below found := by
  constructor
  · intro reached
    cases reached with
    | column present column =>
      cases List.mem_singleton.1 present
      exact Or.inl ⟨rfl, rfl, column⟩
    | inside present isObject shown below =>
      cases List.mem_singleton.1 present
      exact Or.inr ⟨isObject, shown, _, rfl, below⟩
  · rintro (⟨rfl, rfl, column⟩ | ⟨isObject, shown, below, rfl, reached⟩)
    · exact .column (List.mem_singleton_self _) column
    · exact .inside (List.mem_singleton_self _) isObject shown reached

theorem Precedes.of_sublist
    (precedes : Precedes tree keys others) (part : tree.Sublist larger) :
    Precedes larger keys others := by
  cases precedes with
  | apart inOrder => exact .apart (inOrder.trans (part.map Prod.fst))
  | inside present below => exact .inside (part.subset present) below

/-- Keys do not come before themselves. -/
theorem Precedes.ne
    (precedes : Precedes tree keys others) (plain : HasPlainKeys tree) :
    keys ≠ others := by
  induction precedes with
  | apart inOrder =>
    rcases plain with ⟨different, plain, inside⟩
    have apart := different.sublist inOrder
    rw [List.nodup_cons, List.mem_singleton] at apart
    intro same
    exact apart.1 (List.cons.inj same).1
  | inside present below ih =>
    rcases plain with ⟨different, plain, inside⟩
    intro same
    exact ih (inside _ present) (List.cons.inj same).2

end Reached

/-! ## Listing a tree -/

/-- The columns of a tree depth first, each under the keys that lead to it. -/
structure IsListing
    (atRoot : Bool) (tree : DisplayTree) (places : List Place) : Prop where
  reached : ∀ keys field,
    (keys, field) ∈ places ↔ IsReached atRoot tree keys field
  inOrder : places.Pairwise fun one other => Precedes tree one.1 other.1

/-- Places inside some keys as columns. -/
def columnsAt (front : List String) (places : List Place) : Columns :=
  places.map fun place => (dotted (front ++ place.1), place.2)

section Listing

variable {atRoot : Bool} {tree : DisplayTree} {places : List Place}
  {front : List String}

theorem isListing_nil (atRoot : Bool) : IsListing atRoot [] [] where
  reached keys field := by
    constructor
    · intro none
      cases none
    · intro reached
      rcases reached.exists_eq_cons with ⟨key, none, rest, same⟩
      cases none
  inOrder := List.Pairwise.nil

theorem IsListing.cons
    {entry : String × DisplayField} {first rest : List Place}
    (here : IsListing atRoot [entry] first)
    (behind : IsListing atRoot tree rest) :
    IsListing atRoot (entry :: tree) (first ++ rest) where
  reached keys field := by
    rw [List.mem_append, here.reached, behind.reached, ← isReached_cons_iff]
  inOrder := by
    refine List.pairwise_append.2 ⟨?_, ?_, ?_⟩
    · have part : [entry].Sublist (entry :: tree) :=
        (List.nil_sublist tree).cons_cons entry
      exact here.inOrder.imp fun precedes => precedes.of_sublist part
    · have part : tree.Sublist (entry :: tree) := List.sublist_cons_self ..
      exact behind.inOrder.imp fun precedes => precedes.of_sublist part
    · rintro ⟨keys, field⟩ member ⟨others, other⟩ otherMember
      rcases ((here.reached _ _).1 member).exists_eq_cons with
        ⟨key, present, keys, rfl⟩
      rcases ((behind.reached _ _).1 otherMember).exists_eq_cons with
        ⟨next, otherPresent, others, rfl⟩
      rw [List.map_singleton, List.mem_singleton] at present
      subst present
      exact .apart ((List.singleton_sublist.2 otherPresent).cons_cons entry.1)

/-- The columns inside an object are those of the tree inside it, a key longer. -/
theorem IsListing.inside
    {field : DisplayField} (isObject : field.kind = .object)
    (shown : field.isKey = true → atRoot = true)
    (below : IsListing false field.inner places) (key : String) :
    IsListing atRoot [(key, field)]
      (places.map fun place => (key :: place.1, place.2)) where
  reached keys found := by
    rw [isReached_singleton_iff, List.mem_map]
    constructor
    · rintro ⟨place, member, same⟩
      cases same
      exact Or.inr ⟨isObject, shown, _, rfl, (below.reached _ _).1 member⟩
    · rintro (⟨-, -, column⟩ | ⟨-, -, rest, rfl, reached⟩)
      · exact (column.noObject isObject).elim
      · exact ⟨(rest, found), (below.reached _ _).2 reached, rfl⟩
  inOrder := by
    rw [List.pairwise_map]
    exact below.inOrder.imp fun precedes =>
      .inside (List.mem_singleton_self _) precedes

theorem isListing_column
    {field : DisplayField} (column : IsColumn atRoot field) (key : String) :
    IsListing atRoot [(key, field)] [([key], field)] where
  reached keys found := by
    rw [isReached_singleton_iff, List.mem_singleton]
    constructor
    · intro same
      cases same
      exact Or.inl ⟨rfl, rfl, column⟩
    · rintro (⟨rfl, rfl, -⟩ | ⟨isObject, -⟩)
      · rfl
      · exact (column.noObject isObject).elim
  inOrder := List.pairwise_singleton _ _

theorem isListing_hidden
    {field : DisplayField} (isKey : field.isKey = true) (key : String) :
    IsListing false [(key, field)] [] where
  reached keys found := by
    rw [isReached_singleton_iff]
    constructor
    · intro none
      cases none
    · rintro (⟨-, -, column⟩ | ⟨-, shown, -⟩)
      · cases column.keyAtRoot isKey
      · cases shown isKey
  inOrder := List.Pairwise.nil

/-- The columns of a listing have different names. -/
theorem IsListing.nodup_names
    (listing : IsListing atRoot tree places) (plain : HasPlainKeys tree)
    (frontPlain : ∀ key ∈ front, IsPlainKey key) :
    ((columnsAt front places).map Prod.fst).Nodup := by
  have ready {place : Place} (member : place ∈ places) :
      front ++ place.1 ≠ [] ∧ ∀ key ∈ front ++ place.1, IsPlainKey key := by
    have reached := (listing.reached place.1 place.2).1 member
    constructor
    · exact List.append_ne_nil_of_right_ne_nil front reached.ne_nil
    · intro key within
      rcases List.mem_append.1 within with before | inside
      · exact frontPlain key before
      · exact reached.plain plain key inside
  rw [columnsAt, List.map_map, List.Nodup, List.pairwise_map]
  refine listing.inOrder.imp_of_mem ?_
  intro one other member otherMember precedes same
  rcases ready member with ⟨nonempty, plainKeys⟩
  rcases ready otherMember with ⟨otherNonempty, otherPlain⟩
  have keys := (dotted_inj nonempty plainKeys otherNonempty otherPlain).1 same
  exact precedes.ne plain (List.append_cancel_left keys)

end Listing

/-! ## The columns of a field -/

section Field

variable {atRoot : Bool} {field : DisplayField}

theorem fieldColumns_of_hidden (isKey : field.isKey = true) (path : String) :
    fieldColumns false path field = [] := by
  rcases field with ⟨name, kind, key, children⟩
  cases isKey
  rfl

theorem not_hidden_of_shown
    {isKey : Bool} (shown : isKey = true → atRoot = true) :
    ¬ (isKey && !atRoot) = true := by
  cases isKey <;> cases atRoot <;> simp_all

theorem fieldColumns_of_column
    (column : IsColumn atRoot field) (path : String) :
    fieldColumns atRoot path field = [(path, field)] := by
  rcases field with ⟨name, kind, isKey, children⟩
  have shown : isKey = true → atRoot = true := column.keyAtRoot
  unfold fieldColumns
  rw [if_neg (not_hidden_of_shown shown)]
  cases kind with
  | object => exact (column.noObject rfl).elim
  | _ => rfl

/-- The columns of an object are those of the tree inside it. -/
theorem fieldColumns_of_object
    (isObject : field.kind = .object)
    (shown : field.isKey = true → atRoot = true) (path : String) :
    fieldColumns atRoot path field = columns field.inner path false := by
  rcases field with ⟨name, kind, isKey, children⟩
  cases isObject
  change isKey = true → atRoot = true at shown
  unfold fieldColumns
  rw [if_neg (not_hidden_of_shown shown)]
  cases children <;> rfl

/-- Columns of different names none of which is a key column stay as they are. -/
theorem keysFirst_putAll_of_noKey
    {found : List (String × DisplayField)}
    (different : (found.map Prod.fst).Nodup)
    (noKey : ∀ column ∈ found, column.2.isKey = false) :
    Columns.keysFirst (Named.putAll [] found) = found := by
  rw [Named.putAll_of_nodup different, List.nil_append, Columns.keysFirst,
    List.filter_eq_nil_iff.2, List.filter_eq_self.2, List.nil_append]
  · intro column member
    rw [noKey column member]
    rfl
  · intro column member
    rw [noKey column member]
    exact Bool.false_ne_true

end Field

/-! ## The columns of a tree -/

/-- Columns that are found in a tree inside some keys. -/
def IsListedInside
    (front : List String) (atRoot : Bool) (tree : DisplayTree)
    (found : List (String × DisplayField)) : Prop :=
  ∃ places, IsListing atRoot tree places ∧ found = columnsAt front places

section Listed

variable {tree : DisplayTree} {front : List String}

/-- The columns found below the root stay as they are when they are put together. -/
theorem IsListedInside.arranged
    {found : List (String × DisplayField)}
    (listed : IsListedInside front false tree found)
    (plain : HasPlainKeys tree) (frontPlain : ∀ key ∈ front, IsPlainKey key) :
    Columns.keysFirst (Named.putAll [] found) = found := by
  rcases listed with ⟨places, listing, rfl⟩
  apply keysFirst_putAll_of_noKey (listing.nodup_names plain frontPlain)
  intro column member
  rcases List.mem_map.1 member with ⟨place, within, rfl⟩
  have below := ((listing.reached _ _).1 within).isColumn
  by_contra isKey
  cases below.keyAtRoot (Bool.not_eq_false _ ▸ isKey)

/-- One field is listed if the tree inside it is. -/
theorem isListedInside_field
    {field : DisplayField} {key : String} (keyPlain : IsPlainKey key)
    (frontPlain : ∀ key ∈ front, IsPlainKey key)
    (plain : HasPlainKeys field.inner)
    (below : ∀ front : List String, (∀ key ∈ front, IsPlainKey key) →
      IsListedInside front false field.inner
        (treeColumns false (dotted front) field.inner))
    (atRoot : Bool) :
    IsListedInside front atRoot [(key, field)]
      (fieldColumns atRoot (dotted (front ++ [key])) field) := by
  by_cases shown : field.isKey = true → atRoot = true
  · by_cases isObject : field.kind = .object
    · have wayPlain : ∀ step ∈ front ++ [key], IsPlainKey step := by
        intro step member
        rcases List.mem_append.1 member with before | last
        · exact frontPlain step before
        · exact List.mem_singleton.1 last ▸ keyPlain
      have listed := below (front ++ [key]) wayPlain
      have arranged := listed.arranged plain wayPlain
      rcases listed with ⟨places, listing, found⟩
      refine ⟨_, listing.inside isObject shown key, ?_⟩
      rw [fieldColumns_of_object isObject shown, columns, arranged, found,
        columnsAt, columnsAt, List.map_map]
      refine List.map_congr_left fun place _ => ?_
      rw [List.append_assoc, List.singleton_append]
      rfl
    · have column : IsColumn atRoot field := ⟨isObject, shown⟩
      exact
        ⟨_, isListing_column column key, fieldColumns_of_column column _⟩
  · rw [Classical.not_imp, Bool.not_eq_true] at shown
    rcases shown with ⟨isKey, rfl⟩
    exact ⟨_, isListing_hidden isKey key, fieldColumns_of_hidden isKey _⟩

/-- The columns found in a tree are those of a listing, wherever it stands. -/
theorem HasPlainKeys.isListedInside
    (plain : HasPlainKeys tree) (atRoot : Bool)
    (frontPlain : ∀ key ∈ front, IsPlainKey key) :
    IsListedInside front atRoot tree
      (treeColumns atRoot (dotted front) tree) := by
  induction plain generalizing atRoot front with
  | @intro tree different plain inside ih =>
    clear different
    induction tree with
    | nil => exact ⟨[], isListing_nil atRoot, rfl⟩
    | cons entry rest ihRest =>
      rcases entry with ⟨key, field⟩
      have here : IsListedInside front atRoot [(key, field)]
          (fieldColumns atRoot (dotted (front ++ [key])) field) :=
        isListedInside_field (plain _ List.mem_cons_self) frontPlain
          (inside _ List.mem_cons_self)
          (fun _ => ih _ List.mem_cons_self false) atRoot
      have behind :
          IsListedInside front atRoot rest
            (treeColumns atRoot (dotted front) rest) :=
        ihRest (fun entry member => plain entry (List.mem_cons_of_mem _ member))
          (fun entry member => inside entry (List.mem_cons_of_mem _ member))
          (fun entry member => ih entry (List.mem_cons_of_mem _ member))
      rcases here with ⟨first, listing, found⟩
      rcases behind with ⟨others, otherListing, otherFound⟩
      refine ⟨first ++ others, listing.cons otherListing, ?_⟩
      rw [treeColumns, joinKey_dotted frontPlain, found, otherFound, columnsAt,
        columnsAt, columnsAt, List.map_append]

end Listed

/-! ## The columns of a table -/

/-- Key columns come before the others, and columns alike in this in tree order. -/
def ComesBefore (tree : DisplayTree) (one other : Place) : Prop :=
  (one.2.isKey = true ∧ other.2.isKey = false) ∨
    one.2.isKey = other.2.isKey ∧ Precedes tree one.1 other.1

/--
The columns of a tree are those of the places that are reached.  Each of them
has a name of its own, none is an object, and a row shows in it what it holds
under the keys, or null.
-/
structure AddressRows
    (atRoot : Bool) (tree : DisplayTree) (found : Columns)
    (places : List Place) : Prop where
  named : found = places.map fun place => (dotted place.1, place.2)
  reached : ∀ keys field,
    (keys, field) ∈ places ↔ IsReached atRoot tree keys field
  once : (found.map Prod.fst).Nodup
  noObject : ∀ column ∈ found, column.2.kind ≠ .object
  inOrder : places.Pairwise (ComesBefore tree)
  cells : ∀ row, ∀ place ∈ places,
    cell row (dotted place.1) =
      (Datum.valueAt (place.1.map .str) row).getD .null

/-- The key columns of a listing before the others. -/
def keyPlacesFirst (places : List Place) : List Place :=
  places.filter (·.2.isKey) ++ places.filter (!·.2.isKey)

theorem mem_keyPlacesFirst {places : List Place} {place : Place} :
    place ∈ keyPlacesFirst places ↔ place ∈ places :=
  (List.filter_append_perm _ places).mem_iff

theorem keysFirst_columnsAt (front : List String) (places : List Place) :
    Columns.keysFirst (columnsAt front places) =
      columnsAt front (keyPlacesFirst places) := by
  rw [Columns.keysFirst, columnsAt, List.filter_map, List.filter_map,
    ← List.map_append]
  rfl

theorem IsListing.pairwise_keyPlacesFirst
    {atRoot : Bool} {tree : DisplayTree} {places : List Place}
    (listing : IsListing atRoot tree places) :
    (keyPlacesFirst places).Pairwise (ComesBefore tree) := by
  have alike {kept : Place → Bool}
      (same : ∀ one other, kept one = true → kept other = true →
        one.2.isKey = other.2.isKey) :
      (places.filter kept).Pairwise (ComesBefore tree) := by
    refine (listing.inOrder.filter kept).imp_of_mem ?_
    intro one other member otherMember precedes
    have oneKept := (List.mem_filter.1 member).2
    have otherKept := (List.mem_filter.1 otherMember).2
    exact Or.inr ⟨same one other oneKept otherKept, precedes⟩
  refine List.pairwise_append.2 ⟨alike ?_, alike ?_, ?_⟩
  · intro one other isKey otherIsKey
    exact isKey.trans otherIsKey.symm
  · intro one other noKey otherNoKey
    exact Bool.not_inj (noKey.trans otherNoKey.symm)
  · intro one member other otherMember
    have isKey := (List.mem_filter.1 member).2
    have noKey := (List.mem_filter.1 otherMember).2
    exact Or.inl ⟨isKey, Bool.not_eq_true' _ ▸ noKey⟩

/-- The columns of a tree with plain keys address the rows. -/
theorem columns_addressRows
    {tree : DisplayTree} (plain : HasPlainKeys tree) (atRoot : Bool) :
    ∃ places, AddressRows atRoot tree (columns tree "" atRoot) places := by
  have none : ∀ key ∈ ([] : List String), IsPlainKey key := by
    intro key member
    cases member
  rcases plain.isListedInside atRoot none with ⟨places, listing, found⟩
  have different := listing.nodup_names plain none
  have start : dotted [] = "" := String.intercalate_nil
  have named :
      columns tree "" atRoot = columnsAt [] (keyPlacesFirst places) := by
    rw [columns, ← start, found, Named.putAll_of_nodup different,
      List.nil_append, keysFirst_columnsAt]
  have reached (keys : List String) (field : DisplayField) :
      (keys, field) ∈ keyPlacesFirst places ↔
        IsReached atRoot tree keys field := by
    rw [mem_keyPlacesFirst, listing.reached]
  refine
    ⟨keyPlacesFirst places, named, reached, nodup_names_columns tree "" atRoot,
      ?_, listing.pairwise_keyPlacesFirst, ?_⟩
  · intro column member
    exact (isColumn_of_mem_columns member).noObject
  · intro row place member
    have isReached := (reached _ _).1 member
    exact cell_dotted isReached.ne_nil (isReached.plain plain) row

/-- A block whose header is a key object, with a key and a height inside. -/
def blockTree : DisplayTree :=
  [("header",
      .make "header" .object true
        (some
          [("hash", .make "hash" .primitive true none),
            ("height", .make "height" .primitive false none)])),
    ("id", .make "id" .primitive true none),
    ("transactions", .make "transactions" .array false none)]

/-- The key of the block comes first, and the key inside the header is left out. -/
theorem columns_addressRows_block :
    HasPlainKeys blockTree ∧
      (columns blockTree "" true).map Prod.fst =
        ["id", "header.height", "transactions"] ∧
      ∃ places, AddressRows true blockTree (columns blockTree "" true) places := by
  have nothing : HasPlainKeys [] :=
    .intro List.nodup_nil (List.forall_mem_nil _) (List.forall_mem_nil _)
  have header :
      HasPlainKeys
        [("hash", .make "hash" .primitive true none),
          ("height", .make "height" .primitive false none)] :=
    .intro (by decide) (by decide +kernel)
      (List.forall_mem_cons.2 ⟨nothing, List.forall_mem_singleton.2 nothing⟩)
  have plain : HasPlainKeys blockTree :=
    .intro (by decide) (by decide +kernel)
      (List.forall_mem_cons.2
        ⟨header,
          List.forall_mem_cons.2 ⟨nothing, List.forall_mem_singleton.2 nothing⟩⟩)
  exact ⟨plain, by decide +kernel, columns_addressRows plain true⟩

end ApiAtlas.Table
