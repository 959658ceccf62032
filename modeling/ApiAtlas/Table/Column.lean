import ApiAtlas.Table.DisplayField
import ApiAtlas.Text.Parts

/-!
# Columns

The columns of a table are the fields of a display tree that are no objects,
each under the path of keys that leads to it, joined by points.  Objects are
entered.  A key field makes a column at the root only, and key columns come
first; the others keep the order of the tree.
-/

namespace ApiAtlas.Table

/-- Fields under their column paths, in order. -/
abbrev Columns := Named DisplayField

namespace Columns

/-- The key columns before the others. -/
def keysFirst (columns : Columns) : Columns :=
  columns.filter (·.2.isKey) ++ columns.filter (!·.2.isKey)

end Columns

/-- The path of a key inside a path. -/
def joinKey (path key : String) : String :=
  if path = "" then key else path ++ "." ++ key

mutual

/-- The columns of a field at a path. -/
def fieldColumns (atRoot : Bool) (path : String) :
    DisplayField → List (String × DisplayField)
  | .make name kind isKey children =>
    if isKey && !atRoot then []
    else
      match kind with
      | .object => childColumns path children
      | _ => [(path, .make name kind isKey children)]

/-- The columns of the fields inside an object. -/
def childColumns (path : String) :
    Option (List (String × DisplayField)) → List (String × DisplayField)
  | none => []
  | some tree =>
    Columns.keysFirst (Named.putAll [] (treeColumns false path tree))

/-- The columns of all fields of a tree, one after the other. -/
def treeColumns (atRoot : Bool) (path : String) :
    List (String × DisplayField) → List (String × DisplayField)
  | [] => []
  | (key, field) :: rest =>
    fieldColumns atRoot (joinKey path key) field ++
      treeColumns atRoot path rest

end

/-- The columns of a tree below a path. -/
def columns (tree : DisplayTree) (path : String) (atRoot : Bool) : Columns :=
  Columns.keysFirst (Named.putAll [] (treeColumns atRoot path tree))

/-- The value of a row at one key; only an object has values at keys. -/
def valueAt (key : String) (row : Datum) : Datum :=
  (row.field? key).getD .null

/-- The value of a row in a column, null where a part of the path is missing. -/
def cell (row : Datum) (column : String) : Datum :=
  (Text.parts '.' column).foldl (fun value key => valueAt key value) row

end ApiAtlas.Table
