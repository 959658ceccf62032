/-!
# Values under names

Lists of values each of which has a name, in order of first insertion: the
members of an object, the responses of an operation, the columns of a table.
A value that is put under a known name takes the place of the earlier one.
-/

namespace ApiAtlas

/-- Values under names, in order. -/
abbrev Named (α : Type) := List (String × α)

namespace Named

variable {α : Type}

/-- The values with one put under a name; a known name keeps its place. -/
def put (name : String) (value : α) : Named α → Named α
  | [] => [(name, value)]
  | first :: rest =>
    if first.1 == name then (name, value) :: rest
    else first :: put name value rest

/-- The values with others put among them, one by one. -/
def putAll (values others : Named α) : Named α :=
  others.foldl (fun found other => put other.1 other.2 found) values

end Named

end ApiAtlas
