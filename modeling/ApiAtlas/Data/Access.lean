import ApiAtlas.Fault
import ApiAtlas.Text.Parts

/-!
# Access to parts of values

A description may hold any value where an object or a list belongs.  The
functions of this module ask such a value for a part and say what happens when
the value is of another kind: the part is absent, or the value is misused.
-/

namespace ApiAtlas.Datum

/-- The value under a name; only a map can be asked. -/
def member? (name : String) : Datum → Except Fault (Option Datum)
  | .map entries => .ok (Entries.get? (.str name) entries)
  | _ => misused .noMembers

/-- The entries of a map; only a map can be asked. -/
def entries : Datum → Except Fault Entries
  | .map entries => .ok entries
  | _ => misused .noMembers

/--
What stands under a name where any container may stand.  A container that is
no map but holds the name itself is misused; one that does not hold it has
nothing there.
-/
def held? (name : String) : Datum → Except Fault (Option Datum)
  | .map entries => .ok (Entries.get? (.str name) entries)
  | .list items =>
    if items.any (·.isText name) then misused .unsupported else .ok none
  | .set members =>
    if members.any (Scalar.same (.str name)) then misused .unsupported
    else .ok none
  | .endless => .ok none
  | .str text =>
    if Text.occursIn name.toList text.toList then misused .unsupported
    else .ok none
  | .scalar _ => misused .unsupported

/-- The parts of a value that are gone through one by one. -/
def parts : Datum → Except Fault (List Datum)
  | .list items => .ok items
  | .set members => .ok (members.map .scalar)
  | .map entries => .ok (entries.map fun entry => .scalar entry.1)
  | .str text => .ok (text.toList.map fun c => .str (String.ofList [c]))
  | .bytes content => .ok (content.map fun byte => .int byte.toNat)
  | .scalar _ => misused .unsupported
  | .endless => .ok []

/-- The value itself if it counts as present, else an empty map. -/
def orEmptyMap (value : Datum) : Datum :=
  if value.isTruthy then value else .map []

/-- The value as a key, which only a scalar can be. -/
def key : Datum → Except Fault Scalar
  | .scalar value => .ok value
  | _ => misused .unsupported

end ApiAtlas.Datum
