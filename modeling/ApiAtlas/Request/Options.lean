import ApiAtlas.Endpoint.Basic
import ApiAtlas.Data.Access

/-!
# Options of a request

What a request is made from, apart from its endpoint: the values of the
parameters, grouped by location, and the body.  The options built here never
ask for a fault to be thrown.
-/

namespace ApiAtlas.Request

/-- The value of a parameter at a location. -/
structure Placed where
  location : Location
  name : Scalar
  value : Datum
deriving DecidableEq, Repr

/-- The options of a request. -/
structure Options where
  streaming : Bool
  /-- The values at each location, in order of first use. -/
  groups : List (Location × Entries)
  /-- The body; null if there is none. -/
  body : Datum
deriving DecidableEq, Repr

/-- The groups with a value put into that of its location. -/
def putPlaced (placed : Placed) :
    List (Location × Entries) → List (Location × Entries)
  | [] => [(placed.location, [(placed.name, placed.value)])]
  | (location, values) :: rest =>
    if location = placed.location then
      (location, Entries.put placed.name placed.value values) :: rest
    else (location, values) :: putPlaced placed rest

/-- The options made from values and a body. -/
def Options.build (streaming : Bool) (values : List Placed) (body : Datum) :
    Options :=
  { streaming, body
    groups := values.foldl (fun groups placed => putPlaced placed groups) [] }

/-- The name of the member that says whether faults are thrown. -/
def throwingName : String := "throw_on_error"

/-- The name of the member that asks for a stream. -/
def streamingName : String := "stream_response"

/-- The name of the member that holds the body. -/
def bodyName : String := "body"

/-- The options as data. -/
def Options.toDatum (options : Options) : Datum :=
  let streaming : Fields :=
    if options.streaming then [(streamingName, .bool true)] else []
  let groups : Fields :=
    options.groups.map fun group => (group.1.name, .map group.2)
  let body : Fields :=
    if options.body = .null then [] else [(bodyName, options.body)]
  .object ([(throwingName, .bool false)] ++ streaming ++ groups ++ body)

/-- The location that a value names. -/
def readLocation (value : Datum) : Except Fault Location :=
  match value.text?.bind Location.ofName? with
  | some location => .ok location
  | none => .error (.notAmong value "ParamType")

/-- A value at a stated location under a stated name. -/
def Placed.read (location name value : Datum) : Except Fault Placed := do
  let location ← readLocation location
  return ⟨location, ← name.key, value⟩

end ApiAtlas.Request
