import ApiAtlas.Table.Column

/-!
# View stacks

A view stack holds the tables that a user has opened, each from a cell of the
one below it.  Opening the rows of an endpoint starts anew; a cell that holds
records opens a table on top; going back never closes the last table.
-/

namespace ApiAtlas.Table

/-- An open table. -/
structure Level where
  rows : List Datum
  columns : Columns
  label : String
deriving Repr

/-- The row at a position; a negative one counts from the end. -/
def Level.row (level : Level) (position : Int) : Except Fault Datum :=
  let index :=
    if position < 0 then position + level.rows.length else position
  if index < 0 then misused .missingPosition
  else
    match level.rows[index.toNat]? with
    | some row => .ok row
    | none => misused .missingPosition

/-- The open tables, the one on top first. -/
structure ViewStack where
  levels : List Level
deriving Repr

namespace ViewStack

/-- The stack without open tables. -/
def empty : ViewStack := ⟨[]⟩

/-- The table on top. -/
def current? (stack : ViewStack) : Option Level := stack.levels.head?

/-- The number of open tables. -/
def depth (stack : ViewStack) : Nat := stack.levels.length

/-- The status of the response whose rows are shown. -/
def shownStatus : String := "200"

/-- The schema of the rows of an endpoint. -/
def rowSchema (endpoint : Endpoint) : Datum :=
  let schema : Datum :=
    match endpoint.response? shownStatus with
    | some body => .object body.schema
    | none => .map []
  match schema.field? "type" with
  | some kind =>
    if kind.isText "array" then
      (presentField? "items" schema).getD (.map [])
    else schema
  | none => schema

/-- The label of the rows of an endpoint: a plural of the resource. -/
def rowLabel (endpoint : Endpoint) : String :=
  (Text.parts '_' endpoint.operationId).headD "" ++ "s"

/-- Reads the rows to show. -/
def readRows (rows : Datum) : Checked (List Datum) :=
  (Checked.readList Checked.readAny rows).inside (.name "rows")

/-- The table of the rows of an endpoint. -/
def rootLevel (endpoint : Endpoint) (rows : Datum) : Except Fault Level := do
  let tree ← displayTree (rowSchema endpoint)
  let rows ← (readRows rows).outcome
  return ⟨rows, Table.columns tree "" true, rowLabel endpoint⟩

/-- The records that a value holds, if it can be opened as a table. -/
def records? : Datum → Option (List Datum)
  | .list (.map entries :: rest) => some (.map entries :: rest)
  | _ => none

/-- The table that a cell opens, if it holds records. -/
def nestedLevel? (value : Datum) (field : DisplayField) : Option Level :=
  if field.kind = .array then
    (records? value).map fun rows =>
      ⟨rows, Table.columns field.inner "" false, field.name⟩
  else none

/-- The stack with a table on top. -/
def push (level : Level) (stack : ViewStack) : ViewStack :=
  ⟨level :: stack.levels⟩

/-- The stack without its top table; the last table stays. -/
def back (stack : ViewStack) : ViewStack :=
  match stack.levels with
  | _ :: below :: rest => ⟨below :: rest⟩
  | _ => stack

/-- The caption: the label on top, after the label of the table below it. -/
def caption (stack : ViewStack) : String :=
  match stack.levels with
  | [] => ""
  | [only] => only.label
  | top :: below :: _ => below.label ++ " / " ++ top.label

/-- The column paths of the table on top. -/
def headers (stack : ViewStack) : List String :=
  match stack.levels with
  | [] => []
  | top :: _ => top.columns.map (·.1)

/-! ## Parts of the table on top -/

/-- The table on top, which has to be there. -/
def top (stack : ViewStack) : Except Fault Level :=
  match stack.current? with
  | some level => .ok level
  | none => misused .noMembers

/-- The field of a column of the table on top. -/
def columnField (column : String) (stack : ViewStack) :
    Except Fault DisplayField := do
  match (← stack.top).columns.find? fun entry => entry.1 == column with
  | some entry => return entry.2
  | none => misused .missingKey

end ViewStack

end ApiAtlas.Table
