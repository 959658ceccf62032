import ApiAtlas.Table.ViewStack

/-!
# Calls on a view stack

A view stack is an object that three calls change.  A call returns the table
that it opened or came back to, or fails; a failure keeps what the call has
changed until then.
-/

namespace ApiAtlas.Table

/-- Steps on a view stack that may fail, without undoing the steps before. -/
abbrev OnStack := ExceptT Fault (StateM ViewStack)

/-- A call on a view stack. -/
inductive Call where
  | openRoot (endpoint : Endpoint) (rows : Datum)
  | drillDown (value : Datum) (field : DisplayField)
  | back

namespace Call

/-- The steps of a call. -/
def steps : Call → OnStack (Option Level)
  | openRoot endpoint rows => do
    let level ← MonadExcept.ofExcept (ViewStack.rootLevel endpoint rows)
    set (ViewStack.mk [level])
    return some level
  | drillDown value field =>
    match ViewStack.nestedLevel? value field with
    | some level => do
      modify (ViewStack.push level)
      return some level
    | none => return none
  | back => do
    modify ViewStack.back
    return (← get).current?

/-- The outcome of a call on a stack, and the stack after it. -/
def perform (call : Call) (stack : ViewStack) :
    Except Fault (Option Level) × ViewStack :=
  (call.steps.run.run stack).run

end Call

/-- The stack after some calls, one after the other. -/
def ViewStack.after (stack : ViewStack) (calls : List Call) : ViewStack :=
  calls.foldl (fun stack call => (call.perform stack).2) stack

end ApiAtlas.Table
