import ApiAtlas.Fault

/-!
# Events of a call

Everything that a caller and the other end can observe while an endpoint is
called and its rows are delivered, in order of time.  A caller hands in
callbacks and may ask for cancellation at some moment; both are described by
what they do, so that a run is a list of events.
-/

namespace ApiAtlas.Stream

/-- Something that is observed during a call. -/
inductive Event where
  /-- The endpoint is called with options. -/
  | called (options : Datum)
  /-- A read of the stream begins. -/
  | read
  /-- A line is handed out. -/
  | line (text : String)
  /-- A record is delivered. -/
  | record (value : Datum)
  /-- A fault is reported. -/
  | error (fault : Fault)
  /-- A line that holds no record is passed over, as nobody wants to know. -/
  | skipped (cause : Json.Fault)
  /-- The cancellation is noticed. -/
  | cancelled
  /-- The stream is closed. -/
  | closed
  /-- The response is released. -/
  | released
  /-- The end is reported. -/
  | complete
deriving DecidableEq, Repr

/-- How many reads, records and reports have been seen. -/
structure Seen where
  reads : Nat
  records : Nat
  errors : Nat
deriving DecidableEq, Repr

namespace Seen

/-- Nothing has been seen. -/
def none : Seen := ⟨0, 0, 0⟩

/-- What has been seen after one more event. -/
def after (seen : Seen) : Event → Seen
  | .read => { seen with reads := seen.reads + 1 }
  | .record _ => { seen with records := seen.records + 1 }
  | .error _ => { seen with errors := seen.errors + 1 }
  | _ => seen

/-- What has been seen after some more events. -/
def afterAll (seen : Seen) (events : List Event) : Seen :=
  events.foldl after seen

end Seen

/-- A moment at which a caller asks for cancellation; ordinals start at one. -/
inductive Moment where
  /-- Before the call. -/
  | start
  /-- As a read begins. -/
  | read (ordinal : Nat)
  /-- While a record is delivered. -/
  | record (ordinal : Nat)
  /-- While a fault is reported. -/
  | error (ordinal : Nat)
deriving DecidableEq, Repr

/-- Whether an ordinal is among those counted so far. -/
def isCounted (ordinal count : Nat) : Bool :=
  1 ≤ ordinal && ordinal ≤ count

/-- Whether a moment has come, by what has been seen. -/
def Moment.isReached (seen : Seen) : Moment → Bool
  | .start => true
  | .read ordinal => isCounted ordinal seen.reads
  | .record ordinal => isCounted ordinal seen.records
  | .error ordinal => isCounted ordinal seen.errors

/-- What a caller brings to a call. -/
structure Caller where
  /-- The moment of cancellation, if the caller ever cancels. -/
  cancelAt : Option Moment
  /-- The fault of the callback that takes a record, by its ordinal. -/
  recordFault : Nat → Option Fault
  /-- The fault of the callback that takes a fault, by its ordinal. -/
  errorFault : Nat → Option Fault
  /-- Whether faults are taken by a callback. -/
  takesErrors : Bool
  /-- Whether the end is taken by a callback. -/
  takesEnd : Bool

/-- Whether a caller has asked for cancellation. -/
def Caller.hasCancelled (caller : Caller) (seen : Seen) : Bool :=
  caller.cancelAt.any (Moment.isReached seen)

/-- Some events, and the fault that came out of them if there was one. -/
structure Passage where
  events : List Event
  fault : Option Fault
deriving DecidableEq, Repr

namespace Passage

/-- Events without a fault. -/
def quiet (events : List Event) : Passage := ⟨events, none⟩

/-- A passage after some events. -/
def after (events : List Event) (passage : Passage) : Passage :=
  { passage with events := events ++ passage.events }

/-- A passage and some events after it, whatever came out of it. -/
def before (passage : Passage) (events : List Event) : Passage :=
  { passage with events := passage.events ++ events }

end Passage

namespace Caller

/-- Delivers a record. -/
def deliver (caller : Caller) (seen : Seen) (value : Datum) : Passage :=
  ⟨[.record value], caller.recordFault (seen.records + 1)⟩

/-- Reports a fault, or lets it out if nobody takes it. -/
def report (caller : Caller) (seen : Seen) (fault : Fault) : Passage :=
  if caller.takesErrors then
    ⟨[.error fault], caller.errorFault (seen.errors + 1)⟩
  else ⟨[], some fault⟩

/-- Reports the end. -/
def finish (caller : Caller) : List Event :=
  if caller.takesEnd then [.complete] else []

end Caller

end ApiAtlas.Stream
