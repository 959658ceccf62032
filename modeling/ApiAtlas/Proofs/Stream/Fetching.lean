import ApiAtlas.Proofs.Stream.OpenLine
import ApiAtlas.Proofs.Stream.Records
import ApiAtlas.Stream.Fetch

/-!
# Fetching has one outcome

A call of an endpoint may fail, be refused, or give data that cannot be read
or whose reads fail half way.  However that may be, a calm caller is told of
some rows, and then of one thing more: the end, or one failure to transport.

A caller that takes no faults is told of the same rows, and the failure comes
out of the fetching instead.
-/

namespace ApiAtlas.Stream

/-! ## Callers that take no faults -/

/-- The caller without its callback for faults. -/
def Caller.unheeding (caller : Caller) : Caller :=
  { caller with takesErrors := false }

theorem Caller.IsCalm.unheeding
    {caller : Caller} (calm : caller.IsCalm) : caller.unheeding.IsCalm :=
  { neverCancels := calm.neverCancels
    recordsPass := calm.recordsPass
    errorsPass := calm.errorsPass }

/-- Whether an event is the delivery of a record. -/
def Event.isRecord : Event → Bool
  | .record _ => true
  | _ => false

/-- The deliveries of records among some events. -/
def recordsOf (events : List Event) : List Event :=
  events.filter Event.isRecord

/-- A line is told of as a record or as one that holds none. -/
theorem tellsLine_lineCall (line : String) :
    (lineCall line).tellsLine = true := by
  rw [lineCall]
  cases Json.read line with
  | ok value => rfl
  | error cause => rfl

/-- A caller that takes no faults is told of the records only. -/
theorem callsOf_lineEvents_unheeding (caller : Caller) (lines : List String) :
    callsOf (lines.flatMap (lineEvents caller.unheeding)) =
      recordsOf (lines.map lineCall) := by
  induction lines with
  | nil => rfl
  | cons line rest ih =>
    rw [List.flatMap_cons, callsOf_append, ih, List.map_cons, lineEvents,
      lineCall]
    cases Json.read line with
    | ok value => rfl
    | error cause => rfl

/-! ## Outcomes -/

/--
The one outcome of a passage for a caller that is told of faults and of that
for the same caller when it takes none: rows and lines are told of, and then
either the end or one failure to transport, which comes out where nobody takes
it.
-/
inductive OneOutcome (caller : Caller) (heard unheard : Passage) : Prop where
  | completed (told : List Event)
      (ofRows : ∀ event ∈ told, event.tellsLine = true)
      (heardCalls : heard.calls = told ++ caller.finish)
      (heardFault : heard.fault = none)
      (unheardCalls : unheard.calls = recordsOf told ++ caller.finish)
      (unheardFault : unheard.fault = none)
  | failed (told : List Event) (fault : Fault)
      (ofRows : ∀ event ∈ told, event.tellsLine = true)
      (transport : fault.isTransport = true)
      (heardCalls : heard.calls = told ++ [.error fault])
      (heardFault : heard.fault = none)
      (unheardCalls : unheard.calls = recordsOf told)
      (unheardFault : unheard.fault = some fault)

namespace OneOutcome

variable {caller : Caller} {heard unheard : Passage} {events : List Event}

/-- An outcome depends on calls and faults only. -/
theorem congr
    (outcome : OneOutcome caller heard unheard) {later laterUnheard : Passage}
    (heardCalls : later.calls = heard.calls)
    (heardFault : later.fault = heard.fault)
    (unheardCalls : laterUnheard.calls = unheard.calls)
    (unheardFault : laterUnheard.fault = unheard.fault) :
    OneOutcome caller later laterUnheard := by
  cases outcome with
  | completed told ofRows toldCalls passes toldUnheard passesUnheard =>
    exact
      .completed told ofRows (heardCalls.trans toldCalls)
        (heardFault.trans passes) (unheardCalls.trans toldUnheard)
        (unheardFault.trans passesUnheard)
  | failed told fault ofRows transport toldCalls passes toldUnheard raised =>
    exact
      .failed told fault ofRows transport (heardCalls.trans toldCalls)
        (heardFault.trans passes) (unheardCalls.trans toldUnheard)
        (unheardFault.trans raised)

theorem after
    (outcome : OneOutcome caller heard unheard)
    (silent : callsOf events = []) :
    OneOutcome caller (heard.after events) (unheard.after events) := by
  have callsEq (passage : Passage) :
      (passage.after events).calls = passage.calls := by
    rw [Passage.calls, Passage.after, callsOf_append, silent]
    rfl
  exact outcome.congr (callsEq heard) rfl (callsEq unheard) rfl

theorem before
    (outcome : OneOutcome caller heard unheard)
    (silent : callsOf events = []) :
    OneOutcome caller (heard.before events) (unheard.before events) := by
  have callsEq (passage : Passage) :
      (passage.before events).calls = passage.calls := by
    rw [Passage.calls, Passage.before, callsOf_append, silent, List.append_nil]
    rfl
  exact outcome.congr (callsEq heard) rfl (callsEq unheard) rfl

/-- A failure to transport that is reported at once is the one outcome. -/
theorem of_report
    (calm : caller.IsCalm) (takesErrors : caller.takesErrors = true)
    (seen : Seen) {fault : Fault} (transport : fault.isTransport = true) :
    OneOutcome caller (caller.report seen fault)
      (caller.unheeding.report seen fault) := by
  rw [Caller.report_of_takesErrors calm takesErrors,
    Caller.report_of_not_takesErrors rfl]
  exact .failed [] fault (List.forall_mem_nil _) transport rfl rfl rfl rfl

end OneOutcome

/-! ## Streams of text -/

/-- A stream of the bytes of a text, of which a read may fail. -/
inductive Source.Carries (text : String) : Source → Prop where
  | whole (kind : StreamKind) (pieces : List (List UInt8))
      (all : pieces.flatten = Text.utf8Bytes text) :
      Carries text ⟨kind, pieces.map .bytes⟩
  | broken (kind : StreamKind) (pieces missing : List (List UInt8))
      (message : String) (unread : List Chunk)
      (all : (pieces ++ missing).flatten = Text.utf8Bytes text) :
      Carries text ⟨kind, pieces.map .bytes ++ .failure message :: unread⟩

/-- A stream of readable text, of which a read may fail. -/
def Source.IsReadable (source : Source) : Prop :=
  ∃ text : String, source.Carries text ∧
    ∀ line ∈ visibleLines (linesOf text.toList), Stream.IsReadable line

section Streams

variable {caller : Caller} {source : Source}

/-- Which lines of a readable stream are told of depends on no caller. -/
theorem walk_of_isReadable
    (readable : source.IsReadable) :
    ∃ (lines : List String) (ending : Ending),
      (ending = .ended ∨ ∃ message, ending = .broken message) ∧
        ∀ caller : Caller, caller.IsCalm →
          ∃ events,
            walk caller (takeRecord caller) source = ⟨events, ending⟩ ∧
              callsOf events =
                callsOf (lines.flatMap (lineEvents caller)) := by
  rcases readable with ⟨text, carries, readable⟩
  cases carries with
  | whole kind pieces all =>
    refine
      ⟨visibleLines (linesOf text.toList), .ended, Or.inl rfl, ?_⟩
    intro caller calm
    exact walk_of_readable calm all readable kind
  | broken kind pieces missing message unread all =>
    refine
      ⟨visibleLines
          ((linesOf text.toList).take (pieces.flatten.count 0x0A)),
        .broken message, Or.inr ⟨message, rfl⟩, ?_⟩
    intro caller calm
    exact walk_of_broken calm all readable kind message unread

theorem consume_oneOutcome
    (calm : caller.IsCalm) (takesErrors : caller.takesErrors = true)
    (readable : source.IsReadable) :
    OneOutcome caller (consume caller source)
      (consume caller.unheeding source) := by
  rcases walk_of_isReadable readable with ⟨lines, ending, ends, walks⟩
  rcases walks caller calm with ⟨events, walked, called⟩
  rcases walks caller.unheeding calm.unheeding with
    ⟨otherEvents, otherWalked, otherCalled⟩
  rw [callsOf_lineEvents takesErrors] at called
  rw [callsOf_lineEvents_unheeding] at otherCalled
  have ofRows : ∀ event ∈ lines.map lineCall, event.tellsLine = true := by
    intro event member
    rcases List.mem_map.1 member with ⟨line, -, rfl⟩
    exact tellsLine_lineCall line
  rcases ends with rfl | ⟨message, rfl⟩
  · rcases consume_of_ended calm walked with ⟨passes, calls⟩
    rcases consume_of_ended calm.unheeding otherWalked with
      ⟨otherPasses, otherCalls⟩
    rw [called] at calls
    rw [otherCalled] at otherCalls
    exact .completed _ ofRows calls passes otherCalls otherPasses
  · rcases consume_of_broken walked with ⟨seen, passes, calls⟩
    rcases consume_of_broken otherWalked with
      ⟨otherSeen, raises, otherCalls⟩
    rw [Caller.report_of_takesErrors calm takesErrors] at passes calls
    rw [Caller.report_of_not_takesErrors rfl] at raises otherCalls
    rw [called] at calls
    rw [otherCalled] at otherCalls
    exact
      .failed _ (.readFailed message) ofRows rfl calls passes
        (otherCalls.trans (List.append_nil _)) raises

end Streams

/-! ## Rows that are no stream -/

theorem deliverRows_of_calm
    {caller : Caller} (calm : caller.IsCalm) (seen : Seen)
    (rows : List Datum) :
    deliverRows caller seen rows =
      .quiet (rows.map .record ++ caller.finish) := by
  induction rows generalizing seen with
  | nil => rfl
  | cons row rest ih =>
    rw [deliverRows, Caller.deliver, calm.recordsPass]
    simp only [ih]
    rfl

theorem deliverRows_oneOutcome
    {caller : Caller} (calm : caller.IsCalm) (seen : Seen)
    (rows : List Datum) :
    OneOutcome caller (deliverRows caller seen rows)
      (deliverRows caller.unheeding seen rows) := by
  rw [deliverRows_of_calm calm, deliverRows_of_calm calm.unheeding]
  have called : callsOf (rows.map Event.record) = rows.map .record := by
    rw [callsOf, List.filter_eq_self, List.forall_mem_map]
    intro row _
    rfl
  have records :
      recordsOf (rows.map Event.record) = rows.map .record := by
    rw [recordsOf, List.filter_eq_self, List.forall_mem_map]
    intro row _
    rfl
  have calls :
      callsOf (rows.map Event.record ++ caller.finish) =
        rows.map .record ++ caller.finish := by
    rw [callsOf_append, called, callsOf_finish]
  refine .completed (rows.map .record) ?_ calls rfl ?_ rfl
  · rw [List.forall_mem_map]
    intro row _
    rfl
  · rw [records]
    exact calls

/-! ## Calls -/

/--
Fetching has exactly one outcome, whatever the call does: the rows are told of
and then the end, or some of them and then one failure to transport.  Where
nobody takes faults the failure comes out after the same rows, and otherwise
nothing does.
-/
theorem fetch_oneOutcome
    {caller : Caller} (calm : caller.IsCalm)
    (takesErrors : caller.takesErrors = true)
    (endpoint : Endpoint) (options : Datum)
    (call : Datum → Except Fault Result)
    (readable :
      endpoint.streaming = true →
        ∀ result source,
          call options = .ok result → result.data.source? = some source →
            source.IsReadable) :
    OneOutcome caller (fetch caller endpoint options call)
      (fetch caller.unheeding endpoint options call) := by
  have silent : callsOf [Event.called options] = [] := rfl
  refine OneOutcome.after ?_ silent
  cases called : call options with
  | error fault => exact .of_report calm takesErrors .none rfl
  | ok result =>
    rw [deliverOutcome, deliverOutcome]
    cases refused : result.refusal.isTruthy with
    | true => exact .of_report calm takesErrors .none rfl
    | false =>
      simp only [Bool.false_eq_true, if_false]
      rw [deliverResult, deliverResult]
      cases streams : endpoint.streaming with
      | false => exact deliverRows_oneOutcome calm .none result.data.rows
      | true =>
        have released : callsOf result.releasing = [] := by
          rw [Result.releasing]
          cases result.response with
          | value value => rfl
          | held => rfl
        refine OneOutcome.before ?_ released
        cases given : result.data.source? with
        | none => exact .of_report calm takesErrors .none rfl
        | some source =>
          exact
            consume_oneOutcome calm takesErrors
              (readable streams result source called given)

/-- An endpoint whose rows are the records of a stream. -/
def streamingEndpoint : Endpoint :=
  { operationId := "watch"
    methodName := "watch"
    title := ""
    method := "GET"
    path := "/"
    parameters := []
    responses := []
    streaming := true
    tags := [] }

/-- The failure of the second read, within a line, is the one outcome. -/
theorem fetch_oneOutcome_brokenStream :
    let call (_ : Datum) : Except Fault Result :=
      .ok
        ⟨.stream
            ⟨.asynchronous,
              [.bytes [0x7B, 0x7D, 0x0A, 0x78], .failure "gone"]⟩ false,
          .held, .value .null⟩
    OneOutcome attentive (fetch attentive streamingEndpoint .null call)
      (fetch attentive.unheeding streamingEndpoint .null call) := by
  intro call
  have noRecord :
      Json.read "x" = .error (.malformed .expectedValue ⟨1, 1, 0⟩) :=
    Json.readCharacters_singleton 'x' (by decide) (by decide) (by decide)
  have lines : visibleLines (linesOf "{}\nx".toList) = ["{}", "x"] := by
    decide
  refine
    fetch_oneOutcome attentive_isCalm rfl streamingEndpoint .null call ?_
  rintro - result source ⟨⟩ ⟨⟩
  refine
    ⟨"{}\nx",
      .broken .asynchronous [[0x7B, 0x7D, 0x0A, 0x78]] [] "gone" []
        (by decide), ?_⟩
  rw [lines]
  simp [IsReadable, Json.read_braces, noRecord]

end ApiAtlas.Stream
