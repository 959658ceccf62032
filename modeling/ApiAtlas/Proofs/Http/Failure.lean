import ApiAtlas.Http.Transport
import ApiAtlas.Proofs.Json.Reader
import ApiAtlas.Proofs.Stream.Calls
import ApiAtlas.Proofs.Text.Utf8

/-!
# Responses of failure

A response of failure is turned into a refusal, which holds what the body of
the response holds.  A refusal is reported once, and nothing else is called,
unless the body holds a value that counts as absent: then nothing tells the
refusal from success, and an endpoint that does not stream delivers a row.
-/

namespace ApiAtlas.Http

/-! ## Options -/

/-- What the options hold for the path is always a map. -/
theorem exists_map_of_path
    {options : Request.Options} {value : Datum}
    (found : options.toDatum.field? Location.path.name = some value) :
    ∃ entries, value = .map entries := by
  simp only [Request.Options.toDatum, Datum.object, Datum.field?, Entries.get?,
    Option.map_eq_some_iff] at found
  rcases found with ⟨entry, first, rfl⟩
  have named := List.find?_some first
  have member := List.mem_of_find?_eq_some first
  simp only [Fields.toEntries, List.mem_map] at member
  rcases member with ⟨⟨name, value⟩, member, rfl⟩
  simp only [Scalar.same, beq_iff_eq] at named
  subst named
  simp only [List.mem_append, List.mem_map, List.mem_singleton] at member
  rcases member with ((throwing | streaming) | ⟨group, -, same⟩) | body
  · exact absurd (Prod.mk.inj throwing).1 (by decide)
  · split at streaming
    · rw [List.mem_singleton] at streaming
      exact absurd (Prod.mk.inj streaming).1 (by decide)
    · cases streaming
  · exact ⟨group.2, (Prod.mk.inj same).2.symm⟩
  · split at body
    · cases body
    · rw [List.mem_singleton] at body
      exact absurd (Prod.mk.inj body).1 (by decide)

/-- Options that are built are understood, and ask for no fault to be thrown. -/
theorem understand_toDatum (options : Request.Options) :
    ∃ understood,
      understand options.toDatum = .ok understood ∧
        understood.throwing = false := by
  have member (name : String) :
      options.toDatum.member? name = .ok (options.toDatum.field? name) := rfl
  have calm :
      options.toDatum.field? Request.throwingName = some (.bool false) := rfl
  obtain ⟨entries, values⟩ :
      ∃ entries,
        ((options.toDatum.field? Location.path.name).getD
          .null).orEmptyMap.entries = .ok entries := by
    cases found : options.toDatum.field? Location.path.name with
    | none => exact ⟨[], rfl⟩
    | some value =>
      obtain ⟨entries, rfl⟩ := exists_map_of_path found
      cases entries with
      | nil => exact ⟨[], rfl⟩
      | cons entry rest => exact ⟨entry :: rest, rfl⟩
  simp only [understand, member, calm, bind, Except.bind, pure, Except.pure,
    values]
  exact ⟨_, rfl, rfl⟩

/-! ## Refusals -/

/-- Whether a body holds a value that counts as absent. -/
def HoldsAbsent (content : List UInt8) : Prop :=
  ∃ value, Response.valueOf content = .ok value ∧ value.isTruthy = false

theorem holdsAbsent_utf8Bytes_iff (text : String) :
    HoldsAbsent (Text.utf8Bytes text) ↔
      ∃ value, Json.read text = .ok value ∧ value.isTruthy = false := by
  have sameText : Response.textOf (Text.utf8Bytes text) = text := by
    rw [Response.textOf, Text.utf8Bytes, ← Text.utf8Of,
      Text.decodeLenient_utf8Of, String.ofList_toList]
  rw [HoldsAbsent, Response.valueOf, sameText]
  cases Json.read text <;> simp [Except.mapError]

/-- Only a body that holds an absent value makes a refusal that is absent. -/
theorem isTruthy_refusal_eq_false_iff (status : Nat) (content : List UInt8) :
    (refusal status content).isTruthy = false ↔ HoldsAbsent content := by
  rw [refusal, HoldsAbsent]
  cases Response.valueOf content with
  | ok value => simp
  | error fault =>
    simp only [reduceCtorEq, false_and, exists_false, iff_false,
      Bool.not_eq_false]
    split
    · simp [Datum.isTruthy, Scalar.isTruthy]
    · next shown => simpa [Datum.isTruthy, Scalar.isTruthy] using shown

theorem isFine_eq_false
    {response : Response}
    (lower : 400 ≤ response.status) (upper : response.status < 600) :
    response.isFine = false := by
  simp only [Response.isFine, Bool.or_eq_false_iff, decide_eq_false_iff_not]
  omega

/-- What is received of a response of failure depends on whether to throw only. -/
theorem receive_of_failed
    (understood : Understood) (address : String)
    {response : Response} (failed : response.isFine = false) :
    receive understood address (.ok response) =
      receiveFailure understood.throwing address response := by
  simp only [receive, failed, Bool.not_false, if_true]

theorem receiveFailure_of_content
    (throwing : Bool) (address : String)
    {response : Response} {content : List UInt8}
    (arrived : response.content = .ok content) :
    receiveFailure throwing address response =
      ⟨true,
        if throwing then .error (response.fault address)
        else
          .ok ⟨.value .null, .held,
            .value (refusal response.status content)⟩⟩ := by
  rw [receiveFailure, arrived]
  cases throwing <;> rfl

/-- A response of failure makes a result that holds nothing but a refusal. -/
theorem send_of_failure
    (transport : Transport) (endpoint : Endpoint) (options : Request.Options)
    {response : Response} {content : List UInt8}
    (failed : response.isFine = false)
    (arrived : response.content = .ok content) :
    (transport.send endpoint options.toDatum (.ok response)).outcome =
      .ok ⟨.value .null, .held,
        .value (refusal response.status content)⟩ := by
  rcases understand_toDatum options with ⟨understood, success, calm⟩
  rw [Transport.send, success]
  dsimp only
  rw [receive_of_failed _ _ failed, receiveFailure_of_content _ _ arrived,
    calm]
  rfl

/-! ## Rows of a failed call -/

section Rows

open ApiAtlas.Stream

variable {caller : Caller} {endpoint : Endpoint} {refused : Datum}

/-- A refusal that is present is reported. -/
theorem deliverOutcome_of_refusal
    (takesErrors : caller.takesErrors = true)
    (present : refused.isTruthy = true) :
    (deliverOutcome caller endpoint
        (.ok ⟨.value .null, .held, .value refused⟩)).events =
      [.error (.callRefused endpoint.operationId refused.plain)] := by
  simp only [deliverOutcome, Refusal.isTruthy, present, if_true,
    Caller.report, takesErrors, Refusal.text]

/-- A stream is missing from a result whose refusal is absent. -/
theorem deliverOutcome_of_absent_stream
    (takesErrors : caller.takesErrors = true)
    (absent : refused.isTruthy = false)
    (streaming : endpoint.streaming = true) :
    (deliverOutcome caller endpoint
        (.ok ⟨.value .null, .held, .value refused⟩)).events =
      [.error .streamUnavailable, .released] := by
  simp only [deliverOutcome, Refusal.isTruthy, absent, Bool.false_eq_true,
    if_false, deliverResult, streaming, if_true, Payload.source?,
    Caller.report, takesErrors, Passage.before, Result.releasing]
  rfl

/-- Without a stream, nothing but a null row comes of an absent refusal. -/
theorem deliverOutcome_of_absent_rows
    (absent : refused.isTruthy = false)
    (whole : endpoint.streaming = false) :
    callsOf
        (deliverOutcome caller endpoint
          (.ok ⟨.value .null, .held, .value refused⟩)).events =
      .record .null ::
        if (caller.recordFault 1).isNone then caller.finish else [] := by
  simp only [deliverOutcome, Refusal.isTruthy, absent, Bool.false_eq_true,
    if_false, deliverResult, whole, Payload.rows, deliverRows,
    Caller.deliver, Seen.none]
  cases caller.recordFault 1 with
  | some fault => rfl
  | none =>
    simp only [Passage.after, Passage.quiet, callsOf_append, callsOf_finish]
    rfl

/-- What the caller of a failed call learns depends on the refusal only. -/
theorem calls_fetch_of_failure
    (transport : Transport) (options : Request.Options)
    {response : Response} {content : List UInt8}
    (lower : 400 ≤ response.status) (upper : response.status < 600)
    (arrived : response.content = .ok content) :
    (fetch caller endpoint options.toDatum fun given =>
        (transport.send endpoint given (.ok response)).outcome).calls =
      callsOf
        (deliverOutcome caller endpoint
          (.ok ⟨.value .null, .held,
            .value (refusal response.status content)⟩)).events := by
  have failed := isFine_eq_false lower upper
  rw [← send_of_failure transport endpoint options failed arrived]
  rfl

end Rows

/--
A response of failure is reported once, as a failure to transport, if and only
if the endpoint streams or the body holds no value that counts as absent.
Otherwise a row without a value is delivered as if the call had succeeded.
-/
theorem fetch_of_failure
    {caller : Stream.Caller} (takesErrors : caller.takesErrors = true)
    (transport : Transport) (endpoint : Endpoint) (options : Request.Options)
    {response : Response} {content : List UInt8}
    (lower : 400 ≤ response.status) (upper : response.status < 600)
    (arrived : response.content = .ok content) :
    let passage :=
      Stream.fetch caller endpoint options.toDatum fun given =>
        (transport.send endpoint given (.ok response)).outcome
    ((∃ fault : Fault,
        fault.isTransport = true ∧ passage.calls = [.error fault]) ↔
      endpoint.streaming = true ∨ ¬ HoldsAbsent content) ∧
      (endpoint.streaming = false → HoldsAbsent content →
        passage.calls =
          .record .null ::
            if (caller.recordFault 1).isNone then caller.finish else []) := by
  have absentIff := isTruthy_refusal_eq_false_iff response.status content
  intro passage
  have calls : passage.calls = _ :=
    calls_fetch_of_failure transport options lower upper arrived
  rw [calls]
  cases present : (refusal response.status content).isTruthy with
  | true =>
    have held : ¬ HoldsAbsent content := by
      rw [← absentIff, present]
      decide
    rw [deliverOutcome_of_refusal takesErrors present]
    refine ⟨⟨fun _ => Or.inr held, fun _ => ⟨_, ?_, rfl⟩⟩, ?_⟩
    · rfl
    · exact fun _ absent => (held absent).elim
  | false =>
    have absent : HoldsAbsent content := absentIff.1 present
    cases streaming : endpoint.streaming with
    | true =>
      rw [deliverOutcome_of_absent_stream takesErrors present streaming]
      refine ⟨⟨fun _ => Or.inl rfl, fun _ => ⟨_, ?_, rfl⟩⟩, ?_⟩
      · rfl
      · intro whole
        cases whole
    | false =>
      rw [deliverOutcome_of_absent_rows present streaming]
      refine ⟨⟨?_, ?_⟩, fun _ _ => rfl⟩
      · rintro ⟨fault, -, same⟩
        cases same
      · rintro (streams | held)
        · cases streams
        · exact (held absent).elim

/-- An endpoint that does not stream. -/
def plainEndpoint : Endpoint :=
  { operationId := "read"
    methodName := "read"
    title := ""
    method := "GET"
    path := "/"
    parameters := []
    responses := []
    streaming := false
    tags := [] }

/-- A response of failure with a body that arrives at once. -/
def failedResponse (content : List UInt8) : Response :=
  ⟨500, "Internal Server Error", [.bytes content]⟩

theorem content_failedResponse (content : List UInt8) :
    (failedResponse content).content = .ok content := by
  rw [Response.content, failedResponse, Response.joinPieces,
    Response.joinPieces, Except.map, List.append_nil]

/-- A body that holds no value is reported. -/
theorem fetch_of_failure_noValue :
    ∃ fault : Fault,
      fault.isTransport = true ∧
        (Stream.fetch Stream.attentive plainEndpoint
          (Request.Options.build false [] .null).toDatum fun given =>
            ((Transport.toBase "" "").send plainEndpoint given
              (.ok (failedResponse (Text.utf8Bytes "x")))).outcome).calls =
          [.error fault] := by
  have held : ¬ HoldsAbsent (Text.utf8Bytes "x") := by
    have refused :
        Json.read "x" = .error (.malformed .expectedValue ⟨1, 1, 0⟩) :=
      Json.readCharacters_singleton 'x' (by decide) (by decide) (by decide)
    rw [holdsAbsent_utf8Bytes_iff, refused]
    simp
  have takesErrors : Stream.attentive.takesErrors = true := rfl
  exact
    (fetch_of_failure takesErrors _ _ _ (by decide) (by decide)
      (content_failedResponse _)).1.2 (Or.inr held)

/-- An object without members is a body that nobody is told of. -/
theorem not_forall_fetch_reports :
    ¬ ∀ caller : Stream.Caller, caller.takesErrors = true →
      ∀ (transport : Transport) (endpoint : Endpoint)
          (options : Request.Options) (response : Response)
          (content : List UInt8),
        400 ≤ response.status → response.status < 600 →
          response.content = .ok content →
            ∃ fault : Fault,
              fault.isTransport = true ∧
                (Stream.fetch caller endpoint options.toDatum fun given =>
                  (transport.send endpoint given
                    (.ok response)).outcome).calls = [.error fault] := by
  intro reports
  have absent : HoldsAbsent (Text.utf8Bytes "{}") :=
    (holdsAbsent_utf8Bytes_iff "{}").2 ⟨_, Json.read_braces, rfl⟩
  have arrived := content_failedResponse (Text.utf8Bytes "{}")
  obtain ⟨fault, -, same⟩ :=
    reports Stream.attentive rfl (Transport.toBase "" "") plainEndpoint
      (Request.Options.build false [] .null) _ _ (by decide) (by decide)
      arrived
  rw [calls_fetch_of_failure _ _ (by decide) (by decide) arrived,
    deliverOutcome_of_absent_rows
      ((isTruthy_refusal_eq_false_iff _ _).2 absent) rfl] at same
  cases same

end ApiAtlas.Http
