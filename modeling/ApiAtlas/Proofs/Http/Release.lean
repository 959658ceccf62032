import ApiAtlas.Proofs.Http.Failure
import ApiAtlas.Proofs.Http.Options

/-!
# Responses of failure that are released

A response of failure is released before it is refused or thrown, whatever its
body holds.  But the body is read first, as a whole and also where a stream was
asked for: a body that fails to arrive ends the exchange with its own fault,
and the response is never released.
-/

namespace ApiAtlas.Http

/--
An exchange in which a response is released, and then refused without a value
or thrown as the fault that it stands for.
-/
structure IsReleasedFailure
    (throwing : Bool)
    (request : Request)
    (response : Response)
    (exchanged : Exchanged) : Prop where
  events : exchanged.events = [.sent request, .released]
  refused :
    throwing = false →
      ∃ refused : Datum,
        exchanged.outcome = .ok ⟨.value .null, .held, .value refused⟩
  thrown :
    throwing = true →
      exchanged.outcome = .error (response.fault request.address)

variable {options : Entries} {response : Response}

/-- A response of failure whose body arrives is released. -/
theorem isReleasedFailure_of_content
    (transport : Transport) (endpoint : Endpoint)
    (hasPathValues : HasPathValues options) (failed : response.isFine = false)
    {content : List UInt8} (arrived : response.content = .ok content) :
    IsReleasedFailure (throws options)
      (requestOf transport endpoint options) response
      (transport.send endpoint (.map options) (.ok response)) := by
  rw [send_eq transport endpoint hasPathValues, receive_of_failed _ _ failed,
    receiveFailure_of_content _ _ arrived]
  refine ⟨rfl, ?_, ?_⟩
  · intro calm
    exact ⟨_, if_neg (Bool.eq_false_iff.1 calm)⟩
  · intro throwing
    exact if_pos throwing

/-- A body that fails to arrive ends the exchange, and nothing is released. -/
theorem send_of_content_eq_error
    (transport : Transport) (endpoint : Endpoint)
    (hasPathValues : HasPathValues options) (failed : response.isFine = false)
    {fault : Fault} (broken : response.content = .error fault) :
    transport.send endpoint (.map options) (.ok response) =
      ⟨[.sent (requestOf transport endpoint options)], .error fault⟩ := by
  rw [send_eq transport endpoint hasPathValues, receive_of_failed _ _ failed,
    receiveFailure, broken]
  rfl

/--
A response of failure is released and then refused or thrown, as the options
ask, if and only if its body arrives as a whole.  Otherwise the exchange ends
with the fault of the body, whatever the options ask, and the response is not
released.
-/
theorem send_isReleasedFailure_iff
    (transport : Transport) (endpoint : Endpoint)
    (hasPathValues : HasPathValues options)
    (lower : 400 ≤ response.status) (upper : response.status < 600) :
    (IsReleasedFailure (throws options)
        (requestOf transport endpoint options) response
        (transport.send endpoint (.map options) (.ok response)) ↔
      ∃ content, response.content = .ok content) ∧
      ∀ fault, response.content = .error fault →
        transport.send endpoint (.map options) (.ok response) =
          ⟨[.sent (requestOf transport endpoint options)], .error fault⟩ := by
  have failed := isFine_eq_false lower upper
  refine ⟨⟨?_, ?_⟩, ?_⟩
  · intro released
    cases body : response.content with
    | ok content => exact ⟨content, rfl⟩
    | error fault =>
      have events := released.events
      rw [send_of_content_eq_error transport endpoint hasPathValues failed
        body] at events
      cases events
  · rintro ⟨content, arrived⟩
    exact
      isReleasedFailure_of_content transport endpoint hasPathValues failed
        arrived
  · intro fault broken
    exact
      send_of_content_eq_error transport endpoint hasPathValues failed broken

/-- Options that ask for a stream, and leave faults to be thrown. -/
def streamOptions : Entries :=
  Fields.toEntries [(Request.streamingName, .bool true)]

theorem hasPathValues_streamOptions : HasPathValues streamOptions := by
  intro present
  cases present

/-- A response of failure whose body comes in pieces. -/
def failureInPieces (pieces : List Stream.Chunk) : Response :=
  ⟨503, "Unavailable", pieces⟩

/-- A stream that cannot be decoded is released and thrown as its status. -/
theorem send_isReleasedFailure_iff_undecodable :
    HasPathValues streamOptions ∧
      IsReleasedFailure true
        (requestOf (.toBase "http://api/" "") plainEndpoint streamOptions)
        (failureInPieces [.bytes [0xFF], .bytes [0x7B]])
        ((Transport.toBase "http://api/" "").send plainEndpoint
          (.map streamOptions)
          (.ok (failureInPieces [.bytes [0xFF], .bytes [0x7B]]))) :=
  ⟨hasPathValues_streamOptions,
    (send_isReleasedFailure_iff _ _ hasPathValues_streamOptions (by decide)
      (by decide)).1.2 ⟨[0xFF, 0x7B], rfl⟩⟩

/-- A body that breaks off leaves its response held. -/
theorem not_forall_send_isReleasedFailure :
    ¬ ∀ (transport : Transport) (endpoint : Endpoint) (options : Entries)
        (response : Response),
      HasPathValues options → 400 ≤ response.status → response.status < 600 →
        IsReleasedFailure (throws options)
          (requestOf transport endpoint options) response
          (transport.send endpoint (.map options) (.ok response)) := by
  intro releases
  have released :=
    releases (.toBase "http://api/" "") plainEndpoint streamOptions
      (failureInPieces [.bytes [0x7B], .failure "gone"])
      hasPathValues_streamOptions (by decide) (by decide)
  have events := released.events
  rw [send_of_content_eq_error _ _ hasPathValues_streamOptions rfl rfl] at events
  cases events

end ApiAtlas.Http
