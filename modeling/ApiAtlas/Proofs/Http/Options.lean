import ApiAtlas.Http.Transport
import ApiAtlas.Proofs.Data.Access
import ApiAtlas.Proofs.Data.Json

/-!
# Options that are understood

Options are a map, of which a transport reads the values for the path, the
query, the body, and whether to stream and to throw.  Only the values for the
path have to be of a kind: a map, if there are any.
-/

namespace ApiAtlas.Http

/-- Options whose values for the path, if there are any, are a map. -/
def HasPathValues (options : Entries) : Prop :=
  (options.held Location.path.name).IsOptionalMap fun _ => True

/-- The values for the path that options hold. -/
def pathValues (options : Entries) : Entries :=
  (options.held Location.path.name).members

/-- Whether options ask for faults to be thrown, as they do unless they say otherwise. -/
def throws (options : Entries) : Bool :=
  ((Entries.get? (.str Request.throwingName) options).getD (.bool true)).isTruthy

/-- What options mean. -/
def meaning (options : Entries) : Understood :=
  { values := pathValues options
    query := options.held Location.query.name
    body := options.held Request.bodyName
    streamed := (options.held Request.streamingName).isTruthy
    throwing := throws options }

theorem understand_eq
    {options : Entries} (hasPathValues : HasPathValues options) :
    understand (.map options) = .ok (meaning options) := by
  have values :
      (options.held Location.path.name).orEmptyMap.entries =
        .ok (pathValues options) := by
    rcases hasPathValues.orEmptyMap trivial with ⟨entries, isMap, -⟩
    have found :
        (options.held Location.path.name).orEmptyMap.entries = .ok entries := by
      rw [isMap]
      rfl
    rw [found, pathValues, Datum.members_of_orEmptyMap found]
  have member (name : String) :
      (Datum.map options).member? name =
        .ok (Entries.get? (.str name) options) := rfl
  rw [Entries.held] at values
  simp only [understand, member, bind, Except.bind, pure, Except.pure, values]
  rfl

/-- The request that a transport sends for an endpoint with options. -/
def requestOf
    (transport : Transport) (endpoint : Endpoint) (options : Entries) :
    Request :=
  transport.request endpoint (meaning options)

/-- Options that are understood are sent, whatever the reply. -/
theorem send_eq
    (transport : Transport) (endpoint : Endpoint) {options : Entries}
    (hasPathValues : HasPathValues options) (reply : Reply) :
    let request := requestOf transport endpoint options
    let sent := receive (meaning options) request.address reply
    transport.send endpoint (.map options) reply =
      ⟨.sent request :: (if sent.released then [.released] else []),
        sent.outcome⟩ := by
  rw [Transport.send, understand_eq hasPathValues]
  rfl

end ApiAtlas.Http
