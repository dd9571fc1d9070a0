import FullServiceMirror.Api

/-!
# The HTTP handlers of `public/main.rs`

`unencrypted_request` and `encrypted_request`, each cut where it waits for the
query: first the request is read and wrapped, then the result of the wait is
turned into the reply. Rocket answers `Ok` with 200 and `BadRequest` with 400.
-/
namespace FullServiceMirror

structure HttpResponse where
  status : Nat
  body : Bytes
  deriving DecidableEq, Repr

structure BadRequest where
  message : String

/-- `Responder for BadRequest` -/
def BadRequest.respondTo (e : BadRequest) : HttpResponse := { status := 400, body := asBytes e.message }

@[simp] theorem BadRequest.status_respondTo (e : BadRequest) : e.respondTo.status = 400 := rfl

/-- The data of an HTTP request: reading it to the end fails, or gives bytes. -/
abbrev Data := Except String Bytes

namespace UnencryptedRequestHandler

/-- Up to `enqueue_query`; `read_to_string` also fails on bytes that are not UTF-8. -/
def readRequest (requestData : Data) : Except BadRequest QueryRequest :=
  let couldNotRead : BadRequest := ⟨"Could not read request data for unencrypted request."⟩
  match requestData with
  | .error _ => .error couldNotRead
  | .ok bytes =>
    match String.fromUTF8? ⟨bytes.toArray⟩ with
    | none => .error couldNotRead
    | some request => .ok (QueryRequest.setUnencryptedRequest {} { jsonRequest := request })

/-- From the result of `query.wait()` on. -/
def finish (waited : Except String QueryResponse) : Except BadRequest String :=
  match waited with
  | .error e => .error ⟨e⟩
  | .ok queryResponse =>
    if queryResponse.hasError then .error ⟨queryResponse.getError⟩
    else if !queryResponse.hasUnencryptedResponse then
      .error ⟨"Incorrect response type received"⟩
    else .ok queryResponse.getUnencryptedResponse.jsonResponse

end UnencryptedRequestHandler

namespace EncryptedRequestHandler

def readRequest (data : Data) : Except BadRequest QueryRequest :=
  match data with
  | .error e => .error ⟨"Could not read request data for unencrypted request: " ++ e⟩
  | .ok payload => .ok (QueryRequest.setEncryptedRequest {} { payload })

def finish (waited : Except String QueryResponse) : Except BadRequest Bytes :=
  match waited with
  | .error e => .error ⟨e⟩
  | .ok queryResponse =>
    if queryResponse.hasError then .error ⟨queryResponse.getError⟩
    else if !queryResponse.hasEncryptedResponse then
      .error ⟨"Incorrect response type received"⟩
    else .ok queryResponse.getEncryptedResponse.payload

end EncryptedRequestHandler

/-- The two routes. -/
inductive Endpoint where
  | unencryptedRequest
  | encryptedRequest
  deriving DecidableEq, Repr

namespace Endpoint

def readRequest : Endpoint → Data → Except BadRequest QueryRequest
  | unencryptedRequest => UnencryptedRequestHandler.readRequest
  | encryptedRequest => EncryptedRequestHandler.readRequest

/-- The reply to the client once the wait is over. -/
def reply : Endpoint → Except String QueryResponse → HttpResponse
  | unencryptedRequest, waited =>
    match UnencryptedRequestHandler.finish waited with
    | .error e => e.respondTo
    | .ok text => { status := 200, body := asBytes text }
  | encryptedRequest, waited =>
    match EncryptedRequestHandler.finish waited with
    | .error e => e.respondTo
    | .ok payload => { status := 200, body := payload }

/-- The payload of a response of the kind that an endpoint serves. -/
def payload : Endpoint → QueryResponse → Option Bytes
  | unencryptedRequest, { response := some (.unencryptedResponse response) } =>
    some (asBytes response.jsonResponse)
  | encryptedRequest, { response := some (.encryptedResponse response) } => some response.payload
  | _, _ => none

/-- A reply has status 200 and the payload of a response of the right kind, or
status 400 in every other case. -/
theorem reply_cases (endpoint : Endpoint) (waited : Except String QueryResponse) :
    (∃ response body, waited = .ok response ∧ endpoint.payload response = some body ∧
      endpoint.reply waited = { status := 200, body }) ∨
    ((endpoint.reply waited).status = 400 ∧
      ∀ response, waited = .ok response → endpoint.payload response = none) := by
  cases waited with
  | error e =>
    right
    cases endpoint <;> exact ⟨rfl, fun response equal => by cases equal⟩
  | ok response =>
    obtain ⟨oneof⟩ := response
    cases endpoint <;> rcases oneof with _ | ⟨error | unencrypted | encrypted⟩
    -- Only the case of the endpoint's own kind leads to a 200.
    case unencryptedRequest.some.unencryptedResponse => exact Or.inl ⟨_, _, rfl, rfl, rfl⟩
    case encryptedRequest.some.encryptedResponse => exact Or.inl ⟨_, _, rfl, rfl, rfl⟩
    all_goals exact Or.inr ⟨rfl, fun response equal => by cases equal; rfl⟩

/-- What an endpoint enqueues is of its own kind, and holds the data sent to it. -/
theorem readRequest_ok (endpoint : Endpoint) (data : Data) (request : QueryRequest)
    (read : endpoint.readRequest data = .ok request) :
    (∃ text, endpoint = .unencryptedRequest ∧ data = .ok (asBytes text) ∧
      request.request = some (.unencryptedRequest { jsonRequest := text })) ∨
    (∃ payload, endpoint = .encryptedRequest ∧ data = .ok payload ∧
      request.request = some (.encryptedRequest { payload })) := by
  cases endpoint with
  | unencryptedRequest =>
    left
    simp only [readRequest, UnencryptedRequestHandler.readRequest] at read
    cases data with
    | error e => cases read
    | ok bytes =>
      dsimp only at read
      split at read
      · cases read
      next text decoded =>
        cases read
        rw [String.fromUTF8?] at decoded
        split at decoded
        · cases decoded
          exact ⟨_, rfl, rfl, rfl⟩
        · cases decoded
  | encryptedRequest =>
    right
    cases data with
    | error e => cases read
    | ok payload =>
      cases read
      exact ⟨payload, rfl, rfl, rfl⟩

end Endpoint

end FullServiceMirror
