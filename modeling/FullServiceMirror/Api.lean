import FullServiceMirror.Rust.HashMap

/-!
# `wallet_service_mirror_api.proto`

The messages of the mirror protocol. A `oneof` that is not set is `none`; the
getters of an unset or different case return the default value of its type, as
the generated code does.
-/
namespace FullServiceMirror

open Rust

abbrev Bytes := List UInt8

/-- `str::as_bytes` -/
def asBytes (s : String) : Bytes := s.toUTF8.data.toList

structure UnencryptedRequest where
  jsonRequest : String := ""
  deriving DecidableEq, Repr

structure EncryptedRequest where
  payload : Bytes := []
  deriving DecidableEq, Repr

structure UnencryptedResponse where
  jsonResponse : String := ""
  deriving DecidableEq, Repr

structure EncryptedResponse where
  payload : Bytes := []
  deriving DecidableEq, Repr

/-- `oneof request` -/
inductive RequestCase where
  | unencryptedRequest (request : UnencryptedRequest)
  | encryptedRequest (request : EncryptedRequest)
  deriving DecidableEq, Repr

structure QueryRequest where
  request : Option RequestCase := none
  deriving DecidableEq, Repr

namespace QueryRequest

def setUnencryptedRequest (_ : QueryRequest) (request : UnencryptedRequest) : QueryRequest :=
  ⟨some (.unencryptedRequest request)⟩

def setEncryptedRequest (_ : QueryRequest) (request : EncryptedRequest) : QueryRequest :=
  ⟨some (.encryptedRequest request)⟩

def hasUnencryptedRequest (m : QueryRequest) : Bool :=
  match m.request with
  | some (.unencryptedRequest _) => true
  | _ => false

def getUnencryptedRequest (m : QueryRequest) : UnencryptedRequest :=
  match m.request with
  | some (.unencryptedRequest request) => request
  | _ => {}

def hasEncryptedRequest (m : QueryRequest) : Bool :=
  match m.request with
  | some (.encryptedRequest _) => true
  | _ => false

def getEncryptedRequest (m : QueryRequest) : EncryptedRequest :=
  match m.request with
  | some (.encryptedRequest request) => request
  | _ => {}

theorem hasUnencryptedRequest_iff (m : QueryRequest) :
    m.hasUnencryptedRequest = true ↔ m.request = some (.unencryptedRequest m.getUnencryptedRequest) := by
  obtain ⟨_ | ⟨_ | _⟩⟩ := m <;> simp [hasUnencryptedRequest, getUnencryptedRequest]

theorem hasEncryptedRequest_iff (m : QueryRequest) :
    m.hasEncryptedRequest = true ↔ m.request = some (.encryptedRequest m.getEncryptedRequest) := by
  obtain ⟨_ | ⟨_ | _⟩⟩ := m <;> simp [hasEncryptedRequest, getEncryptedRequest]

end QueryRequest

/-- `oneof response` -/
inductive ResponseCase where
  | error (error : String)
  | unencryptedResponse (response : UnencryptedResponse)
  | encryptedResponse (response : EncryptedResponse)
  deriving DecidableEq, Repr

structure QueryResponse where
  response : Option ResponseCase := none
  deriving DecidableEq, Repr

namespace QueryResponse

def setError (_ : QueryResponse) (error : String) : QueryResponse := ⟨some (.error error)⟩

def setUnencryptedResponse (_ : QueryResponse) (response : UnencryptedResponse) : QueryResponse :=
  ⟨some (.unencryptedResponse response)⟩

def setEncryptedResponse (_ : QueryResponse) (response : EncryptedResponse) : QueryResponse :=
  ⟨some (.encryptedResponse response)⟩

def hasError (m : QueryResponse) : Bool :=
  match m.response with
  | some (.error _) => true
  | _ => false

def getError (m : QueryResponse) : String :=
  match m.response with
  | some (.error error) => error
  | _ => ""

def hasUnencryptedResponse (m : QueryResponse) : Bool :=
  match m.response with
  | some (.unencryptedResponse _) => true
  | _ => false

def getUnencryptedResponse (m : QueryResponse) : UnencryptedResponse :=
  match m.response with
  | some (.unencryptedResponse response) => response
  | _ => {}

def hasEncryptedResponse (m : QueryResponse) : Bool :=
  match m.response with
  | some (.encryptedResponse _) => true
  | _ => false

def getEncryptedResponse (m : QueryResponse) : EncryptedResponse :=
  match m.response with
  | some (.encryptedResponse response) => response
  | _ => {}

end QueryResponse

/-- Query id -> response, sent by the private side. -/
structure PollRequest where
  queryResponses : HashMap String QueryResponse := .new

/-- Query id -> request, returned by the public side. -/
structure PollResponse where
  queryRequests : HashMap String QueryRequest := .new

end FullServiceMirror
