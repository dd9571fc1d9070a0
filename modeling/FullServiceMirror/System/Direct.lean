import FullServiceMirror.System.Step

/-!
# The mirror without a mirror

What the two programs are for, as one program: the handler of a client's request
has it processed next to the wallet service, without ids, polls and maps. A
request is processed at most once. The handler returns the response, or it gives
up, which it may do at any time.
-/
namespace FullServiceMirror.Direct

open Json

/-- A client's request, in its handler. -/
structure Call where
  endpoint : Endpoint
  request : QueryRequest
  processed : Bool := false
  response : Option QueryResponse := none
  replied : Bool := false

structure State (L : Type) where
  calls : List Call := []
  posts : List (Post L) := []
  answers : List Answer := []

/-- What the world sees; `l` is where the request is processed. -/
inductive Event (L : Type) where
  | request (endpoint : Endpoint) (data : Data)
  | process (call : Nat) (l : L) (exchange : Exchange)
  | reply (call : Nat)
  | giveUp (call : Nat)

variable {L : Type}

def State.start : State L := {}

/-- The handler of a call answers its client. -/
def State.answer (s : State L) (n : Nat) (call : Call) (waited : Except String QueryResponse) : State L :=
  { s with
    calls := s.calls.set n { call with replied := true }
    answers := s.answers ++
      [{ endpoint := call.endpoint, waited := some (n, waited), response := call.endpoint.reply waited }] }

variable (fromStr : String → Except String Value) (config : L → Config)

def step (s : State L) : Event L → Option (State L)
  | .request endpoint data =>
    match endpoint.readRequest data with
    | .error e => some { s with answers := s.answers ++ [{ endpoint, waited := none, response := e.respondTo }] }
    | .ok request => some { s with calls := s.calls ++ [{ endpoint, request }] }
  | .process n l exchange => do
    let call ← s.calls[n]?
    if call.processed then none
    else
      let (posted, response) := respond fromStr (config l) exchange call.request
      some { s with
        calls := s.calls.set n { call with processed := true, response }
        posts := s.posts ++ posted.map fun body => ⟨l, n, body⟩ }
  | .reply n => do
    let call ← s.calls[n]?
    let response ← call.response
    if call.replied then none else some (s.answer n call (.ok response))
  | .giveUp n => do
    let call ← s.calls[n]?
    if call.replied then none else some (s.answer n call (.error "timeout"))

end FullServiceMirror.Direct
