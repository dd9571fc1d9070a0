import FullServiceMirror.Private.PollingLoop
import FullServiceMirror.Public.Handlers
import FullServiceMirror.Public.MirrorService
import FullServiceMirror.Public.Refinement
import FullServiceMirror.Transition

/-!
# The mirror as a system

Any number of clients at the public side, and any number of polling loops that
talk to it. A step is one atomic action of one party: a call of the manager
under its lock, the sending or arrival of a message, the processing of one
request. A poll is a message that exists from `send` until its reply arrives or
is lost; its loop may give up on it at any moment in between.
-/
namespace FullServiceMirror

open Rust Json

inductive PollStage where
  | unsent
  | requested
  | resolving (rest : List (String × QueryResponse))
  | replied (requests : HashMap String QueryRequest)
  | closed

/-- One call of `poll`. `origin` is history: the query that an id stood for when
it was handed out. For the responses it says whom they were computed for, for
the reply whom its requests come from. -/
structure Poll where
  stage : PollStage := .unsent
  responses : HashMap String QueryResponse := .new
  origin : String → Query := fun _ => 0
  replyOrigin : String → Query := fun _ => 0

inductive LoopPhase where
  | ready
  | polling (poll : Nat)
  | processing (rest : List (String × QueryRequest))
  | aborted

/-- A polling loop, with the history of the ids in its map. -/
structure Loop where
  phase : LoopPhase := .ready
  pendingResponses : HashMap String QueryResponse := .new
  origin : String → Query := fun _ => 0

/-- Where the request of a query is: with the manager until it is drained, and
`gone` once it is processed. -/
inductive Place (L : Type) where
  | manager
  | reply (poll : Nat)
  | loop (l : L)
  | gone
  deriving DecidableEq

/-- What a client was answered, after a wait unless its data could not be read. -/
structure Answer where
  endpoint : Endpoint
  waited : Option (Query × Except String QueryResponse)
  response : HttpResponse

/-- A request was processed by a loop and its response stored. -/
structure Computation (L : Type) where
  l : L
  exchange : Exchange
  query : Query
  queryId : String
  request : QueryRequest
  response : QueryResponse

/-- A body was POSTed to the wallet service. -/
structure Post (L : Type) where
  l : L
  query : Query
  body : String

/-- `Query::resolve` was called on `query`, with a response computed for `origin`. -/
structure Resolved where
  query : Query
  origin : Query
  queryId : String
  response : QueryResponse

/-- What happened so far. No step depends on it. -/
structure History (L : Type) where
  tickets : QueryLife := []
  place : Query → Place L := fun _ => .manager
  answers : List Answer := []
  computed : List (Computation L) := []
  posts : List (Post L) := []
  resolved : List Resolved := []

structure State (L : Type) extends History L where
  manager : QueryManager := .default
  waiting : Query → Option Endpoint := fun _ => none
  polls : Nat → Poll := fun _ => {}
  sent : Nat := 0
  loops : L → Loop := fun _ => {}

inductive Action (L : Type) where
  /-- A client's request arrives at a handler. -/
  | request (endpoint : Endpoint) (data : Data) (rng : List (Fin QUERY_ID_LEN → UInt64))
  /-- The wait of a handler ends. -/
  | waitReturn (query : Query)
  | send (l : L)
  /-- `poll_impl` starts on a request, whose map it visits in some order. -/
  | accept (poll : Nat) (order : List (String × QueryResponse))
  | resolve (poll : Nat)
  | drain (poll : Nat)
  /-- The poll of a loop returns `Ok`; the loop visits the reply in some order. -/
  | deliver (l : L) (order : List (String × QueryRequest))
  /-- The poll of a loop returns `Err`, wherever its messages are. -/
  | fail (l : L)
  | lose (poll : Nat)
  | process (l : L) (exchange : Exchange)
  | sleep (l : L)

variable {L : Type}

def State.start : State L := {}

/-- The ids handed out so far. -/
def State.ids (s : State L) : List String := s.tickets.map fun ticket => ticket.id

def State.setPoll (s : State L) (p : Nat) (poll : Poll) : State L :=
  { s with polls := Function.update s.polls p poll }

@[simp] theorem State.setPoll_polls (s : State L) (p : Nat) (poll : Poll) :
    (s.setPoll p poll).polls = Function.update s.polls p poll := rfl

@[simp] theorem State.setPoll_loops (s : State L) (p : Nat) (poll : Poll) :
    (s.setPoll p poll).loops = s.loops := rfl

/-- What holds of the stage that one poll moves on to and of all stages before
holds of all stages after. -/
theorem State.setPoll_stage (s : State L) (p : Nat) (poll : Poll) (P : Nat → PollStage → Prop)
    (moved : P p poll.stage) (kept : ∀ p', P p' (s.polls p').stage) (p' : Nat) :
    P p' ((s.setPoll p poll).polls p').stage := by
  rw [State.setPoll_polls]
  by_cases same : p' = p
  · rw [same, Function.update_self]
    exact moved
  · rw [Function.update_of_ne same]
    exact kept p'

variable [DecidableEq L]

def State.setLoop (s : State L) (l : L) (loop : Loop) : State L :=
  { s with loops := Function.update s.loops l loop }

@[simp] theorem State.setLoop_polls (s : State L) (l : L) (loop : Loop) :
    (s.setLoop l loop).polls = s.polls := rfl

@[simp] theorem State.setLoop_loops (s : State L) (l : L) (loop : Loop) :
    (s.setLoop l loop).loops = Function.update s.loops l loop := rfl

variable (fromStr : String → Except String Value) (config : L → Config)

def step (s : State L) : Action L → Option (State L)
  | .request endpoint data rng =>
    match endpoint.readRequest data with
    -- The handler answers without a query.
    | .error e => some { s with answers := s.answers ++ [{ endpoint, waited := none, response := e.respondTo }] }
    | .ok queryRequest => do
      let queryId ← s.manager.generateQueryId rng
      let (manager, query) ← s.manager.enqueueQuery rng queryRequest
      return { s with
        manager
        waiting := Function.update s.waiting query (some endpoint)
        tickets := s.tickets.enqueue queryId queryRequest }
  | .waitReturn query => do
    let endpoint ← s.waiting query
    let (manager, waited) := s.manager.wait query
    return { s with
      manager
      waiting := Function.update s.waiting query none
      tickets := s.tickets.take query
      answers := s.answers ++
        [{ endpoint, waited := some (query, waited), response := endpoint.reply waited }] }
  | .send l =>
    let loop := s.loops l
    match loop.phase with
    -- The message holds a clone: the loop keeps its map until the poll succeeded.
    | .ready => some { (s.setPoll s.sent
        { stage := .requested, responses := loop.pendingResponses, origin := loop.origin }).setLoop l
          { loop with phase := .polling s.sent } with sent := s.sent + 1 }
    | _ => none
  | .accept p order =>
    let poll := s.polls p
    match poll.stage with
    | .requested =>
      if order.Perm poll.responses.iter then some (s.setPoll p { poll with stage := .resolving order })
      else none
    | _ => none
  | .resolve p =>
    let poll := s.polls p
    match poll.stage with
    | .resolving ((queryId, response) :: rest) =>
      let s' := { s.setPoll p { poll with stage := .resolving rest } with
        manager := (s.manager.resolveQuery queryId response).1 }
      match s.manager.pendingResponses.get queryId with
      -- `resolve_query` returned an `Err`, which is logged.
      | none => some s'
      | some query => some { s' with
          tickets := s.tickets.resolve query response
          resolved := s.resolved ++ [{ query, origin := poll.origin queryId, queryId, response }] }
    | _ => none
  | .drain p =>
    let poll := s.polls p
    match poll.stage with
    | .resolving [] =>
      let (manager, requests) := s.manager.getPendingRequests
      some { s.setPoll p { poll with
          stage := .replied requests
          replyOrigin := fun queryId => (s.manager.pendingRequests.get queryId).getD 0 } with
        manager
        tickets := s.tickets.handOut
        place := fun query =>
          if s.manager.pendingRequests.iter.any (fun e => e.2 = query) then .reply p else s.place query }
    | _ => none
  | .deliver l order =>
    let loop := s.loops l
    match loop.phase with
    | .polling p =>
      let poll := s.polls p
      match poll.stage with
      | .replied requests =>
        if order.Perm requests.iter then
          -- `pending_responses.clear()`; the ids stand for what the reply says from now on.
          some { (s.setPoll p { poll with stage := .closed }).setLoop l
              { phase := .processing order, pendingResponses := .new, origin := poll.replyOrigin } with
            place := fun query => if s.place query = .reply p then .loop l else s.place query }
        else none
      | _ => none
    | _ => none
  | .fail l =>
    let loop := s.loops l
    match loop.phase with
    -- The poll itself goes on: it may still be handled, or its reply be lost.
    | .polling _ => some (s.setLoop l { loop with phase := .ready })
    | _ => none
  | .lose p =>
    let poll := s.polls p
    match poll.stage with
    | .requested => some (s.setPoll p { poll with stage := .closed })
    | .replied _ => some (s.setPoll p { poll with stage := .closed })
    | _ => none
  | .process l exchange =>
    let loop := s.loops l
    match loop.phase with
    | .processing ((queryId, request) :: rest) =>
      let query := loop.origin queryId
      let (posted, stored) := respond fromStr (config l) exchange request
      let s' : State L := { s with
        place := Function.update s.place query .gone
        posts := s.posts ++ posted.map fun body => ⟨l, query, body⟩ }
      match stored with
      -- A panic ends the program.
      | none => some (s'.setLoop l { loop with phase := .aborted })
      | some response =>
        let loop := { loop with
          phase := .processing rest
          pendingResponses := loop.pendingResponses.insert queryId response }
        some { s'.setLoop l loop with
          computed := s.computed ++ [⟨l, exchange, query, queryId, request, response⟩] }
    | _ => none
  | .sleep l =>
    let loop := s.loops l
    match loop.phase with
    | .processing [] => some (s.setLoop l { loop with phase := .ready })
    | _ => none

/-- One client and one loop: a request travels to the wallet service, and the
response that comes back with the next poll ends the client's wait. -/
def roundTrip : List (Action Unit) :=
  let jsonRequest := "\x7b\"method\": \"get_block\"\x7d"
  let jsonResponse := "\x7b\x7d"
  [.request .unencryptedRequest (.ok (asBytes jsonRequest)) [fun _ => 0],
   .send (), .accept 0 [], .drain 0,
   .deliver () [("AAAAAAAA", QueryRequest.setUnencryptedRequest {} { jsonRequest })],
   .process () (.text jsonResponse), .sleep (),
   .send (), .accept 1 [("AAAAAAAA", QueryResponse.setUnencryptedResponse {} { jsonResponse })],
   .resolve 1, .waitReturn 0]

/-- What the steps do, one constructor for each way a step can go. -/
inductive Step (s : State L) : Action L → State L → Prop
  | unread (endpoint : Endpoint) (data : Data) (rng : List (Fin QUERY_ID_LEN → UInt64)) (e : BadRequest)
      (failed : endpoint.readRequest data = .error e) :
      Step s (.request endpoint data rng)
        { s with answers := s.answers ++ [{ endpoint, waited := none, response := e.respondTo }] }
  | request (endpoint : Endpoint) (data : Data) (rng : List (Fin QUERY_ID_LEN → UInt64))
      (queryRequest : QueryRequest) (read : endpoint.readRequest data = .ok queryRequest)
      (queryId : String) (generated : s.manager.generateQueryId rng = some queryId)
      (manager : QueryManager) (query : Query)
      (enqueued : s.manager.enqueueQuery rng queryRequest = some (manager, query)) :
      Step s (.request endpoint data rng) { s with
        manager
        waiting := Function.update s.waiting query (some endpoint)
        tickets := s.tickets.enqueue queryId queryRequest }
  | waitReturn (query : Query) (endpoint : Endpoint) (waits : s.waiting query = some endpoint) :
      Step s (.waitReturn query) { s with
        manager := (s.manager.wait query).1
        waiting := Function.update s.waiting query none
        tickets := s.tickets.take query
        answers := s.answers ++ [{ endpoint, waited := some (query, (s.manager.wait query).2),
                                   response := endpoint.reply (s.manager.wait query).2 }] }
  | send (l : L) (phase : (s.loops l).phase = .ready) :
      Step s (.send l) { (s.setPoll s.sent { stage := .requested,
                                             responses := (s.loops l).pendingResponses,
                                             origin := (s.loops l).origin }).setLoop l
          { s.loops l with phase := .polling s.sent } with sent := s.sent + 1 }
  | accept (p : Nat) (order : List (String × QueryResponse)) (stage : (s.polls p).stage = .requested)
      (visits : order.Perm (s.polls p).responses.iter) :
      Step s (.accept p order) (s.setPoll p { s.polls p with stage := .resolving order })
  | unknown (p : Nat) (queryId : String) (response : QueryResponse)
      (rest : List (String × QueryResponse))
      (stage : (s.polls p).stage = .resolving ((queryId, response) :: rest))
      (absent : s.manager.pendingResponses.get queryId = none) :
      Step s (.resolve p) { s.setPoll p { s.polls p with stage := .resolving rest } with
        manager := (s.manager.resolveQuery queryId response).1 }
  | resolve (p : Nat) (queryId : String) (response : QueryResponse)
      (rest : List (String × QueryResponse))
      (stage : (s.polls p).stage = .resolving ((queryId, response) :: rest))
      (query : Query) (awaited : s.manager.pendingResponses.get queryId = some query) :
      Step s (.resolve p) { s.setPoll p { s.polls p with stage := .resolving rest } with
        manager := (s.manager.resolveQuery queryId response).1
        tickets := s.tickets.resolve query response
        resolved := s.resolved ++
          [{ query, origin := (s.polls p).origin queryId, queryId, response }] }
  | drain (p : Nat) (stage : (s.polls p).stage = .resolving []) :
      Step s (.drain p) { s.setPoll p { s.polls p with
          stage := .replied s.manager.getPendingRequests.2
          replyOrigin := fun queryId => (s.manager.pendingRequests.get queryId).getD 0 } with
        manager := s.manager.getPendingRequests.1
        tickets := s.tickets.handOut
        place := fun query =>
          if s.manager.pendingRequests.iter.any (fun e => e.2 = query) then .reply p
          else s.place query }
  | deliver (l : L) (order : List (String × QueryRequest)) (p : Nat)
      (phase : (s.loops l).phase = .polling p) (requests : HashMap String QueryRequest)
      (stage : (s.polls p).stage = .replied requests) (visits : order.Perm requests.iter) :
      Step s (.deliver l order) { (s.setPoll p { s.polls p with stage := .closed }).setLoop l
          { phase := .processing order, pendingResponses := .new, origin := (s.polls p).replyOrigin } with
        place := fun query => if s.place query = .reply p then .loop l else s.place query }
  | fail (l : L) (p : Nat) (phase : (s.loops l).phase = .polling p) :
      Step s (.fail l) (s.setLoop l { s.loops l with phase := .ready })
  | loseRequest (p : Nat) (stage : (s.polls p).stage = .requested) :
      Step s (.lose p) (s.setPoll p { s.polls p with stage := .closed })
  | loseReply (p : Nat) (requests : HashMap String QueryRequest)
      (stage : (s.polls p).stage = .replied requests) :
      Step s (.lose p) (s.setPoll p { s.polls p with stage := .closed })
  | abort (l : L) (exchange : Exchange) (queryId : String) (request : QueryRequest)
      (rest : List (String × QueryRequest))
      (phase : (s.loops l).phase = .processing ((queryId, request) :: rest))
      (panicked : (respond fromStr (config l) exchange request).2 = none) :
      Step s (.process l exchange) { s.setLoop l { s.loops l with phase := .aborted } with
        place := Function.update s.place ((s.loops l).origin queryId) .gone
        posts := s.posts ++ (respond fromStr (config l) exchange request).1.map
          fun body => ⟨l, (s.loops l).origin queryId, body⟩ }
  | process (l : L) (exchange : Exchange) (queryId : String) (request : QueryRequest)
      (rest : List (String × QueryRequest))
      (phase : (s.loops l).phase = .processing ((queryId, request) :: rest))
      (response : QueryResponse)
      (stored : (respond fromStr (config l) exchange request).2 = some response) :
      Step s (.process l exchange) { s.setLoop l { s.loops l with
            phase := .processing rest
            pendingResponses := (s.loops l).pendingResponses.insert queryId response } with
        place := Function.update s.place ((s.loops l).origin queryId) .gone
        posts := s.posts ++ (respond fromStr (config l) exchange request).1.map
          fun body => ⟨l, (s.loops l).origin queryId, body⟩
        computed := s.computed ++
          [⟨l, exchange, (s.loops l).origin queryId, queryId, request, response⟩] }
  | sleep (l : L) (phase : (s.loops l).phase = .processing []) :
      Step s (.sleep l) (s.setLoop l { s.loops l with phase := .ready })

variable {fromStr config}

theorem step_cases (s t : State L) (a : Action L) (taken : step fromStr config s a = some t) :
    Step fromStr config s a t := by
  cases a with
  | request endpoint data rng =>
    simp only [step] at taken
    split at taken
    next e failed =>
      cases taken
      exact .unread endpoint data rng e failed
    next queryRequest read =>
      obtain ⟨queryId, generated, taken⟩ := Option.bind_eq_some_iff.mp taken
      obtain ⟨⟨manager, query⟩, enqueued, taken⟩ := Option.bind_eq_some_iff.mp taken
      cases taken
      exact .request endpoint data rng queryRequest read queryId generated manager query enqueued
  | waitReturn query =>
    obtain ⟨endpoint, waits, taken⟩ := Option.bind_eq_some_iff.mp taken
    cases taken
    exact .waitReturn query endpoint waits
  | send l =>
    simp only [step] at taken
    split at taken
    next phase =>
      cases taken
      exact .send l phase
    · cases taken
  | accept p order =>
    simp only [step] at taken
    split at taken
    next stage =>
      split at taken
      next visits =>
        cases taken
        exact .accept p order stage visits
      · cases taken
    · cases taken
  | resolve p =>
    simp only [step] at taken
    split at taken
    next queryId response rest stage =>
      split at taken
      next absent =>
        cases taken
        exact .unknown p queryId response rest stage absent
      next query awaited =>
        cases taken
        exact .resolve p queryId response rest stage query awaited
    · cases taken
  | drain p =>
    simp only [step] at taken
    split at taken
    next stage =>
      cases taken
      exact .drain p stage
    · cases taken
  | deliver l order =>
    simp only [step] at taken
    split at taken
    next p phase =>
      split at taken
      next requests stage =>
        split at taken
        next visits =>
          cases taken
          exact .deliver l order p phase requests stage visits
        · cases taken
      · cases taken
    · cases taken
  | fail l =>
    simp only [step] at taken
    split at taken
    next p phase =>
      cases taken
      exact .fail l p phase
    · cases taken
  | lose p =>
    simp only [step] at taken
    split at taken
    next stage =>
      cases taken
      exact .loseRequest p stage
    next requests stage =>
      cases taken
      exact .loseReply p requests stage
    · cases taken
  | process l exchange =>
    simp only [step] at taken
    split at taken
    next queryId request rest phase =>
      split at taken
      next panicked =>
        cases taken
        exact .abort l exchange queryId request rest phase panicked
      next response stored =>
        cases taken
        exact .process l exchange queryId request rest phase response stored
    · cases taken
  | sleep l =>
    simp only [step] at taken
    split at taken
    next phase =>
      cases taken
      exact .sleep l phase
    · cases taken

end FullServiceMirror
