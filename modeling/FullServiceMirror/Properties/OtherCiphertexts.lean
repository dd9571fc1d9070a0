import FullServiceMirror.Properties.RequestFormat
import FullServiceMirror.Properties.TamperEvidence
import FullServiceMirror.System.Step

/-!
# Runs with other ciphertexts

With mirror keys, requests and responses pass through the public side as
ciphertexts. Two runs are compared in which clients sent other ciphertexts and
the wallet service answered with other texts: all that the public side and the
network handle is the same in both, but for the bytes of ciphertexts, whose
lengths agree. What those bytes tell is left open: `private_encrypt` makes equal
blocks of equal pieces. The texts of refusals are sent in the clear, so the
private sides have to judge the two requests alike.
-/
namespace FullServiceMirror

open Rust Json Transition

variable {L : Type} (fromStr : String → Except String Value) (config : L → Config)

/-! ## Runs that look the same -/

/-- What a private side makes of either payload of a request. -/
inductive Config.SameVerdict (config : Config) (payload payload' : Bytes) : Prop
  | unkeyed (plain : config.mirrorKey = none)
  | vetted (mirrorKey : PrivateKey) (keyed : config.mirrorKey = some mirrorKey) (body body' : String)
      (decrypted : Crypto.decrypt mirrorKey payload = .ok (asBytes body))
      (vetted : validateMethod fromStr body = .ok true)
      (decrypted' : Crypto.decrypt mirrorKey payload' = .ok (asBytes body'))
      (vetted' : validateMethod fromStr body' = .ok true)
  | refused (mirrorKey : PrivateKey) (keyed : config.mirrorKey = some mirrorKey) (fault : Fault)
      (failed : Crypto.decrypt mirrorKey payload = .error fault)
      (failed' : Crypto.decrypt mirrorKey payload' = .error fault)

inductive RequestAlike : QueryRequest → QueryRequest → Prop
  | same (request : QueryRequest) : RequestAlike request request
  | sealed (payload payload' : Bytes) (length : payload.length = payload'.length)
      (verdict : ∀ l, (config l).SameVerdict fromStr payload payload') :
      RequestAlike (QueryRequest.setEncryptedRequest {} { payload })
        (QueryRequest.setEncryptedRequest {} { payload := payload' })

inductive ResponseAlike : QueryResponse → QueryResponse → Prop
  | same (response : QueryResponse) : ResponseAlike response response
  | sealed (payload payload' : Bytes) (length : payload.length = payload'.length) :
      ResponseAlike (QueryResponse.setEncryptedResponse {} { payload })
        (QueryResponse.setEncryptedResponse {} { payload := payload' })

inductive WaitedAlike : Except String QueryResponse → Except String QueryResponse → Prop
  | error (e : String) : WaitedAlike (.error e) (.error e)
  | ok (response response' : QueryResponse) (alike : ResponseAlike response response') :
      WaitedAlike (.ok response) (.ok response')

inductive HttpAlike : HttpResponse → HttpResponse → Prop
  | same (response : HttpResponse) : HttpAlike response response
  | sealed (payload payload' : Bytes) (length : payload.length = payload'.length) :
      HttpAlike { status := 200, body := payload } { status := 200, body := payload' }

structure Answer.Alike (a a' : Answer) : Prop where
  endpoint : a.endpoint = a'.endpoint
  waited : Option.Rel (fun w w' => w.1 = w'.1 ∧ WaitedAlike w.2 w'.2) a.waited a'.waited
  response : HttpAlike a.response a'.response

structure QueryManager.Alike (m m' : QueryManager) : Prop where
  pendingRequests : m.pendingRequests = m'.pendingRequests
  pendingResponses : m.pendingResponses = m'.pendingResponses
  issued : m.issued = m'.issued
  request : ∀ query, RequestAlike fromStr config (m.cells query).request (m'.cells query).request
  response : ∀ query, Option.Rel ResponseAlike (m.cells query).response (m'.cells query).response

inductive PollStage.Alike : PollStage → PollStage → Prop
  | unsent : Alike .unsent .unsent
  | requested : Alike .requested .requested
  | resolving (rest rest' : List (String × QueryResponse))
      (entries : HashMap.Entries ResponseAlike rest rest') : Alike (.resolving rest) (.resolving rest')
  | replied (requests requests' : HashMap String QueryRequest)
      (related : HashMap.Related (RequestAlike fromStr config) requests requests') :
      Alike (.replied requests) (.replied requests')
  | closed : Alike .closed .closed

structure Poll.Alike (poll poll' : Poll) : Prop where
  stage : PollStage.Alike fromStr config poll.stage poll'.stage
  responses : HashMap.Related ResponseAlike poll.responses poll'.responses

inductive LoopPhase.Alike : LoopPhase → LoopPhase → Prop
  | ready : Alike .ready .ready
  | polling (poll : Nat) : Alike (.polling poll) (.polling poll)
  | processing (rest rest' : List (String × QueryRequest))
      (entries : HashMap.Entries (RequestAlike fromStr config) rest rest') :
      Alike (.processing rest) (.processing rest')
  | aborted : Alike .aborted .aborted

structure Loop.Alike (loop loop' : Loop) : Prop where
  phase : LoopPhase.Alike fromStr config loop.phase loop'.phase
  pendingResponses : HashMap.Related ResponseAlike loop.pendingResponses loop'.pendingResponses

/-- Two states that differ in the bytes of ciphertexts only, history apart. -/
structure State.Alike (s s' : State L) : Prop where
  manager : QueryManager.Alike fromStr config s.manager s'.manager
  waiting : s.waiting = s'.waiting
  polls : ∀ p, Poll.Alike fromStr config (s.polls p) (s'.polls p)
  sent : s.sent = s'.sent
  loops : ∀ l, Loop.Alike fromStr config (s.loops l) (s'.loops l)
  answers : List.Forall₂ Answer.Alike s.answers s'.answers

/-- What comes from outside: the data of clients, and how the wallet service is reached. -/
inductive Input (L : Type) where
  | data (endpoint : Endpoint) (data : Data)
  | exchange (l : L) (exchange : Exchange)

def Action.input : Action L → Option (Input L)
  | .request endpoint data _ => some (.data endpoint data)
  | .process l exchange => some (.exchange l exchange)
  | _ => none

/-- Inputs that are to be told apart by ciphertexts only: other payloads of the
same verdict, and other texts of the same number of blocks. -/
inductive Input.Alike : Input L → Input L → Prop
  | same (input : Input L) : Alike input input
  | sealed (payload payload' : Bytes) (length : payload.length = payload'.length)
      (verdict : ∀ l, (config l).SameVerdict fromStr payload payload') :
      Alike (.data .encryptedRequest (.ok payload)) (.data .encryptedRequest (.ok payload'))
  | text (l : L) (mirrorKey : PrivateKey) (keyed : (config l).mirrorKey = some mirrorKey)
      (jsonResponse jsonResponse' : String)
      (blocks : (asBytes jsonResponse).length ⌈/⌉ (mirrorKey.size - PKCS1_PADDING_LEN) =
        (asBytes jsonResponse').length ⌈/⌉ (mirrorKey.size - PKCS1_PADDING_LEN)) :
      Alike (.exchange l (.text jsonResponse)) (.exchange l (.text jsonResponse'))

/-- The same action, on ciphertexts that may differ. -/
inductive Action.Alike : Action L → Action L → Prop
  | same (a : Action L) : Alike a a
  | request (endpoint : Endpoint) (data data' : Data) (rng : List (Fin QUERY_ID_LEN → UInt64))
      (alike : Input.Alike fromStr config (.data endpoint data) (.data endpoint data')) :
      Alike (.request endpoint data rng) (.request endpoint data' rng)
  | accept (p : Nat) (order order' : List (String × QueryResponse))
      (entries : HashMap.Entries ResponseAlike order order') : Alike (.accept p order) (.accept p order')
  | deliver (l : L) (order order' : List (String × QueryRequest))
      (entries : HashMap.Entries (RequestAlike fromStr config) order order') :
      Alike (.deliver l order) (.deliver l order')
  | process (l : L) (exchange exchange' : Exchange)
      (alike : Input.Alike fromStr config (.exchange l exchange) (.exchange l exchange')) :
      Alike (.process l exchange) (.process l exchange')

/-- Every mirror key has room for data, and a public half that works with it. -/
def Keyed : Prop := ∀ l mirrorKey, (config l).mirrorKey = some mirrorKey →
  PKCS1_PADDING_LEN < mirrorKey.size ∧ ∃ pub, Pkcs1 mirrorKey pub

variable {fromStr} {config}

/-! ## Processing a request -/

/-- Optional responses that are alike, also when there is none. -/
theorem alike_refl (stored : Option QueryResponse) : Option.Rel ResponseAlike stored stored := by
  cases stored with
  | none => exact .none
  | some response => exact .some (.same response)

/-- Texts of as many blocks are sealed to ciphertexts of the same length. -/
theorem encryptedAnswer_alike (keys : Keyed config) (l : L) (mirrorKey : PrivateKey)
    (keyed : (config l).mirrorKey = some mirrorKey) (jsonResponse jsonResponse' : String)
    (blocks : (asBytes jsonResponse).length ⌈/⌉ (mirrorKey.size - PKCS1_PADDING_LEN) =
      (asBytes jsonResponse').length ⌈/⌉ (mirrorKey.size - PKCS1_PADDING_LEN)) :
    Option.Rel ResponseAlike (unwrapOrError (encryptedAnswer mirrorKey jsonResponse))
      (unwrapOrError (encryptedAnswer mirrorKey jsonResponse')) := by
  obtain ⟨room, pub, pkcs1⟩ := keys l mirrorKey keyed
  obtain ⟨c, encrypted, length, _⟩ := private_to_client pkcs1 room (asBytes jsonResponse)
  obtain ⟨c', encrypted', length', _⟩ := private_to_client pkcs1 room (asBytes jsonResponse')
  -- With room in the key neither encryption panics.
  rw [unwrapOrError_encryptedAnswer mirrorKey jsonResponse c encrypted,
    unwrapOrError_encryptedAnswer mirrorKey jsonResponse' c' encrypted']
  exact .some (.sealed c c' (by rw [length, length', blocks]))

/-- A vetted body is answered according to the exchange alone. -/
theorem passAlong_alike (keys : Keyed config) (l : L) (exchange exchange' : Exchange)
    (alike : Input.Alike fromStr config (.exchange l exchange) (.exchange l exchange'))
    (body body' : String) (vetted : validateMethod fromStr body = .ok true)
    (vetted' : validateMethod fromStr body' = .ok true) :
    Option.Rel ResponseAlike (unwrapOrError (passAlong fromStr exchange body (config l).answer).2)
      (unwrapOrError (passAlong fromStr exchange' body' (config l).answer).2) := by
  unfold passAlong
  rw [vetted, vetted']
  cases alike with
  | same =>
    cases exchange with
    | buildFailed e => exact .some (.same _)
    | sendFailed posted e => exact .some (.same _)
    | textFailed e => exact .some (.same _)
    | text jsonResponse => exact alike_refl _
  -- Only texts that are sealed may differ, so the answer is the encrypted one.
  | text _ mirrorKey keyed jsonResponse jsonResponse' blocks =>
    simp only [Config.answer, keyed]
    exact encryptedAnswer_alike keys l mirrorKey keyed jsonResponse jsonResponse' blocks

/-- An encrypted request that a key vets is passed along. -/
theorem respond_vetted (config : Config) (mirrorKey : PrivateKey)
    (keyed : config.mirrorKey = some mirrorKey) (exchange : Exchange) (payload : Bytes) (body : String)
    (decrypted : Crypto.decrypt mirrorKey payload = .ok (asBytes body)) :
    (respond fromStr config exchange (QueryRequest.setEncryptedRequest {} { payload })).2 =
      unwrapOrError (passAlong fromStr exchange body config.answer).2 := by
  have answer : config.answer = encryptedAnswer mirrorKey := by
    funext jsonResponse
    rw [Config.answer, keyed]
  rw [respond, keyed, answer]
  simp only [processEncryptedRequest, QueryRequest.hasEncryptedRequest, QueryRequest.getEncryptedRequest,
    QueryRequest.setEncryptedRequest, decrypted, fromUtf8_asBytes]
  rfl

/-- Requests that are alike get responses that are alike. -/
theorem respond_alike (keys : Keyed config) (l : L) (exchange exchange' : Exchange)
    (alike : Input.Alike fromStr config (.exchange l exchange) (.exchange l exchange'))
    (request request' : QueryRequest) (requests : RequestAlike fromStr config request request') :
    Option.Rel ResponseAlike (respond fromStr (config l) exchange request).2
      (respond fromStr (config l) exchange' request').2 := by
  cases requests with
  | same =>
    rcases respond_cases (config l) request with ⟨e, refused⟩ | ⟨_, panicked⟩ | ⟨body, _, passed⟩
    · rw [refused, refused]
      exact alike_refl _
    · rw [panicked, panicked]
      exact alike_refl _
    · rw [passed, passed]
      cases vetted : validateMethod fromStr body with
      | error e =>
        simp only [passAlong, vetted]
        exact alike_refl _
      | ok allowed =>
        cases allowed with
        | false =>
          simp only [passAlong, vetted]
          exact alike_refl _
        | true => exact passAlong_alike keys l exchange exchange' alike body body vetted vetted
  | sealed payload payload' length verdict =>
    cases verdict l with
    | unkeyed plain =>
      -- The other kind of request is refused unread.
      simp only [respond, plain]
      exact alike_refl _
    | vetted mirrorKey keyed body body' decrypted vetted decrypted' vetted' =>
      rw [respond_vetted (config l) mirrorKey keyed exchange payload body decrypted,
        respond_vetted (config l) mirrorKey keyed exchange' payload' body' decrypted']
      exact passAlong_alike keys l exchange exchange' alike body body' vetted vetted'
    -- The same fault means the same message, or a panic in both.
    | refused mirrorKey keyed fault failed failed' =>
      simp only [respond, keyed, processEncryptedRequest, QueryRequest.hasEncryptedRequest,
        QueryRequest.getEncryptedRequest, QueryRequest.setEncryptedRequest, failed, failed']
      cases fault with
      | err e => exact alike_refl _
      | panic message => exact .none

/-- Waits that are alike lead to replies that are alike. -/
theorem reply_alike (endpoint : Endpoint) (waited waited' : Except String QueryResponse)
    (alike : WaitedAlike waited waited') : HttpAlike (endpoint.reply waited) (endpoint.reply waited') := by
  cases alike with
  | error e => exact .same _
  | ok response response' alike =>
    cases alike with
    | same => exact .same _
    | sealed payload payload' length =>
      cases endpoint with
      | unencryptedRequest => exact .same _
      | encryptedRequest => exact .sealed payload payload' length

/-! ## The manager -/

/-- Functions that are related stay so when they are updated alike. -/
theorem update_related {α β γ : Type} [DecidableEq α] {R : β → γ → Prop} {f : α → β} {f' : α → γ}
    (related : ∀ a, R (f a) (f' a)) (a : α) {value : β} {value' : γ} (alike : R value value') (a' : α) :
    R (Function.update f a value a') (Function.update f' a value' a') := by
  by_cases same : a' = a
  · rw [same, Function.update_self, Function.update_self]
    exact alike
  · rw [Function.update_of_ne same, Function.update_of_ne same]
    exact related a'

namespace QueryManager.Alike

variable {m m' : QueryManager}

theorem generateQueryId (alike : m.Alike fromStr config m') (rng : List (Fin QUERY_ID_LEN → UInt64)) :
    m.generateQueryId rng = m'.generateQueryId rng := by
  have inner : m.toQueryManagerInner = m'.toQueryManagerInner := by
    rw [QueryManagerInner.mk.injEq]
    exact ⟨alike.pendingRequests, alike.pendingResponses⟩
  rw [inner]

/-- A cell changes in both managers. -/
theorem update (alike : m.Alike fromStr config m') {inner inner' : QueryManagerInner} {issued issued' : Nat}
    (requests : inner.pendingRequests = inner'.pendingRequests)
    (responses : inner.pendingResponses = inner'.pendingResponses) (count : issued = issued')
    (query : Query) {request request' : QueryRequest} {response response' : Option QueryResponse}
    (asked : RequestAlike fromStr config request request')
    (stored : Option.Rel ResponseAlike response response') :
    QueryManager.Alike fromStr config
      { toQueryManagerInner := inner, issued,
        cells := Function.update m.cells query { request, response } }
      { toQueryManagerInner := inner', issued := issued',
        cells := Function.update m'.cells query { request := request', response := response' } } := by
  have cells (q : Query) := @update_related Query QueryInner QueryInner _
    (fun c c' => RequestAlike fromStr config c.request c'.request ∧
      Option.Rel ResponseAlike c.response c'.response) m.cells m'.cells
    (fun q => ⟨alike.request q, alike.response q⟩) query { request, response }
    { request := request', response := response' } ⟨asked, stored⟩ q
  exact ⟨requests, responses, count, fun q => (cells q).1, fun q => (cells q).2⟩

theorem enqueueQuery (alike : m.Alike fromStr config m') (rng : List (Fin QUERY_ID_LEN → UInt64))
    (request request' : QueryRequest) (asked : RequestAlike fromStr config request request')
    (n : QueryManager) (query : Query) (returned : m.enqueueQuery rng request = some (n, query)) :
    ∃ n', m'.enqueueQuery rng request' = some (n', query) ∧ n.Alike fromStr config n' := by
  obtain ⟨queryId, generated, rfl, rfl⟩ := enqueueQuery_cases m n rng request query returned
  rw [alike.generateQueryId] at generated
  refine ⟨{ pendingRequests := m'.pendingRequests.insert queryId m.issued,
            pendingResponses := m'.pendingResponses,
            issued := m'.issued + 1,
            cells := Function.update m'.cells m.issued { request := request', response := none } }, ?_, ?_⟩
  · rw [QueryManager.enqueueQuery, generated, alike.issued]
    rfl
  · apply alike.update
    · exact congrArg (fun map => map.insert queryId m.issued) alike.pendingRequests
    · exact alike.pendingResponses
    · exact congrArg (fun issued => issued + 1) alike.issued
    · exact asked
    · exact .none

theorem wait (alike : m.Alike fromStr config m') (query : Query) :
    (m.wait query).1.Alike fromStr config (m'.wait query).1 ∧
      WaitedAlike (m.wait query).2 (m'.wait query).2 := by
  have stored := alike.response query
  -- Both cells are empty or both are filled: the mixed cases contradict `stored`.
  rcases m.wait_cases query with ⟨empty, timeout⟩ | ⟨response, found, taken⟩
  · rcases m'.wait_cases query with ⟨_, timeout'⟩ | ⟨response', found', _⟩
    · rw [timeout, timeout']
      exact ⟨alike, .error _⟩
    · rw [empty, found'] at stored
      cases stored
  · rcases m'.wait_cases query with ⟨empty', _⟩ | ⟨response', found', taken'⟩
    · rw [found, empty'] at stored
      cases stored
    · rw [found, found'] at stored
      rw [taken, taken']
      cases stored with
      | some alike' =>
        refine ⟨?_, .ok response response' alike'⟩
        apply alike.update
        · exact alike.pendingRequests
        · exact alike.pendingResponses
        · exact alike.issued
        · exact alike.request query
        · exact .none

theorem resolveQuery (alike : m.Alike fromStr config m') (queryId : String)
    (response response' : QueryResponse) (responses : ResponseAlike response response') :
    (m.resolveQuery queryId response).1.Alike fromStr config (m'.resolveQuery queryId response').1 := by
  have known : m.pendingResponses.get queryId = m'.pendingResponses.get queryId := by
    rw [alike.pendingResponses]
  rcases m.resolveQuery_cases queryId response with ⟨absent, unknown⟩ | ⟨query, awaited, resolved⟩
  · rcases m'.resolveQuery_cases queryId response' with ⟨_, unknown'⟩ | ⟨query', awaited', _⟩
    · rw [unknown, unknown']
      exact alike
    · rw [absent, awaited'] at known
      cases known
  · rcases m'.resolveQuery_cases queryId response' with ⟨absent', _⟩ | ⟨query', awaited', resolved'⟩
    · rw [awaited, absent'] at known
      cases known
    · rw [awaited, awaited', Option.some.injEq] at known
      subst known
      rw [resolved, resolved']
      apply alike.update
      · exact alike.pendingRequests
      · exact congrArg (fun map => map.remove queryId) alike.pendingResponses
      · exact alike.issued
      · exact alike.request query
      · exact .some responses

theorem getPendingRequests (alike : m.Alike fromStr config m') :
    m.getPendingRequests.1.Alike fromStr config m'.getPendingRequests.1 ∧
      HashMap.Related (RequestAlike fromStr config) m.getPendingRequests.2 m'.getPendingRequests.2 := by
  constructor
  · refine ⟨rfl, ?_, alike.issued, alike.request, alike.response⟩
    dsimp only [QueryManager.getPendingRequests, drainLoop]
    rw [drainLoop_eq, drainLoop_eq, alike.pendingRequests, alike.pendingResponses]
  · dsimp only [QueryManager.getPendingRequests, drainLoop]
    rw [drainLoop_eq, drainLoop_eq, alike.pendingRequests]
    exact HashMap.related_new.foldl_insert _ _ _ fun e _ => alike.request e.2

end QueryManager.Alike

/-! ## Steps -/

variable {s s' : State L}

theorem State.Alike.stage (alike : s.Alike fromStr config s') (p : Nat) {stage : PollStage}
    (at_p : (s.polls p).stage = stage) : PollStage.Alike fromStr config stage (s'.polls p).stage := by
  rw [← at_p]
  exact (alike.polls p).stage

theorem State.Alike.phase (alike : s.Alike fromStr config s') (l : L) {phase : LoopPhase}
    (at_l : (s.loops l).phase = phase) : LoopPhase.Alike fromStr config phase (s'.loops l).phase := by
  rw [← at_l]
  exact (alike.loops l).phase

/-- A poll that resolves a response resolves the like of it under the same id. -/
theorem State.Alike.resolving (alike : s.Alike fromStr config s') (p : Nat) {queryId : String}
    {response : QueryResponse} {rest : List (String × QueryResponse)}
    (stage : (s.polls p).stage = .resolving ((queryId, response) :: rest)) :
    ∃ response' rest', (s'.polls p).stage = .resolving ((queryId, response') :: rest') ∧
      ResponseAlike response response' ∧ HashMap.Entries ResponseAlike rest rest' := by
  have stage' := alike.stage p stage
  generalize (s'.polls p).stage = other at stage' ⊢
  cases stage' with
  | resolving _ entries' entries =>
    obtain ⟨⟨_, response'⟩, rest', ⟨rfl, responses⟩, others, rfl⟩ := List.forall₂_cons_left_iff.mp entries
    exact ⟨response', rest', rfl, responses, others⟩

/-- A loop that processes a request processes the like of it under the same id. -/
theorem State.Alike.processing (alike : s.Alike fromStr config s') (l : L) {queryId : String}
    {request : QueryRequest} {rest : List (String × QueryRequest)}
    (phase : (s.loops l).phase = .processing ((queryId, request) :: rest)) :
    ∃ request' rest', (s'.loops l).phase = .processing ((queryId, request') :: rest') ∧
      RequestAlike fromStr config request request' ∧
      HashMap.Entries (RequestAlike fromStr config) rest rest' := by
  have phase' := alike.phase l phase
  generalize (s'.loops l).phase = other at phase' ⊢
  cases phase' with
  | processing _ entries' entries =>
    obtain ⟨⟨_, request'⟩, rest', ⟨rfl, asked⟩, others, rfl⟩ := List.forall₂_cons_left_iff.mp entries
    exact ⟨request', rest', rfl, asked, others⟩

theorem State.Alike.answer (alike : s.Alike fromStr config s') {a a' : Answer} (same : a.Alike a') :
    List.Forall₂ Answer.Alike (s.answers ++ [a]) (s'.answers ++ [a']) :=
  List.rel_append alike.answers (.cons same .nil)

/-- Data that a handler reads is read in the other run as well. -/
theorem readRequest_alike (endpoint : Endpoint) (data : Data) (i' : Input L)
    (alike : Input.Alike fromStr config (.data endpoint data) i') :
    ∃ data', i' = .data endpoint data' ∧
      ((∃ e, endpoint.readRequest data = .error e ∧ endpoint.readRequest data' = .error e) ∨
        ∃ request request', endpoint.readRequest data = .ok request ∧
          endpoint.readRequest data' = .ok request' ∧ RequestAlike fromStr config request request') := by
  cases alike with
  | same =>
    refine ⟨data, rfl, ?_⟩
    cases read : endpoint.readRequest data with
    | error e => exact Or.inl ⟨e, rfl, rfl⟩
    | ok request => exact Or.inr ⟨request, request, rfl, rfl, .same request⟩
  | sealed payload payload' length verdict =>
    exact ⟨_, rfl, Or.inr ⟨_, _, rfl, rfl, .sealed payload payload' length verdict⟩⟩

variable [DecidableEq L]

/-- A client's request is received in both runs. -/
theorem follow_request (endpoint : Endpoint) (data : Data) (rng : List (Fin QUERY_ID_LEN → UInt64))
    (t : State L) (taken : step fromStr config s (.request endpoint data rng) = some t)
    (alike : s.Alike fromStr config s') (i' : Input L)
    (other : Input.Alike fromStr config (.data endpoint data) i') :
    ∃ data' t', i' = .data endpoint data' ∧
      step fromStr config s' (.request endpoint data' rng) = some t' ∧ t.Alike fromStr config t' := by
  obtain ⟨data', rfl, ⟨e, failed, failed'⟩ | ⟨queryRequest, queryRequest', read, read', asked⟩⟩ :=
    readRequest_alike endpoint data i' other
  · simp only [step, failed, Option.some.injEq] at taken
    subst taken
    refine ⟨data', { s' with answers := s'.answers ++
      [{ endpoint, waited := none, response := e.respondTo }] }, rfl, by simp only [step, failed'], ?_⟩
    exact { alike with answers := alike.answer ⟨rfl, .none, .same _⟩ }
  · simp only [step, read] at taken
    obtain ⟨queryId, generated, taken⟩ := Option.bind_eq_some_iff.mp taken
    obtain ⟨⟨manager, query⟩, enqueued, taken⟩ := Option.bind_eq_some_iff.mp taken
    cases taken
    obtain ⟨manager', enqueued', managers⟩ :=
      alike.manager.enqueueQuery rng queryRequest queryRequest' asked manager query enqueued
    rw [alike.manager.generateQueryId] at generated
    refine ⟨data', { s' with
      manager := manager'
      waiting := Function.update s'.waiting query (some endpoint)
      tickets := s'.tickets.enqueue queryId queryRequest' }, rfl, ?_, ?_⟩
    · simp only [step, read', generated, enqueued']
      rfl
    · exact { alike with
        manager := managers
        waiting := congrArg (fun waiting => Function.update waiting query (some endpoint)) alike.waiting }

/-- A request is processed in both runs. -/
theorem follow_process (keys : Keyed config) (l : L) (exchange : Exchange) (t : State L)
    (taken : step fromStr config s (.process l exchange) = some t) (alike : s.Alike fromStr config s')
    (i' : Input L) (other : Input.Alike fromStr config (.exchange l exchange) i') :
    ∃ exchange' t', i' = .exchange l exchange' ∧
      step fromStr config s' (.process l exchange') = some t' ∧ t.Alike fromStr config t' := by
  obtain ⟨exchange', rfl⟩ : ∃ exchange', i' = .exchange l exchange' := by
    cases other <;> exact ⟨_, rfl⟩
  have taken := step_cases s t _ taken
  cases taken with
  | abort _ _ queryId request rest phase panicked =>
    obtain ⟨request', rest', phase', asked, _⟩ := alike.processing l phase
    have stored := respond_alike keys l exchange exchange' other request request' asked
    rw [panicked] at stored
    -- What panics in one run panics in the other.
    have panicked' : (respond fromStr (config l) exchange' request').2 = none := by
      generalize (respond fromStr (config l) exchange' request').2 = result at stored
      cases stored
      rfl
    refine ⟨exchange', _, rfl, by simp only [step, phase', panicked']; rfl, ?_⟩
    exact { alike with
      loops := update_related alike.loops l ⟨.aborted, (alike.loops l).pendingResponses⟩ }
  | process _ _ queryId request rest phase response computed =>
    obtain ⟨request', rest', phase', asked, others⟩ := alike.processing l phase
    have stored := respond_alike keys l exchange exchange' other request request' asked
    rw [computed] at stored
    obtain ⟨response', computed', responses⟩ : ∃ response',
        (respond fromStr (config l) exchange' request').2 = some response' ∧
          ResponseAlike response response' := by
      generalize (respond fromStr (config l) exchange' request').2 = result at stored
      cases stored with
      | some responses => exact ⟨_, rfl, responses⟩
    refine ⟨exchange', _, rfl, by simp only [step, phase', computed']; rfl, ?_⟩
    have inserted := (alike.loops l).pendingResponses.insert queryId responses
    exact { alike with loops := update_related alike.loops l ⟨.processing rest rest' others, inserted⟩ }

/-- A step without input is taken in both runs. -/
theorem follow_internal (a : Action L) (internal : a.input = none) (t : State L)
    (taken : step fromStr config s a = some t) (alike : s.Alike fromStr config s') :
    ∃ a' t', step fromStr config s' a' = some t' ∧ a'.input = none ∧ a.Alike fromStr config a' ∧
      t.Alike fromStr config t' := by
  have taken := step_cases s t a taken
  cases taken with
  -- These have inputs.
  | unread | request | abort | process => cases internal
  | waitReturn query endpoint waits =>
    obtain ⟨managers, waited⟩ := alike.manager.wait query
    rw [alike.waiting] at waits
    refine ⟨_, _, by rw [step, waits]; rfl, rfl, .same (.waitReturn query), ?_⟩
    exact { alike with
      manager := managers
      waiting := congrArg (fun waiting => Function.update waiting query none) alike.waiting
      answers := alike.answer ⟨rfl, .some ⟨rfl, waited⟩, reply_alike endpoint _ _ waited⟩ }
  | send l phase =>
    have phase' := alike.phase l phase
    generalize found : (s'.loops l).phase = other at phase'
    cases phase'
    refine ⟨_, _, by simp only [step, found]; rfl, rfl, .same (.send l), ?_⟩
    have responses := (alike.loops l).pendingResponses
    rw [← alike.sent]
    exact { alike with
      polls := update_related alike.polls s.sent ⟨.requested, responses⟩
      loops := update_related alike.loops l ⟨.polling s.sent, responses⟩
      sent := rfl }
  | accept p order stage visits =>
    have stage' := alike.stage p stage
    generalize found : (s'.polls p).stage = other at stage'
    cases stage'
    -- The map of the other poll can be visited in the order that matches.
    obtain ⟨order', visits', entries⟩ := (alike.polls p).responses.visits order visits
    refine ⟨_, _, by simp only [step, found, if_pos visits']; rfl, rfl, .accept p order order' entries, ?_⟩
    exact { alike with
      polls := update_related alike.polls p ⟨.resolving order order' entries, (alike.polls p).responses⟩ }
  | unknown p queryId response rest stage absent =>
    obtain ⟨response', rest', stage', responses, others⟩ := alike.resolving p stage
    rw [alike.manager.pendingResponses] at absent
    refine ⟨_, _, by simp only [step, stage', absent]; rfl, rfl, .same (.resolve p), ?_⟩
    exact { alike with
      manager := alike.manager.resolveQuery queryId response response' responses
      polls := update_related alike.polls p ⟨.resolving rest rest' others, (alike.polls p).responses⟩ }
  | resolve p queryId response rest stage query awaited =>
    obtain ⟨response', rest', stage', responses, others⟩ := alike.resolving p stage
    -- The ids in the maps are the same, so the same query is resolved.
    rw [alike.manager.pendingResponses] at awaited
    refine ⟨_, _, by simp only [step, stage', awaited]; rfl, rfl, .same (.resolve p), ?_⟩
    exact { alike with
      manager := alike.manager.resolveQuery queryId response response' responses
      polls := update_related alike.polls p ⟨.resolving rest rest' others, (alike.polls p).responses⟩ }
  | drain p stage =>
    have stage' := alike.stage p stage
    generalize found : (s'.polls p).stage = other at stage'
    cases stage' with
    | resolving _ rest' entries =>
      -- Nothing is left to resolve in either poll.
      cases entries
      obtain ⟨managers, requests⟩ := alike.manager.getPendingRequests
      refine ⟨_, _, by simp only [step, found]; rfl, rfl, .same (.drain p), ?_⟩
      exact { alike with
        manager := managers
        polls := update_related alike.polls p ⟨.replied _ _ requests, (alike.polls p).responses⟩ }
  | deliver l order p phase requests stage visits =>
    have phase' := alike.phase l phase
    generalize found : (s'.loops l).phase = other at phase'
    cases phase'
    have stage' := alike.stage p stage
    generalize replied : (s'.polls p).stage = other at stage'
    cases stage' with
    | replied _ requests' related =>
      -- As with the responses, the order of the other map is chosen to match.
      obtain ⟨order', visits', entries⟩ := related.visits order visits
      refine ⟨_, _, by simp only [step, found, replied, if_pos visits']; rfl, rfl,
        .deliver l order order' entries, ?_⟩
      exact { alike with
        polls := update_related alike.polls p ⟨.closed, (alike.polls p).responses⟩
        loops := update_related alike.loops l ⟨.processing order order' entries, HashMap.related_new⟩ }
  | fail l p phase =>
    have phase' := alike.phase l phase
    generalize found : (s'.loops l).phase = other at phase'
    cases phase'
    refine ⟨_, _, by simp only [step, found]; rfl, rfl, .same (.fail l), ?_⟩
    exact { alike with loops := update_related alike.loops l ⟨.ready, (alike.loops l).pendingResponses⟩ }
  | loseRequest p stage =>
    have stage' := alike.stage p stage
    generalize found : (s'.polls p).stage = other at stage'
    cases stage'
    refine ⟨_, _, by simp only [step, found]; rfl, rfl, .same (.lose p), ?_⟩
    exact { alike with polls := update_related alike.polls p ⟨.closed, (alike.polls p).responses⟩ }
  | loseReply p requests stage =>
    have stage' := alike.stage p stage
    generalize found : (s'.polls p).stage = other at stage'
    cases stage'
    refine ⟨_, _, by simp only [step, found]; rfl, rfl, .same (.lose p), ?_⟩
    exact { alike with polls := update_related alike.polls p ⟨.closed, (alike.polls p).responses⟩ }
  | sleep l phase =>
    have phase' := alike.phase l phase
    generalize found : (s'.loops l).phase = other at phase'
    cases phase' with
    | processing _ rest' entries =>
      cases entries
      refine ⟨_, _, by simp only [step, found]; rfl, rfl, .same (.sleep l), ?_⟩
      exact { alike with loops := update_related alike.loops l ⟨.ready, (alike.loops l).pendingResponses⟩ }

/-- Every step can be followed with other inputs. -/
theorem follow (keys : Keyed config) (s : State L) (a : Action L) (t s' : State L) (i' : Option (Input L))
    (taken : step fromStr config s a = some t) (alike : s.Alike fromStr config s')
    (other : Option.Rel (Input.Alike fromStr config) a.input i') :
    ∃ a' t', step fromStr config s' a' = some t' ∧ a'.input = i' ∧ a.Alike fromStr config a' ∧
      t.Alike fromStr config t' := by
  cases a with
  | request endpoint data rng =>
    cases other with
    | some other =>
      obtain ⟨data', t', rfl, taken', alike'⟩ := follow_request endpoint data rng t taken alike _ other
      exact ⟨_, t', taken', rfl, .request endpoint data data' rng other, alike'⟩
  | process l exchange =>
    cases other with
    | some other =>
      obtain ⟨exchange', t', rfl, taken', alike'⟩ := follow_process keys l exchange t taken alike _ other
      exact ⟨_, t', taken', rfl, .process l exchange exchange' other, alike'⟩
  | _ =>
    cases other
    exact follow_internal _ rfl t taken alike

omit [DecidableEq L] in
theorem alike_start : (State.start : State L).Alike fromStr config .start where
  manager := ⟨rfl, rfl, rfl, fun _ => .same _, fun _ => .none⟩
  waiting := rfl
  polls _ := ⟨.unsent, HashMap.related_new⟩
  sent := rfl
  loops _ := ⟨.ready, HashMap.related_new⟩
  answers := .nil

/-- **A run with other ciphertexts.** Whatever happens in a run, the same can
happen with other encrypted requests of the same lengths and the same verdicts,
and with other texts of the wallet service of as many blocks: the ids, the
messages, their order, the maps, the errors and the replies to the clients are
the same but for the bytes of ciphertexts. -/
theorem run_with_other_ciphertexts (keys : Keyed config) (labels : List (Action L)) (s : State L)
    (path : Path (step fromStr config) Any .start labels s) (inputs' : List (Input L))
    (others : List.Forall₂ (Input.Alike fromStr config) (labels.filterMap Action.input) inputs') :
    ∃ labels' s', Path (step fromStr config) Any .start labels' s' ∧
      labels'.filterMap Action.input = inputs' ∧
      List.Forall₂ (Action.Alike fromStr config) labels labels' ∧ s.Alike fromStr config s' :=
  path.simulated Action.input Action.input (follow keys) alike_start inputs' others

/-- The wallet's text in the run below, and another one of one block. -/
def smallText : String := "\x7b\"balance\": \"1000\"\x7d"

def otherText : String := "\x7b\"balance\": \"2\", \"pending\": \"7\"\x7d"

/-- Another request than that of the run. -/
def otherPayload : Bytes :=
  (ExampleClient.encrypt largePublicKey 512 (fun _ => [])
    (asBytes "\x7b\"method\": \"get_account\"\x7d")).toOption.getD []

theorem run_with_other_ciphertexts_encryptedAnswered :
    ∃ s labels' s', Path (step parse fun _ : Unit => { mirrorKey := some largePrivateKey }) Any .start
        (encryptedAnswered smallText) s ∧
      Path (step parse fun _ : Unit => { mirrorKey := some largePrivateKey }) Any .start labels' s' ∧
      labels'.filterMap Action.input =
        [.data .encryptedRequest (.ok otherPayload), .exchange () (.text otherText)] ∧
      List.Forall₂ (Action.Alike parse fun _ => { mirrorKey := some largePrivateKey })
        (encryptedAnswered smallText) labels' ∧
      s.Alike parse (fun _ => { mirrorKey := some largePrivateKey }) s' := by
  have keys : Keyed fun _ : Unit => { mirrorKey := some largePrivateKey } := by
    intro _ mirrorKey keyed
    obtain rfl : largePrivateKey = mirrorKey := Option.some.inj keyed
    exact ⟨by decide +kernel, largePublicKey, pkcs1_ofRsa largeKey _ (by decide +kernel)⟩
  have enabled : (run (step parse fun _ : Unit => { mirrorKey := some largePrivateKey }) Any .start
      (encryptedAnswered smallText)).isSome = true := by decide +kernel
  obtain ⟨s, taken⟩ := Option.isSome_iff_exists.mp enabled
  have path := path_of_run (encryptedAnswered smallText) State.start s taken
  -- Both requests are vetted, and both texts take one block.
  have others : List.Forall₂ (Input.Alike parse fun _ : Unit => { mirrorKey := some largePrivateKey })
      ((encryptedAnswered smallText).filterMap Action.input)
      [.data .encryptedRequest (.ok otherPayload), .exchange () (.text otherText)] := by
    refine .cons ?_ (.cons ?_ .nil)
    · refine .sealed requestPayload otherPayload (by decide +kernel) fun _ => ?_
      exact .vetted largePrivateKey rfl "\x7b\"method\": \"get_block\"\x7d"
        "\x7b\"method\": \"get_account\"\x7d" (by decide +kernel) (by decide +kernel)
        (by decide +kernel) (by decide +kernel)
    · exact .text () largePrivateKey rfl smallText otherText (by decide +kernel)
  obtain ⟨labels', s', path', inputs, actions, alike⟩ := run_with_other_ciphertexts keys _ s path _ others
  exact ⟨s, labels', s', path, path', inputs, actions, alike⟩

end FullServiceMirror
