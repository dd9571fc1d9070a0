import FullServiceMirror.System.Invariant

/-!
# No stranded query

A drain moves queries on before their reply is known to arrive. As long as no
reply that carries a request is lost, every query that is handed out can be
found: in a reply, in the batch of a loop, or with its response in the map of a
loop, which is cleared only after `poll_impl` went over what it held.
-/
namespace FullServiceMirror

open Rust Json Transition

variable {L : Type}

def PollStage.inFlight : PollStage → Bool
  | .unsent => false
  | .closed => false
  | _ => true

def LoopPhase.isReady : LoopPhase → Bool
  | .ready => true
  | _ => false

/-- Every loop is between iterations and no poll is on its way. -/
structure State.Quiet (s : State L) : Prop where
  ready : ∀ l, (s.loops l).phase.isReady = true
  arrived : ∀ p, (s.polls p).stage.inFlight = false

/-- The step loses no reply that carries a request. -/
def KeepsReplies (s : State L) (a : Action L) : Prop :=
  ∀ p requests, a = .lose p → (s.polls p).stage = .replied requests →
    ∀ queryId, requests.get queryId = none

def State.IsResolved (s : State L) (q : Query) (queryId : String) : Prop :=
  ∃ ticket : QueryTicket, s.tickets[q]? = some ticket ∧ ticket.id = queryId ∧ ticket.stage = .resolved

/-! ## What a poll has done -/

/-- A loop that polls sent what it still holds, and what `poll_impl` has gone over
belongs to resolved queries. -/
structure Tracked (s : State L) : Prop where
  sends : ∀ l p, (s.loops l).phase = .polling p →
    (s.polls p).responses = (s.loops l).pendingResponses ∧ (s.polls p).origin = (s.loops l).origin
  resolving : ∀ p rest, (s.polls p).stage = .resolving rest → ∀ queryId response,
    (s.polls p).responses.get queryId = some response →
    (queryId, response) ∈ rest ∨ s.IsResolved ((s.polls p).origin queryId) queryId
  replied : ∀ p requests, (s.polls p).stage = .replied requests → ∀ queryId response,
    (s.polls p).responses.get queryId = some response →
    s.IsResolved ((s.polls p).origin queryId) queryId

/-- Once `poll_impl` has handled the poll of a loop, every query that the loop
holds a response for is resolved, whatever becomes of the reply. -/
theorem Tracked.resolved_after_poll {s : State L} (h : Tracked s) (l : L) (p : Nat)
    (polling : (s.loops l).phase = .polling p) (requests : HashMap String QueryRequest)
    (handled : (s.polls p).stage = .replied requests) (queryId : String) (response : QueryResponse)
    (held : (s.loops l).pendingResponses.get queryId = some response) :
    s.IsResolved ((s.loops l).origin queryId) queryId := by
  obtain ⟨responses, origin⟩ := h.sends l p polling
  rw [← responses] at held
  rw [← origin]
  exact h.replied p requests handled queryId response held

theorem tracked_start : Tracked (State.start : State L) where
  sends := by intro l p phase; cases phase
  resolving := by intro p rest stage; cases stage
  replied := by intro p requests stage; cases stage

/-- A step after which at most poll `p` has done more, on which the caller reports. -/
theorem Tracked.frame {s t : State L} (h : Tracked s)
    (extended : Lifecycle.Extends s.tickets t.tickets)
    (loops : ∀ l p, (t.loops l).phase = .polling p → (s.loops l).phase = .polling p ∧
      (t.loops l).pendingResponses = (s.loops l).pendingResponses ∧
      (t.loops l).origin = (s.loops l).origin)
    (p : Nat) (poll : Poll) (polls : t.polls = Function.update s.polls p poll)
    (responses : poll.responses = (s.polls p).responses) (origin : poll.origin = (s.polls p).origin)
    (resolving : ∀ rest, poll.stage = .resolving rest → ∀ queryId response,
      poll.responses.get queryId = some response →
      (queryId, response) ∈ rest ∨ t.IsResolved (poll.origin queryId) queryId)
    (replied : ∀ requests, poll.stage = .replied requests → ∀ queryId response,
      poll.responses.get queryId = some response → t.IsResolved (poll.origin queryId) queryId) :
    Tracked t where
  sends := by
    intro l p' phase
    obtain ⟨before, pending, ids⟩ := loops l p' phase
    obtain ⟨same_responses, same_origin⟩ := h.sends l p' before
    rw [polls, pending, ids]
    by_cases same : p' = p
    · subst same
      rw [Function.update_self]
      exact ⟨responses.trans same_responses, origin.trans same_origin⟩
    · rw [Function.update_of_ne same]
      exact ⟨same_responses, same_origin⟩
  resolving := by
    intro p' rest stage queryId response carried
    rw [polls] at stage carried ⊢
    by_cases same : p' = p
    · subst same
      rw [Function.update_self] at stage carried ⊢
      exact resolving rest stage queryId response carried
    · rw [Function.update_of_ne same] at stage carried ⊢
      exact (h.resolving p' rest stage queryId response carried).imp id extended.resolved
  replied := by
    intro p' requests stage queryId response carried
    rw [polls] at stage carried ⊢
    by_cases same : p' = p
    · subst same
      rw [Function.update_self] at stage carried ⊢
      exact replied requests stage queryId response carried
    · rw [Function.update_of_ne same] at stage carried ⊢
      exact extended.resolved (h.replied p' requests stage queryId response carried)

/-- A step that leaves all polls alone. -/
theorem Tracked.same_polls {s t : State L} (h : Tracked s)
    (extended : Lifecycle.Extends s.tickets t.tickets)
    (loops : ∀ l p, (t.loops l).phase = .polling p → (s.loops l).phase = .polling p ∧
      (t.loops l).pendingResponses = (s.loops l).pendingResponses ∧
      (t.loops l).origin = (s.loops l).origin)
    (polls : t.polls = s.polls) : Tracked t :=
  h.frame extended loops 0 (s.polls 0) (by rw [polls, Function.update_eq_self]) rfl rfl
    (fun rest stage queryId response carried =>
      (h.resolving 0 rest stage queryId response carried).imp id extended.resolved)
    (fun requests stage queryId response carried =>
      extended.resolved (h.replied 0 requests stage queryId response carried))

variable [DecidableEq L]
variable {fromStr : String → Except String Value} {config : L → Config}

/-- A response that is passed to `resolve_query` leaves its query resolved. -/
theorem resolved_after_resolve (s t : State L) (invariant : Invariant fromStr config s) (p : Nat)
    (taken : Step fromStr config s (.resolve p) t) (queryId : String) (response : QueryResponse)
    (rest : List (String × QueryResponse))
    (stage : (s.polls p).stage = .resolving ((queryId, response) :: rest)) :
    t.IsResolved ((s.polls p).origin queryId) queryId := by
  have extended := step_extends s t _ taken
  have carried := invariant.sourced.resolving p _ stage _ List.mem_cons_self
  obtain ⟨c, computed, origin, id, _⟩ := invariant.sourced.polls p queryId response carried
  obtain ⟨ticket, found, ticket_id, _⟩ := (invariant.sourced.computed c computed).1
  rw [origin] at found
  cases stage' : ticket.stage with
  | queued =>
    -- The query was drained before its response was computed.
    have gone := invariant.placed.computed c computed
    rw [invariant.placed.unsent c.query fun ticket' found' => ?_] at gone
    · cases gone
    · rw [origin, found] at found'
      cases found'
      exact stage'
  | resolved => exact extended.resolved ⟨ticket, found, ticket_id.trans id, stage'⟩
  | handedOut =>
    have awaited := (invariant.represented.refines.handedOut queryId _).mpr
      ⟨ticket, found, ticket_id.trans id, stage'⟩
    cases taken with
    | unknown _ queryId' response' rest' stage'' absent =>
      rw [stage] at stage''
      cases stage''
      rw [absent] at awaited
      cases awaited
    | resolve _ queryId' response' rest' stage'' query awaited' =>
      rw [stage] at stage''
      cases stage''
      rw [awaited] at awaited'
      cases awaited'
      exact ⟨ticket.resolve response,
        (Lifecycle.get_modify_iff _ _ _ _ _).mpr ⟨ticket, found, if_pos rfl⟩, ticket_id.trans id, rfl⟩

theorem tracked_resolve (s t : State L) (invariant : Invariant fromStr config s) (h : Tracked s) (p : Nat)
    (taken : Step fromStr config s (.resolve p) t) : Tracked t := by
  have extended := step_extends s t _ taken
  -- The entry at the head is resolved by this step, those after it are left to resolve.
  have worked (queryId : String) (response : QueryResponse) (rest : List (String × QueryResponse))
      (stage : (s.polls p).stage = .resolving ((queryId, response) :: rest)) (id : String)
      (r : QueryResponse) (carried : (s.polls p).responses.get id = some r) :
      (id, r) ∈ rest ∨ t.IsResolved ((s.polls p).origin id) id := by
    rcases h.resolving p _ stage id r carried with member | resolved
    · rcases List.mem_cons.mp member with now | later
      · cases now
        exact Or.inr (resolved_after_resolve s t invariant p taken queryId response rest stage)
      · exact Or.inl later
    · exact Or.inr (extended.resolved resolved)
  cases taken with
  | unknown _ queryId response rest stage absent =>
    refine h.frame extended (fun _ _ phase => ⟨phase, rfl, rfl⟩) p _ rfl rfl rfl
      (fun rest' same => ?_) nofun
    cases same
    exact worked queryId response rest stage
  | resolve _ queryId response rest stage query awaited =>
    refine h.frame extended (fun _ _ phase => ⟨phase, rfl, rfl⟩) p _ rfl rfl rfl
      (fun rest' same => ?_) nofun
    cases same
    exact worked queryId response rest stage

theorem polling_setLoop (s : State L) (l : L) (loop : Loop) (idle : ∀ p, loop.phase ≠ .polling p) (l' : L)
    (p : Nat) (phase : ((s.setLoop l loop).loops l').phase = .polling p) :
    (s.loops l').phase = .polling p ∧
      ((s.setLoop l loop).loops l').pendingResponses = (s.loops l').pendingResponses ∧
      ((s.setLoop l loop).loops l').origin = (s.loops l').origin := by
  rw [State.setLoop_loops] at phase ⊢
  by_cases same : l' = l
  · rw [same, Function.update_self] at phase
    exact absurd phase (idle p)
  · rw [Function.update_of_ne same] at phase ⊢
    exact ⟨phase, rfl, rfl⟩

theorem tracked_send (s t : State L) (represented : Represented s) (h : Tracked s) (l : L)
    (taken : Step fromStr config s (.send l) t) : Tracked t := by
  cases taken with
  | send _ phase =>
    refine ⟨fun l' p phase' => ?_, fun p rest stage => ?_, fun p requests stage => ?_⟩
    · simp only [State.setLoop_polls, State.setLoop_loops, State.setPoll_polls] at phase' ⊢
      by_cases same : l' = l
      · subst same
        rw [Function.update_self] at phase' ⊢
        cases phase'
        rw [Function.update_self]
        exact ⟨rfl, rfl⟩
      · rw [Function.update_of_ne same] at phase' ⊢
        -- The new poll is none that another loop is waiting for.
        rw [Function.update_of_ne (Nat.ne_of_lt (represented.polling l' p phase'))]
        exact h.sends l' p phase'
    · simp only [State.setLoop_polls, State.setPoll_polls] at stage ⊢
      by_cases same : p = s.sent
      · rw [same, Function.update_self] at stage
        cases stage
      · rw [Function.update_of_ne same] at stage ⊢
        exact h.resolving p rest stage
    · simp only [State.setLoop_polls, State.setPoll_polls] at stage ⊢
      by_cases same : p = s.sent
      · rw [same, Function.update_self] at stage
        cases stage
      · rw [Function.update_of_ne same] at stage ⊢
        exact h.replied p requests stage

theorem tracked_step (s t : State L) (a : Action L) (invariant : Invariant fromStr config s)
    (h : Tracked s) (taken : Step fromStr config s a t) : Tracked t := by
  have extended := step_extends s t a taken
  cases a with
  | send l => exact tracked_send s t invariant.represented h l taken
  | resolve p => exact tracked_resolve s t invariant h p taken
  | accept p order =>
    cases taken with
    | accept _ _ stage visits =>
      refine h.frame extended (fun _ _ phase => ⟨phase, rfl, rfl⟩) p _ rfl rfl rfl
        (fun rest same queryId response carried => ?_) nofun
      cases same
      exact Or.inl (visits.mem_iff.mpr ((HashMap.mem_iter_iff _ _ _).mpr carried))
  | drain p =>
    cases taken with
    | drain _ stage =>
      refine h.frame extended (fun _ _ phase => ⟨phase, rfl, rfl⟩) p _ rfl rfl rfl nofun
        (fun requests _ queryId response carried => extended.resolved ?_)
      -- The loop over the responses is at its end.
      exact (h.resolving p [] stage queryId response carried).resolve_left List.not_mem_nil
  | deliver l order =>
    cases taken with
    | deliver _ _ p phase requests stage visits =>
      exact h.frame extended (polling_setLoop s l _ nofun) p _ rfl rfl rfl nofun nofun
  | lose p =>
    cases taken <;>
      exact h.frame extended (fun _ _ phase => ⟨phase, rfl, rfl⟩) p _ rfl rfl rfl nofun nofun
  | fail l =>
    cases taken
    exact h.same_polls extended (polling_setLoop s l _ nofun) rfl
  | process l exchange =>
    cases taken <;> exact h.same_polls extended (polling_setLoop s l _ nofun) rfl
  | sleep l =>
    cases taken
    exact h.same_polls extended (polling_setLoop s l _ nofun) rfl
  | _ => cases taken <;> exact h.same_polls extended (fun _ _ phase => ⟨phase, rfl, rfl⟩) rfl

theorem reachable_tracked {allowed : State L → Action L → Prop} {s : State L}
    (reached : Reachable (step fromStr config) allowed .start s) : Tracked s := by
  refine reached.invariant Tracked tracked_start fun s a t before _ h taken => ?_
  exact tracked_step s t a (reachable_invariant before) h (step_cases s t a taken)

/-! ## Where a query is -/

/-- Where a query that was handed out under this id can be found. -/
inductive Located (s : State L) (q : Query) (queryId : String) : Prop
  | reply (p : Nat) (requests : HashMap String QueryRequest) (request : QueryRequest)
      (stage : (s.polls p).stage = .replied requests) (carried : requests.get queryId = some request)
      (stands : (s.polls p).replyOrigin queryId = q)
  | processing (l : L) (rest : List (String × QueryRequest)) (request : QueryRequest)
      (phase : (s.loops l).phase = .processing rest) (member : (queryId, request) ∈ rest)
      (stands : (s.loops l).origin queryId = q)
  | pending (l : L) (response : QueryResponse)
      (held : (s.loops l).pendingResponses.get queryId = some response)
      (stands : (s.loops l).origin queryId = q)
  | aborted (l : L) (phase : (s.loops l).phase = .aborted)

/-- No request is in the hands of a loop in this phase. -/
def LoopPhase.isEmpty : LoopPhase → Bool
  | .ready => true
  | .polling _ => true
  | .processing rest => rest.isEmpty
  | .aborted => false

omit [DecidableEq L] in
/-- A step that leaves replies and what loops hold alone. -/
theorem Located.frame {s t : State L} {q : Query} {queryId : String} (located : Located s q queryId)
    (polls : ∀ p requests, (s.polls p).stage = .replied requests → t.polls p = s.polls p)
    (loops : ∀ l, (t.loops l).pendingResponses = (s.loops l).pendingResponses ∧
      (t.loops l).origin = (s.loops l).origin ∧
      ((s.loops l).phase.isEmpty = true ∨ (t.loops l).phase = (s.loops l).phase)) :
    Located t q queryId := by
  cases located with
  | reply p requests request stage carried stands =>
    have same := polls p requests stage
    exact .reply p requests request (same ▸ stage) carried (same ▸ stands)
  | processing l rest request phase member stands =>
    obtain ⟨_, origin, empty | kept⟩ := loops l
    · rw [phase] at empty
      rw [List.isEmpty_iff.mp empty] at member
      cases member
    · exact .processing l rest request (kept.trans phase) member (origin ▸ stands)
  | pending l response held stands =>
    obtain ⟨pending, origin, _⟩ := loops l
    exact .pending l response (pending ▸ held) (origin ▸ stands)
  | aborted l phase =>
    obtain ⟨_, _, empty | kept⟩ := loops l
    · rw [phase] at empty
      cases empty
    · exact .aborted l (kept.trans phase)

omit [DecidableEq L] in
theorem setPoll_of_replied (s : State L) (p : Nat) (poll : Poll)
    (other : ∀ requests, (s.polls p).stage ≠ .replied requests) (p' : Nat)
    (requests : HashMap String QueryRequest) (stage : (s.polls p').stage = .replied requests) :
    (s.setPoll p poll).polls p' = s.polls p' := by
  have different : p' ≠ p := by
    rintro rfl
    exact other requests stage
  rw [State.setPoll_polls, Function.update_of_ne different]

theorem setLoop_of_isEmpty (s : State L) (l : L) (phase : LoopPhase)
    (empty : (s.loops l).phase.isEmpty = true) (l' : L) :
    ((s.setLoop l { s.loops l with phase }).loops l').pendingResponses =
        (s.loops l').pendingResponses ∧
      ((s.setLoop l { s.loops l with phase }).loops l').origin = (s.loops l').origin ∧
      ((s.loops l').phase.isEmpty = true ∨
        ((s.setLoop l { s.loops l with phase }).loops l').phase = (s.loops l').phase) := by
  obtain ⟨pending, origin⟩ := keeps_setLoop s l phase l'
  refine ⟨pending, origin, ?_⟩
  by_cases same : l' = l
  · exact Or.inl (same ▸ empty)
  · rw [State.setLoop_loops, Function.update_of_ne same]
    exact Or.inr rfl

/-- The map that a loop clears when a reply arrives holds only responses of resolved queries. -/
theorem located_deliver (s t : State L) (tracked : Tracked s) (l : L)
    (order : List (String × QueryRequest)) (taken : Step fromStr config s (.deliver l order) t)
    (q : Query) (queryId : String) (unresolved : ¬ s.IsResolved q queryId)
    (located : Located s q queryId) : Located t q queryId := by
  obtain ⟨p, requests, polling, replied, visits, polls, loops, _⟩ := deliver_effect s t l order taken
  cases located with
  | reply p' requests' request stage carried stands =>
    by_cases same : p' = p
    · subst same
      rw [replied] at stage
      cases stage
      refine .processing l order request ?_
        (visits.mem_iff.mpr ((HashMap.mem_iter_iff _ _ _).mpr carried)) ?_
      · rw [loops, Function.update_self]
      · rw [loops, Function.update_self]
        exact stands
    · have kept : t.polls p' = s.polls p' := by rw [polls, Function.update_of_ne same]
      exact .reply p' requests' request (kept ▸ stage) carried (kept ▸ stands)
  | processing l' rest request phase member stands =>
    have different : l' ≠ l := by
      rintro rfl
      rw [polling] at phase
      cases phase
    have kept : t.loops l' = s.loops l' := by rw [loops, Function.update_of_ne different]
    exact .processing l' rest request (kept ▸ phase) member (kept ▸ stands)
  | pending l' response held stands =>
    by_cases same : l' = l
    -- The loop clears what `poll_impl` went over, so the query would be resolved.
    · subst same
      have resolved := tracked.resolved_after_poll l' p polling requests replied queryId response held
      rw [stands] at resolved
      exact absurd resolved unresolved
    · have kept : t.loops l' = s.loops l' := by rw [loops, Function.update_of_ne same]
      exact .pending l' response (kept ▸ held) (kept ▸ stands)
  | aborted l' phase =>
    have different : l' ≠ l := by
      rintro rfl
      rw [polling] at phase
      cases phase
    exact .aborted l' (by rw [loops, Function.update_of_ne different]; exact phase)

theorem located_process (s t : State L) (l : L) (exchange : Exchange)
    (taken : Step fromStr config s (.process l exchange) t) (q : Query) (queryId : String)
    (located : Located s q queryId) : Located t q queryId := by
  cases taken with
  | abort _ _ id request rest phase panicked =>
    exact .aborted l (by simp)
  | process _ _ id request rest phase response stored =>
    cases located with
    | reply p requests request' stage carried stands =>
      exact .reply p requests request' stage carried stands
    | processing l' rest' request' phase' member stands =>
      by_cases same : l' = l
      · subst same
        rw [phase] at phase'
        cases phase'
        rcases List.mem_cons.mp member with now | later
        · -- The request that was at the head has its response in the map now.
          cases now
          exact .pending l' response (by simp) (by simpa using stands)
        · exact .processing l' rest request' (by simp) later (by simpa using stands)
      · exact .processing l' rest' request' (by simpa [same] using phase') member
          (by simpa [same] using stands)
    | pending l' response' held stands =>
      by_cases same : l' = l
      · subst same
        by_cases again : queryId = id
        · exact .pending l' response (by simp [again]) (by simpa using stands)
        · exact .pending l' response' (by simpa [again] using held) (by simpa using stands)
      · exact .pending l' response' (by simpa [same] using held) (by simpa [same] using stands)
    | aborted l' phase' =>
      have different : l' ≠ l := by
        rintro rfl
        rw [phase] at phase'
        cases phase'
      exact .aborted l' (by simpa [different] using phase')

theorem located_step (s t : State L) (a : Action L) (represented : Represented s) (tracked : Tracked s)
    (keeps : KeepsReplies s a) (taken : Step fromStr config s a t) (q : Query) (queryId : String)
    (unresolved : ¬ s.IsResolved q queryId) (located : Located s q queryId) : Located t q queryId := by
  have kept (l : L) : (s.loops l).pendingResponses = (s.loops l).pendingResponses ∧
      (s.loops l).origin = (s.loops l).origin ∧
      ((s.loops l).phase.isEmpty = true ∨ (s.loops l).phase = (s.loops l).phase) :=
    ⟨rfl, rfl, Or.inr rfl⟩
  cases a with
  | deliver l order => exact located_deliver s t tracked l order taken q queryId unresolved located
  | process l exchange => exact located_process s t l exchange taken q queryId located
  | request endpoint data rng => cases taken <;> exact located.frame (fun _ _ _ => rfl) kept
  | waitReturn query =>
    cases taken
    exact located.frame (fun _ _ _ => rfl) kept
  | send l =>
    cases taken with
    | send _ phase =>
      -- The poll is a new one, so no reply is overwritten.
      have unsent := represented.unsent s.sent (Nat.le_refl _)
      refine located.frame (setPoll_of_replied s _ _ fun requests stage => ?_)
        (setLoop_of_isEmpty s l _ (by rw [phase]; rfl))
      rw [unsent] at stage
      cases stage
  | accept p order =>
    cases taken with
    | accept _ _ stage visits =>
      exact located.frame (setPoll_of_replied s p _ (by rw [stage]; nofun)) kept
  | resolve p =>
    cases taken with
    | unknown _ id response rest stage absent =>
      exact located.frame (setPoll_of_replied s p _ (by rw [stage]; nofun)) kept
    | resolve _ id response rest stage query awaited =>
      exact located.frame (setPoll_of_replied s p _ (by rw [stage]; nofun)) kept
  | drain p =>
    cases taken with
    | drain _ stage => exact located.frame (setPoll_of_replied s p _ (by rw [stage]; nofun)) kept
  | fail l =>
    cases taken with
    | fail _ p phase =>
      exact located.frame (fun _ _ _ => rfl) (setLoop_of_isEmpty s l _ (by rw [phase]; rfl))
  | sleep l =>
    cases taken with
    | sleep _ phase =>
      exact located.frame (fun _ _ _ => rfl) (setLoop_of_isEmpty s l _ (by rw [phase]; rfl))
  | lose p =>
    cases taken with
    | loseRequest _ stage => exact located.frame (setPoll_of_replied s p _ (by rw [stage]; nofun)) kept
    | loseReply _ requests stage =>
      -- The reply that is lost carries no request, so it was not this query's place.
      cases located with
      | reply p' requests' request stage' carried stands =>
        have different : p' ≠ p := by
          rintro rfl
          rw [keeps p' requests' rfl stage' queryId] at carried
          cases carried
        have same : (s.setPoll p { s.polls p with stage := .closed }).polls p' = s.polls p' := by
          rw [State.setPoll_polls, Function.update_of_ne different]
        exact .reply p' requests' request (same ▸ stage') carried (same ▸ stands)
      | processing l rest request phase member stands =>
        exact .processing l rest request phase member stands
      | pending l response held stands => exact .pending l response held stands
      | aborted l phase => exact .aborted l phase

/-- A query that is handed out was so before the step, or the step is a drain and
its request is in the reply. -/
theorem handedOut_cases (s t : State L) (a : Action L) (represented : Represented s)
    (taken : Step fromStr config s a t) (q : Query) (ticket : QueryTicket)
    (found : t.tickets[q]? = some ticket) (stage : ticket.stage = .handedOut) :
    (∃ before : QueryTicket, s.tickets[q]? = some before ∧ before.id = ticket.id ∧
      before.stage = .handedOut) ∨ Located t q ticket.id := by
  cases a with
  | request endpoint data rng =>
    cases taken with
    | unread _ _ _ e failed => exact Or.inl ⟨ticket, found, rfl, stage⟩
    | request _ _ _ queryRequest read queryId generated manager query enqueued =>
      rcases (Lifecycle.get_enqueue_iff _ _ _ _ _).mp found with old | ⟨_, rfl⟩
      · exact Or.inl ⟨ticket, old, rfl, stage⟩
      · cases stage
  | waitReturn query =>
    cases taken with
    | waitReturn _ endpoint waits =>
      obtain ⟨before, found', rfl⟩ := (Lifecycle.get_modify_iff _ _ _ _ _).mp found
      refine Or.inl ⟨before, found', ?_⟩
      split at stage
      next same => rw [if_pos same]; exact ⟨rfl, stage⟩
      next different => rw [if_neg different]; exact ⟨rfl, stage⟩
  | resolve p =>
    cases taken with
    | unknown _ queryId response rest stage' absent => exact Or.inl ⟨ticket, found, rfl, stage⟩
    | resolve _ queryId response rest stage' query awaited =>
      obtain ⟨before, found', rfl⟩ := (Lifecycle.get_modify_iff _ _ _ _ _).mp found
      refine Or.inl ⟨before, found', ?_⟩
      split at stage
      · cases stage
      next different => rw [if_neg different]; exact ⟨rfl, stage⟩
  | drain p =>
    obtain ⟨poll, _, polls, replies, stands, _, _, _, tickets, _⟩ := drain_effect s t p taken
    rw [tickets] at found
    obtain ⟨before, found', rfl⟩ := (Lifecycle.get_handOut_iff _ _ _).mp found
    rcases (before.handOut_handedOut_iff).mp stage with queued | handedOut
    · have pending := (represented.refines.queued before.id q).mpr ⟨before, found', rfl, queued⟩
      -- What was queued is in the reply, under its id and with its own request.
      refine Or.inr (.reply p s.manager.getPendingRequests.2 (s.manager.request q) ?_ ?_ ?_)
      · rw [polls, Function.update_self, replies]
      · rw [QueryManager.getPendingRequests_reply, before.handOut_id, pending]
        rfl
      · rw [polls, Function.update_self, stands, before.handOut_id, pending, Option.getD_some]
    · exact Or.inl ⟨before, found', before.handOut_id.symm, handedOut⟩
  | _ => cases taken <;> exact Or.inl ⟨ticket, found, rfl, stage⟩

/-- Every query that is handed out can be found. -/
def State.Findable (s : State L) : Prop :=
  ∀ (q : Query) (ticket : QueryTicket), s.tickets[q]? = some ticket → ticket.stage = .handedOut →
    Located s q ticket.id

theorem reachable_findable {s : State L}
    (reached : Reachable (step fromStr config) KeepsReplies .start s) : s.Findable := by
  refine reached.invariant State.Findable (fun q ticket found => by cases found) ?_
  intro s a t before keeps located taken q ticket found stage
  have invariant := reachable_invariant before
  have moved := step_cases s t a taken
  rcases handedOut_cases s t a invariant.represented moved q ticket found stage with
    ⟨ticket', found', id, stage'⟩ | now
  · rw [← id]
    refine located_step s t a invariant.represented (reachable_tracked before) keeps moved q _ ?_
      (located q ticket' found' stage')
    rintro ⟨other, found'', _, resolved⟩
    rw [found'] at found''
    cases found''
    rw [stage'] at resolved
    cases resolved
  · exact now

/-- **No stranded query.** In every run that loses no reply with a request, when
every loop is between iterations and no poll is on its way, a query that is not
resolved waits for the next poll: its request at the public side or its response
at a loop. -/
theorem no_query_stranded (s : State L)
    (reached : Reachable (step fromStr config) KeepsReplies .start s) (quiet : s.Quiet) (q : Query)
    (ticket : QueryTicket) (found : s.tickets[q]? = some ticket) (unresolved : ticket.live) :
    s.manager.pendingRequests.get ticket.id = some q ∨
      (s.manager.pendingResponses.get ticket.id = some q ∧
        ∃ l response, (s.loops l).pendingResponses.get ticket.id = some response ∧
          s.Computed q ticket.id response) := by
  have invariant := reachable_invariant reached
  have refines := invariant.represented.refines
  cases stage : ticket.stage with
  | queued => exact Or.inl ((refines.queued ticket.id q).mpr ⟨ticket, found, rfl, stage⟩)
  | resolved => exact absurd stage unresolved
  | handedOut =>
    refine Or.inr ⟨(refines.handedOut ticket.id q).mpr ⟨ticket, found, rfl, stage⟩, ?_⟩
    -- No reply is on its way and no loop is at work, which leaves the maps of the loops.
    cases reachable_findable reached q ticket found stage with
    | reply p requests request replied carried stands =>
      have arrived := quiet.arrived p
      rw [replied] at arrived
      cases arrived
    | processing l rest request phase member stands =>
      have ready := quiet.ready l
      rw [phase] at ready
      cases ready
    | pending l response held stands =>
      obtain ⟨c, member, _, query, id, same⟩ := invariant.sourced.loops l ticket.id response held
      exact ⟨l, response, held, c, member, query.trans stands, id, same⟩
    | aborted l phase =>
      have ready := quiet.ready l
      rw [phase] at ready
      cases ready

/-- `State.Quiet` for one loop, as a test. -/
def State.isQuiet (s : State Unit) : Bool :=
  (s.loops ()).phase.isReady && (List.range s.sent).all fun p => !(s.polls p).stage.inFlight

theorem State.quiet_of_isQuiet (s : State Unit) (represented : Represented s)
    (quiet : s.isQuiet = true) : s.Quiet := by
  obtain ⟨ready, arrived⟩ := Bool.and_eq_true_iff.mp quiet
  refine ⟨fun _ => ready, fun p => ?_⟩
  by_cases sent : p < s.sent
  · have here := List.all_eq_true.mp arrived p (List.mem_range.mpr sent)
    simpa using here
  · rw [represented.unsent p (Nat.le_of_not_lt sent)]
    rfl

def Action.isLose : Action L → Bool
  | .lose _ => true
  | _ => false

/-- The step loses no message. -/
def LosesNothing (_ : State L) (a : Action L) : Prop := a.isLose = false

instance (s : State L) (a : Action L) : Decidable (LosesNothing s a) :=
  inferInstanceAs (Decidable (_ = _))

theorem no_query_stranded_roundTrip :
    ∃ s : State Unit, Reachable (step parse fun _ => {}) KeepsReplies .start s ∧ s.Quiet ∧
      ∃ ticket : QueryTicket, s.tickets[0]? = some ticket ∧ ticket.live ∧
        (s.manager.pendingRequests.get ticket.id = some 0 ∨
          (s.manager.pendingResponses.get ticket.id = some 0 ∧
            ∃ l response, (s.loops l).pendingResponses.get ticket.id = some response ∧
              s.Computed 0 ticket.id response)) := by
  obtain ⟨s, reached, holds⟩ := exists_reachable_of_run (step parse fun _ => {}) LosesNothing .start
    (roundTrip.take 7) (fun s => s.isQuiet && s.tickets[0]?.any fun ticket => ticket.live)
    (by decide +kernel)
  obtain ⟨idle, waits⟩ := Bool.and_eq_true_iff.mp holds
  obtain ⟨ticket, found, live⟩ := (Option.any_eq_true _ _).mp waits
  have keeps : Reachable (step parse fun _ => {}) KeepsReplies .start s := by
    refine reached.mono fun s a _ nothing p requests same => ?_
    subst same
    cases nothing
  have quiet := s.quiet_of_isQuiet (reachable_invariant keeps).represented idle
  have unresolved : ticket.live := of_decide_eq_true live
  exact ⟨s, keeps, quiet, ticket, found, unresolved,
    no_query_stranded s keeps quiet 0 ticket found unresolved⟩

/-- The reply that carries the only request is lost after the drain. -/
def lostReply : List (Action Unit) :=
  let jsonRequest := "\x7b\"method\": \"get_block\"\x7d"
  [.request .unencryptedRequest (.ok (asBytes jsonRequest)) [fun _ => 0],
   .send (), .accept 0 [], .drain 0, .fail (), .lose 0]

theorem query_stranded_lostReply :
    ¬ ∀ s : State Unit, Reachable (step parse fun _ => {}) Any .start s → s.Quiet →
      ∀ (q : Query) (ticket : QueryTicket), s.tickets[q]? = some ticket → ticket.live →
        s.manager.pendingRequests.get ticket.id = some q ∨
          ∃ l response, (s.loops l).pendingResponses.get ticket.id = some response := by
  intro served
  obtain ⟨s, reached, holds⟩ := exists_reachable_of_run (step parse fun _ => {}) Any .start lostReply
    (fun s => s.isQuiet && s.tickets[0]?.any fun ticket => ticket.live &&
      (s.manager.pendingRequests.get ticket.id).isNone &&
      ((s.loops ()).pendingResponses.get ticket.id).isNone)
    (by decide +kernel)
  obtain ⟨idle, waits⟩ := Bool.and_eq_true_iff.mp holds
  obtain ⟨ticket, found, holds⟩ := (Option.any_eq_true _ _).mp waits
  obtain ⟨holds, noResponse⟩ := Bool.and_eq_true_iff.mp holds
  obtain ⟨live, noRequest⟩ := Bool.and_eq_true_iff.mp holds
  have quiet := s.quiet_of_isQuiet (reachable_invariant reached).represented idle
  rcases served s reached quiet 0 ticket found (of_decide_eq_true live) with pending | ⟨l, response, held⟩
  · rw [Option.isNone_iff_eq_none.mp noRequest] at pending
    cases pending
  · rw [Option.isNone_iff_eq_none.mp noResponse] at held
    cases held

end FullServiceMirror
