import FullServiceMirror.System.Step

/-!
# Invariants of the system

Three invariants, each preserved by every step. `Represented`: the manager
represents the recorded lives of the queries. `Placed`: every request is in one
place, wherever it is visible. `Sourced`: every response in the system was
computed from the request of the query it is recorded for, under that query's id.
-/
namespace FullServiceMirror

open Rust Json Transition

variable {L : Type}

/-! ## The manager -/

structure Represented (s : State L) : Prop where
  refines : Refines s.manager s.tickets
  waiting : ∀ q endpoint, s.waiting q = some endpoint → q < s.tickets.length
  unsent : ∀ p, s.sent ≤ p → (s.polls p).stage = .unsent
  polling : ∀ l p, (s.loops l).phase = .polling p → p < s.sent

theorem Represented.sent_of_stage {s : State L} (h : Represented s) (p : Nat)
    (stage : (s.polls p).stage ≠ .unsent) : p < s.sent := by
  by_contra beyond
  exact stage (h.unsent p (Nat.le_of_not_lt beyond))

theorem represented_start : Represented (State.start : State L) where
  refines := .default
  waiting := by intro q endpoint waits; cases waits
  unsent := by intro p _; rfl
  polling := by intro l p phase; cases phase

/-- Polls that were not sent stay so when a poll that was sent moves on. -/
theorem Represented.unsent_setPoll {s : State L} (h : Represented s) (p : Nat) (poll : Poll)
    {current : PollStage} (stage : (s.polls p).stage = current) (started : current ≠ .unsent)
    (p' : Nat) (beyond : s.sent ≤ p') : ((s.setPoll p poll).polls p').stage = .unsent := by
  have sent := h.sent_of_stage p (stage ▸ started)
  exact s.setPoll_stage p poll (fun p' stage => s.sent ≤ p' → stage = .unsent)
    (fun beyond => absurd sent (Nat.not_lt.mpr beyond)) h.unsent p' beyond

variable [DecidableEq L]

/-- A loop that is not polling does not break the bound on the polls of loops. -/
theorem Represented.polling_setLoop {s : State L} (h : Represented s) (l : L) (loop : Loop)
    (idle : ∀ p, loop.phase = .polling p → p < s.sent) (l' : L) (p : Nat)
    (phase : ((s.setLoop l loop).loops l').phase = .polling p) : p < s.sent := by
  rw [State.setLoop_loops] at phase
  by_cases same : l' = l
  · subst same
    rw [Function.update_self] at phase
    exact idle p phase
  · rw [Function.update_of_ne same] at phase
    exact h.polling l' p phase

variable {fromStr : String → Except String Value} {config : L → Config}

theorem represented_step (s t : State L) (a : Action L) (h : Represented s)
    (taken : Step fromStr config s a t) : Represented t := by
  cases taken with
  | unread endpoint data rng e failed => exact ⟨h.refines, h.waiting, h.unsent, h.polling⟩
  | request endpoint data rng queryRequest read queryId generated manager query enqueued =>
    -- The id that the manager used is the one that the ticket was given.
    obtain ⟨id, generated', rfl, refines⟩ :=
      h.refines.enqueueQuery rng queryRequest manager query enqueued
    rw [generated] at generated'
    cases generated'
    refine ⟨refines, fun q e waits => ?_, h.unsent, h.polling⟩
    have length : List.length (s.tickets.enqueue queryId queryRequest) = List.length s.tickets + 1 := by
      simp [Lifecycle.enqueue]
    simp only at waits
    rw [length]
    by_cases new : q = s.tickets.length
    · rw [new]
      exact Nat.lt_succ_self _
    · rw [Function.update_of_ne new] at waits
      exact Nat.lt_succ_of_lt (h.waiting q e waits)
  | waitReturn query endpoint waits =>
    refine ⟨h.refines.wait query (h.waiting query endpoint waits), fun q e waits' => ?_,
      h.unsent, h.polling⟩
    have length : (s.tickets.take query).length = s.tickets.length := by simp [Lifecycle.take]
    dsimp only at waits' ⊢
    rw [length]
    by_cases same : q = query
    · rw [same, Function.update_self] at waits'
      cases waits'
    · rw [Function.update_of_ne same] at waits'
      exact h.waiting q e waits'
  | send l phase =>
    refine ⟨h.refines, h.waiting, fun p beyond => ?_, fun l' p phase' => ?_⟩
    · have different : p ≠ s.sent := Nat.ne_of_gt beyond
      simp only [State.setLoop, State.setPoll, Function.update_of_ne different]
      exact h.unsent p (Nat.le_of_succ_le beyond)
    · by_cases same : l' = l
      · simp only [State.setLoop, same, Function.update_self] at phase'
        cases phase'
        exact Nat.lt_succ_self _
      · simp only [State.setLoop, State.setPoll, Function.update_of_ne same] at phase'
        exact Nat.lt_succ_of_lt (h.polling l' p phase')
  | accept p order stage visits =>
    exact ⟨h.refines, h.waiting, h.unsent_setPoll p _ stage (by simp), h.polling⟩
  | unknown p queryId response rest stage absent =>
    exact ⟨h.refines.resolveQuery_unknown queryId response absent, h.waiting,
      h.unsent_setPoll p _ stage (by simp), h.polling⟩
  | resolve p queryId response rest stage query awaited =>
    refine ⟨h.refines.resolveQuery queryId response query awaited, fun q e waits => ?_,
      h.unsent_setPoll p _ stage (by simp), h.polling⟩
    simpa [Lifecycle.resolve] using h.waiting q e waits
  | drain p stage =>
    refine ⟨h.refines.getPendingRequests, fun q e waits => ?_, h.unsent_setPoll p _ stage (by simp), h.polling⟩
    simpa [Lifecycle.handOut] using h.waiting q e waits
  | deliver l order p phase requests stage visits =>
    exact ⟨h.refines, h.waiting, h.unsent_setPoll p _ stage (by simp),
      h.polling_setLoop l _ (fun p' polls => by cases polls)⟩
  | fail l p phase =>
    exact ⟨h.refines, h.waiting, h.unsent, h.polling_setLoop l _ (fun p' polls => by cases polls)⟩
  | loseRequest p stage =>
    exact ⟨h.refines, h.waiting, h.unsent_setPoll p _ stage (by simp), h.polling⟩
  | loseReply p requests stage =>
    exact ⟨h.refines, h.waiting, h.unsent_setPoll p _ stage (by simp), h.polling⟩
  | abort l exchange queryId request rest phase panicked =>
    exact ⟨h.refines, h.waiting, h.unsent, h.polling_setLoop l _ (fun p' polls => by cases polls)⟩
  | process l exchange queryId request rest phase response stored =>
    exact ⟨h.refines, h.waiting, h.unsent, h.polling_setLoop l _ (fun p' polls => by cases polls)⟩
  | sleep l phase =>
    exact ⟨h.refines, h.waiting, h.unsent, h.polling_setLoop l _ (fun p' polls => by cases polls)⟩

theorem step_extends (s t : State L) (a : Action L) (taken : Step fromStr config s a t) :
    Lifecycle.Extends s.tickets t.tickets := by
  cases taken with
  | request => exact Lifecycle.extends_enqueue _ _ _
  | waitReturn => exact Lifecycle.extends_take _ _
  | resolve => exact Lifecycle.extends_resolve _ _ _
  | drain => exact Lifecycle.extends_handOut _
  | _ => exact .refl _

/-! ## The place of a request -/

/-- No ticket of the query has left the queue, if there is one at all. -/
def State.Unsent (s : State L) (q : Query) : Prop :=
  ∀ t : QueryTicket, s.tickets[q]? = some t → t.stage = .queued

/-- The query was enqueued under this id with this request. -/
def State.Names (s : State L) (q : Query) (queryId : String) (request : QueryRequest) : Prop :=
  ∃ t : QueryTicket, s.tickets[q]? = some t ∧ t.id = queryId ∧ t.request = request

omit [DecidableEq L] in
theorem State.Unsent.of_extends {s t : State L} (extended : Lifecycle.Extends s.tickets t.tickets)
    {q : Query} (unsent : t.Unsent q) : s.Unsent q :=
  extended.queued unsent

omit [DecidableEq L] in
theorem State.Names.mono {s t : State L} (extended : Lifecycle.Extends s.tickets t.tickets)
    {q : Query} {queryId : String} {request : QueryRequest} (names : s.Names q queryId request) :
    t.Names q queryId request := by
  obtain ⟨ticket, found, rfl, rfl⟩ := names
  obtain ⟨ticket', found', id, request, _⟩ := extended q ticket found
  exact ⟨ticket', found', id, request⟩

structure Placed (s : State L) : Prop where
  unsent : ∀ q, s.Unsent q → s.place q = .manager
  replied : ∀ p requests, (s.polls p).stage = .replied requests → ∀ queryId request,
    requests.get queryId = some request → s.place ((s.polls p).replyOrigin queryId) = .reply p ∧
      s.Names ((s.polls p).replyOrigin queryId) queryId request
  processing : ∀ l rest, (s.loops l).phase = .processing rest → (rest.map Prod.fst).Nodup ∧
    ∀ e ∈ rest, s.place ((s.loops l).origin e.1) = .loop l ∧ s.Names ((s.loops l).origin e.1) e.1 e.2
  computed : ∀ c ∈ s.computed, s.place c.query = .gone
  posts : ∀ post ∈ s.posts, s.place post.query = .gone
  once : (s.posts.map (·.query)).Nodup

omit [DecidableEq L] in
theorem placed_start : Placed (State.start : State L) where
  unsent := by intro q _; rfl
  replied := by intro p requests stage; cases stage
  processing := by intro l rest phase; cases phase
  computed := by intro c member; cases member
  posts := by intro post member; cases member
  once := List.nodup_nil

omit [DecidableEq L] in
/-- A step that moves no request and adds none to a reply or a loop. -/
theorem Placed.frame {s t : State L} (h : Placed s)
    (extended : Lifecycle.Extends s.tickets t.tickets) (place : t.place = s.place)
    (computed : t.computed = s.computed) (posts : t.posts = s.posts)
    (replied : ∀ p requests, (t.polls p).stage = .replied requests →
      (s.polls p).stage = .replied requests ∧ (t.polls p).replyOrigin = (s.polls p).replyOrigin)
    (processing : ∀ l rest, (t.loops l).phase = .processing rest →
      (s.loops l).phase = .processing rest ∧ (t.loops l).origin = (s.loops l).origin) : Placed t where
  unsent := by
    intro q unsent
    rw [place]
    exact h.unsent q (unsent.of_extends extended)
  replied := by
    intro p requests stage queryId request carried
    obtain ⟨stage', origin⟩ := replied p requests stage
    rw [place, origin]
    obtain ⟨placed, names⟩ := h.replied p requests stage' queryId request carried
    exact ⟨placed, names.mono extended⟩
  processing := by
    intro l rest phase
    obtain ⟨phase', origin⟩ := processing l rest phase
    rw [place, origin]
    obtain ⟨unique, entries⟩ := h.processing l rest phase'
    exact ⟨unique, fun e member => ⟨(entries e member).1, (entries e member).2.mono extended⟩⟩
  computed := by rw [place, computed]; exact h.computed
  posts := by rw [place, posts]; exact h.posts
  once := by rw [posts]; exact h.once

omit [DecidableEq L] in
theorem replied_setPoll (s : State L) (p : Nat) (poll : Poll)
    (other : ∀ requests, poll.stage ≠ .replied requests) (p' : Nat)
    (requests : HashMap String QueryRequest)
    (stage : ((s.setPoll p poll).polls p').stage = .replied requests) :
    (s.polls p').stage = .replied requests ∧
      ((s.setPoll p poll).polls p').replyOrigin = (s.polls p').replyOrigin := by
  rw [State.setPoll_polls] at stage ⊢
  by_cases same : p' = p
  · rw [same, Function.update_self] at stage
    exact absurd stage (other requests)
  · rw [Function.update_of_ne same] at stage ⊢
    exact ⟨stage, rfl⟩

theorem processing_setLoop (s : State L) (l : L) (loop : Loop)
    (other : ∀ rest, loop.phase ≠ .processing rest) (l' : L) (rest : List (String × QueryRequest))
    (phase : ((s.setLoop l loop).loops l').phase = .processing rest) :
    (s.loops l').phase = .processing rest ∧
      ((s.setLoop l loop).loops l').origin = (s.loops l').origin := by
  rw [State.setLoop_loops] at phase ⊢
  by_cases same : l' = l
  · rw [same, Function.update_self] at phase
    exact absurd phase (other rest)
  · rw [Function.update_of_ne same] at phase ⊢
    exact ⟨phase, rfl⟩

omit [DecidableEq L] in
/-- The queries whose requests a drain hands out are the queued ones. -/
theorem drained_iff {s : State L} (h : Represented s) (q : Query) :
    s.manager.pendingRequests.iter.any (fun e => e.2 = q) = true ↔
      ∃ t : QueryTicket, s.tickets[q]? = some t ∧ t.stage = .queued := by
  rw [List.any_eq_true]
  constructor
  · rintro ⟨⟨queryId, q'⟩, member, same⟩
    have equal : q' = q := of_decide_eq_true same
    subst equal
    obtain ⟨t, found, _, stage⟩ :=
      (h.refines.queued queryId q').mp ((HashMap.mem_iter_iff _ _ _).mp member)
    exact ⟨t, found, stage⟩
  · rintro ⟨t, found, stage⟩
    have pending := (h.refines.queued t.id q).mpr ⟨t, found, rfl, stage⟩
    exact ⟨(t.id, q), (HashMap.mem_iter_iff _ _ _).mpr pending, decide_eq_true rfl⟩

/-- What a drain changes. -/
theorem drain_effect (s t : State L) (p : Nat) (taken : Step fromStr config s (.drain p) t) :
    ∃ poll : Poll, (s.polls p).stage = .resolving [] ∧
    t.polls = Function.update s.polls p poll ∧
    poll.stage = .replied s.manager.getPendingRequests.2 ∧
    (∀ queryId, poll.replyOrigin queryId = (s.manager.pendingRequests.get queryId).getD 0) ∧
    poll.responses = (s.polls p).responses ∧ poll.origin = (s.polls p).origin ∧
    t.loops = s.loops ∧ t.tickets = s.tickets.handOut ∧
    (∀ q, t.place q = if s.manager.pendingRequests.iter.any (fun e => e.2 = q) then .reply p
      else s.place q) ∧
    t.computed = s.computed ∧ t.posts = s.posts ∧ t.resolved = s.resolved := by
  cases taken with
  | drain _ stage =>
    exact ⟨_, stage, rfl, rfl, fun _ => rfl, rfl, rfl, rfl, rfl, fun _ => rfl, rfl, rfl, rfl⟩

theorem placed_drain (s t : State L) (represented : Represented s) (h : Placed s) (p : Nat)
    (taken : Step fromStr config s (.drain p) t) : Placed t := by
  have extended := step_extends s t _ taken
  obtain ⟨poll, _, polls, replies, stands, _, _, loops, tickets, place, computed, posts, _⟩ :=
    drain_effect s t p taken
  have drained (q : Query) (ticket : QueryTicket) (found : s.tickets[q]? = some ticket)
      (queued : ticket.stage = .queued) : t.place q = .reply p := by
    rw [place]
    exact if_pos ((drained_iff represented q).mpr ⟨ticket, found, queued⟩)
  -- A request that has left the manager before is not drained again.
  have stays (q : Query) (left : ∀ ticket : QueryTicket, s.tickets[q]? = some ticket →
      ticket.stage ≠ .queued) : t.place q = s.place q := by
    rw [place]
    refine if_neg fun drained => ?_
    obtain ⟨ticket, found, queued⟩ := (drained_iff represented q).mp drained
    exact left ticket found queued
  have left (q : Query) (elsewhere : s.place q ≠ .manager) (ticket : QueryTicket)
      (found : s.tickets[q]? = some ticket) : ticket.stage ≠ .queued := by
    intro queued
    refine elsewhere (h.unsent q fun ticket' found' => ?_)
    rw [found] at found'
    cases found'
    exact queued
  have keeps (q : Query) (here : Place L) (elsewhere : here ≠ .manager) (placed : s.place q = here) :
      t.place q = here := by
    rw [stays q (left q (placed ▸ elsewhere)), placed]
  refine ⟨fun q unsent => ?_, fun p' requests stage queryId request carried => ?_,
    fun l rest phase => ?_, fun c member => ?_, fun post member => ?_, posts ▸ h.once⟩
  -- After the drain no ticket is queued, so a query that has none left the queue has no ticket.
  · have absent (ticket : QueryTicket) : s.tickets[q]? ≠ some ticket := by
      intro found
      refine ticket.handOut_queued (unsent _ ?_)
      rw [tickets, Lifecycle.get_handOut_iff]
      exact ⟨ticket, found, rfl⟩
    rw [stays q fun ticket found => absurd found (absent ticket)]
    exact h.unsent q fun ticket found => absurd found (absent ticket)
  · rw [polls] at stage ⊢
    by_cases same : p' = p
    · subst same
      rw [Function.update_self] at stage ⊢
      rw [replies] at stage
      cases stage
      rw [QueryManager.getPendingRequests_reply, Option.map_eq_some_iff] at carried
      obtain ⟨q, pending, rfl⟩ := carried
      obtain ⟨ticket, found, rfl, queued⟩ := (represented.refines.queued queryId q).mp pending
      rw [stands, pending, Option.getD_some]
      refine ⟨drained q ticket found queued, State.Names.mono extended ⟨ticket, found, rfl, ?_⟩⟩
      rw [QueryManager.request, represented.refines.cells q ticket found]
    · rw [Function.update_of_ne same] at stage ⊢
      obtain ⟨placed, names⟩ := h.replied p' requests stage queryId request carried
      exact ⟨keeps _ _ (by simp) placed, names.mono extended⟩
  · rw [loops] at phase ⊢
    obtain ⟨unique, entries⟩ := h.processing l rest phase
    refine ⟨unique, fun e member => ?_⟩
    obtain ⟨placed, names⟩ := entries e member
    exact ⟨keeps _ _ (by simp) placed, names.mono extended⟩
  · rw [computed] at member
    exact keeps _ _ (by simp) (h.computed c member)
  · rw [posts] at member
    exact keeps _ _ (by simp) (h.posts post member)

/-- What the arrival of a reply changes. -/
theorem deliver_effect (s t : State L) (l : L) (order : List (String × QueryRequest))
    (taken : Step fromStr config s (.deliver l order) t) : ∃ p requests,
    (s.loops l).phase = .polling p ∧ (s.polls p).stage = .replied requests ∧
    order.Perm requests.iter ∧
    t.polls = Function.update s.polls p { s.polls p with stage := .closed } ∧
    t.loops = Function.update s.loops l { phase := .processing order, pendingResponses := .new,
                                          origin := (s.polls p).replyOrigin } ∧
    t.tickets = s.tickets ∧
    (∀ q, t.place q = if s.place q = .reply p then .loop l else s.place q) ∧
    t.computed = s.computed ∧ t.posts = s.posts ∧ t.resolved = s.resolved := by
  cases taken with
  | deliver _ _ p phase requests stage visits =>
    exact ⟨p, requests, phase, stage, visits, rfl, rfl, rfl, fun _ => rfl, rfl, rfl, rfl⟩

theorem placed_deliver (s t : State L) (h : Placed s) (l : L) (order : List (String × QueryRequest))
    (taken : Step fromStr config s (.deliver l order) t) : Placed t := by
  have extended := step_extends s t _ taken
  obtain ⟨p, requests, phase, stage, visits, polls, loops, tickets, place, computed, posts, _⟩ :=
    deliver_effect s t l order taken
  -- Only the queries in this reply move, to the loop that it is delivered to.
  have keeps (q : Query) (here : Place L) (elsewhere : here ≠ .reply p) (placed : s.place q = here) :
      t.place q = here := by
    rw [place]
    exact (if_neg (placed ▸ elsewhere)).trans placed
  refine ⟨fun q unsent => keeps q _ (by simp) (h.unsent q (unsent.of_extends extended)),
    fun p' requests' stage' queryId request carried => ?_, fun l' rest phase' => ?_,
    fun c member => ?_, fun post member => ?_, posts ▸ h.once⟩
  · rw [polls] at stage' ⊢
    by_cases same : p' = p
    · rw [same, Function.update_self] at stage'
      cases stage'
    · rw [Function.update_of_ne same] at stage' ⊢
      obtain ⟨placed, names⟩ := h.replied p' requests' stage' queryId request carried
      refine ⟨keeps _ _ (fun equal => ?_) placed, names.mono extended⟩
      cases equal
      exact same rfl
  · rw [loops] at phase' ⊢
    by_cases same : l' = l
    · subst same
      rw [Function.update_self] at phase' ⊢
      cases phase'
      refine ⟨(visits.map Prod.fst).nodup_iff.mpr requests.iter_keys_nodup, fun e member => ?_⟩
      have carried := (HashMap.mem_iter_iff requests e.1 e.2).mp (visits.mem_iff.mp member)
      obtain ⟨placed, names⟩ := h.replied p requests stage e.1 e.2 carried
      refine ⟨?_, names.mono extended⟩
      rw [place]
      exact if_pos placed
    · rw [Function.update_of_ne same] at phase' ⊢
      obtain ⟨unique, entries⟩ := h.processing l' rest phase'
      refine ⟨unique, fun e member => ?_⟩
      obtain ⟨placed, names⟩ := entries e member
      exact ⟨keeps _ _ (by simp) placed, names.mono extended⟩
  · rw [computed] at member
    exact keeps _ _ (by simp) (h.computed c member)
  · rw [posts] at member
    exact keeps _ _ (by simp) (h.posts post member)

/-- What the processing of a request changes, whether it ends well or in a panic. -/
theorem process_effect (s t : State L) (l : L) (exchange : Exchange)
    (taken : Step fromStr config s (.process l exchange) t) : ∃ queryId request rest loop,
    (s.loops l).phase = .processing ((queryId, request) :: rest) ∧
    t.loops = Function.update s.loops l loop ∧ loop.origin = (s.loops l).origin ∧
    (∀ remaining, loop.phase = .processing remaining → remaining = rest) ∧
    t.polls = s.polls ∧ t.tickets = s.tickets ∧
    t.place = Function.update s.place ((s.loops l).origin queryId) .gone ∧
    t.posts = s.posts ++ (respond fromStr (config l) exchange request).1.map
      (fun body => ⟨l, (s.loops l).origin queryId, body⟩) ∧
    t.resolved = s.resolved ∧ t.answers = s.answers ∧
    ((t.computed = s.computed ∧ loop.pendingResponses = (s.loops l).pendingResponses) ∨
      ∃ response, (respond fromStr (config l) exchange request).2 = some response ∧
        t.computed = s.computed ++
          [⟨l, exchange, (s.loops l).origin queryId, queryId, request, response⟩] ∧
        loop.pendingResponses = (s.loops l).pendingResponses.insert queryId response) := by
  cases taken with
  | abort _ _ queryId request rest phase panicked =>
    exact ⟨queryId, request, rest, _, phase, rfl, rfl, nofun, rfl, rfl, rfl, rfl, rfl, rfl,
      Or.inl ⟨rfl, rfl⟩⟩
  | process _ _ queryId request rest phase response stored =>
    refine ⟨queryId, request, rest, _, phase, rfl, rfl, fun remaining same => ?_, rfl, rfl, rfl, rfl,
      rfl, rfl, Or.inr ⟨response, stored, rfl, rfl⟩⟩
    cases same
    rfl

theorem placed_process (s t : State L) (h : Placed s) (l : L) (exchange : Exchange)
    (taken : Step fromStr config s (.process l exchange) t) : Placed t := by
  have extended := step_extends s t _ taken
  obtain ⟨queryId, request, rest, loop, phase, loops, origin, remains, polls, tickets, place, posts,
    _, _, computed⟩ := process_effect s t l exchange taken
  obtain ⟨unique, entries⟩ := h.processing l _ phase
  obtain ⟨here, named⟩ := entries _ List.mem_cons_self
  simp only [List.map_cons, List.nodup_cons] at unique
  have processed : t.place ((s.loops l).origin queryId) = .gone := by rw [place, Function.update_self]
  have keeps (q : Query) (there : Place L) (elsewhere : there ≠ .loop l) (placed : s.place q = there) :
      t.place q = there := by
    have different : q ≠ (s.loops l).origin queryId := by
      rintro rfl
      exact elsewhere (placed.symm.trans here)
    rw [place, Function.update_of_ne different, placed]
  have gone (q : Query) (before : s.place q = .gone) : t.place q = .gone := keeps q _ (by simp) before
  refine ⟨fun q unsent => keeps q _ (by simp) (h.unsent q (unsent.of_extends extended)),
    fun p requests stage queryId' request' carried => ?_, fun l' rest' phase' => ?_,
    fun c member => ?_, fun post member => ?_, ?_⟩
  · rw [polls] at stage ⊢
    obtain ⟨placed, names⟩ := h.replied p requests stage queryId' request' carried
    exact ⟨keeps _ _ (by simp) placed, names.mono extended⟩
  · rw [loops] at phase' ⊢
    by_cases same : l' = l
    · subst same
      rw [Function.update_self] at phase' ⊢
      cases remains rest' phase'
      refine ⟨unique.2, fun e member => ?_⟩
      obtain ⟨placed, names⟩ := entries e (List.mem_cons_of_mem _ member)
      rw [origin]
      refine ⟨?_, names.mono extended⟩
      -- Another id of the same reply stands for another query.
      have different : (s.loops l').origin e.1 ≠ (s.loops l').origin queryId := by
        intro equal
        obtain ⟨ticket, found, id, _⟩ := names
        obtain ⟨ticket', found', id', _⟩ := named
        rw [equal, found'] at found
        cases found
        exact unique.1 (List.mem_map.mpr ⟨e, member, id.symm.trans id'⟩)
      rw [place, Function.update_of_ne different, placed]
    -- The requests of another loop are at another place.
    · rw [Function.update_of_ne same] at phase' ⊢
      obtain ⟨unique', entries'⟩ := h.processing l' rest' phase'
      refine ⟨unique', fun e member => ?_⟩
      obtain ⟨placed, names⟩ := entries' e member
      refine ⟨keeps _ _ (fun equal => ?_) placed, names.mono extended⟩
      cases equal
      exact same rfl
  · rcases computed with ⟨computed, _⟩ | ⟨response, _, computed, _⟩
    · rw [computed] at member
      exact gone _ (h.computed c member)
    · rw [computed, List.mem_append, List.mem_singleton] at member
      rcases member with earlier | rfl
      · exact gone _ (h.computed c earlier)
      · exact processed
  · rw [posts, List.mem_append] at member
    rcases member with earlier | now
    · exact gone _ (h.posts post earlier)
    · obtain ⟨body, _, rfl⟩ := List.mem_map.mp now
      exact processed
  -- A query POSTed before is gone, and this one was with the loop until now.
  · rw [posts, List.map_append, List.nodup_append]
    refine ⟨h.once, ?_, ?_⟩
    · rcases @respond_posts fromStr (config l) exchange request with none | ⟨body, one, _⟩
      · rw [none]
        exact List.nodup_nil
      · rw [one]
        exact List.nodup_singleton _
    · intro q before q' now same
      obtain ⟨post, member, rfl⟩ := List.mem_map.mp before
      obtain ⟨post', member', rfl⟩ := List.mem_map.mp now
      obtain ⟨body, _, rfl⟩ := List.mem_map.mp member'
      have gone_before := h.posts post member
      rw [same, here] at gone_before
      cases gone_before

theorem placed_step (s t : State L) (a : Action L) (represented : Represented s) (h : Placed s)
    (taken : Step fromStr config s a t) : Placed t := by
  have extended := step_extends s t a taken
  cases a with
  | drain p => exact placed_drain s t represented h p taken
  | deliver l order => exact placed_deliver s t h l order taken
  | process l exchange => exact placed_process s t h l exchange taken
  | request endpoint data rng =>
    cases taken <;>
      exact h.frame extended rfl rfl rfl (fun _ _ stage => ⟨stage, rfl⟩) fun _ _ phase => ⟨phase, rfl⟩
  | waitReturn query =>
    cases taken
    exact h.frame extended rfl rfl rfl (fun _ _ stage => ⟨stage, rfl⟩) fun _ _ phase => ⟨phase, rfl⟩
  | send l =>
    cases taken
    exact h.frame extended rfl rfl rfl (replied_setPoll s _ _ nofun) (processing_setLoop s l _ nofun)
  | fail l =>
    cases taken
    exact h.frame extended rfl rfl rfl (fun _ _ stage => ⟨stage, rfl⟩) (processing_setLoop s l _ nofun)
  | sleep l =>
    cases taken
    exact h.frame extended rfl rfl rfl (fun _ _ stage => ⟨stage, rfl⟩) (processing_setLoop s l _ nofun)
  | accept p order =>
    cases taken
    exact h.frame extended rfl rfl rfl (replied_setPoll s _ _ nofun) fun _ _ phase => ⟨phase, rfl⟩
  | resolve p =>
    cases taken <;>
      exact h.frame extended rfl rfl rfl (replied_setPoll s _ _ nofun) fun _ _ phase => ⟨phase, rfl⟩
  | lose p =>
    cases taken <;>
      exact h.frame extended rfl rfl rfl (replied_setPoll s _ _ nofun) fun _ _ phase => ⟨phase, rfl⟩

/-! ## The source of a response -/

/-- A response was computed for a query that was handed out under this id. -/
def State.Computed (s : State L) (q : Query) (queryId : String) (response : QueryResponse) : Prop :=
  ∃ c ∈ s.computed, c.query = q ∧ c.queryId = queryId ∧ c.response = response

omit [DecidableEq L] in
theorem State.Computed.mono {s t : State L} (kept : s.computed ⊆ t.computed) {q : Query}
    {queryId : String} {response : QueryResponse} (computed : s.Computed q queryId response) :
    t.Computed q queryId response := by
  obtain ⟨c, member, rest⟩ := computed
  exact ⟨c, kept member, rest⟩

variable (fromStr config) in
structure Sourced (s : State L) : Prop where
  computed : ∀ c ∈ s.computed, s.Names c.query c.queryId c.request ∧
    (respond fromStr (config c.l) c.exchange c.request).2 = some c.response
  loops : ∀ l queryId response, (s.loops l).pendingResponses.get queryId = some response →
    ∃ c ∈ s.computed, c.l = l ∧ c.query = (s.loops l).origin queryId ∧ c.queryId = queryId ∧
      c.response = response
  polls : ∀ p queryId response, (s.polls p).responses.get queryId = some response →
    s.Computed ((s.polls p).origin queryId) queryId response
  resolving : ∀ p rest, (s.polls p).stage = .resolving rest → ∀ e ∈ rest,
    (s.polls p).responses.get e.1 = some e.2

omit [DecidableEq L] in
theorem sourced_start : Sourced fromStr config (State.start : State L) where
  computed := by intro c member; cases member
  loops := by intro l queryId response pending; cases pending
  polls := by intro p queryId response carried; cases carried
  resolving := by intro p rest stage; cases stage

omit [DecidableEq L] in
/-- A step that computes nothing and leaves all maps of responses alone. -/
theorem Sourced.frame {s t : State L} (h : Sourced fromStr config s)
    (extended : Lifecycle.Extends s.tickets t.tickets) (computed : t.computed = s.computed)
    (loops : ∀ l, (t.loops l).pendingResponses = (s.loops l).pendingResponses ∧
      (t.loops l).origin = (s.loops l).origin)
    (polls : ∀ p, (t.polls p).responses = (s.polls p).responses ∧
      (t.polls p).origin = (s.polls p).origin)
    (resolving : ∀ p rest, (t.polls p).stage = .resolving rest → ∀ e ∈ rest,
      (s.polls p).responses.get e.1 = some e.2) : Sourced fromStr config t where
  computed := by
    intro c member
    rw [computed] at member
    exact ⟨(h.computed c member).1.mono extended, (h.computed c member).2⟩
  loops := by
    intro l queryId response pending
    rw [(loops l).1] at pending
    rw [computed, (loops l).2]
    exact h.loops l queryId response pending
  polls := by
    intro p queryId response carried
    rw [(polls p).1] at carried
    rw [(polls p).2]
    exact (h.polls p queryId response carried).mono (by rw [computed]; exact List.Subset.refl _)
  resolving := by
    intro p rest stage e member
    rw [(polls p).1]
    exact resolving p rest stage e member

omit [DecidableEq L] in
theorem carries_setPoll (s : State L) (p : Nat) (poll : Poll)
    (responses : poll.responses = (s.polls p).responses) (origin : poll.origin = (s.polls p).origin)
    (p' : Nat) : ((s.setPoll p poll).polls p').responses = (s.polls p').responses ∧
      ((s.setPoll p poll).polls p').origin = (s.polls p').origin := by
  rw [State.setPoll_polls]
  by_cases same : p' = p
  · subst same
    rw [Function.update_self]
    exact ⟨responses, origin⟩
  · rw [Function.update_of_ne same]
    exact ⟨rfl, rfl⟩

theorem keeps_setLoop (s : State L) (l : L) (phase : LoopPhase) (l' : L) :
    ((s.setLoop l { s.loops l with phase }).loops l').pendingResponses =
        (s.loops l').pendingResponses ∧
      ((s.setLoop l { s.loops l with phase }).loops l').origin = (s.loops l').origin := by
  rw [State.setLoop_loops]
  by_cases same : l' = l
  · subst same
    rw [Function.update_self]
    exact ⟨rfl, rfl⟩
  · rw [Function.update_of_ne same]
    exact ⟨rfl, rfl⟩

omit [DecidableEq L] in
/-- The polls that are being resolved after one of them moved on. -/
theorem Sourced.resolving_setPoll {s : State L} (h : Sourced fromStr config s) (p : Nat) (poll : Poll)
    (moved : ∀ rest, poll.stage = .resolving rest → ∀ e ∈ rest,
      (s.polls p).responses.get e.1 = some e.2) (p' : Nat) (rest : List (String × QueryResponse))
    (stage : ((s.setPoll p poll).polls p').stage = .resolving rest) :
    ∀ e ∈ rest, (s.polls p').responses.get e.1 = some e.2 :=
  s.setPoll_stage p poll (fun p' stage => ∀ rest, stage = .resolving rest → ∀ e ∈ rest,
    (s.polls p').responses.get e.1 = some e.2) moved h.resolving p' rest stage

theorem sourced_send (s t : State L) (h : Sourced fromStr config s) (l : L)
    (taken : Step fromStr config s (.send l) t) : Sourced fromStr config t := by
  cases taken with
  | send _ phase =>
    refine ⟨h.computed, fun l' queryId response pending => ?_, fun p queryId response carried => ?_,
      fun p rest stage => ?_⟩
    · have kept := keeps_setLoop s l (.polling s.sent) l'
      obtain ⟨c, member, by_l, query, rest⟩ := h.loops l' queryId response (kept.1 ▸ pending)
      exact ⟨c, member, by_l, query.trans (congrFun kept.2 queryId).symm, rest⟩
    · simp only [State.setLoop_polls, State.setPoll_polls] at carried ⊢
      by_cases same : p = s.sent
      -- The new poll carries what the loop had pending.
      · rw [same, Function.update_self] at carried ⊢
        obtain ⟨c, member, _, rest⟩ := h.loops l queryId response carried
        exact ⟨c, member, rest⟩
      · rw [Function.update_of_ne same] at carried ⊢
        exact h.polls p queryId response carried
    · simp only [State.setLoop_polls, State.setPoll_polls] at stage ⊢
      by_cases same : p = s.sent
      · rw [same, Function.update_self] at stage
        cases stage
      · rw [Function.update_of_ne same] at stage ⊢
        exact h.resolving p rest stage

theorem sourced_deliver (s t : State L) (h : Sourced fromStr config s) (l : L)
    (order : List (String × QueryRequest)) (taken : Step fromStr config s (.deliver l order) t) :
    Sourced fromStr config t := by
  have extended := step_extends s t _ taken
  obtain ⟨p, requests, _, stage, _, polls, loops, _, _, computed, _, _⟩ :=
    deliver_effect s t l order taken
  have carries (p' : Nat) : (t.polls p').responses = (s.polls p').responses ∧
      (t.polls p').origin = (s.polls p').origin := by
    rw [polls]
    exact carries_setPoll s p { s.polls p with stage := .closed } rfl rfl p'
  refine ⟨fun c member => ?_, fun l' queryId response pending => ?_, fun p' queryId response carried => ?_,
    fun p' rest stage' e member => ?_⟩
  · rw [computed] at member
    exact ⟨(h.computed c member).1.mono extended, (h.computed c member).2⟩
  · rw [loops] at pending ⊢
    by_cases same : l' = l
    -- The loop starts its next batch with an empty map.
    · rw [same, Function.update_self, HashMap.get_new] at pending
      cases pending
    · rw [Function.update_of_ne same] at pending ⊢
      rw [computed]
      exact h.loops l' queryId response pending
  · rw [(carries p').1] at carried
    rw [(carries p').2]
    exact (h.polls p' queryId response carried).mono (by rw [computed]; exact List.Subset.refl _)
  · rw [(carries p').1]
    rw [polls] at stage'
    exact h.resolving_setPoll p { s.polls p with stage := .closed } nofun p' rest stage' e member

theorem sourced_process (s t : State L) (placed : Placed s) (h : Sourced fromStr config s) (l : L)
    (exchange : Exchange) (taken : Step fromStr config s (.process l exchange) t) :
    Sourced fromStr config t := by
  have extended := step_extends s t _ taken
  obtain ⟨queryId, request, rest, loop, phase, loops, origin, _, polls, _, _, _, _, _, computed⟩ :=
    process_effect s t l exchange taken
  -- A panic computes nothing; otherwise one response is appended.
  have kept : s.computed ⊆ t.computed := by
    rcases computed with ⟨computed, _⟩ | ⟨response, _, computed, _⟩ <;> rw [computed]
    · exact List.Subset.refl _
    · exact List.subset_append_left _ _
  refine ⟨fun c member => ?_, fun l' queryId' response' pending => ?_,
    fun p queryId' response' carried => ?_, fun p rest' stage => ?_⟩
  · have old (earlier : c ∈ s.computed) : t.Names c.query c.queryId c.request ∧
        (respond fromStr (config c.l) c.exchange c.request).2 = some c.response :=
      ⟨(h.computed c earlier).1.mono extended, (h.computed c earlier).2⟩
    rcases computed with ⟨computed, _⟩ | ⟨response, stored, computed, _⟩
    · rw [computed] at member
      exact old member
    · rw [computed, List.mem_append, List.mem_singleton] at member
      rcases member with earlier | rfl
      · exact old earlier
      · have names := ((placed.processing l _ phase).2 _ List.mem_cons_self).2
        exact ⟨names.mono extended, stored⟩
  · rw [loops] at pending ⊢
    have old (earlier : (s.loops l').pendingResponses.get queryId' = some response') :
        ∃ c ∈ t.computed, c.l = l' ∧ c.query = (s.loops l').origin queryId' ∧ c.queryId = queryId' ∧
          c.response = response' := by
      obtain ⟨c, member, rest⟩ := h.loops l' queryId' response' earlier
      exact ⟨c, kept member, rest⟩
    by_cases same : l' = l
    · subst same
      rw [Function.update_self] at pending ⊢
      rw [origin]
      rcases computed with ⟨_, unchanged⟩ | ⟨response, _, computed, inserted⟩
      · rw [unchanged] at pending
        exact old pending
      · rw [inserted, HashMap.get_insert] at pending
        split at pending
        next now =>
          cases pending
          subst now
          exact ⟨_, by rw [computed]; exact List.mem_append_right _ List.mem_cons_self, rfl, rfl, rfl, rfl⟩
        · exact old pending
    · rw [Function.update_of_ne same] at pending ⊢
      exact old pending
  · rw [polls] at carried ⊢
    exact (h.polls p queryId' response' carried).mono kept
  · rw [polls] at stage ⊢
    exact h.resolving p rest' stage

theorem sourced_step (s t : State L) (a : Action L) (placed : Placed s) (h : Sourced fromStr config s)
    (taken : Step fromStr config s a t) : Sourced fromStr config t := by
  have extended := step_extends s t a taken
  cases a with
  | send l => exact sourced_send s t h l taken
  | deliver l order => exact sourced_deliver s t h l order taken
  | process l exchange => exact sourced_process s t placed h l exchange taken
  | request endpoint data rng =>
    cases taken <;>
      exact h.frame extended rfl (fun _ => ⟨rfl, rfl⟩) (fun _ => ⟨rfl, rfl⟩) h.resolving
  | waitReturn query =>
    cases taken
    exact h.frame extended rfl (fun _ => ⟨rfl, rfl⟩) (fun _ => ⟨rfl, rfl⟩) h.resolving
  | accept p order =>
    cases taken with
    | accept _ _ stage visits =>
      refine h.frame extended rfl (fun _ => ⟨rfl, rfl⟩) (carries_setPoll s p _ rfl rfl)
        (h.resolving_setPoll p _ fun rest same e member => ?_)
      -- The entries to resolve are those of the map that the poll carries.
      cases same
      exact (HashMap.mem_iter_iff _ _ _).mp (visits.mem_iff.mp member)
  | resolve p =>
    cases taken with
    | unknown _ queryId response rest stage absent =>
      refine h.frame extended rfl (fun _ => ⟨rfl, rfl⟩) (carries_setPoll s p _ rfl rfl)
        (h.resolving_setPoll p _ fun rest' same e member => ?_)
      cases same
      exact h.resolving p _ stage e (List.mem_cons_of_mem _ member)
    | resolve _ queryId response rest stage query awaited =>
      refine h.frame extended rfl (fun _ => ⟨rfl, rfl⟩) (carries_setPoll s p _ rfl rfl)
        (h.resolving_setPoll p _ fun rest' same e member => ?_)
      cases same
      exact h.resolving p _ stage e (List.mem_cons_of_mem _ member)
  | drain p =>
    cases taken
    exact h.frame extended rfl (fun _ => ⟨rfl, rfl⟩) (carries_setPoll s p _ rfl rfl)
      (h.resolving_setPoll p _ nofun)
  | lose p =>
    cases taken <;>
      exact h.frame extended rfl (fun _ => ⟨rfl, rfl⟩) (carries_setPoll s p _ rfl rfl)
        (h.resolving_setPoll p _ nofun)
  | fail l =>
    cases taken
    exact h.frame extended rfl (keeps_setLoop s l _) (fun _ => ⟨rfl, rfl⟩) h.resolving
  | sleep l =>
    cases taken
    exact h.frame extended rfl (keeps_setLoop s l _) (fun _ => ⟨rfl, rfl⟩) h.resolving

/-! ## The answer of a client -/

structure Answered (s : State L) : Prop where
  resolved : ∀ x ∈ s.resolved, s.Computed x.origin x.queryId x.response ∧
    ∃ ticket : QueryTicket, s.tickets[x.query]? = some ticket ∧ ticket.id = x.queryId ∧
      ticket.stage = .resolved
  once : (s.resolved.map (·.query)).Nodup
  stored : ∀ (q : Query) (ticket : QueryTicket) response, s.tickets[q]? = some ticket →
    ticket.response = some response → ∃ x ∈ s.resolved, x.query = q ∧ x.response = response
  answers : ∀ a ∈ s.answers, ∀ q waited, a.waited = some (q, waited) →
    a.response = a.endpoint.reply waited ∧
      ∀ response, waited = .ok response → ∃ x ∈ s.resolved, x.query = q ∧ x.response = response
  unread : ∀ a ∈ s.answers, a.waited = none → a.response.status = 400

omit [DecidableEq L] in
theorem answered_start : Answered (State.start : State L) where
  resolved := by intro x member; cases member
  once := List.nodup_nil
  stored := by intro q ticket response found; cases found
  answers := by intro a member; cases member
  unread := by intro a member; cases member

omit [DecidableEq L] in
/-- A step that resolves and answers nothing. -/
theorem Answered.frame {s t : State L} (h : Answered s)
    (extended : Lifecycle.Extends s.tickets t.tickets) (kept : s.computed ⊆ t.computed)
    (resolved : t.resolved = s.resolved) (answers : t.answers = s.answers)
    (responses : ∀ (q : Query) (ticket : QueryTicket) response, t.tickets[q]? = some ticket →
      ticket.response = some response → ∃ ticket' : QueryTicket, s.tickets[q]? = some ticket' ∧
        ticket'.response = some response) : Answered t where
  resolved := by
    intro x member
    rw [resolved] at member
    exact ⟨(h.resolved x member).1.mono kept, extended.resolved (h.resolved x member).2⟩
  once := by rw [resolved]; exact h.once
  stored := by
    intro q ticket response found has
    obtain ⟨ticket', found', has'⟩ := responses q ticket response found has
    rw [resolved]
    exact h.stored q ticket' response found' has'
  answers := by rw [answers, resolved]; exact h.answers
  unread := by rw [answers]; exact h.unread

theorem answered_waitReturn (s t : State L) (represented : Represented s) (h : Answered s) (query : Query)
    (taken : Step fromStr config s (.waitReturn query) t) : Answered t := by
  have extended := step_extends s t _ taken
  cases taken with
  | waitReturn _ endpoint waits =>
    refine ⟨fun x member => ⟨(h.resolved x member).1, extended.resolved (h.resolved x member).2⟩,
      h.once, fun q ticket response found has => ?_, fun a member => ?_, fun a member => ?_⟩
    · obtain ⟨ticket', found', rfl⟩ := (Lifecycle.get_modify_iff _ _ _ _ _).mp found
      split at has
      · cases has
      · exact h.stored q ticket' response found' has
    · rw [List.mem_append, List.mem_singleton] at member
      rcases member with earlier | rfl
      · exact h.answers a earlier
      · intro q waited equal
        cases equal
        refine ⟨rfl, fun response returned => ?_⟩
        -- The wait returned what the cell held, which the ticket records.
        have inside := represented.waiting query endpoint waits
        have found : s.tickets[query]? = some (s.tickets[query]) := List.getElem?_eq_getElem inside
        refine h.stored query _ response found ?_
        have cell := congrArg QueryInner.response (represented.refines.cells query _ found)
        rcases s.manager.wait_cases query with ⟨_, timeout⟩ | ⟨response', held, result⟩
        · rw [timeout] at returned
          cases returned
        · rw [result] at returned
          cases returned
          exact cell.symm.trans held
    · rw [List.mem_append, List.mem_singleton] at member
      rcases member with earlier | rfl
      · exact h.unread a earlier
      · intro missing
        cases missing

theorem answered_resolve (s t : State L) (represented : Represented s) (sourced : Sourced fromStr config s)
    (h : Answered s) (p : Nat) (taken : Step fromStr config s (.resolve p) t) : Answered t := by
  have extended := step_extends s t _ taken
  cases taken with
  | unknown _ queryId response rest stage absent =>
    exact h.frame extended (List.Subset.refl _) rfl rfl fun q ticket response found has =>
      ⟨ticket, found, has⟩
  | resolve _ queryId response rest stage query awaited =>
    obtain ⟨ticket, found, id, handedOut⟩ := (represented.refines.handedOut queryId query).mp awaited
    have carried := sourced.resolving p _ stage _ List.mem_cons_self
    have resolved_now : ∃ ticket' : QueryTicket, (s.tickets.resolve query response)[query]? = some ticket' ∧
        ticket'.id = queryId ∧ ticket'.stage = .resolved :=
      ⟨ticket.resolve response, (Lifecycle.get_modify_iff _ _ _ _ _).mpr ⟨ticket, found, if_pos rfl⟩,
        id, rfl⟩
    refine ⟨fun x member => ?_, ?_, fun q ticket' response' found' has => ?_, fun a member q waited equal => ?_,
      h.unread⟩
    · rw [List.mem_append, List.mem_singleton] at member
      rcases member with earlier | rfl
      · exact ⟨(h.resolved x earlier).1, extended.resolved (h.resolved x earlier).2⟩
      · exact ⟨sourced.polls p queryId response carried, resolved_now⟩
    -- A query that was resolved before is not handed out any more.
    · dsimp only
      rw [List.map_append, List.nodup_append]
      refine ⟨h.once, List.nodup_singleton _, fun q before q' now same => ?_⟩
      obtain ⟨x, member, rfl⟩ := List.mem_map.mp before
      obtain ⟨ticket', found', _, stage'⟩ := (h.resolved x member).2
      rw [same, List.mem_singleton.mp now, found] at found'
      cases found'
      rw [handedOut] at stage'
      cases stage'
    · obtain ⟨ticket'', found'', rfl⟩ := (Lifecycle.get_modify_iff _ _ _ _ _).mp found'
      split at has
      next same =>
        cases has
        exact ⟨_, List.mem_append_right _ List.mem_cons_self, same, rfl⟩
      · obtain ⟨x, member, rest⟩ := h.stored q ticket'' response' found'' has
        exact ⟨x, List.mem_append_left _ member, rest⟩
    · obtain ⟨reply, returned⟩ := h.answers a member q waited equal
      refine ⟨reply, fun response' ok => ?_⟩
      obtain ⟨x, member', rest⟩ := returned response' ok
      exact ⟨x, List.mem_append_left _ member', rest⟩

theorem answered_step (s t : State L) (a : Action L) (represented : Represented s)
    (sourced : Sourced fromStr config s) (h : Answered s) (taken : Step fromStr config s a t) :
    Answered t := by
  have extended := step_extends s t a taken
  cases a with
  | waitReturn query => exact answered_waitReturn s t represented h query taken
  | resolve p => exact answered_resolve s t represented sourced h p taken
  | request endpoint data rng =>
    cases taken with
    | unread _ _ _ e failed =>
      refine ⟨h.resolved, h.once, h.stored, fun a member => ?_, fun a member => ?_⟩
      · rw [List.mem_append, List.mem_singleton] at member
        rcases member with earlier | rfl
        · exact h.answers a earlier
        · intro q waited missing
          cases missing
      · rw [List.mem_append, List.mem_singleton] at member
        rcases member with earlier | rfl
        · exact h.unread a earlier
        · exact fun _ => e.status_respondTo
    | request _ _ _ queryRequest read queryId generated manager query enqueued =>
      refine h.frame extended (List.Subset.refl _) rfl rfl fun q ticket response found has => ?_
      rcases (Lifecycle.get_enqueue_iff _ _ _ _ _).mp found with old | ⟨_, rfl⟩
      · exact ⟨ticket, old, has⟩
      · cases has
  | drain p =>
    cases taken
    refine h.frame extended (List.Subset.refl _) rfl rfl fun q ticket response found has => ?_
    obtain ⟨ticket', found', rfl⟩ := (Lifecycle.get_handOut_iff _ _ _).mp found
    exact ⟨ticket', found', ticket'.handOut_response ▸ has⟩
  | process l exchange =>
    obtain ⟨_, _, _, _, _, _, _, _, _, tickets, _, _, resolved, answers, computed⟩ :=
      process_effect s t l exchange taken
    refine h.frame extended ?_ resolved answers fun q ticket response found has =>
      ⟨ticket, tickets ▸ found, has⟩
    rcases computed with ⟨computed, _⟩ | ⟨_, _, computed, _⟩ <;> rw [computed]
    · exact List.Subset.refl _
    · exact List.subset_append_left _ _
  | _ =>
    cases taken <;>
      exact h.frame extended (List.Subset.refl _) rfl rfl fun _ ticket _ found has => ⟨ticket, found, has⟩

/-! ## Every reachable state -/

variable (fromStr config) in
structure Invariant (s : State L) : Prop where
  represented : Represented s
  placed : Placed s
  sourced : Sourced fromStr config s
  answered : Answered s

/-- All invariants hold in every state that a run reaches. -/
theorem reachable_invariant {allowed : State L → Action L → Prop} {s : State L}
    (reached : Reachable (step fromStr config) allowed .start s) : Invariant fromStr config s := by
  refine reached.invariant _ ⟨represented_start, placed_start, sourced_start, answered_start⟩ ?_
  intro s a t _ _ h taken
  have moved := step_cases s t a taken
  exact ⟨represented_step s t a h.represented moved, placed_step s t a h.represented h.placed moved,
    sourced_step s t a h.placed h.sourced moved,
    answered_step s t a h.represented h.sourced h.answered moved⟩

end FullServiceMirror
