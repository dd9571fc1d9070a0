import FullServiceMirror.System.Invariant

/-!
# Reuse of an id

The manager frees an id when its query is resolved, while a loop that has not
seen the reply of that poll keeps sending the response. If the id is allocated
again meanwhile, the old response resolves the new query. The condition under
which this cannot happen: no id is allocated that labels such a response.
-/
namespace FullServiceMirror

open Rust Json Transition

variable {L : Type}

/-- A loop retains a response under this id, or a `PollRequest` that is not worked
off carries one. -/
def State.Labels (s : State L) (queryId : String) : Prop :=
  (∃ l response, (s.loops l).pendingResponses.get queryId = some response) ∨
  (∃ p response, (s.polls p).stage = .requested ∧ (s.polls p).responses.get queryId = some response) ∨
  (∃ p rest response, (s.polls p).stage = .resolving rest ∧ (queryId, response) ∈ rest)

/-- The id that a step allocates labels no response that is still around. -/
def FreshId (s : State L) (a : Action L) : Prop :=
  ∀ endpoint data rng queryId, a = .request endpoint data rng →
    s.manager.generateQueryId rng = some queryId → ¬ s.Labels queryId

/-- No live query but `q` has this id. -/
def State.Owns (s : State L) (queryId : String) (q : Query) : Prop :=
  ∀ (q' : Query) (ticket : QueryTicket), s.tickets[q']? = some ticket → ticket.id = queryId →
    ticket.live → q' = q

/-- The live tickets were there before. -/
def NoNewTicket (s t : State L) : Prop :=
  ∀ (q : Query) (ticket : QueryTicket), t.tickets[q]? = some ticket → ticket.live →
    ∃ ticket' : QueryTicket, s.tickets[q]? = some ticket' ∧ ticket'.id = ticket.id ∧ ticket'.live

theorem State.Owns.of_noNewTicket {s t : State L} (old : NoNewTicket s t) {queryId : String}
    {q : Query} (owns : s.Owns queryId q) : t.Owns queryId q := by
  intro q' ticket found id live
  obtain ⟨ticket', found', id', live'⟩ := old q' ticket found live
  exact owns q' ticket' found' (id'.trans id) live'

structure Unmixed (s : State L) : Prop where
  loops : ∀ l queryId response, (s.loops l).pendingResponses.get queryId = some response →
    s.Owns queryId ((s.loops l).origin queryId)
  requested : ∀ p, (s.polls p).stage = .requested → ∀ queryId response,
    (s.polls p).responses.get queryId = some response → s.Owns queryId ((s.polls p).origin queryId)
  resolving : ∀ p rest, (s.polls p).stage = .resolving rest → ∀ e ∈ rest,
    s.Owns e.1 ((s.polls p).origin e.1)
  travels : ∀ (q : Query) (ticket : QueryTicket), s.tickets[q]? = some ticket →
    s.place q ≠ .manager → s.place q ≠ .gone → ticket.stage = .handedOut
  resolved : ∀ x ∈ s.resolved, x.query = x.origin

theorem unmixed_start : Unmixed (State.start : State L) where
  loops := by intro l queryId response pending; cases pending
  requested := by intro p stage; cases stage
  resolving := by intro p rest stage; cases stage
  travels := by intro q ticket found; cases found
  resolved := by intro x member; cases member

/-- A step that adds no ticket, resolves no query and leaves the maps of the loops. -/
theorem Unmixed.frame {s t : State L} (h : Unmixed s) (old : NoNewTicket s t)
    (loops : ∀ l, (t.loops l).pendingResponses = (s.loops l).pendingResponses ∧
      (t.loops l).origin = (s.loops l).origin)
    (polls : ∀ p, (t.polls p).responses = (s.polls p).responses ∧
      (t.polls p).origin = (s.polls p).origin)
    (requested : ∀ p, (t.polls p).stage = .requested → (s.polls p).stage = .requested)
    (resolving : ∀ p rest, (t.polls p).stage = .resolving rest → ∀ e ∈ rest,
      s.Owns e.1 ((s.polls p).origin e.1))
    (travels : ∀ (q : Query) (ticket : QueryTicket), t.tickets[q]? = some ticket →
      t.place q ≠ .manager → t.place q ≠ .gone → ticket.stage = .handedOut)
    (resolved : t.resolved = s.resolved) : Unmixed t where
  loops := by
    intro l queryId response pending
    rw [(loops l).1] at pending
    rw [(loops l).2]
    exact (h.loops l queryId response pending).of_noNewTicket old
  requested := by
    intro p stage queryId response carried
    rw [(polls p).1] at carried
    rw [(polls p).2]
    exact (h.requested p (requested p stage) queryId response carried).of_noNewTicket old
  resolving := by
    intro p rest stage e member
    rw [(polls p).2]
    exact (resolving p rest stage e member).of_noNewTicket old
  travels := travels
  resolved := by rw [resolved]; exact h.resolved

theorem noNewTicket_same {s t : State L} (same : t.tickets = s.tickets) : NoNewTicket s t :=
  fun _ ticket found live => ⟨ticket, same ▸ found, rfl, live⟩

theorem noNewTicket_modify {s t : State L} (q : Query) (f : QueryTicket → QueryTicket)
    (modified : t.tickets = s.tickets.modify q f) (id : ∀ ticket, (f ticket).id = ticket.id)
    (live : ∀ ticket, (f ticket).live → ticket.live) : NoNewTicket s t := by
  intro q' ticket found alive
  rw [modified] at found
  obtain ⟨ticket', found', rfl⟩ := (Lifecycle.get_modify_iff _ _ _ _ _).mp found
  refine ⟨ticket', found', ?_, ?_⟩
  · split
    · exact (id ticket').symm
    · rfl
  · split at alive
    · exact live ticket' alive
    · exact alive

theorem resolving_after {s : State L} (h : Unmixed s) (p : Nat) (poll : Poll)
    (moved : ∀ rest, poll.stage = .resolving rest → ∀ e ∈ rest, s.Owns e.1 ((s.polls p).origin e.1))
    (p' : Nat) (rest : List (String × QueryResponse))
    (stage : ((s.setPoll p poll).polls p').stage = .resolving rest) :
    ∀ e ∈ rest, s.Owns e.1 ((s.polls p').origin e.1) :=
  s.setPoll_stage p poll (fun p' stage => ∀ rest, stage = .resolving rest → ∀ e ∈ rest,
    s.Owns e.1 ((s.polls p').origin e.1)) moved h.resolving p' rest stage

theorem requested_after (s : State L) (p : Nat) (poll : Poll) (moved : poll.stage ≠ .requested)
    (p' : Nat) (stage : ((s.setPoll p poll).polls p').stage = .requested) :
    (s.polls p').stage = .requested :=
  s.setPoll_stage p poll (fun p' stage => stage = .requested → (s.polls p').stage = .requested)
    (fun same => absurd same moved) (fun _ same => same) p' stage

variable [DecidableEq L]
variable {fromStr : String → Except String Value} {config : L → Config}

theorem unmixed_request (s t : State L) (placed : Placed s) (h : Unmixed s) (endpoint : Endpoint)
    (data : Data) (rng : List (Fin QUERY_ID_LEN → UInt64))
    (fresh : FreshId s (.request endpoint data rng))
    (taken : Step fromStr config s (.request endpoint data rng) t) : Unmixed t := by
  cases taken with
  | unread _ _ _ e failed =>
    exact h.frame (noNewTicket_same rfl) (fun _ => ⟨rfl, rfl⟩) (fun _ => ⟨rfl, rfl⟩)
      (fun _ stage => stage) h.resolving h.travels rfl
  | request _ _ _ queryRequest read queryId generated manager query enqueued =>
    have unlabelled := fresh endpoint data rng queryId rfl generated
    -- A label that is still around differs from the new id, so the new ticket has another id.
    have owns (id : String) (q : Query) (labelled : s.Labels id) (before : s.Owns id q)
        (q' : Query) (ticket : QueryTicket)
        (found : (s.tickets.enqueue queryId queryRequest)[q']? = some ticket) (same : ticket.id = id)
        (live : ticket.live) : q' = q := by
      rcases (Lifecycle.get_enqueue_iff _ _ _ _ _).mp found with old | ⟨_, rfl⟩
      · exact before q' ticket old same live
      · have reused : queryId = id := same
        rw [reused] at unlabelled
        exact absurd labelled unlabelled
    refine ⟨fun l id response pending => ?_, fun p stage id response carried => ?_,
      fun p rest stage e member => ?_, fun q ticket found away notGone => ?_, h.resolved⟩
    · exact owns id _ (Or.inl ⟨l, response, pending⟩) (h.loops l id response pending)
    · exact owns id _ (Or.inr (Or.inl ⟨p, response, stage, carried⟩))
        (h.requested p stage id response carried)
    · exact owns e.1 _ (Or.inr (Or.inr ⟨p, rest, e.2, stage, member⟩)) (h.resolving p rest stage e member)
    · rcases (Lifecycle.get_enqueue_iff _ _ _ _ _).mp found with old | ⟨new, rfl⟩
      · exact h.travels q ticket old away notGone
      · refine absurd (placed.unsent q fun ticket' found' => ?_) away
        rw [new, List.getElem?_eq_none (Nat.le_refl _)] at found'
        cases found'

theorem unmixed_resolve (s t : State L) (represented : Represented s) (placed : Placed s)
    (sourced : Sourced fromStr config s) (h : Unmixed s) (p : Nat)
    (taken : Step fromStr config s (.resolve p) t) : Unmixed t := by
  cases taken with
  | unknown _ queryId response rest stage absent =>
    refine h.frame (noNewTicket_same rfl) (fun _ => ⟨rfl, rfl⟩) (carries_setPoll s p _ rfl rfl)
      (requested_after s p _ nofun) (resolving_after h p _ fun rest' same e member => ?_) h.travels rfl
    cases same
    exact h.resolving p _ stage e (List.mem_cons_of_mem _ member)
  | resolve _ queryId response rest stage query awaited =>
    obtain ⟨ticket, found, id, handedOut⟩ := (represented.refines.handedOut queryId query).mp awaited
    have live : ticket.live := by rw [Ticket.live, handedOut]; decide
    -- The only live query with this id is the one that the response was computed for.
    have owner : query = (s.polls p).origin queryId :=
      h.resolving p _ stage _ List.mem_cons_self query ticket found id live
    have gone : s.place query = .gone := by
      obtain ⟨c, computed, origin, _⟩ :=
        sourced.polls p queryId response (sourced.resolving p _ stage _ List.mem_cons_self)
      rw [owner, ← origin]
      exact placed.computed c computed
    have old : NoNewTicket s { s.setPoll p { s.polls p with stage := .resolving rest } with
        manager := (s.manager.resolveQuery queryId response).1
        tickets := s.tickets.resolve query response
        resolved := s.resolved ++ [⟨query, (s.polls p).origin queryId, queryId, response⟩] } :=
      noNewTicket_modify query _ rfl (fun _ => rfl) (fun _ alive => absurd rfl alive)
    have rest_owns := resolving_after h p { s.polls p with stage := .resolving rest }
      (fun rest' same e member => by
        cases same
        exact h.resolving p _ stage e (List.mem_cons_of_mem _ member))
    refine ⟨fun l id' r pending => (h.loops l id' r pending).of_noNewTicket old,
      fun p' stage' id' r carried => ?_, fun p' rest' stage' e member => ?_,
      fun q ticket' found' away notGone => ?_, fun x member => ?_⟩
    · have kept := carries_setPoll s p { s.polls p with stage := .resolving rest } rfl rfl p'
      have before := requested_after s p { s.polls p with stage := .resolving rest } nofun p' stage'
      have owns := h.requested p' before id' r (kept.1 ▸ carried)
      exact (congrFun kept.2 id') ▸ owns.of_noNewTicket old
    · have kept := carries_setPoll s p { s.polls p with stage := .resolving rest } rfl rfl p'
      exact (congrFun kept.2 e.1) ▸ (rest_owns p' rest' stage' e member).of_noNewTicket old
    -- The resolved query is not traveling: its response was computed.
    · obtain ⟨ticket₀, found₀, rfl⟩ := (Lifecycle.get_modify_iff _ _ _ _ _).mp found'
      have other : query ≠ q := by
        rintro rfl
        exact notGone gone
      rw [if_neg other]
      exact h.travels q ticket₀ found₀ away notGone
    · rw [List.mem_append, List.mem_singleton] at member
      rcases member with earlier | rfl
      · exact h.resolved x earlier
      · exact owner

theorem unmixed_drain (s t : State L) (represented : Represented s) (h : Unmixed s) (p : Nat)
    (taken : Step fromStr config s (.drain p) t) : Unmixed t := by
  obtain ⟨poll, _, polls, replies, _, responses, origin, loops, tickets, place, _, _, resolved⟩ :=
    drain_effect s t p taken
  have moved : t.polls = (s.setPoll p poll).polls := polls
  have old : NoNewTicket s t := by
    intro q ticket found live
    rw [tickets] at found
    obtain ⟨ticket', found', rfl⟩ := (Lifecycle.get_handOut_iff _ _ _).mp found
    refine ⟨ticket', found', ticket'.handOut_id.symm, fun same => ?_⟩
    exact live (ticket'.handOut_resolved_iff.mpr same)
  refine h.frame old (fun l => by rw [loops]; exact ⟨rfl, rfl⟩) (fun p' => ?_) (fun p' stage => ?_)
    (fun p' rest stage => ?_) (fun q ticket found away notGone => ?_) resolved
  · rw [moved]
    exact carries_setPoll s p poll responses origin p'
  · rw [moved] at stage
    exact requested_after s p poll (by rw [replies]; exact nofun) p' stage
  · rw [moved] at stage
    exact resolving_after h p poll (by rw [replies]; exact nofun) p' rest stage
  · rw [tickets] at found
    obtain ⟨ticket', found', rfl⟩ := (Lifecycle.get_handOut_iff _ _ _).mp found
    rw [Ticket.handOut_handedOut_iff]
    -- A query on its way was drained now, or was on its way before.
    by_cases drained : s.manager.pendingRequests.iter.any (fun e => e.2 = q) = true
    · obtain ⟨ticket'', found'', queued⟩ := (drained_iff represented q).mp drained
      rw [found'] at found''
      cases found''
      exact Or.inl queued
    · rw [place, if_neg drained] at away notGone
      exact Or.inr (h.travels q ticket' found' away notGone)

theorem unmixed_process (s t : State L) (represented : Represented s) (placed : Placed s)
    (h : Unmixed s) (l : L) (exchange : Exchange)
    (taken : Step fromStr config s (.process l exchange) t) : Unmixed t := by
  obtain ⟨queryId, request, rest, loop, phase, loops, origin, _, polls, tickets, place, _, resolved, _,
    computed⟩ := process_effect s t l exchange taken
  have old : NoNewTicket s t := noNewTicket_same tickets
  obtain ⟨here, ticket, found, id, _⟩ := (placed.processing l _ phase).2 _ List.mem_cons_self
  refine ⟨fun l' id' response' pending => ?_, fun p stage id' response' carried => ?_,
    fun p rest' stage e member => ?_, fun q ticket' found' away notGone => ?_, resolved ▸ h.resolved⟩
  · rw [loops] at pending ⊢
    by_cases same : l' = l
    · subst same
      rw [Function.update_self] at pending ⊢
      rw [origin]
      rcases computed with ⟨_, unchanged⟩ | ⟨response, _, _, inserted⟩
      · rw [unchanged] at pending
        exact (h.loops l' id' response' pending).of_noNewTicket old
      · rw [inserted, HashMap.get_insert] at pending
        split at pending
        next now =>
          subst now
          -- The request being processed is that of a live query, and ids of live queries differ.
          have handedOut : ticket.stage = .handedOut :=
            h.travels _ ticket found (by simp [here]) (by simp [here])
          have live : ticket.live := by rw [Ticket.live, handedOut]; decide
          refine State.Owns.of_noNewTicket old fun q' ticket' found' id' live' => ?_
          exact represented.refines.valid.unique q' _ ticket' ticket found' found live' live
            (id'.trans id.symm)
        · exact (h.loops l' id' response' pending).of_noNewTicket old
    · rw [Function.update_of_ne same] at pending ⊢
      exact (h.loops l' id' response' pending).of_noNewTicket old
  · rw [polls] at stage carried ⊢
    exact (h.requested p stage id' response' carried).of_noNewTicket old
  · rw [polls] at stage ⊢
    exact (h.resolving p rest' stage e member).of_noNewTicket old
  · rw [tickets] at found'
    rw [place] at away notGone
    by_cases same : q = (s.loops l).origin queryId
    · rw [same, Function.update_self] at notGone
      exact absurd rfl notGone
    · rw [Function.update_of_ne same] at away notGone
      exact h.travels q ticket' found' away notGone

theorem unmixed_deliver (s t : State L) (h : Unmixed s) (l : L) (order : List (String × QueryRequest))
    (taken : Step fromStr config s (.deliver l order) t) : Unmixed t := by
  obtain ⟨p, requests, _, _, _, polls, loops, tickets, place, _, _, resolved⟩ :=
    deliver_effect s t l order taken
  have old : NoNewTicket s t := noNewTicket_same tickets
  have moved : t.polls = (s.setPoll p { s.polls p with stage := .closed }).polls := polls
  have kept := carries_setPoll s p { s.polls p with stage := .closed } rfl rfl
  refine ⟨fun l' id response pending => ?_, fun p' stage id response carried => ?_,
    fun p' rest stage e member => ?_, fun q ticket found away notGone => ?_, resolved ▸ h.resolved⟩
  · rw [loops] at pending ⊢
    by_cases same : l' = l
    · rw [same, Function.update_self, HashMap.get_new] at pending
      cases pending
    · rw [Function.update_of_ne same] at pending ⊢
      exact (h.loops l' id response pending).of_noNewTicket old
  · rw [moved] at stage carried ⊢
    rw [(kept p').1] at carried
    rw [(kept p').2]
    -- A closed poll carries nothing any more; the other polls are as they were.
    have before := requested_after s p { s.polls p with stage := .closed } nofun p' stage
    exact (h.requested p' before id response carried).of_noNewTicket old
  · rw [moved] at stage ⊢
    rw [(kept p').2]
    have owns := resolving_after h p { s.polls p with stage := .closed } nofun p' rest stage
    exact (owns e member).of_noNewTicket old
  · rw [tickets] at found
    rw [place] at away notGone
    split at away
    next traveling =>
      exact h.travels q ticket found (by simp [traveling]) (by simp [traveling])
    next elsewhere =>
      rw [if_neg elsewhere] at notGone
      exact h.travels q ticket found away notGone

theorem unmixed_send (s t : State L) (h : Unmixed s) (l : L)
    (taken : Step fromStr config s (.send l) t) : Unmixed t := by
  cases taken with
  | send _ phase =>
    refine ⟨fun l' id response pending => ?_, fun p stage id response carried => ?_,
      fun p rest stage e member => ?_, h.travels, h.resolved⟩
    · have kept := keeps_setLoop s l (.polling s.sent) l'
      exact (congrFun kept.2 id) ▸ h.loops l' id response (kept.1 ▸ pending)
    · simp only [State.setLoop_polls, State.setPoll_polls] at stage carried ⊢
      by_cases same : p = s.sent
      · rw [same, Function.update_self] at carried ⊢
        exact h.loops l id response carried
      · rw [Function.update_of_ne same] at stage carried ⊢
        exact h.requested p stage id response carried
    · simp only [State.setLoop_polls, State.setPoll_polls] at stage ⊢
      by_cases same : p = s.sent
      · rw [same, Function.update_self] at stage
        cases stage
      · rw [Function.update_of_ne same] at stage ⊢
        exact h.resolving p rest stage e member

theorem unmixed_step (s t : State L) (a : Action L) (invariant : Invariant fromStr config s)
    (h : Unmixed s) (fresh : FreshId s a) (taken : Step fromStr config s a t) : Unmixed t := by
  cases a with
  | request endpoint data rng => exact unmixed_request s t invariant.placed h endpoint data rng fresh taken
  | resolve p => exact unmixed_resolve s t invariant.represented invariant.placed invariant.sourced h p taken
  | drain p => exact unmixed_drain s t invariant.represented h p taken
  | process l exchange => exact unmixed_process s t invariant.represented invariant.placed h l exchange taken
  | deliver l order => exact unmixed_deliver s t h l order taken
  | send l => exact unmixed_send s t h l taken
  | waitReturn query =>
    cases taken with
    | waitReturn _ endpoint waits =>
      refine h.frame (noNewTicket_modify query _ rfl (fun _ => rfl) fun _ alive => alive)
        (fun _ => ⟨rfl, rfl⟩) (fun _ => ⟨rfl, rfl⟩) (fun _ stage => stage) h.resolving ?_ rfl
      intro q ticket found away notGone
      obtain ⟨ticket', found', rfl⟩ := (Lifecycle.get_modify_iff _ _ _ _ _).mp found
      have stage := h.travels q ticket' found' away notGone
      split <;> exact stage
  | accept p order =>
    cases taken with
    | accept _ _ stage visits =>
      refine h.frame (noNewTicket_same rfl) (fun _ => ⟨rfl, rfl⟩) (carries_setPoll s p _ rfl rfl)
        (requested_after s p _ nofun) (resolving_after h p _ fun rest same e member => ?_) h.travels rfl
      cases same
      have carried := (HashMap.mem_iter_iff _ e.1 e.2).mp (visits.mem_iff.mp member)
      exact h.requested p stage e.1 e.2 carried
  | lose p =>
    cases taken <;>
      exact h.frame (noNewTicket_same rfl) (fun _ => ⟨rfl, rfl⟩) (carries_setPoll s p _ rfl rfl)
        (requested_after s p _ nofun) (resolving_after h p _ nofun) h.travels rfl
  | fail l =>
    cases taken
    exact h.frame (noNewTicket_same rfl) (keeps_setLoop s l _) (fun _ => ⟨rfl, rfl⟩)
      (fun _ stage => stage) h.resolving h.travels rfl
  | sleep l =>
    cases taken
    exact h.frame (noNewTicket_same rfl) (keeps_setLoop s l _) (fun _ => ⟨rfl, rfl⟩)
      (fun _ stage => stage) h.resolving h.travels rfl

/-- **Id-reuse safety.** In every run that allocates no id labelling a response
that is still around, a query is resolved only with a response computed for it. -/
theorem resolved_with_own_response (s : State L)
    (reached : Reachable (step fromStr config) FreshId .start s) :
    ∀ x ∈ s.resolved, x.query = x.origin := by
  have unmixed : Unmixed s := by
    refine reached.invariant _ unmixed_start fun s a t before fresh h taken => ?_
    exact unmixed_step s t a (reachable_invariant before) h fresh (step_cases s t a taken)
  exact unmixed.resolved

def Action.isRequest : Action L → Bool
  | .request _ _ _ => true
  | _ => false

/-- Requests arrive only before anything is computed. -/
def RequestsFirst (s : State L) (a : Action L) : Prop := a.isRequest = true → s.computed.length = 0

instance (s : State L) (a : Action L) : Decidable (RequestsFirst s a) :=
  inferInstanceAs (Decidable (_ → _))

theorem resolved_with_own_response_roundTrip :
    ∃ s : State Unit, Reachable (step parse fun _ => {}) FreshId .start s ∧
      s.resolved.length = 1 ∧ ∀ x ∈ s.resolved, x.query = x.origin := by
  obtain ⟨s, reached, holds⟩ := exists_reachable_of_run (step parse fun _ => {}) RequestsFirst .start
    roundTrip (fun s => decide (s.resolved.length = 1)) (by decide +kernel)
  have fresh : Reachable (step parse fun _ => {}) FreshId .start s := by
    refine reached.mono fun s a before first endpoint data rng queryId same _ labelled => ?_
    subst same
    have none : s.computed = [] := List.length_eq_zero_iff.mp (first rfl)
    have sourced := (reachable_invariant before).sourced
    -- A response that is around was computed.
    have computed : ∃ c, c ∈ s.computed := by
      rcases labelled with ⟨l, response, pending⟩ | ⟨p, response, _, carried⟩ | ⟨p, rest, response, stage, member⟩
      · obtain ⟨c, member, _⟩ := sourced.loops l queryId response pending
        exact ⟨c, member⟩
      · obtain ⟨c, member, _⟩ := sourced.polls p queryId response carried
        exact ⟨c, member⟩
      · obtain ⟨c, member, _⟩ :=
          sourced.polls p queryId response (sourced.resolving p rest stage _ member)
        exact ⟨c, member⟩
    obtain ⟨c, member⟩ := computed
    rw [none] at member
    cases member
  exact ⟨s, fresh, of_decide_eq_true holds, resolved_with_own_response s fresh⟩

/-- An id is allocated again between the two phases of a poll whose reply is
lost: the next poll resolves the new query with the old response. -/
def reusedId : List (Action Unit) :=
  let oldRequest := "\x7b\"method\": \"get_block\"\x7d"
  let newRequest := "\x7b\"method\": \"get_all_accounts\"\x7d"
  let jsonResponse := "\x7b\x7d"
  let pending := [("AAAAAAAA", QueryResponse.setUnencryptedResponse {} { jsonResponse })]
  [.request .unencryptedRequest (.ok (asBytes oldRequest)) [fun _ => 0],
   .send (), .accept 0 [], .drain 0,
   .deliver () [("AAAAAAAA", QueryRequest.setUnencryptedRequest {} { jsonRequest := oldRequest })],
   .process () (.text jsonResponse), .sleep (),
   .send (), .accept 1 pending, .resolve 1,
   .request .unencryptedRequest (.ok (asBytes newRequest)) [fun _ => 0],
   .drain 1, .fail (), .lose 1,
   .send (), .accept 2 pending, .resolve 2]

theorem resolved_with_other_response :
    ¬ ∀ s : State Unit, Reachable (step parse fun _ => {}) Any .start s →
      ∀ x ∈ s.resolved, x.query = x.origin := by
  intro own
  obtain ⟨s, reached, holds⟩ := exists_reachable_of_run (step parse fun _ => {}) Any .start reusedId
    (fun s => s.resolved.any fun x => x.query ≠ x.origin) (by decide +kernel)
  obtain ⟨x, member, other⟩ := List.any_eq_true.mp holds
  exact of_decide_eq_true other (own s reached x member)

end FullServiceMirror
