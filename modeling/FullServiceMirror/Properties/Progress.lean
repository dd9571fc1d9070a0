import FullServiceMirror.Properties.NoStranding

/-!
# The third poll

When no reply that carries a request goes unheard, a query moves on with every
poll of a loop that succeeds: the first may have been drained before the query
came, the next brings its request to a loop, and the one after that takes the
response back. What else happens, and in which order, is of no account.
-/
namespace FullServiceMirror

open Rust Json Transition

variable {L : Type}

/-- The step leaves no reply that carries a request without the loop that it is for. -/
def Heard (s : State L) : Action L → Prop
  | .drain p => (∃ l, (s.loops l).phase = .polling p) ∨ ∀ queryId, s.manager.pendingRequests.get queryId = none
  | .fail l => ∀ p requests, (s.loops l).phase = .polling p → (s.polls p).stage = .replied requests →
      ∀ queryId, requests.get queryId = none
  | .lose p => ∀ requests, (s.polls p).stage = .replied requests → ∀ queryId, requests.get queryId = none
  | _ => True

theorem Heard.keepsReplies {s : State L} {a : Action L} (heard : Heard s a) : KeepsReplies s a := by
  rintro p requests rfl stage
  exact heard requests stage

/-- The loop that an action is one of. -/
def Action.loop : Action L → Option L
  | .send l | .deliver l _ | .fail l | .process l _ | .sleep l => some l
  | _ => none

variable [DecidableEq L]

/-- A poll of the loop succeeds. -/
def Action.delivers (l : L) : Action L → Bool
  | .deliver l' _ => l' = l
  | _ => false

variable {fromStr : String → Except String Value} {config : L → Config} {s t : State L} {a : Action L}

/-! ## What the steps leave alone -/

theorem loops_of_other (taken : Step fromStr config s a t) (l : L) (other : a.loop ≠ some l) :
    t.loops l = s.loops l := by
  cases taken with
  | send l' | deliver l' | fail l' | abort l' | process l' | sleep l' =>
    have different : l ≠ l' := fun same => other (congrArg some same.symm)
    exact Function.update_of_ne different _ _
  | _ => rfl

/-- A poll succeeds by an action of its loop. -/
theorem delivers_of_other (l : L) (other : a.loop ≠ some l) : a.delivers l = false := by
  cases a with
  | deliver l' order => exact decide_eq_false fun same => other (congrArg some same)
  | _ => rfl

/-- A loop that is polling has just sent, or polled before and no reply came for it. -/
theorem polling_cases (taken : Step fromStr config s a t) (l : L) (p : Nat)
    (polling : (t.loops l).phase = .polling p) :
    (a = .send l ∧ p = s.sent) ∨ ((s.loops l).phase = .polling p ∧ a.delivers l = false) := by
  by_cases here : a.loop = some l
  · cases taken with
    | send l' phase =>
      cases here
      simp only [State.setLoop_loops, Function.update_self] at polling
      cases polling
      exact Or.inl ⟨rfl, rfl⟩
    | deliver l' | fail l' | abort l' | process l' | sleep l' =>
      cases here
      simp only [State.setLoop_loops, Function.update_self] at polling
      cases polling
    | _ => cases here
  · rw [loops_of_other taken l here] at polling
    exact Or.inr ⟨polling, delivers_of_other l here⟩

/-- A reply is made by a drain. -/
theorem replied_cases (taken : Step fromStr config s a t) (p : Nat)
    (requests : HashMap String QueryRequest) (replied : (t.polls p).stage = .replied requests) :
    a = .drain p ∨ ((s.polls p).stage = .replied requests ∧ t.polls p = s.polls p) := by
  have moved (p' : Nat) (poll : Poll) (polls : t.polls = (s.setPoll p' poll).polls)
      (other : p = p' → ∀ requests, poll.stage ≠ .replied requests) :
      (s.polls p).stage = .replied requests ∧ t.polls p = s.polls p := by
    rw [polls, State.setPoll_polls] at replied ⊢
    by_cases same : p = p'
    · rw [same, Function.update_self] at replied
      exact absurd replied (other same requests)
    · rw [Function.update_of_ne same] at replied ⊢
      exact ⟨replied, rfl⟩
  cases taken with
  | drain p' stage =>
    by_cases same : p = p'
    · exact Or.inl (by rw [same])
    · exact Or.inr (moved p' _ rfl fun here => absurd here same)
  | send | accept | unknown | resolve | deliver | loseRequest | loseReply =>
    exact Or.inr (moved _ _ rfl fun _ => nofun)
  | _ => exact Or.inr ⟨replied, rfl⟩

/-- A reply stays until it is delivered or lost. -/
theorem replied_kept (taken : Step fromStr config s a t) (represented : Represented s) (p : Nat)
    (requests : HashMap String QueryRequest) (replied : (s.polls p).stage = .replied requests) :
    t.polls p = s.polls p ∨ a = .lose p ∨
      ∃ l order, a = .deliver l order ∧ (s.loops l).phase = .polling p := by
  have sent : p < s.sent := represented.sent_of_stage p (by rw [replied]; nofun)
  have elsewhere (p' : Nat) (poll : Poll) (polls : t.polls = (s.setPoll p' poll).polls)
      (different : p ≠ p') : t.polls p = s.polls p := by
    rw [polls, State.setPoll_polls, Function.update_of_ne different]
  -- All other steps act on a poll at another stage.
  have different (p' : Nat) {stage : PollStage} (here : (s.polls p').stage = stage)
      (other : stage ≠ .replied requests) : p ≠ p' := by
    rintro rfl
    exact other (here.symm.trans replied)
  cases taken with
  | send l phase => exact Or.inl (elsewhere _ _ rfl (Nat.ne_of_lt sent))
  | accept p' _ stage => exact Or.inl (elsewhere p' _ rfl (different p' stage nofun))
  | unknown p' _ _ _ stage => exact Or.inl (elsewhere p' _ rfl (different p' stage nofun))
  | resolve p' _ _ _ stage => exact Or.inl (elsewhere p' _ rfl (different p' stage nofun))
  | drain p' stage => exact Or.inl (elsewhere p' _ rfl (different p' stage nofun))
  | loseRequest p' stage => exact Or.inl (elsewhere p' _ rfl (different p' stage nofun))
  | loseReply p' =>
    by_cases same : p = p'
    · exact Or.inr (Or.inl (by rw [same]))
    · exact Or.inl (elsewhere p' _ rfl same)
  | deliver l order p' phase =>
    by_cases same : p = p'
    · exact Or.inr (Or.inr ⟨l, order, rfl, same ▸ phase⟩)
    · exact Or.inl (elsewhere p' _ rfl same)
  | _ => exact Or.inl rfl

/-! ## Who waits for a reply -/

/-- A poll is waited for by one loop at most, and a reply with a request by one. -/
structure Awaited (s : State L) : Prop where
  one_loop : ∀ l l' p, (s.loops l).phase = .polling p → (s.loops l').phase = .polling p → l = l'
  waits : ∀ p requests queryId request, (s.polls p).stage = .replied requests →
    requests.get queryId = some request → ∃ l, (s.loops l).phase = .polling p

theorem awaited_step (represented : Represented s) (h : Awaited s) (heard : Heard s a)
    (taken : Step fromStr config s a t) : Awaited t := by
  constructor
  · intro l l' p polling polling'
    rcases polling_cases taken l p polling with ⟨sends, new⟩ | ⟨before, _⟩ <;>
      rcases polling_cases taken l' p polling' with ⟨sends', new'⟩ | ⟨before', _⟩
    -- A poll that is sent now is new: nobody waited for it before.
    · rw [sends] at sends'
      cases sends'
      rfl
    · exact absurd (represented.polling l' p before') (by omega)
    · exact absurd (represented.polling l p before) (by omega)
    · exact h.one_loop l l' p before before'
  · intro p requests queryId request replied carried
    rcases replied_cases taken p requests replied with rfl | ⟨before, _⟩
    -- A drain: some loop polls, or nothing was drained.
    · obtain ⟨poll, _, polls, replies, _, _, _, loops, _⟩ := drain_effect s t p taken
      rw [polls, Function.update_self, replies] at replied
      cases replied
      rw [QueryManager.getPendingRequests_reply] at carried
      rcases heard with ⟨l, polling⟩ | none
      · exact ⟨l, loops ▸ polling⟩
      · rw [none queryId] at carried
        cases carried
    · obtain ⟨l, polling⟩ := h.waits p requests queryId request before carried
      by_cases here : a.loop = some l
      · cases taken with
        | send l' phase | process l' _ _ _ _ phase | abort l' _ _ _ _ phase | sleep l' phase =>
          cases here
          rw [polling] at phase
          cases phase
        | deliver l' order p' phase =>
          cases here
          rw [polling] at phase
          cases phase
          rw [State.setLoop_polls, State.setPoll_polls, Function.update_self] at replied
          cases replied
        | fail l' p' phase =>
          cases here
          rw [heard p requests polling before queryId] at carried
          cases carried
        | _ => cases here
      · exact ⟨l, by rw [loops_of_other taken l here]; exact polling⟩

omit [DecidableEq L] in
theorem awaited_start : Awaited (State.start : State L) where
  one_loop := by intro l l' p phase; cases phase
  waits := by intro p requests queryId request stage; cases stage

theorem reachable_awaited (reached : Reachable (step fromStr config) Heard .start s) : Awaited s := by
  refine reached.invariant Awaited awaited_start fun s a t before heard h taken => ?_
  exact awaited_step (reachable_invariant before).represented h heard (step_cases s t a taken)

/-! ## How far a query is -/

/-- The loop has the request of a query or its response, or has stopped. -/
inductive Loop.Holds (loop : Loop) (q : Query) (queryId : String) : Prop
  | processing (rest : List (String × QueryRequest)) (request : QueryRequest)
      (phase : loop.phase = .processing rest) (member : (queryId, request) ∈ rest)
      (stands : loop.origin queryId = q)
  | pending (response : QueryResponse) (held : loop.pendingResponses.get queryId = some response)
      (stands : loop.origin queryId = q)
  | aborted (phase : loop.phase = .aborted)

/-- With no request in hand, a loop has the response or has stopped. -/
theorem Loop.Holds.response_of_isEmpty {loop : Loop} {q : Query} {queryId : String}
    (holds : loop.Holds q queryId) (empty : loop.phase.isEmpty = true) :
    ∃ response, loop.pendingResponses.get queryId = some response ∧ loop.origin queryId = q := by
  cases holds with
  | pending response held stands => exact ⟨response, held, stands⟩
  | aborted phase =>
    rw [phase] at empty
    cases empty
  | processing rest request phase member =>
    rw [phase] at empty
    rw [List.isEmpty_iff.mp empty] at member
    cases member

/-- The reply that the loop waits for carries the request of a query. -/
structure Carries (s : State L) (l : L) (p : Nat) (q : Query) (queryId : String) : Prop where
  polling : (s.loops l).phase = .polling p
  reply : ∃ requests request, (s.polls p).stage = .replied requests ∧ requests.get queryId = some request
  stands : (s.polls p).replyOrigin queryId = q

/-- How far a query is that is not resolved, by the number of polls that have
succeeded since. -/
inductive Ahead (s : State L) (q : Query) (queryId : String) (polled : L → Nat) : Prop
  /-- A loop has succeeded once at most, with a poll that was handled before the query came. -/
  | queued (ticket : QueryTicket) (found : s.tickets[q]? = some ticket) (id : ticket.id = queryId)
      (stage : ticket.stage = .queued)
      (few : ∀ l, polled l = 0 ∨ (polled l = 1 ∧ ∀ p requests, (s.loops l).phase = .polling p →
        (s.polls p).stage ≠ .replied requests))
  | carried (l : L) (p : Nat) (carries : Carries s l p q queryId) (few : polled l ≤ 1)
  | held (l : L) (holds : (s.loops l).Holds q queryId) (few : polled l ≤ 2)

/-- A loop keeps what it holds until it is resolved, and until then no poll of it succeeds. -/
theorem holds_step (tracked : Tracked s) (taken : Step fromStr config s a t) (l : L) (q : Query)
    (queryId : String) (unresolved : ¬ s.IsResolved q queryId) (holds : (s.loops l).Holds q queryId) :
    (t.loops l).Holds q queryId ∧ a.delivers l = false := by
  have rests (phase : LoopPhase) (empty : (s.loops l).phase.isEmpty = true) :
      ((s.setLoop l { s.loops l with phase }).loops l).Holds q queryId := by
    obtain ⟨response, held, stands⟩ := holds.response_of_isEmpty empty
    rw [State.setLoop_loops, Function.update_self]
    exact .pending response held stands
  by_cases here : a.loop = some l
  · cases taken with
    | send l' phase =>
      cases here
      exact ⟨rests _ (by rw [phase]; rfl), rfl⟩
    | fail l' p phase =>
      cases here
      exact ⟨rests _ (by rw [phase]; rfl), rfl⟩
    | sleep l' phase =>
      cases here
      exact ⟨rests _ (by rw [phase]; rfl), rfl⟩
    | deliver l' order p phase requests stage =>
      cases here
      obtain ⟨response, held, stands⟩ := holds.response_of_isEmpty (by rw [phase]; rfl)
      -- `poll_impl` went over the response, as this is the poll that it was sent with.
      have resolved := tracked.resolved_after_poll l p phase requests stage queryId response held
      rw [stands] at resolved
      exact absurd resolved unresolved
    | abort l' =>
      cases here
      refine ⟨.aborted ?_, rfl⟩
      simp
    | process l' exchange id request rest phase response =>
      cases here
      refine ⟨?_, rfl⟩
      simp only [State.setLoop_loops, Function.update_self]
      cases holds with
      | aborted phase' => rw [phase] at phase'; cases phase'
      -- The response may be replaced by another one under the same id.
      | pending response' held stands =>
        by_cases again : queryId = id
        · exact .pending response (by simp [again]) stands
        · exact .pending response' (by simpa [again] using held) stands
      | processing _ request' phase' member stands =>
        rw [phase] at phase'
        cases phase'
        rcases List.mem_cons.mp member with now | later
        · cases now
          exact .pending response (by simp) stands
        · exact .processing rest request' rfl later stands
    | _ => cases here
  · rw [loops_of_other taken l here]
    exact ⟨holds, delivers_of_other l here⟩

/-- A request that a loop waits for stays in the reply until the loop gets it. -/
theorem carries_step (represented : Represented s) (awaited : Awaited s) (heard : Heard s a)
    (taken : Step fromStr config s a t) (l : L) (p : Nat) (q : Query) (queryId : String)
    (carries : Carries s l p q queryId) :
    (Carries t l p q queryId ∧ a.delivers l = false) ∨ (t.loops l).Holds q queryId := by
  obtain ⟨polling, ⟨requests, request, replied, carried⟩, stands⟩ := carries
  -- The reply is still there, is lost, or has been delivered.
  rcases replied_kept taken represented p requests replied with kept | rfl | ⟨l', order, rfl, polling'⟩
  · by_cases here : a.loop = some l
    · cases taken with
      | send l' phase | process l' _ _ _ _ phase | abort l' _ _ _ _ phase | sleep l' phase =>
        cases here
        rw [polling] at phase
        cases phase
      | deliver l' order p' phase =>
        cases here
        rw [polling] at phase
        cases phase
        have closed := congrArg Poll.stage kept
        rw [replied] at closed
        simp at closed
      | fail l' p' phase =>
        cases here
        rw [heard p requests polling replied queryId] at carried
        cases carried
      | _ => cases here
    · left
      refine ⟨⟨?_, ⟨requests, request, by rw [kept]; exact replied, carried⟩, by rw [kept]; exact stands⟩,
        delivers_of_other l here⟩
      rw [loops_of_other taken l here]
      exact polling
  · rw [heard requests replied queryId] at carried
    cases carried
  · right
    -- Nobody else can have got it.
    have same := awaited.one_loop l l' p polling polling'
    subst same
    cases taken with
    | deliver _ _ p' phase requests' stage visits =>
      rw [polling] at phase
      cases phase
      rw [replied] at stage
      cases stage
      rw [State.setLoop_loops, Function.update_self]
      exact .processing order request rfl
        (visits.mem_iff.mpr ((HashMap.mem_iter_iff _ _ _).mpr carried)) stands

/-- A query stays queued until it is drained. -/
theorem queued_step (represented : Represented s) (taken : Step fromStr config s a t)
    (other : ∀ p, a ≠ .drain p) (q : Query) (ticket : QueryTicket)
    (found : s.tickets[q]? = some ticket) (stage : ticket.stage = .queued) :
    ∃ ticket' : QueryTicket, t.tickets[q]? = some ticket' ∧ ticket'.id = ticket.id ∧
      ticket'.stage = .queued := by
  cases taken with
  | drain p => exact absurd rfl (other p)
  | request => exact ⟨ticket, (Lifecycle.get_enqueue_iff _ _ _ _ _).mpr (Or.inl found), rfl, stage⟩
  | waitReturn query =>
    refine ⟨_, (Lifecycle.get_modify_iff _ _ _ _ _).mpr ⟨ticket, found, rfl⟩, ?_⟩
    split <;> exact ⟨rfl, stage⟩
  | resolve p queryId response rest _ query awaited =>
    refine ⟨_, (Lifecycle.get_modify_iff _ _ _ _ _).mpr ⟨ticket, found, rfl⟩, ?_⟩
    -- What is resolved was handed out.
    have different : query ≠ q := by
      rintro rfl
      obtain ⟨ticket', found', _, stage'⟩ := (represented.refines.handedOut queryId query).mp awaited
      rw [found] at found'
      cases found'
      rw [stage] at stage'
      cases stage'
    rw [if_neg different]
    exact ⟨rfl, stage⟩
  | _ => exact ⟨ticket, found, rfl, stage⟩

theorem ahead_step (represented : Represented s) (tracked : Tracked s) (awaited : Awaited s)
    (heard : Heard s a) (taken : Step fromStr config s a t) (q : Query) (queryId : String)
    (unresolved : ¬ s.IsResolved q queryId) (polled : L → Nat) (ahead : Ahead s q queryId polled) :
    Ahead t q queryId fun l => polled l + if a.delivers l then 1 else 0 := by
  cases ahead with
  | held l holds few =>
    obtain ⟨holds', none⟩ := holds_step tracked taken l q queryId unresolved holds
    exact .held l holds' (by simpa [none] using few)
  | carried l p carries few =>
    rcases carries_step represented awaited heard taken l p q queryId carries with
      ⟨carries', none⟩ | holds
    · exact .carried l p carries' (by simpa [none] using few)
    · refine .held l holds ?_
      split <;> omega
  | queued ticket found id stage few =>
    by_cases drains : ∃ p, a = .drain p
    -- The poll that drains the query is one of the loop that waits for it.
    · obtain ⟨p, rfl⟩ := drains
      obtain ⟨poll, _, polls, replies, stands, _, _, loops, _⟩ := drain_effect s t p taken
      have pending := (represented.refines.queued queryId q).mpr ⟨ticket, found, id, stage⟩
      rcases heard with ⟨l, polling⟩ | none
      · refine .carried l p ⟨loops ▸ polling, ?_, ?_⟩ ?_
        · refine ⟨s.manager.getPendingRequests.2, s.manager.request q, ?_, ?_⟩
          · rw [polls, Function.update_self, replies]
          · rw [QueryManager.getPendingRequests_reply, pending]
            rfl
        · rw [polls, Function.update_self, stands, pending, Option.getD_some]
        · rcases few l with zero | ⟨one, _⟩
          · simp [Action.delivers, zero]
          · simp [Action.delivers, one]
      · rw [none queryId] at pending
        cases pending
    · have other (p : Nat) : a ≠ .drain p := fun drain => drains ⟨p, drain⟩
      obtain ⟨ticket', found', id', stage'⟩ := queued_step represented taken other q ticket found stage
      refine .queued ticket' found' (id'.trans id) stage' fun l => ?_
      cases delivers : a.delivers l with
      | true =>
        -- A reply was there for the loop, so this is the first.
        right
        cases taken with
        | deliver l' order p phase requests replied =>
          have same : l' = l := of_decide_eq_true delivers
          subst same
          rcases few l' with zero | ⟨_, unanswered⟩
          · refine ⟨by simp [zero], fun p' requests' polling => ?_⟩
            rw [State.setLoop_loops, Function.update_self] at polling
            cases polling
          · exact absurd replied (unanswered p requests phase)
        | _ => cases delivers
      | false =>
        rcases few l with zero | ⟨one, unanswered⟩
        · exact Or.inl (by simp [zero])
        · refine Or.inr ⟨by simp [one], fun p requests polling replied => ?_⟩
          have before := ((replied_cases taken p requests replied).resolve_left (other p)).1
          rcases polling_cases taken l p polling with ⟨_, new⟩ | ⟨polling', _⟩
          · have unsent := represented.unsent p (Nat.le_of_eq new.symm)
            rw [before] at unsent
            cases unsent
          · exact unanswered p requests polling' before

/-! ## Whole runs -/

/-- A query that is not resolved has everything ahead of it, wherever it is. -/
theorem ahead_start (reached : Reachable (step fromStr config) Heard .start s) (q : Query)
    (ticket : QueryTicket) (found : s.tickets[q]? = some ticket) (unresolved : ticket.live) :
    Ahead s q ticket.id fun _ => 0 := by
  cases stage : ticket.stage with
  | resolved => exact absurd stage unresolved
  | queued => exact .queued ticket found rfl stage fun _ => Or.inl rfl
  | handedOut =>
    have keeps := reached.mono fun _ _ _ heard => heard.keepsReplies
    cases reachable_findable keeps q ticket found stage with
    | reply p requests request replied carried stands =>
      obtain ⟨l, polling⟩ := (reachable_awaited reached).waits p requests ticket.id request replied carried
      exact .carried l p ⟨polling, ⟨requests, request, replied, carried⟩, stands⟩ (Nat.zero_le 1)
    | processing l rest request phase member stands =>
      exact .held l (.processing rest request phase member stands) (Nat.zero_le 2)
    | pending l response held stands => exact .held l (.pending response held stands) (Nat.zero_le 2)
    | aborted l phase => exact .held l (.aborted phase) (Nat.zero_le 2)

theorem ahead_path (reached : Reachable (step fromStr config) Heard .start s) (q : Query)
    (queryId : String) (start : Ahead s q queryId fun _ => 0) (labels : List (Action L))
    (path : Path (step fromStr config) Heard s labels t) :
    t.IsResolved q queryId ∨ Ahead t q queryId fun l => labels.countP (Action.delivers l) := by
  induction path with
  | nil => exact Or.inr start
  | @snoc labels u v a before heard taken ih =>
    have reached' := before.reachable reached
    have moved := step_cases u v a taken
    by_cases resolved : u.IsResolved q queryId
    · exact Or.inl ((step_extends u v a moved).resolved resolved)
    · right
      have ahead := ahead_step (reachable_invariant reached').represented (reachable_tracked reached')
        (reachable_awaited reached') heard moved q queryId resolved _ (ih.resolve_left resolved)
      simpa only [List.countP_append, List.countP_singleton] using ahead

theorem path_extends {allowed : State L → Action L → Prop} (labels : List (Action L))
    (path : Path (step fromStr config) allowed s labels t) : Lifecycle.Extends s.tickets t.tickets := by
  induction path with
  | nil => exact .refl _
  | snoc a _ _ taken ih => exact ih.trans (step_extends _ _ a (step_cases _ _ a taken))

/-- The response of a resolved query is there as long as its client waits. -/
def State.Kept (s : State L) : Prop :=
  ∀ (q : Query) endpoint (ticket : QueryTicket), s.waiting q = some endpoint →
    s.tickets[q]? = some ticket → ticket.stage = .resolved → ∃ response, ticket.response = some response

theorem kept_step (represented : Represented s) (h : s.Kept) (taken : Step fromStr config s a t) :
    t.Kept := by
  intro q endpoint ticket waits found stage
  cases taken with
  | request _ _ rng queryRequest _ queryId generated manager query enqueued =>
    obtain ⟨_, _, rfl, _⟩ := represented.refines.enqueueQuery rng queryRequest manager query enqueued
    rcases (Lifecycle.get_enqueue_iff _ _ _ _ _).mp found with old | ⟨_, rfl⟩
    · have different : q ≠ s.tickets.length :=
        Nat.ne_of_lt (List.getElem?_eq_some_iff.mp old).1
      dsimp only at waits
      rw [Function.update_of_ne different] at waits
      exact h q endpoint ticket waits old stage
    · cases stage
  | waitReturn query =>
    obtain ⟨before, found', rfl⟩ := (Lifecycle.get_modify_iff _ _ _ _ _).mp found
    -- The client whose wait returns waits no more.
    by_cases same : query = q
    · dsimp only at waits
      rw [same, Function.update_self] at waits
      cases waits
    · rw [if_neg same] at stage ⊢
      dsimp only at waits
      rw [Function.update_of_ne (Ne.symm same)] at waits
      exact h q endpoint before waits found' stage
  | resolve p queryId response rest _ query =>
    obtain ⟨before, found', rfl⟩ := (Lifecycle.get_modify_iff _ _ _ _ _).mp found
    split
    · exact ⟨response, rfl⟩
    next different =>
      rw [if_neg different] at stage
      exact h q endpoint before waits found' stage
  | drain p =>
    obtain ⟨before, found', rfl⟩ := (Lifecycle.get_handOut_iff _ _ _).mp found
    rw [before.handOut_response]
    exact h q endpoint before waits found' (before.handOut_resolved_iff.mp stage)
  | _ => exact h q endpoint ticket waits found stage

theorem reachable_kept {allowed : State L → Action L → Prop}
    (reached : Reachable (step fromStr config) allowed .start s) : s.Kept := by
  refine reached.invariant State.Kept (fun q endpoint ticket waits => by cases waits) ?_
  intro s a t before _ h taken
  exact kept_step (reachable_invariant before).represented h (step_cases s t a taken)

/-- **The third poll.** In every run in which no reply with a request goes
unheard, a query is resolved once three polls of every loop have succeeded, and
its client's wait then ends with a response. -/
theorem answered_by_third_poll [Nonempty L] (s t : State L)
    (reached : Reachable (step fromStr config) Heard .start s) (q : Query) (ticket : QueryTicket)
    (found : s.tickets[q]? = some ticket) (labels : List (Action L))
    (path : Path (step fromStr config) Heard s labels t)
    (polled : ∀ l, 3 ≤ labels.countP (Action.delivers l)) :
    t.IsResolved q ticket.id ∧
      ∀ endpoint, t.waiting q = some endpoint → ∃ response, (t.manager.wait q).2 = .ok response := by
  have reached' := path.reachable reached
  have resolved : t.IsResolved q ticket.id := by
    by_cases unresolved : ticket.live
    · rcases ahead_path reached q ticket.id (ahead_start reached q ticket found unresolved) labels path
        with resolved | ahead
      · exact resolved
      -- Where the query would be otherwise, some loop has had less than three polls.
      · exfalso
        cases ahead with
        | queued _ _ _ _ few =>
          obtain ⟨l⟩ := ‹Nonempty L›
          have three := polled l
          rcases few l with zero | ⟨one, _⟩ <;> omega
        | carried l _ _ few => exact absurd (polled l) (by omega)
        | held l _ few => exact absurd (polled l) (by omega)
    · have here : s.IsResolved q ticket.id := ⟨ticket, found, rfl, not_not.mp unresolved⟩
      exact (path_extends labels path).resolved here
  refine ⟨resolved, fun endpoint waits => ?_⟩
  obtain ⟨ticket', found', _, stage⟩ := resolved
  obtain ⟨response, stored⟩ := reachable_kept reached' q endpoint ticket' waits found' stage
  refine ⟨response, ?_⟩
  have cell := (reachable_invariant reached').represented.refines.cells q ticket' found'
  rw [QueryManager.wait, cell, stored]

def LoopPhase.isPolling (p : Nat) : LoopPhase → Bool
  | .polling p' => p' = p
  | _ => false

/-- No message is lost, and the loop waits for the poll that is drained. -/
def Smooth (s : State Unit) (a : Action Unit) : Prop :=
  match a with
  | .drain p => (s.loops ()).phase.isPolling p = true
  | .fail _ => False
  | .lose _ => False
  | _ => True

instance (s : State Unit) (a : Action Unit) : Decidable (Smooth s a) :=
  match a with
  | .drain p => inferInstanceAs (Decidable ((s.loops ()).phase.isPolling p = true))
  | .fail _ | .lose _ => inferInstanceAs (Decidable False)
  | .request .. | .waitReturn _ | .send _ | .accept .. | .resolve _ | .deliver .. | .process .. | .sleep _ =>
    inferInstanceAs (Decidable True)

theorem Smooth.heard (s : State Unit) (a : Action Unit) (smooth : Smooth s a) : Heard s a := by
  cases a with
  | drain p =>
    left
    refine ⟨(), ?_⟩
    change (s.loops ()).phase.isPolling p = true at smooth
    cases phase : (s.loops ()).phase with
    | polling p' =>
      rw [phase] at smooth
      rw [of_decide_eq_true smooth]
    | _ => rw [phase] at smooth; cases smooth
  | fail | lose => exact smooth.elim
  | _ => trivial

/-- The rest of a round trip, up to the third poll that succeeds. -/
def threePolls : List (Action Unit) :=
  (roundTrip.drop 1).take 9 ++
    [.drain 1, .deliver () [], .sleep (), .send (), .accept 2 [], .drain 2, .deliver () []]

theorem answered_by_third_poll_roundTrip :
    ∃ s t : State Unit, ∃ ticket : QueryTicket,
      Reachable (step parse fun _ => {}) Heard .start s ∧ s.tickets[0]? = some ticket ∧ ticket.live ∧
      Path (step parse fun _ => {}) Heard s threePolls t ∧ t.waiting 0 = some .unencryptedRequest ∧
      t.IsResolved 0 ticket.id ∧ ∃ response, (t.manager.wait 0).2 = .ok response := by
  obtain ⟨s, reached, computed⟩ := exists_reachable_of_run (step parse fun _ => {}) Smooth .start
    (roundTrip.take 1) (fun s => (s.tickets[0]?.any fun ticket => ticket.live) &&
      (run (step parse fun _ => {}) Smooth s threePolls).any fun t =>
        t.waiting 0 = some .unencryptedRequest)
    (by decide +kernel)
  obtain ⟨waits, ran⟩ := Bool.and_eq_true_iff.mp computed
  obtain ⟨ticket, found, live⟩ := (Option.any_eq_true _ _).mp waits
  obtain ⟨t, taken, waiting⟩ := (Option.any_eq_true _ _).mp ran
  have heard := reached.mono fun s a _ smooth => Smooth.heard s a smooth
  have path := (path_of_run threePolls s t taken).mono Smooth.heard
  have still := of_decide_eq_true waiting
  obtain ⟨resolved, answered⟩ := answered_by_third_poll s t heard 0 ticket found threePolls path
    fun () => by decide
  exact ⟨s, t, ticket, heard, found, of_decide_eq_true live, path, still, resolved, answered _ still⟩

end FullServiceMirror
