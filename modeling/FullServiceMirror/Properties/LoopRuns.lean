import FullServiceMirror.Properties.Progress
import FullServiceMirror.System.Iteration

/-!
# Every loop runs `pollingLoop`

In a run of the system the actions of other parties come between those of a
loop. Its own actions still are the iterations of `pollingLoop` on some outcomes
of its polls and the beginning of one more: the same maps sent, the same bodies
POSTed.
-/
namespace FullServiceMirror

open Rust Json Transition

variable {L : Type}

/-- The loop that sends a poll. -/
def Action.sends : Action L → Option L
  | .send l => some l
  | _ => none

theorem Action.eq_send {a : Action L} {l : L} (sends : a.sends = some l) : a = .send l := by
  cases a with
  | send l' =>
    cases sends
    rfl
  | _ => cases sends

/-- The actions of a loop in one iteration. -/
def iterationSteps (l : L) : PollOutcome → List (Action L)
  | .ok response exchange => .send l :: afterPollSteps l exchange response.queryRequests
  | .err => [.send l, .fail l]

theorem getElem?_append_of_some {α : Type} {xs ys : List α} {j : Nat} {x : α}
    (at_j : xs[j]? = some x) : (xs ++ ys)[j]? = some x := by
  obtain ⟨inside, _⟩ := List.getElem?_eq_some_iff.mp at_j
  rw [List.getElem?_append_left inside, at_j]

theorem getElem?_concat_cases {α : Type} {xs : List α} {y x : α} {j : Nat}
    (at_j : (xs ++ [y])[j]? = some x) : xs[j]? = some x ∨ (j = xs.length ∧ y = x) := by
  rw [List.getElem?_append] at at_j
  split at at_j
  · exact Or.inl at_j
  next beyond =>
    right
    obtain ⟨first, same⟩ := List.getElem?_eq_some_iff.mp at_j
    rw [List.length_singleton] at first
    exact ⟨by omega, by simpa using same⟩

/-! ## An iteration under way -/

section

variable (fromStr : String → Except String Value) (config : Config)

/-- The bodies POSTed for these entries of a reply. -/
def postedFor (exchange : String → Exchange) (entries : List (String × QueryRequest)) : List String :=
  entries.flatMap fun e => (respond fromStr config (exchange e.1) e.2).1

/-- The bodies POSTed in an iteration. -/
def PollOutcome.bodies : PollOutcome → List String
  | .ok response exchange => postedFor fromStr config exchange response.queryRequests.iter
  | .err => []

/-- How far a loop is in an iteration that began with these responses pending:
its phase and map, an outcome of the poll that fits, and the actions and the
bodies POSTed so far. -/
inductive Underway (l : L) (pending : HashMap String QueryResponse) : LoopPhase →
    HashMap String QueryResponse → PollOutcome → List (Action L) → List String → Prop
  | ready : Underway l pending .ready pending .err [] []
  | polling (p : Nat) : Underway l pending (.polling p) pending .err [.send l] []
  | processing (reply : HashMap String QueryRequest) (exchange : String → Exchange)
      (done rest : List (String × QueryRequest)) (entries : reply.iter = done ++ rest)
      (stored : HashMap String QueryResponse)
      (processed : processRequests fromStr config exchange done .new = some stored) :
      Underway l pending (.processing rest) stored (.ok { queryRequests := reply } exchange)
        (.send l :: .deliver l reply.iter :: done.map fun e => .process l (exchange e.1))
        (postedFor fromStr config exchange done)
  | aborted (reply : HashMap String QueryRequest) (exchange : String → Exchange)
      (done rest : List (String × QueryRequest)) (entry : String × QueryRequest)
      (entries : reply.iter = done ++ entry :: rest) (stored : HashMap String QueryResponse)
      (processed : processRequests fromStr config exchange done .new = some stored)
      (panicked : (respond fromStr config (exchange entry.1) entry.2).2 = none) :
      Underway l pending .aborted stored (.ok { queryRequests := reply } exchange)
        (.send l :: .deliver l reply.iter :: (done ++ [entry]).map fun e => .process l (exchange e.1))
        (postedFor fromStr config exchange (done ++ [entry]))

end

variable {fromStr : String → Except String Value} {config : Config} {l : L}
variable {pending stored : HashMap String QueryResponse} {phase : LoopPhase} {outcome : PollOutcome}
variable {begun : List (Action L)} {bodies : List String}

/-- An iteration under way is a proper beginning of one. -/
theorem Underway.beginning (h : Underway fromStr config l pending phase stored outcome begun bodies) :
    begun <+: iterationSteps l outcome ∧ begun.length < (iterationSteps l outcome).length := by
  cases h with
  | ready => exact ⟨List.nil_prefix, Nat.zero_lt_two⟩
  | polling p => exact ⟨⟨[.fail l], rfl⟩, Nat.one_lt_two⟩
  | processing reply exchange done rest entries _ processed =>
    rw [iterationSteps, afterPollSteps, entries]
    constructor <;> simp
  | aborted reply exchange done rest entry entries _ processed panicked =>
    rw [iterationSteps, afterPollSteps, entries]
    constructor <;> simp

theorem Underway.bodies_beginning
    (h : Underway fromStr config l pending phase stored outcome begun bodies) :
    bodies <+: outcome.bodies fromStr config := by
  cases h with
  | ready => exact List.nil_prefix
  | polling p => exact List.nil_prefix
  | processing reply exchange done rest entries _ processed =>
    rw [PollOutcome.bodies, entries]
    exact ⟨_, List.flatMap_append.symm⟩
  | aborted reply exchange done rest entry entries _ processed panicked =>
    rw [PollOutcome.bodies, entries, List.append_cons done entry rest]
    exact ⟨_, List.flatMap_append.symm⟩

/-- A loop that panicked would have panicked in `pollingLoop`. -/
theorem Underway.panics (h : Underway fromStr config l pending .aborted stored outcome begun bodies) :
    afterPoll fromStr config pending outcome = none := by
  cases h with
  | aborted reply exchange done rest entry entries _ processed panicked =>
    rw [afterPoll, entries, processRequests_append _ _ _ _ _ processed, processRequests, panicked]

/-- How the wallet service treats a request is open until the request is processed. -/
theorem Underway.choose {queryId : String} {request : QueryRequest}
    {rest : List (String × QueryRequest)} (h : Underway fromStr config l pending
      (.processing ((queryId, request) :: rest)) stored outcome begun bodies) (chosen : Exchange) :
    ∃ (reply : HashMap String QueryRequest) (exchange : String → Exchange)
      (done : List (String × QueryRequest)),
      (∃ exchange', outcome = .ok { queryRequests := reply } exchange') ∧
      reply.iter = done ++ (queryId, request) :: rest ∧ exchange queryId = chosen ∧
      processRequests fromStr config exchange done .new = some stored ∧
      begun = .send l :: .deliver l reply.iter :: (done.map fun e => .process l (exchange e.1)) ∧
      bodies = postedFor fromStr config exchange done := by
  cases h with
  | processing reply exchange done rest entries _ processed =>
    -- No request before this one has its id.
    have others : ∀ e ∈ done, exchange e.1 = Function.update exchange queryId chosen e.1 := by
      intro e member
      have unique := reply.iter_keys_nodup
      rw [entries, List.map_append, List.nodup_append] at unique
      have different : e.1 ≠ queryId :=
        unique.2.2 e.1 (List.mem_map_of_mem member) queryId List.mem_cons_self
      rw [Function.update_of_ne different]
    refine ⟨reply, Function.update exchange queryId chosen, done, ⟨exchange, rfl⟩, entries,
      Function.update_self _ _ _, ?_, ?_, ?_⟩
    · rw [← processRequests_congr exchange _ done others]
      exact processed
    · congr 2
      apply List.map_congr_left
      intro e member
      rw [others e member]
    · apply List.flatMap_congr
      intro e member
      rw [others e member]

/-! ## The actions of a loop -/

variable [DecidableEq L]

/-- The polls that a loop sent. All polls are numbered in the order of their sending. -/
def pollsOf (l : L) (labels : List (Action L)) : List Nat :=
  ((labels.filterMap Action.sends).zipIdx.filter fun e => e.1 = l).map Prod.snd

/-- The bodies that a loop POSTed. -/
def State.bodiesOf (s : State L) (l : L) : List String :=
  (s.posts.filter fun post => post.l = l).map (·.body)

/-- The maps that the polls of a loop carry. -/
def State.mapsOf (s : State L) (l : L) (labels : List (Action L)) :
    List (HashMap String QueryResponse) :=
  (pollsOf l labels).map fun p => (s.polls p).responses

/-- The reply to the poll of a loop has arrived, with its requests in some order. -/
def State.Receives (s : State L) (l : L) (response : PollResponse) : Prop :=
  ∃ p requests, (s.loops l).phase = .polling p ∧ (s.polls p).stage = .replied requests ∧
    response.queryRequests.iter.Perm requests.iter

variable {config : L → Config} {s t : State L} {a : Action L}

/-- Bodies are POSTed by a loop that processes a request. -/
theorem bodiesOf_process (queryId : String) (exchange : Exchange) (request : QueryRequest)
    (posts : t.posts = s.posts ++ (respond fromStr (config l) exchange request).1.map
      fun body => ⟨l, (s.loops l).origin queryId, body⟩) :
    t.bodiesOf l = s.bodiesOf l ++ (respond fromStr (config l) exchange request).1 := by
  rw [State.bodiesOf, posts, List.filter_append, List.map_append]
  congr 1
  simp [List.filter_map, Function.comp_def]

/-- One action of a loop: the iteration goes on, or ends as one of `pollingLoop`.
A reply is the one that was delivered, or the one that there was before. -/
theorem underway_step (taken : Step fromStr config s a t) (own : a.loop = some l)
    (h : Underway fromStr (config l) l pending (s.loops l).phase (s.loops l).pendingResponses outcome
      begun bodies) :
    ∃ outcome' posted, t.bodiesOf l = s.bodiesOf l ++ posted ∧
      (∀ response exchange', outcome' = .ok response exchange' →
        (∃ exchange, outcome = .ok response exchange) ∨ s.Receives l response) ∧
      (Underway fromStr (config l) l pending (t.loops l).phase (t.loops l).pendingResponses outcome'
          (begun ++ [a]) (bodies ++ posted) ∨
        ((t.loops l).phase = .ready ∧
          afterPoll fromStr (config l) pending outcome' = some (t.loops l).pendingResponses ∧
          begun ++ [a] = iterationSteps l outcome' ∧
          bodies ++ posted = outcome'.bodies fromStr (config l))) := by
  generalize held : (s.loops l).pendingResponses = stored at h
  -- The phase of the loop says how far the iteration was before the action.
  cases taken with
  | send l' phase =>
    cases own
    rw [phase] at h
    cases h
    refine ⟨.err, [], (List.append_nil _).symm, nofun, Or.inl ?_⟩
    simp only [State.setLoop_loops, Function.update_self, held]
    exact .polling s.sent
  | deliver l' order p phase requests stage visits =>
    cases own
    rw [phase] at h
    cases h
    -- The map of the reply may list its entries in the order in which they are visited.
    obtain ⟨reply, rfl, _⟩ := HashMap.Visits.relist visits
    refine ⟨.ok { queryRequests := reply } fun _ => .text "", [], (List.append_nil _).symm, ?_,
      Or.inl ?_⟩
    · rintro _ _ ⟨⟩
      exact Or.inr ⟨p, requests, phase, stage, visits⟩
    simp only [State.setLoop_loops, Function.update_self]
    exact .processing reply (fun _ => .text "") [] reply.iter rfl .new rfl
  | fail l' p phase =>
    cases own
    rw [phase] at h
    cases h
    refine ⟨.err, [], (List.append_nil _).symm, nofun, Or.inr ⟨?_, ?_, rfl, rfl⟩⟩
    · simp
    · simp [afterPoll, held]
  | abort l' exchange queryId request rest phase panicked =>
    cases own
    rw [phase] at h
    obtain ⟨reply, exchange', done, before, entries, rfl, processed, rfl, rfl⟩ := h.choose exchange
    refine ⟨.ok { queryRequests := reply } exchange', _, bodiesOf_process queryId _ request rfl, ?_,
      Or.inl ?_⟩
    · rintro _ _ ⟨⟩
      exact Or.inl before
    -- The loop stays where it is, with the request that panicked among its actions.
    have stuck := @Underway.aborted L fromStr (config l) l pending reply exchange' done rest
      (queryId, request) entries stored processed panicked
    simpa [postedFor, held] using stuck
  | process l' exchange queryId request rest phase response answered =>
    cases own
    rw [phase] at h
    obtain ⟨reply, exchange', done, before, entries, rfl, processed, rfl, rfl⟩ := h.choose exchange
    refine ⟨.ok { queryRequests := reply } exchange', _, bodiesOf_process queryId _ request rfl, ?_,
      Or.inl ?_⟩
    · rintro _ _ ⟨⟩
      exact Or.inl before
    have further : processRequests fromStr (config l) exchange' (done ++ [(queryId, request)]) .new =
        some (stored.insert queryId response) := by
      rw [processRequests_append _ _ _ _ _ processed, processRequests, answered]
      rfl
    have next := @Underway.processing L fromStr (config l) l pending reply exchange'
      (done ++ [(queryId, request)]) rest (by rw [entries, List.append_cons]) _ further
    simpa [postedFor, held] using next
  | sleep l' phase =>
    cases own
    rw [phase] at h
    cases h with
    | processing reply exchange done _ entries _ processed =>
      -- No request is left: all of the reply is processed, as `afterPoll` does it.
      rw [List.append_nil] at entries
      refine ⟨.ok { queryRequests := reply } exchange, [], (List.append_nil _).symm,
        fun response exchange' same => Or.inl ⟨exchange', same⟩, Or.inr ⟨?_, ?_, ?_, ?_⟩⟩
      · simp
      · simp [afterPoll, held, entries, processed]
      · simp [iterationSteps, afterPollSteps, entries]
      · simp [PollOutcome.bodies, entries]
  | _ => cases own

/-- A loop sends at the beginning of an iteration, the map that is pending, and only then. -/
theorem first_sends (taken : Step fromStr config s a t) (own : a.loop = some l)
    (h : Underway fromStr (config l) l pending (s.loops l).phase (s.loops l).pendingResponses outcome
      begun bodies) :
    (a.sends = some l ∧ begun = [] ∧ (s.loops l).pendingResponses = pending) ∨
      (a.sends ≠ some l ∧ begun ≠ []) := by
  generalize (s.loops l).pendingResponses = stored at h
  cases taken with
  | send l' phase =>
    cases own
    rw [phase] at h
    cases h
    exact Or.inl ⟨rfl, rfl, rfl⟩
  | deliver l' _ _ phase | fail l' _ phase | abort l' _ _ _ _ phase | process l' _ _ _ _ phase
  | sleep l' phase =>
    cases own
    rw [phase] at h
    cases h
    exact Or.inr ⟨nofun, List.cons_ne_nil _ _⟩
  | _ => cases own

/-! ## What the other parties do -/

theorem bodiesOf_of_other (taken : Step fromStr config s a t) (other : a.loop ≠ some l) :
    t.bodiesOf l = s.bodiesOf l := by
  cases taken with
  | abort l' | process l' =>
    have different : l' ≠ l := fun same => other (congrArg some same)
    simp [State.bodiesOf, List.filter_map, Function.comp_def, different]
  | _ => rfl

theorem pollsOf_append (labels : List (Action L)) (a : Action L) :
    pollsOf l (labels ++ [a]) = pollsOf l labels ++
      if a.sends = some l then [(labels.filterMap Action.sends).length] else [] := by
  rw [pollsOf, List.filterMap_append, List.zipIdx_append, List.filter_append, List.map_append,
    pollsOf]
  congr 1
  cases sends : a.sends with
  | none => simp [sends]
  | some l' => by_cases same : l' = l <;> simp [sends, same]

theorem pollsOf_lt (labels : List (Action L)) (p : Nat) (member : p ∈ pollsOf l labels) :
    p < (labels.filterMap Action.sends).length := by
  obtain ⟨⟨l', p'⟩, found, rfl⟩ := List.mem_map.mp member
  exact List.snd_lt_of_mem_zipIdx (List.mem_filter.mp found).1

/-- Polls are numbered as they are sent. -/
theorem sent_step (taken : Step fromStr config s a t) : t.sent = s.sent + a.sends.toList.length := by
  cases taken <;> rfl

/-- What a poll carries does not change on its way. -/
theorem responses_kept (taken : Step fromStr config s a t) (p : Nat) (sent : p < s.sent) :
    (t.polls p).responses = (s.polls p).responses := by
  have moved (p' : Nat) (poll : Poll) (polls : t.polls = (s.setPoll p' poll).polls)
      (same : p = p' → poll.responses = (s.polls p').responses) :
      (t.polls p).responses = (s.polls p).responses := by
    rw [polls, State.setPoll_polls]
    by_cases here : p = p'
    · rw [here, Function.update_self, same here]
    · rw [Function.update_of_ne here]
  cases taken with
  | send => exact moved _ _ rfl fun here => absurd here (Nat.ne_of_lt sent)
  | accept | unknown | resolve | drain | deliver | loseRequest | loseReply =>
    exact moved _ _ rfl fun _ => rfl
  | _ => rfl

theorem sent_eq (labels : List (Action L)) (s : State L)
    (path : Path (step fromStr config) Any .start labels s) :
    s.sent = (labels.filterMap Action.sends).length := by
  induction path with
  | nil => rfl
  | snoc a _ _ taken ih =>
    rw [sent_step (step_cases _ _ a taken), ih, List.filterMap_append, List.length_append]
    cases sends : a.sends <;> simp [sends]

/-- One action sends one map at most, the one that its loop holds. -/
theorem mapsOf_step (labels : List (Action L)) (path : Path (step fromStr config) Any .start labels s)
    (taken : Step fromStr config s a t) :
    t.mapsOf l (labels ++ [a]) = s.mapsOf l labels ++
      if a.sends = some l then [(s.loops l).pendingResponses] else [] := by
  have earlier : (pollsOf l labels).map (fun p => (t.polls p).responses) = s.mapsOf l labels := by
    apply List.map_congr_left
    intro p member
    apply responses_kept taken
    rw [sent_eq labels s path]
    exact pollsOf_lt labels p member
  rw [State.mapsOf, pollsOf_append, List.map_append, earlier]
  congr 1
  split
  next sends =>
    cases Action.eq_send sends
    cases taken with
    | send _ phase => simp [← sent_eq labels s path]
  · rfl

/-! ## Where replies come from -/

variable (fromStr config) in
/-- `poll_impl` answered a poll with these requests, which were pending then. -/
def Drained (labels : List (Action L)) (p : Nat) (requests : HashMap String QueryRequest) : Prop :=
  ∃ earlier later u, labels = earlier ++ .drain p :: later ∧
    Path (step fromStr config) Any .start earlier u ∧ u.manager.getPendingRequests.2 = requests

theorem Drained.mono {labels : List (Action L)} {p : Nat} {requests : HashMap String QueryRequest}
    (drained : Drained fromStr config labels p requests) (a : Action L) :
    Drained fromStr config (labels ++ [a]) p requests := by
  obtain ⟨earlier, later, u, rfl, path, got⟩ := drained
  exact ⟨earlier, later ++ [a], u, by simp, path, got⟩

theorem drained_of_replied (labels : List (Action L))
    (path : Path (step fromStr config) Any .start labels s) (p : Nat)
    (requests : HashMap String QueryRequest) (replied : (s.polls p).stage = .replied requests) :
    Drained fromStr config labels p requests := by
  induction path with
  | nil => cases replied
  | snoc a before _ taken ih =>
    have moved := step_cases _ _ a taken
    rcases replied_cases moved p requests replied with rfl | ⟨earlier, _⟩
    · cases moved with
      | drain _ stage =>
        simp only [State.setPoll_polls, Function.update_self] at replied
        cases replied
        exact ⟨_, [], _, rfl, before, rfl⟩
    · exact (ih earlier).mono a

variable (fromStr config) in
/-- The poll of an iteration was answered with the requests of this reply. -/
def Replied (labels : List (Action L)) (l : L) (j : Nat) (response : PollResponse) : Prop :=
  ∃ p requests, (pollsOf l labels)[j]? = some p ∧ Drained fromStr config labels p requests ∧
    response.queryRequests.iter.Perm requests.iter

theorem pollsOf_mono {labels : List (Action L)} {j p : Nat} (sent : (pollsOf l labels)[j]? = some p)
    (a : Action L) : (pollsOf l (labels ++ [a]))[j]? = some p := by
  rw [pollsOf_append]
  exact getElem?_append_of_some sent

theorem Replied.mono {labels : List (Action L)} {j : Nat} {response : PollResponse}
    (replied : Replied fromStr config labels l j response) (a : Action L) :
    Replied fromStr config (labels ++ [a]) l j response := by
  obtain ⟨p, requests, sent, drained, visits⟩ := replied
  exact ⟨p, requests, pollsOf_mono sent a, drained.mono a, visits⟩

/-! ## Runs -/

variable (fromStr) in
/-- What a loop did in a run: the iterations of `pollingLoop` on these outcomes
and the beginning of one more. -/
structure RunsPollingLoop (config : L → Config) (labels : List (Action L)) (s : State L) (l : L)
    (outcomes : List PollOutcome) (iterations : List Iteration) (last : PollOutcome)
    (begun : List (Action L)) (bodies : List String) : Prop where
  ran : pollingLoop fromStr (config l) .new outcomes = some iterations
  actions : labels.filter (fun a => a.loop = some l) = outcomes.flatMap (iterationSteps l) ++ begun
  maps : s.mapsOf l labels = iterations.map (·.request.queryResponses) ++
    if begun = [] then [] else [pendingAfter .new iterations]
  replies : ∀ j response exchange, (outcomes ++ [last])[j]? = some (.ok response exchange) →
    Replied fromStr config labels l j response
  posted : s.bodiesOf l = outcomes.flatMap (·.bodies fromStr (config l)) ++ bodies
  polling : ∀ p, (s.loops l).phase = .polling p → (pollsOf l labels)[outcomes.length]? = some p
  underway : Underway fromStr (config l) l (pendingAfter .new iterations) (s.loops l).phase
    (s.loops l).pendingResponses last begun bodies

theorem runsPollingLoop_start (config : L → Config) (l : L) :
    RunsPollingLoop fromStr config [] .start l [] [] .err [] [] where
  ran := rfl
  actions := rfl
  maps := rfl
  replies := by
    intro j response exchange at_j
    cases j <;> cases at_j
  posted := rfl
  polling := by
    intro p polling
    cases polling
  underway := .ready

section

variable {labels : List (Action L)} {outcomes : List PollOutcome} {iterations : List Iteration}

/-- A loop that is ready has sent a poll for each iteration. -/
theorem RunsPollingLoop.polls_length
    (h : RunsPollingLoop fromStr config labels s l outcomes iterations outcome [] bodies) :
    (pollsOf l labels).length = outcomes.length := by
  have maps := congrArg List.length h.maps
  rw [State.mapsOf, List.length_map] at maps
  rw [maps, ← pollingLoop_length outcomes .new iterations h.ran]
  simp

/-- An action of another party. -/
theorem RunsPollingLoop.other (path : Path (step fromStr config) Any .start labels s)
    (h : RunsPollingLoop fromStr config labels s l outcomes iterations outcome begun bodies)
    (taken : Step fromStr config s a t) (other : a.loop ≠ some l) :
    RunsPollingLoop fromStr config (labels ++ [a]) t l outcomes iterations outcome begun bodies where
  ran := h.ran
  actions := by
    rw [List.filter_append, h.actions]
    simp [other]
  maps := by
    have quiet : a.sends ≠ some l := by
      intro sends
      cases Action.eq_send sends
      exact other rfl
    rw [mapsOf_step labels path taken, if_neg quiet, List.append_nil, h.maps]
  replies := fun j response exchange at_j => (h.replies j response exchange at_j).mono a
  posted := by rw [bodiesOf_of_other taken other, h.posted]
  polling := by
    intro p polling
    rw [loops_of_other taken l other] at polling
    exact pollsOf_mono (h.polling p polling) a
  underway := by
    rw [loops_of_other taken l other]
    exact h.underway

/-- The poll that a loop waits for is that of its iteration. -/
theorem RunsPollingLoop.polling_step (path : Path (step fromStr config) Any .start labels s)
    (h : RunsPollingLoop fromStr config labels s l outcomes iterations outcome begun bodies)
    (taken : Step fromStr config s a t) (own : a.loop = some l) (p : Nat)
    (polling : (t.loops l).phase = .polling p) :
    (pollsOf l (labels ++ [a]))[outcomes.length]? = some p := by
  rcases polling_cases taken l p polling with ⟨rfl, rfl⟩ | ⟨before, _⟩
  · rcases first_sends taken own h.underway with ⟨sends, rfl, _⟩ | ⟨quiet, _⟩
    · rw [pollsOf_append, if_pos sends, ← h.polls_length, sent_eq labels s path]
      exact List.getElem?_concat_length
    · exact absurd rfl quiet
  · exact pollsOf_mono (h.polling p before) a

/-- The first action of an iteration sends what is pending; the others send nothing. -/
theorem RunsPollingLoop.maps_step (path : Path (step fromStr config) Any .start labels s)
    (h : RunsPollingLoop fromStr config labels s l outcomes iterations outcome begun bodies)
    (taken : Step fromStr config s a t) (own : a.loop = some l) :
    t.mapsOf l (labels ++ [a]) =
      iterations.map (·.request.queryResponses) ++ [pendingAfter .new iterations] := by
  rw [mapsOf_step labels path taken, h.maps]
  rcases first_sends taken own h.underway with ⟨sends, rfl, pending⟩ | ⟨quiet, started⟩
  · rw [if_pos sends, if_pos rfl, List.append_nil, pending]
  · rw [if_neg quiet, if_neg started, List.append_nil]

/-- A reply is what its poll was answered with, also when it arrives just now. -/
theorem RunsPollingLoop.replies_step (path : Path (step fromStr config) Any .start labels s)
    (h : RunsPollingLoop fromStr config labels s l outcomes iterations outcome begun bodies)
    (outcome' : PollOutcome) (received : ∀ response exchange', outcome' = .ok response exchange' →
      (∃ exchange, outcome = .ok response exchange) ∨ s.Receives l response)
    (j : Nat) (response : PollResponse) (exchange : String → Exchange)
    (at_j : (outcomes ++ [outcome'])[j]? = some (.ok response exchange)) :
    Replied fromStr config (labels ++ [a]) l j response := by
  rcases getElem?_concat_cases at_j with earlier | ⟨rfl, same⟩
  · exact (h.replies j response exchange (getElem?_append_of_some earlier)).mono a
  · rcases received response exchange same with ⟨exchange', before⟩ | ⟨p, requests, polling, stage, visits⟩
    · have known := h.replies outcomes.length response exchange'
      rw [before] at known
      exact (known List.getElem?_concat_length).mono a
    · -- The poll that the loop waits for is the one of this iteration.
      exact ⟨p, requests, pollsOf_mono (h.polling p polling) a,
        (drained_of_replied labels path p requests stage).mono a, visits⟩

/-- An action of the loop itself. -/
theorem RunsPollingLoop.own (path : Path (step fromStr config) Any .start labels s)
    (h : RunsPollingLoop fromStr config labels s l outcomes iterations outcome begun bodies)
    (taken : Step fromStr config s a t) (own : a.loop = some l) :
    ∃ outcomes' iterations' outcome' begun' bodies', RunsPollingLoop fromStr config (labels ++ [a]) t l
      outcomes' iterations' outcome' begun' bodies' := by
  have actions : (labels ++ [a]).filter (fun a => a.loop = some l) =
      outcomes.flatMap (iterationSteps l) ++ (begun ++ [a]) := by
    rw [List.filter_append, h.actions, List.append_assoc]
    simp [own]
  have maps := h.maps_step path taken own
  obtain ⟨outcome', posted, more, received, progress⟩ := underway_step taken own h.underway
  have replies := h.replies_step (a := a) path outcome' received
  rw [h.posted, List.append_assoc] at more
  rcases progress with underway | ⟨ready, returned, finished, within⟩
  -- The iteration goes on.
  · refine ⟨outcomes, iterations, outcome', begun ++ [a], bodies ++ posted, h.ran, actions, ?_, replies,
      more, h.polling_step path taken own, underway⟩
    rw [maps, if_neg (by simp)]
  -- The iteration is over, and one more of `pollingLoop`.
  · let iteration : Iteration :=
      { request := { queryResponses := pendingAfter .new iterations }, outcome := outcome',
        pendingResponses := (t.loops l).pendingResponses }
    refine ⟨outcomes ++ [outcome'], iterations ++ [iteration], .err, [], [], ?_, ?_, ?_, ?_, ?_, ?_, ?_⟩
    · rw [pollingLoop_append _ _ _ _ h.ran, returned]
      rfl
    · rw [actions, finished]
      simp
    · rw [maps]
      simp [iteration]
    · intro j response exchange at_j
      rcases getElem?_concat_cases at_j with earlier | ⟨_, nothing⟩
      · exact replies j response exchange earlier
      · cases nothing
    · rw [more, within]
      simp
    · intro p polling
      rw [ready] at polling
      cases polling
    · rw [pendingAfter_append, ready]
      exact .ready

end

/-- **Every loop runs `pollingLoop`.** Whatever the clients, the network and the
other loops do in between, the actions of a loop in a run are the iterations of
`pollingLoop` on some outcomes and a proper beginning of one more. An `Ok` among
them is what `poll_impl` drained for that very poll. The maps that the polls carry
are those of the iterations and, once the next one has sent its own, what is
pending after them; the bodies POSTed are those of the iterations and a beginning
of the next one's; and where the loop panicked `pollingLoop` does. -/
theorem loop_runs_pollingLoop (labels : List (Action L)) (s : State L)
    (path : Path (step fromStr config) Any .start labels s) (l : L) :
    ∃ outcomes iterations last begun bodies,
      RunsPollingLoop fromStr config labels s l outcomes iterations last begun bodies ∧
      begun <+: iterationSteps l last ∧ begun.length < (iterationSteps l last).length ∧
      bodies <+: last.bodies fromStr (config l) ∧
      ((s.loops l).phase = .aborted →
        pollingLoop fromStr (config l) .new (outcomes ++ [last]) = none) := by
  have followed : ∃ outcomes iterations last begun bodies,
      RunsPollingLoop fromStr config labels s l outcomes iterations last begun bodies := by
    induction path with
    | nil => exact ⟨[], [], .err, [], [], runsPollingLoop_start config l⟩
    | snoc a before _ taken ih =>
      obtain ⟨outcomes, iterations, last, begun, bodies, h⟩ := ih
      have moved := step_cases _ _ a taken
      by_cases own : a.loop = some l
      · exact h.own before moved own
      · exact ⟨outcomes, iterations, last, begun, bodies, h.other before moved own⟩
  obtain ⟨outcomes, iterations, last, begun, bodies, h⟩ := followed
  refine ⟨outcomes, iterations, last, begun, bodies, h, h.underway.beginning.1,
    h.underway.beginning.2, h.underway.bodies_beginning, ?_⟩
  intro aborted
  have underway := h.underway
  rw [aborted] at underway
  rw [pollingLoop_append _ _ _ _ h.ran, underway.panics]
  rfl

theorem loop_runs_pollingLoop_roundTrip :
    ∃ (s : State Unit) (outcomes : List PollOutcome) (iterations : List Iteration) (last : PollOutcome)
      (begun : List (Action Unit)) (bodies : List String),
      (s.bodiesOf ()).length = 1 ∧
      RunsPollingLoop parse (fun _ => {}) roundTrip s () outcomes iterations last begun bodies ∧
      outcomes.flatMap (iterationSteps ()) ++ begun = roundTrip.filter fun a => a.loop = some () := by
  have computed : ((run (step parse fun _ => {}) Any State.start roundTrip).any fun s =>
      decide ((s.bodiesOf ()).length = 1)) = true := by decide +kernel
  obtain ⟨s, taken, posted⟩ := (Option.any_eq_true _ _).mp computed
  have path := path_of_run roundTrip State.start s taken
  obtain ⟨outcomes, iterations, last, begun, bodies, h, _⟩ := loop_runs_pollingLoop roundTrip s path ()
  exact ⟨s, outcomes, iterations, last, begun, bodies, of_decide_eq_true posted, h, h.actions.symm⟩

end FullServiceMirror
