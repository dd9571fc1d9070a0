import FullServiceMirror.Private.PollingLoop
import FullServiceMirror.System.Step

/-!
# An undisturbed iteration

The steps of the system are the pieces of `poll_impl` and of the polling loop.
When nothing comes between them, they add up to what the two functions compute.
-/
namespace FullServiceMirror

open Rust Json Transition

variable {L : Type} [DecidableEq L]
variable {fromStr : String → Except String Value} {config : L → Config}

/-- The steps of `poll_impl` on a request that carries these responses. -/
def pollImplSteps (p : Nat) (responses : HashMap String QueryResponse) : List (Action L) :=
  .accept p responses.iter :: (List.replicate responses.iter.length (.resolve p) ++ [.drain p])

/-- The steps of the loop on a reply that carries these requests. -/
def afterPollSteps (l : L) (exchange : String → Exchange) (requests : HashMap String QueryRequest) :
    List (Action L) :=
  .deliver l requests.iter ::
    ((requests.iter.map fun entry => .process l (exchange entry.1)) ++ [.sleep l])

theorem step_resolve (s : State L) (p : Nat) (queryId : String) (response : QueryResponse)
    (rest : List (String × QueryResponse))
    (stage : (s.polls p).stage = .resolving ((queryId, response) :: rest)) :
    ∃ t, step fromStr config s (.resolve p) = some t ∧
      t.manager = (s.manager.resolveQuery queryId response).1 ∧
      t.polls = Function.update s.polls p { s.polls p with stage := .resolving rest } ∧
      t.loops = s.loops := by
  simp only [step, stage]
  cases s.manager.pendingResponses.get queryId with
  | none => exact ⟨_, rfl, rfl, rfl, rfl⟩
  | some query => exact ⟨_, rfl, rfl, rfl, rfl⟩

/-- The first loop of `poll_impl`. -/
theorem resolveResponses_runs (entries : List (String × QueryResponse)) (s : State L) (p : Nat)
    (stage : (s.polls p).stage = .resolving entries) :
    ∃ t, run (step fromStr config) Any s (List.replicate entries.length (.resolve p)) = some t ∧
      t.manager = (MirrorService.resolveResponses s.manager entries).1 ∧
      t.polls = Function.update s.polls p { s.polls p with stage := .resolving [] } ∧
      t.loops = s.loops := by
  induction entries generalizing s with
  | nil =>
    refine ⟨s, rfl, rfl, ?_, rfl⟩
    rw [← stage, Function.update_eq_self]
  | cons entry rest ih =>
    obtain ⟨queryId, response⟩ := entry
    obtain ⟨u, moved, manager, polls, loops⟩ := step_resolve s p queryId response rest stage
    have stage_u : (u.polls p).stage = .resolving rest := by rw [polls, Function.update_self]
    obtain ⟨t, ran, manager', polls', loops'⟩ := ih u stage_u
    refine ⟨t, run_cons s u t _ _ trivial moved ran, ?_, ?_, loops'.trans loops⟩
    · rw [manager', manager]
      rfl
    · rw [polls', polls, Function.update_idem, Function.update_self]

/-- `poll_impl`, when nothing comes between its steps. -/
theorem pollImpl_runs (s : State L) (p : Nat) (stage : (s.polls p).stage = .requested) :
    ∃ t, run (step fromStr config) Any s (pollImplSteps p (s.polls p).responses) = some t ∧
      t.manager = (MirrorService.pollImpl s.manager { queryResponses := (s.polls p).responses }).1 ∧
      (t.polls p).stage = .replied (MirrorService.pollImpl s.manager
        { queryResponses := (s.polls p).responses }).2.2.queryRequests ∧
      t.loops = s.loops := by
  have accepted : step fromStr config s (.accept p (s.polls p).responses.iter) =
      some (s.setPoll p { s.polls p with stage := .resolving (s.polls p).responses.iter }) := by
    simp only [step, stage, List.Perm.refl, if_true]
  obtain ⟨t, ran, manager, polls, loops⟩ := @resolveResponses_runs L _ fromStr config
    (s.polls p).responses.iter (s.setPoll p { s.polls p with stage := .resolving (s.polls p).responses.iter }) p
    (by rw [State.setPoll_polls, Function.update_self])
  -- With nothing left to resolve, the poll takes the pending requests.
  have stage_t : (t.polls p).stage = .resolving [] := by rw [polls, Function.update_self]
  have drained : ∃ u, step fromStr config t (.drain p) = some u ∧
      u.manager = t.manager.getPendingRequests.1 ∧
      (u.polls p).stage = .replied t.manager.getPendingRequests.2 ∧ u.loops = t.loops := by
    simp only [step, stage_t]
    exact ⟨_, rfl, rfl, by simp, rfl⟩
  obtain ⟨u, moved, manager', replied, loops'⟩ := drained
  refine ⟨u, run_cons _ _ _ _ _ trivial accepted (run_append _ _ _ t _ ran ?_), ?_, ?_, ?_⟩
  · exact run_cons t u u _ _ trivial moved rfl
  · rw [manager', manager]
    rfl
  · rw [replied, manager]
    rfl
  · rw [loops', loops]
    rfl

/-- "Process requests.", for requests that make nothing panic. -/
theorem processRequests_runs (exchange : String → Exchange) (entries : List (String × QueryRequest))
    (s : State L) (l : L) (phase : (s.loops l).phase = .processing entries)
    (result : HashMap String QueryResponse)
    (returned : processRequests fromStr (config l) exchange entries (s.loops l).pendingResponses =
      some result) :
    ∃ t, run (step fromStr config) Any s (entries.map fun entry => .process l (exchange entry.1)) = some t ∧
      (t.loops l).phase = .processing [] ∧ (t.loops l).pendingResponses = result ∧
      t.manager = s.manager ∧ t.polls = s.polls := by
  induction entries generalizing s with
  | nil =>
    cases returned
    exact ⟨s, rfl, phase, rfl, rfl, rfl⟩
  | cons entry rest ih =>
    obtain ⟨queryId, request⟩ := entry
    rw [processRequests] at returned
    split at returned
    next response stored =>
      have processed : ∃ u, step fromStr config s (.process l (exchange queryId)) = some u ∧
          (u.loops l).phase = .processing rest ∧
          (u.loops l).pendingResponses = (s.loops l).pendingResponses.insert queryId response ∧
          u.manager = s.manager ∧ u.polls = s.polls := by
        simp only [step, phase, stored]
        exact ⟨_, rfl, by simp, by simp, rfl, rfl⟩
      obtain ⟨u, moved, phase_u, pending, manager, polls⟩ := processed
      -- The rest is processed into the map with this response in it.
      rw [← pending] at returned
      obtain ⟨t, ran, idle, pending', manager', polls'⟩ := ih u phase_u returned
      exact ⟨t, run_cons s u t _ _ trivial moved ran, idle, pending', manager'.trans manager,
        polls'.trans polls⟩
    · cases returned

/-- The loop's work on the reply to its poll. -/
theorem afterPoll_runs (exchange : String → Exchange) (s : State L) (l : L) (p : Nat)
    (polling : (s.loops l).phase = .polling p) (requests : HashMap String QueryRequest)
    (replied : (s.polls p).stage = .replied requests) (result : HashMap String QueryResponse)
    (returned : afterPoll fromStr (config l) (s.loops l).pendingResponses
      (.ok { queryRequests := requests } exchange) = some result) :
    ∃ t, run (step fromStr config) Any s (afterPollSteps l exchange requests) = some t ∧
      (t.loops l).phase = .ready ∧ (t.loops l).pendingResponses = result ∧ t.manager = s.manager := by
  have delivered : ∃ u, step fromStr config s (.deliver l requests.iter) = some u ∧
      (u.loops l).phase = .processing requests.iter ∧ (u.loops l).pendingResponses = .new ∧
      u.manager = s.manager := by
    simp only [step, polling, replied, List.Perm.refl, if_true]
    exact ⟨_, rfl, by simp, by simp, rfl⟩
  obtain ⟨u, arrived, phase, pending, manager⟩ := delivered
  -- The reply has arrived and the map is empty, as `processRequests` expects it.
  rw [afterPoll, ← pending] at returned
  obtain ⟨v, ran, idle, pending', manager', _⟩ :=
    processRequests_runs exchange requests.iter u l phase result returned
  have slept : ∃ t, step fromStr config v (.sleep l) = some t ∧ (t.loops l).phase = .ready ∧
      (t.loops l).pendingResponses = (v.loops l).pendingResponses ∧ t.manager = v.manager := by
    simp only [step, idle]
    exact ⟨_, rfl, by simp, by simp, rfl⟩
  obtain ⟨t, moved, ready, pending'', manager''⟩ := slept
  refine ⟨t, run_cons _ _ _ _ _ trivial arrived (run_append _ _ _ v _ ran ?_), ready,
    pending''.trans pending', manager''.trans (manager'.trans manager)⟩
  exact run_cons v t t _ _ trivial moved rfl

/-- **An undisturbed iteration.** From a loop that is ready, a poll that
`poll_impl` handles and whose reply arrives is a run of the system. It takes the
manager to where `poll_impl` takes it, and the pending responses of the loop to
where the polling loop takes them. -/
theorem iteration_runs (exchange : String → Exchange) (s : State L) (l : L)
    (ready : (s.loops l).phase = .ready) (m : QueryManager) (resolutions : List Resolution)
    (reply : PollResponse)
    (polled : MirrorService.pollImpl s.manager { queryResponses := (s.loops l).pendingResponses } =
      (m, resolutions, reply))
    (result : HashMap String QueryResponse)
    (returned : afterPoll fromStr (config l) (s.loops l).pendingResponses (.ok reply exchange) =
      some result) :
    ∃ t, run (step fromStr config) Any s
        (.send l :: (pollImplSteps s.sent (s.loops l).pendingResponses ++
          afterPollSteps l exchange reply.queryRequests)) = some t ∧
      t.manager = m ∧ (t.loops l).phase = .ready ∧ (t.loops l).pendingResponses = result := by
  have sent : ∃ u, step fromStr config s (.send l) = some u ∧ (u.polls s.sent).stage = .requested ∧
      (u.polls s.sent).responses = (s.loops l).pendingResponses ∧
      (u.loops l).phase = .polling s.sent ∧
      (u.loops l).pendingResponses = (s.loops l).pendingResponses ∧ u.manager = s.manager := by
    simp only [step, ready]
    exact ⟨_, rfl, by simp, by simp, by simp, by simp, rfl⟩
  obtain ⟨u, moved, requested, carried, polling, pending, manager⟩ := sent
  obtain ⟨v, handled, manager', replied, loops⟩ := @pollImpl_runs L _ fromStr config u s.sent requested
  -- Sending leaves the manager alone, so `poll_impl` finds the one of `s`.
  rw [carried, manager, polled] at manager' replied
  rw [carried] at handled
  obtain ⟨t, worked, ready', pending', manager''⟩ := @afterPoll_runs L _ fromStr config exchange v l s.sent
    (by rw [loops]; exact polling) reply.queryRequests replied result
    (by rw [loops, pending]; exact returned)
  exact ⟨t, run_cons s u t _ _ trivial moved (run_append _ _ u v t handled worked),
    manager''.trans manager', ready', pending'⟩

end FullServiceMirror
