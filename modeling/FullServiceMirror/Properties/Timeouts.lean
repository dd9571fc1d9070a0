import FullServiceMirror.Public.Calls
import FullServiceMirror.System.Invariant

/-!
# What a timeout leaves behind

A wait that times out only reads its cell, so the entry of its query stays where
it is: queued until the next drain, then handed out until a poll names its id.
The two maps together have one entry for every query that is not resolved.
-/
namespace FullServiceMirror

open Rust Json Transition

variable {L : Type}

/-- A wait on the query ended with `Err("timeout")`. -/
def State.timedOut (s : State L) (q : Query) : Bool :=
  s.answers.any fun a =>
    match a.waited with
    | some (q', .error e) => q' = q && e = "timeout"
    | _ => false

/-- No `resolve_query` call was for the query. -/
def State.unresolved (s : State L) (q : Query) : Bool := !s.resolved.any fun x => x.query = q

/-- The entries of the two maps. -/
def State.entries (s : State L) : List (String × Query) :=
  s.manager.pendingRequests.iter ++ s.manager.pendingResponses.iter

theorem State.unresolved_iff (s : State L) (q : Query) :
    s.unresolved q = true ↔ ∀ x ∈ s.resolved, x.query ≠ q := by
  simp [State.unresolved]

theorem State.timedOut_of_answer (s : State L) (q : Query) (a : Answer) (member : a ∈ s.answers)
    (timeout : a.waited = some (q, .error "timeout")) : s.timedOut q = true := by
  rw [State.timedOut, List.any_eq_true]
  exact ⟨a, member, by simp [timeout]⟩

theorem State.answer_of_timedOut (s : State L) (q : Query) (told : s.timedOut q = true) :
    ∃ a ∈ s.answers, a.waited = some (q, .error "timeout") := by
  obtain ⟨a, member, ended⟩ := List.any_eq_true.mp told
  refine ⟨a, member, ?_⟩
  split at ended
  next q' e waited =>
    obtain ⟨same, timeout⟩ := Bool.and_eq_true_iff.mp ended
    rw [waited, of_decide_eq_true same, of_decide_eq_true timeout]
  · cases ended

/-- Every query has a client that waits for it or was answered, and every
resolved ticket has a call that resolved it. -/
structure Waited (s : State L) : Prop where
  issued : ∀ q, q < s.tickets.length → (s.waiting q).isSome = true ∨
    ∃ a ∈ s.answers, ∃ waited, a.waited = some (q, waited)
  answered : ∀ a ∈ s.answers, ∀ q waited, a.waited = some (q, waited) → q < s.tickets.length
  timeout : ∀ a ∈ s.answers, ∀ q e, a.waited = some (q, .error e) → e = "timeout"
  resolved : ∀ (q : Query) (ticket : QueryTicket), s.tickets[q]? = some ticket →
    ticket.stage = .resolved → ∃ x ∈ s.resolved, x.query = q

theorem waited_start : Waited (State.start : State L) where
  issued := by intro q inside; cases inside
  answered := by intro a member; cases member
  timeout := by intro a member; cases member
  resolved := by intro q ticket found; cases found

variable [DecidableEq L]
variable {fromStr : String → Except String Value} {config : L → Config}

omit [DecidableEq L] in
/-- A step after which the same clients wait, and no further ticket is resolved. -/
theorem Waited.frame {s t : State L} (h : Waited s) (length : t.tickets.length = s.tickets.length)
    (waiting : t.waiting = s.waiting) (answers : t.answers = s.answers) (resolved : t.resolved = s.resolved)
    (stages : ∀ (q : Query) (ticket : QueryTicket), t.tickets[q]? = some ticket →
      ticket.stage = .resolved → ∃ ticket' : QueryTicket, s.tickets[q]? = some ticket' ∧
        ticket'.stage = .resolved) : Waited t where
  issued := by rw [length, waiting, answers]; exact h.issued
  answered := by rw [length, answers]; exact h.answered
  timeout := by rw [answers]; exact h.timeout
  resolved := by
    intro q ticket found stage
    obtain ⟨ticket', found', stage'⟩ := stages q ticket found stage
    rw [resolved]
    exact h.resolved q ticket' found' stage'

theorem waited_request (s t : State L) (represented : Represented s) (h : Waited s) (endpoint : Endpoint)
    (data : Data) (rng : List (Fin QUERY_ID_LEN → UInt64))
    (taken : Step fromStr config s (.request endpoint data rng) t) : Waited t := by
  cases taken with
  | unread _ _ _ e failed =>
    refine ⟨fun q inside => ?_, fun a member q result waited => ?_, fun a member q e' waited => ?_,
      h.resolved⟩
    · rcases h.issued q inside with waits | ⟨a, member, answered⟩
      · exact Or.inl waits
      · exact Or.inr ⟨a, List.mem_append_left _ member, answered⟩
    · rcases List.mem_append.mp member with earlier | now
      · exact h.answered a earlier q result waited
      · rw [List.mem_singleton.mp now] at waited
        cases waited
    · rcases List.mem_append.mp member with earlier | now
      · exact h.timeout a earlier q e' waited
      · rw [List.mem_singleton.mp now] at waited
        cases waited
  | request _ _ _ queryRequest read queryId generated manager query enqueued =>
    obtain ⟨_, _, place, _⟩ := s.manager.enqueueQuery_cases manager rng queryRequest query enqueued
    -- The new query is the one whose handler starts to wait.
    refine ⟨fun q inside => ?_, fun a member q result waited => ?_, h.timeout,
      fun q ticket found stage => ?_⟩
    · dsimp only
      by_cases new : q = query
      · exact Or.inl (by rw [new, Function.update_self]; rfl)
      · rw [Function.update_of_ne new]
        refine h.issued q ?_
        rw [place, represented.refines.issued] at new
        simp only [Lifecycle.enqueue, List.length_append, List.length_singleton] at inside
        omega
    · have inside := h.answered a member q result waited
      simp only [Lifecycle.enqueue, List.length_append, List.length_singleton]
      exact Nat.lt_succ_of_lt inside
    · rcases (Lifecycle.get_enqueue_iff _ _ _ _ _).mp found with old | ⟨_, rfl⟩
      · exact h.resolved q ticket old stage
      · cases stage

theorem waited_waitReturn (s t : State L) (represented : Represented s) (h : Waited s) (query : Query)
    (taken : Step fromStr config s (.waitReturn query) t) : Waited t := by
  cases taken with
  | waitReturn _ endpoint waits =>
    refine ⟨fun q inside => ?_, fun a member q result waited => ?_, fun a member q e waited => ?_,
      fun q ticket found stage => ?_⟩
    · dsimp only
      by_cases same : q = query
      · exact Or.inr ⟨_, List.mem_append_right _ List.mem_cons_self, _, by rw [same]⟩
      · rw [Function.update_of_ne same]
        rw [Lifecycle.take, List.length_modify] at inside
        rcases h.issued q inside with before | ⟨a, member, answered⟩
        · exact Or.inl before
        · exact Or.inr ⟨a, List.mem_append_left _ member, answered⟩
    · dsimp only
      rw [Lifecycle.take, List.length_modify]
      rcases List.mem_append.mp member with earlier | now
      · exact h.answered a earlier q result waited
      · rw [List.mem_singleton.mp now] at waited
        cases waited
        exact represented.waiting query endpoint waits
    · rcases List.mem_append.mp member with earlier | now
      · exact h.timeout a earlier q e waited
      · rw [List.mem_singleton.mp now] at waited
        -- A wait fails in one way only.
        have result := congrArg Prod.snd (Option.some.inj waited)
        rcases s.manager.wait_cases query with ⟨_, timeout⟩ | ⟨response, _, returned⟩
        · rw [timeout] at result
          exact (Except.error.inj result).symm
        · rw [returned] at result
          cases result
    · obtain ⟨ticket', found', rfl⟩ := (Lifecycle.get_modify_iff _ _ _ _ _).mp found
      refine h.resolved q ticket' found' ?_
      split at stage <;> exact stage

theorem waited_step (s t : State L) (a : Action L) (represented : Represented s) (h : Waited s)
    (taken : Step fromStr config s a t) : Waited t := by
  cases a with
  | request endpoint data rng => exact waited_request s t represented h endpoint data rng taken
  | waitReturn query => exact waited_waitReturn s t represented h query taken
  | resolve p =>
    cases taken with
    | unknown _ queryId response rest stage absent =>
      exact h.frame rfl rfl rfl rfl fun q ticket found resolved => ⟨ticket, found, resolved⟩
    | resolve _ queryId response rest stage query awaited =>
      refine ⟨fun q inside => ?_, fun a member q result waited => ?_, h.timeout,
        fun q ticket found resolved => ?_⟩
      · rw [Lifecycle.resolve, List.length_modify] at inside
        exact h.issued q inside
      · dsimp only
        rw [Lifecycle.resolve, List.length_modify]
        exact h.answered a member q result waited
      · obtain ⟨ticket', found', rfl⟩ := (Lifecycle.get_modify_iff _ _ _ _ _).mp found
        split at resolved
        -- The ticket that becomes resolved is that of the query found in the map.
        next same => exact ⟨_, List.mem_append_right _ List.mem_cons_self, same⟩
        · obtain ⟨x, member, same⟩ := h.resolved q ticket' found' resolved
          exact ⟨x, List.mem_append_left _ member, same⟩
  | drain p =>
    cases taken
    refine h.frame (List.length_map _) rfl rfl rfl fun q ticket found resolved => ?_
    obtain ⟨ticket', found', rfl⟩ := (Lifecycle.get_handOut_iff _ _ _).mp found
    exact ⟨ticket', found', (ticket'.handOut_resolved_iff).mp resolved⟩
  | _ =>
    cases taken <;>
      exact h.frame rfl rfl rfl rfl fun q ticket found resolved => ⟨ticket, found, resolved⟩

theorem reachable_waited {s : State L} (reached : Reachable (step fromStr config) Any .start s) :
    Waited s := by
  refine reached.invariant Waited waited_start fun s a t before _ h taken => ?_
  exact waited_step s t a (reachable_invariant before).represented h (step_cases s t a taken)

/-! ## The entries of the two maps -/

/-- The tickets that are resolved are those of the resolved queries. -/
theorem unresolved_iff_live {s : State L} (reached : Reachable (step fromStr config) Any .start s)
    (q : Query) (ticket : QueryTicket) (found : s.tickets[q]? = some ticket) :
    s.unresolved q = true ↔ ticket.stage ≠ .resolved := by
  rw [State.unresolved_iff]
  constructor
  · intro none stage
    obtain ⟨x, member, same⟩ := (reachable_waited reached).resolved q ticket found stage
    exact none x member same
  · intro live x member same
    obtain ⟨_, ticket', found', _, stage⟩ := (reachable_invariant reached).answered.resolved x member
    rw [same, found] at found'
    cases found'
    exact live stage

theorem mem_entries_iff {s : State L} (reached : Reachable (step fromStr config) Any .start s)
    (id : String) (q : Query) : (id, q) ∈ s.entries ↔
      ∃ ticket : QueryTicket, s.tickets[q]? = some ticket ∧ ticket.id = id ∧ ticket.stage ≠ .resolved := by
  have refines := (reachable_invariant reached).represented.refines
  rw [State.entries, List.mem_append, HashMap.mem_iter_iff, HashMap.mem_iter_iff, refines.queued,
    refines.handedOut]
  constructor
  · rintro (⟨ticket, found, same, stage⟩ | ⟨ticket, found, same, stage⟩) <;>
      exact ⟨ticket, found, same, by rw [stage]; simp⟩
  · rintro ⟨ticket, found, same, live⟩
    cases stage : ticket.stage with
    | queued => exact Or.inl ⟨ticket, found, same, stage⟩
    | handedOut => exact Or.inr ⟨ticket, found, same, stage⟩
    | resolved => exact absurd stage live

theorem entries_nodup {s : State L} (reached : Reachable (step fromStr config) Any .start s) :
    (s.entries.map Prod.snd).Nodup := by
  have refines := (reachable_invariant reached).represented.refines
  -- A query is an entry under the id of its ticket only, and an id is in one map.
  have pairs : s.entries.Nodup := by
    rw [State.entries, List.nodup_append]
    refine ⟨List.Nodup.of_map _ (HashMap.iter_keys_nodup _), List.Nodup.of_map _ (HashMap.iter_keys_nodup _), ?_⟩
    rintro ⟨id, q⟩ requested e awaited rfl
    exact refines.disjoint id q q ((HashMap.mem_iter_iff _ _ _).mp requested)
      ((HashMap.mem_iter_iff _ _ _).mp awaited)
  refine pairs.map_on ?_
  rintro ⟨id, q⟩ member ⟨id', q'⟩ member' same
  obtain ⟨ticket, found, rfl, _⟩ := (mem_entries_iff reached id q).mp member
  obtain ⟨ticket', found', rfl, _⟩ := (mem_entries_iff reached id' q').mp member'
  simp only at same
  subst same
  rw [found] at found'
  cases found'
  rfl

/-- The entries are those of the unresolved queries, one for each. -/
theorem entries_perm {s : State L} (reached : Reachable (step fromStr config) Any .start s) :
    (s.entries.map Prod.snd).Perm ((List.range s.manager.issued).filter s.unresolved) := by
  have refines := (reachable_invariant reached).represented.refines
  refine (List.perm_ext_iff_of_nodup (entries_nodup reached) (List.nodup_range.filter _)).mpr fun q => ?_
  rw [List.mem_map, List.mem_filter, List.mem_range, refines.issued]
  constructor
  · rintro ⟨⟨id, q'⟩, member, rfl⟩
    obtain ⟨ticket, found, _, live⟩ := (mem_entries_iff reached id q').mp member
    exact ⟨(List.getElem?_eq_some_iff.mp found).1, (unresolved_iff_live reached q' ticket found).mpr live⟩
  · rintro ⟨inside, unresolved⟩
    have found : s.tickets[q]? = some s.tickets[q] := List.getElem?_eq_getElem inside
    exact ⟨(_, q), (mem_entries_iff reached _ q).mpr ⟨_, found, rfl,
      (unresolved_iff_live reached q _ found).mp unresolved⟩, rfl⟩

/-- A query that is not resolved has a client that waits, or that was told "timeout". -/
theorem waiting_or_timedOut {s : State L} (reached : Reachable (step fromStr config) Any .start s)
    (q : Query) (inside : q < s.manager.issued) (unresolved : s.unresolved q = true) :
    (s.waiting q).isSome = true ∨ s.timedOut q = true := by
  have h := reachable_invariant reached
  have waited := reachable_waited reached
  rw [h.represented.refines.issued] at inside
  rcases waited.issued q inside with waits | ⟨a, member, result, answered⟩
  · exact Or.inl waits
  · right
    cases result with
    | error e =>
      rw [waited.timeout a member q e answered] at answered
      exact s.timedOut_of_answer q a member answered
    | ok response =>
      obtain ⟨x, resolved, same, _⟩ := (h.answered.answers a member q _ answered).2 response rfl
      exact absurd same ((s.unresolved_iff q).mp unresolved x resolved)

/-- The entries are those whose clients wait, and those whose clients were told "timeout". -/
theorem countP_unresolved_le {s : State L} (reached : Reachable (step fromStr config) Any .start s) :
    (List.range s.manager.issued).countP s.unresolved ≤
      (List.range s.manager.issued).countP (fun q => (s.waiting q).isSome) +
        (List.range s.manager.issued).countP fun q => s.unresolved q && s.timedOut q := by
  rw [List.countP_eq_countP_filter_add _ _ fun q => (s.waiting q).isSome, List.countP_filter,
    List.countP_filter]
  refine Nat.add_le_add (List.countP_mono_left fun q _ both => ?_) (List.countP_mono_left fun q inside rest => ?_)
  · exact (Bool.and_eq_true_iff.mp both).2
  · obtain ⟨unresolved, idle⟩ := Bool.and_eq_true_iff.mp rest
    rcases waiting_or_timedOut reached q (List.mem_range.mp inside) unresolved with waits | told
    · rw [waits] at idle
      cases idle
    · rw [unresolved, told]
      rfl

/-- **What a timeout leaves behind.** The end of a wait leaves both maps as they
are. In every state after a timeout the query is still an entry of one map,
under one id, as long as it is not resolved: of `pending_requests`, where the
next drain returns its request, or of `pending_responses`; once resolved it is
in neither. The maps together have one entry for every unresolved query, and so
at most as many as there are clients that wait and timed-out queries that are
not resolved. -/
theorem timedOut_not_withdrawn (s : State L) (reached : Reachable (step fromStr config) Any .start s) :
    (∀ q t, step fromStr config s (.waitReturn q) = some t →
      t.manager.pendingRequests = s.manager.pendingRequests ∧
      t.manager.pendingResponses = s.manager.pendingResponses) ∧
    (∀ q, s.timedOut q = true →
      (s.unresolved q = true → ∃ id,
        ((∀ id', s.manager.pendingRequests.get id' = some q ↔ id' = id) ∧
          (∀ id', s.manager.pendingResponses.get id' ≠ some q) ∧
          s.manager.getPendingRequests.2.get id = some (s.manager.request q)) ∨
        ((∀ id', s.manager.pendingRequests.get id' ≠ some q) ∧
          ∀ id', s.manager.pendingResponses.get id' = some q ↔ id' = id)) ∧
      (s.unresolved q = false → ∀ id,
        s.manager.pendingRequests.get id ≠ some q ∧ s.manager.pendingResponses.get id ≠ some q)) ∧
    s.manager.pendingRequests.len + s.manager.pendingResponses.len =
      (List.range s.manager.issued).countP s.unresolved ∧
    s.manager.pendingRequests.len + s.manager.pendingResponses.len ≤
      (List.range s.manager.issued).countP (fun q => (s.waiting q).isSome) +
        (List.range s.manager.issued).countP (fun q => s.unresolved q && s.timedOut q) := by
  have refines := (reachable_invariant reached).represented.refines
  have count : s.manager.pendingRequests.len + s.manager.pendingResponses.len =
      (List.range s.manager.issued).countP s.unresolved := by
    rw [List.countP_eq_length_filter, ← (entries_perm reached).length_eq]
    simp [State.entries, HashMap.iter, HashMap.len]
  refine ⟨fun q t taken => ?_, fun q told => ?_, count, count ▸ countP_unresolved_le reached⟩
  · cases step_cases s t _ taken with
    | waitReturn _ endpoint waits =>
      rcases s.manager.wait_cases q with ⟨_, ended⟩ | ⟨response, _, ended⟩ <;>
        exact ⟨by rw [ended], by rw [ended]⟩
  · obtain ⟨a, member, ended⟩ := s.answer_of_timedOut q told
    have inside := (reachable_waited reached).answered a member q _ ended
    have found : s.tickets[q]? = some s.tickets[q] := List.getElem?_eq_getElem inside
    -- The ticket of the query says in which map its entry is, if in any.
    have live := unresolved_iff_live reached q _ found
    have placed := refines.inStage q _ found
    unfold InStage at placed
    refine ⟨fun unresolved => ⟨s.tickets[q].id, ?_⟩, fun resolved => ?_⟩
    · split at placed
      next queued =>
        refine Or.inl ⟨fun id' => (placed id').1, fun id' => (placed id').2, ?_⟩
        rw [QueryManager.getPendingRequests_reply, (placed _).1.mpr rfl]
        rfl
      next handedOut => exact Or.inr ⟨fun id' => (placed id').1, fun id' => (placed id').2⟩
      next ended => exact absurd ended (live.mp unresolved)
    · have ended : s.tickets[q].stage = .resolved := by
        by_contra still
        rw [live.mpr still] at resolved
        cases resolved
      rw [ended] at placed
      exact placed

/-- A client is told "timeout" before its request is handed out and POSTed. -/
def lateTimeout : List (Action Unit) :=
  let jsonRequest := "\x7b\"method\": \"get_block\"\x7d"
  [.request .unencryptedRequest (.ok (asBytes jsonRequest)) [fun _ => 0], .waitReturn 0,
   .send (), .accept 0 [], .drain 0,
   .deliver () [("AAAAAAAA", QueryRequest.setUnencryptedRequest {} { jsonRequest })],
   .process () (.text "\x7b\x7d")]

theorem timedOut_not_withdrawn_lateTimeout :
    ∃ s : State Unit, Reachable (step parse fun _ => {}) Any .start s ∧ s.timedOut 0 = true ∧
      s.manager.pendingRequests.len + s.manager.pendingResponses.len =
        (List.range s.manager.issued).countP s.unresolved := by
  obtain ⟨s, reached, told⟩ := exists_reachable_of_run (step parse fun _ => {}) Any .start lateTimeout
    (fun s => s.timedOut 0) (by decide +kernel)
  exact ⟨s, reached, told, (timedOut_not_withdrawn s reached).2.2.1⟩

/-- After its timeout a query is in `pending_requests`; later on its request is
handed out and POSTed, and the maps have an entry that no client waits for. -/
theorem timedOut_executed :
    ∃ s t : State Unit, Reachable (step parse fun _ => {}) Any .start s ∧
      Reachable (step parse fun _ => {}) Any s t ∧
      s.timedOut 0 = true ∧ s.manager.pendingRequests.get "AAAAAAAA" = some 0 ∧ s.posts.length = 0 ∧
      t.timedOut 0 = true ∧ t.manager.pendingResponses.get "AAAAAAAA" = some 0 ∧ t.posts.length = 1 ∧
      ¬ t.manager.pendingRequests.len + t.manager.pendingResponses.len ≤
        (List.range t.manager.issued).countP (fun q => (t.waiting q).isSome) := by
  have computed : (run (step parse fun _ => {}) Any .start (lateTimeout.take 2)).any (fun s =>
      s.timedOut 0 && s.manager.pendingRequests.get "AAAAAAAA" = some 0 && s.posts.length = 0 &&
      (run (step parse fun _ => {}) Any s (lateTimeout.drop 2)).any (fun t =>
        t.timedOut 0 && t.manager.pendingResponses.get "AAAAAAAA" = some 0 && t.posts.length = 1 &&
        !decide (t.manager.pendingRequests.len + t.manager.pendingResponses.len ≤
          (List.range t.manager.issued).countP (fun q => (t.waiting q).isSome)))) = true := by
    decide +kernel
  obtain ⟨s, first, holds⟩ := (Option.any_eq_true _ _).mp computed
  obtain ⟨told, rest⟩ := Bool.and_eq_true_iff.mp holds
  obtain ⟨t, second, holds'⟩ := (Option.any_eq_true _ _).mp rest
  simp only [Bool.and_eq_true, decide_eq_true_eq, Bool.not_eq_true', decide_eq_false_iff_not,
    and_assoc] at told holds'
  exact ⟨s, t, reachable_of_run _ _ s .start first, reachable_of_run _ s t .start second, told.1, told.2.1,
    told.2.2, holds'⟩

end FullServiceMirror
