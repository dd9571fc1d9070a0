import FullServiceMirror.Public.Refinement

/-!
# Interleaved calls of the query manager

Calls come from any number of threads; the lock makes a run of the program a
sequence of calls. `history` records every call of such a run with the state
before it, its result and the state after it.
-/
namespace FullServiceMirror

open Rust

inductive Call where
  | enqueueQuery (rng : List (Fin QUERY_ID_LEN → UInt64)) (request : QueryRequest)
  | getPendingRequests
  | resolveQuery (queryId : String) (response : QueryResponse)

inductive Return where
  | query (query : Query)
  | requests (pendingRequests : HashMap String QueryRequest)
  | resolved (result : Except String Unit)

/-- One call; `none` while `generate_query_id` has not been given enough draws. -/
def QueryManager.call (m : QueryManager) : Call → Option (QueryManager × Return)
  | .enqueueQuery rng request =>
    (m.enqueueQuery rng request).map fun (m', query) => (m', .query query)
  | .getPendingRequests =>
    some (m.getPendingRequests.1, .requests m.getPendingRequests.2)
  | .resolveQuery queryId response =>
    some ((m.resolveQuery queryId response).1, .resolved (m.resolveQuery queryId response).2)

structure Event where
  before : QueryManager
  call : Call
  result : Return
  after : QueryManager

def QueryManager.history (m : QueryManager) : List Call → Option (List Event)
  | [] => some []
  | c :: rest => do
    let (m', result) ← m.call c
    let events ← m'.history rest
    return ⟨m, c, result, m'⟩ :: events

/-- What a call may do to the lives of requests, and what it then returns. -/
inductive LifeStep : QueryLife → Call → Return → QueryLife → Prop
  | enqueue (a : QueryLife) (rng : List (Fin QUERY_ID_LEN → UInt64)) (request : QueryRequest)
      (id : String) (fresh : ∀ (q : Query) (t : QueryTicket), a[q]? = some t → t.live → t.id ≠ id) :
      LifeStep a (.enqueueQuery rng request) (.query a.length) (a.enqueue id request)
  | handOut (a : QueryLife) (reply : HashMap String QueryRequest)
      (all_queued : ∀ (id : String) (request : QueryRequest), reply.get id = some request ↔
        ∃ (q : Query) (t : QueryTicket), a[q]? = some t ∧ t.stage = .queued ∧ t.id = id ∧
          t.request = request) :
      LifeStep a .getPendingRequests (.requests reply) a.handOut
  | resolve (a : QueryLife) (q : Query) (t : QueryTicket) (response : QueryResponse)
      (found : a[q]? = some t) (stage : t.stage = .handedOut) :
      LifeStep a (.resolveQuery t.id response) (.resolved (.ok ())) (a.resolve q response)
  | unknown (a : QueryLife) (id : String) (response : QueryResponse)
      (none : ∀ (q : Query) (t : QueryTicket), a[q]? = some t → t.id = id → t.stage ≠ .handedOut) :
      LifeStep a (.resolveQuery id response) (.resolved (.error ("Unknown query id " ++ id))) a

/-- Forward simulation of one call. -/
theorem call_simulates (m m' : QueryManager) (a : QueryLife) (c : Call) (result : Return)
    (refines : Refines m a) (called : m.call c = some (m', result)) :
    ∃ a', LifeStep a c result a' ∧ Refines m' a' := by
  cases c with
  | enqueueQuery rng request =>
    obtain ⟨⟨_, query⟩, returned, equal⟩ := Option.map_eq_some_iff.mp called
    cases equal
    obtain ⟨id, generated, rfl, refines'⟩ := refines.enqueueQuery rng request _ query returned
    obtain ⟨noRequest, noResponse⟩ := QueryManager.generateQueryId_fresh _ rng id generated
    exact ⟨_, .enqueue a rng request id (refines.fresh id noRequest noResponse), refines'⟩
  | getPendingRequests =>
    cases called
    exact ⟨_, .handOut a _ refines.reply_iff, refines.getPendingRequests⟩
  | resolveQuery id response =>
    cases called
    rcases m.resolveQuery_cases id response with ⟨absent, outcome⟩ | ⟨q, awaited, outcome⟩
    · rw [outcome]
      refine ⟨a, .unknown a id response ?_, refines⟩
      intro q t found same stage
      rw [(refines.handedOut id q).mpr ⟨t, found, same, stage⟩] at absent
      cases absent
    · rw [outcome]
      obtain ⟨t, found, rfl, stage⟩ := (refines.handedOut id q).mp awaited
      exact ⟨_, .resolve a q t response found stage, refines.resolved t.id response q awaited⟩

/-- A call moves each ticket on by one stage at most and keeps what it was issued with. -/
theorem LifeStep.moves {a a' : QueryLife} {c : Call} {result : Return}
    (step : LifeStep a c result a') (q : Query) (t : QueryTicket) (found : a[q]? = some t) :
    ∃ t' : QueryTicket, a'[q]? = some t' ∧ t'.id = t.id ∧ t'.request = t.request ∧
      t.stage.Moves t'.stage := by
  cases step with
  | enqueue rng request id fresh =>
    exact ⟨t, (Lifecycle.get_enqueue_iff _ _ _ _ _).mpr (Or.inl found), rfl, rfl, Or.inl rfl⟩
  | handOut reply all_queued =>
    refine ⟨t.handOut, (Lifecycle.get_handOut_iff _ _ _).mpr ⟨t, found, rfl⟩, by simp, by simp, ?_⟩
    cases stage : t.stage <;> simp [Ticket.handOut, stage, Stage.Moves]
  | resolve q₀ t₀ response found₀ stage₀ =>
    refine ⟨_, (Lifecycle.get_modify_iff _ _ _ _ _).mpr ⟨t, found, rfl⟩, ?_⟩
    split
    next same =>
      subst same
      rw [found₀] at found
      cases found
      exact ⟨rfl, rfl, Or.inr (Or.inr ⟨stage₀, rfl⟩)⟩
    · exact ⟨rfl, rfl, Or.inl rfl⟩
  | unknown id response none => exact ⟨t, found, rfl, rfl, Or.inl rfl⟩

theorem LifeStep.extends {a a' : QueryLife} {c : Call} {result : Return}
    (step : LifeStep a c result a') : Lifecycle.Extends a a' := by
  intro q t found
  obtain ⟨t', found', id, request, moves⟩ := step.moves q t found
  exact ⟨t', found', id, request, moves.rank_le⟩

/-! ## The laws of one event -/

/-- A query is in exactly the map of its stage, and there under its id only. -/
def InStage (m : QueryManager) (q : Query) (t : QueryTicket) : Prop :=
  match t.stage with
  | .queued => ∀ id, (m.pendingRequests.get id = some q ↔ id = t.id) ∧
      m.pendingResponses.get id ≠ some q
  | .handedOut => ∀ id, m.pendingRequests.get id ≠ some q ∧
      (m.pendingResponses.get id = some q ↔ id = t.id)
  | .resolved => ∀ id, m.pendingRequests.get id ≠ some q ∧ m.pendingResponses.get id ≠ some q

theorem Refines.inStage {m : QueryManager} {a : QueryLife} (h : Refines m a) (q : Query)
    (t : QueryTicket) (found : a[q]? = some t) : InStage m q t := by
  have here (id : String) (stage : Stage) :
      (∃ t' : QueryTicket, a[q]? = some t' ∧ t'.id = id ∧ t'.stage = stage) ↔
        id = t.id ∧ t.stage = stage := by
    rw [found]
    simp [eq_comm]
  unfold InStage
  split <;> next stage =>
    intro id
    simp only [ne_eq, h.queued, h.handedOut, here, stage]
    simp

/-- No insertion of the call replaces an entry: at each of them, the key is
still absent from the map that is inserted into. -/
def Event.NoOverwrite (e : Event) : Prop :=
  match e.call with
  | .enqueueQuery rng _ => ∀ id, e.before.generateQueryId rng = some id →
      e.before.pendingRequests.containsKey id = false
  | .getPendingRequests =>
      (∀ done id q rest, e.before.pendingRequests.iter = done ++ (id, q) :: rest →
        (e.before.drainLoop done).1.containsKey id = false ∧
        (e.before.drainLoop done).2.containsKey id = false) ∧
      (∀ done id q rest,
        (e.before.drainLoop e.before.pendingRequests.iter).2.iter = done ++ (id, q) :: rest →
        (QueryManager.refillLoop e.before.pendingResponses done).containsKey id = false)
  | .resolveQuery _ _ => True

/-- `resolve_query` returns `Ok` exactly for an id that is handed out; it then
sets the response of that query and frees the id, and else changes nothing. -/
def Event.ResolvesExactly (e : Event) : Prop :=
  match e.call with
  | .resolveQuery id response =>
      (e.result = .resolved (.ok ()) ↔ e.before.pendingResponses.containsKey id = true) ∧
      (∀ q, e.before.pendingResponses.get id = some q →
        e.after = { e.before with
          pendingResponses := e.before.pendingResponses.remove id
          cells := Function.update e.before.cells q
            { e.before.cells q with response := some response } }) ∧
      (e.before.pendingResponses.containsKey id = false →
        e.result = .resolved (.error ("Unknown query id " ++ id)) ∧ e.after = e.before)
  | _ => True

/-- A call of `get_pending_requests` returns this query's request under this id. -/
def Event.HandsOut (e : Event) (q : Query) (id : String) (request : QueryRequest) : Prop :=
  e.call = .getPendingRequests ∧ e.before.pendingRequests.get id = some q ∧
    ∃ reply, e.result = .requests reply ∧ reply.get id = some request

structure LawfulEvent (e : Event) (a a' : QueryLife) : Prop where
  before : Refines e.before a
  after : Refines e.after a'
  step : LifeStep a e.call e.result a'
  disjoint : ∀ id, ¬(e.after.pendingRequests.containsKey id = true ∧
    e.after.pendingResponses.containsKey id = true)
  in_stage : ∀ (q : Query) (t : QueryTicket), a'[q]? = some t → InStage e.after q t
  moves : ∀ (q : Query) (t : QueryTicket), a[q]? = some t →
    ∃ t' : QueryTicket, a'[q]? = some t' ∧ t'.id = t.id ∧ t'.request = t.request ∧
      t.stage.Moves t'.stage
  no_overwrite : e.NoOverwrite
  resolves_exactly : e.ResolvesExactly
  /-- What is handed out is the query's own id and request. -/
  own_request : ∀ (q : Query) (id : String) (request : QueryRequest), e.HandsOut q id request →
    ∃ t : QueryTicket, a[q]? = some t ∧ t.stage = .queued ∧ t.id = id ∧ t.request = request

/-- Entries visited before one have other keys. -/
private theorem visited_before (m : HashMap String Query) (done rest : List (String × Query))
    (id : String) (q : Query) (visits : m.iter = done ++ (id, q) :: rest) :
    (done.map Prod.fst).Nodup ∧ done.find? (fun e => e.1 = id) = none := by
  have unique := m.iter_keys_nodup
  rw [visits, List.map_append, List.map_cons, List.nodup_append] at unique
  refine ⟨unique.1, ?_⟩
  rw [List.find?_eq_none]
  intro entry member same
  exact unique.2.2 entry.1 (List.mem_map_of_mem member) id List.mem_cons_self (by simpa using same)

theorem Refines.noOverwrite {a : QueryLife} (e : Event) (h : Refines e.before a) :
    e.NoOverwrite := by
  unfold Event.NoOverwrite
  split
  · intro id generated
    rw [HashMap.not_containsKey_iff]
    exact (QueryManager.generateQueryId_fresh _ _ id generated).1
  · constructor
    -- The first loop fills two empty maps under distinct keys.
    · intro done id q rest visits
      obtain ⟨unique, absent⟩ := visited_before _ done rest id q visits
      rw [HashMap.not_containsKey_iff, HashMap.not_containsKey_iff, QueryManager.drainLoop,
        QueryManager.drainLoop_eq]
      constructor
      · exact (HashMap.get_foldl_insert (fun e' => e.before.request e'.2) done unique _ id).trans
          (by simp [absent])
      · exact (HashMap.get_foldl_insert (fun e' => e'.2) done unique _ id).trans (by simp [absent])
    -- The second adds to a map that has no id of a pending request.
    · intro done id q rest visits
      obtain ⟨unique, absent⟩ := visited_before _ done rest id q visits
      have requested : e.before.pendingRequests.get id = some q := by
        rw [← QueryManager.drainLoop_queries _ _ (HashMap.visits_iter _), ← HashMap.mem_iter_iff, visits]
        simp
      have free : e.before.pendingResponses.get id = none := by
        cases awaited : e.before.pendingResponses.get id with
        | none => rfl
        | some q' => exact (h.disjoint id q q' requested awaited).elim
      rw [HashMap.not_containsKey_iff]
      exact (HashMap.get_foldl_insert (fun e' => e'.2) done unique _ id).trans (by simp [absent, free])
  · trivial

theorem resolvesExactly_of_call (m m' : QueryManager) (c : Call) (result : Return)
    (called : m.call c = some (m', result)) : Event.ResolvesExactly ⟨m, c, result, m'⟩ := by
  unfold Event.ResolvesExactly
  split
  next id response equal =>
    cases (show c = _ from equal)
    cases called
    rcases m.resolveQuery_cases id response with ⟨absent, outcome⟩ | ⟨q, awaited, outcome⟩
    · have unknown : m.pendingResponses.containsKey id = false :=
        (m.pendingResponses.not_containsKey_iff id).mpr absent
      simp [outcome, unknown, absent]
    · have known : m.pendingResponses.containsKey id = true :=
        (m.pendingResponses.containsKey_iff id).mpr ⟨q, awaited⟩
      simp [outcome, known, awaited]
  · trivial

theorem lawfulEvent_of_call (m m' : QueryManager) (a : QueryLife) (c : Call) (result : Return)
    (refines : Refines m a) (called : m.call c = some (m', result)) :
    ∃ a', LawfulEvent ⟨m, c, result, m'⟩ a a' := by
  obtain ⟨a', step, refines'⟩ := call_simulates m m' a c result refines called
  refine ⟨a', refines, refines', step, ?_, refines'.inStage, step.moves,
    Refines.noOverwrite ⟨m, c, result, m'⟩ refines, resolvesExactly_of_call m m' c result called, ?_⟩
  · rintro id ⟨requested, awaited⟩
    obtain ⟨q, requested⟩ := (HashMap.containsKey_iff _ id).mp requested
    obtain ⟨q', awaited⟩ := (HashMap.containsKey_iff _ id).mp awaited
    exact refines'.disjoint id q q' requested awaited
  · rintro q id request ⟨same, requested, reply, returned, carried⟩
    cases (show c = _ from same)
    cases called
    cases returned
    obtain ⟨t, found, sameId, stage⟩ := (refines.queued id q).mp requested
    refine ⟨t, found, stage, sameId, ?_⟩
    rw [QueryManager.getPendingRequests_reply, requested] at carried
    cases carried
    rw [QueryManager.request, refines.cells q t found]

/-! ## Whole runs -/

theorem lawful_history (calls : List Call) (m : QueryManager) (a : QueryLife)
    (refines : Refines m a) (events : List Event) (ran : m.history calls = some events) :
    ∃ life : Nat → QueryLife, life 0 = a ∧
      ∀ i e, events[i]? = some e → LawfulEvent e (life i) (life (i + 1)) := by
  induction calls generalizing m a events with
  | nil =>
    cases ran
    exact ⟨fun _ => a, rfl, fun i e found => by cases found⟩
  | cons c rest ih =>
    obtain ⟨⟨m', result⟩, called, ran⟩ := Option.bind_eq_some_iff.mp ran
    obtain ⟨later, tail, equal⟩ := Option.bind_eq_some_iff.mp ran
    cases equal
    obtain ⟨a', lawful⟩ := lawfulEvent_of_call m m' a c result refines called
    obtain ⟨life, start, laws⟩ := ih m' a' lawful.after later tail
    -- The lives of the rest of the run, one place later.
    refine ⟨fun | 0 => a | i + 1 => life i, rfl, ?_⟩
    rintro (_ | i) e found
    · cases found
      dsimp only
      rw [start]
      exact lawful
    · exact laws i e found

/-- Along a run, tickets are only added, kept and moved on. -/
theorem life_extends (events : List Event) (life : Nat → QueryLife)
    (laws : ∀ i e, events[i]? = some e → LawfulEvent e (life i) (life (i + 1)))
    (i j : Nat) (ordered : i ≤ j) (within : j ≤ events.length) :
    Lifecycle.Extends (life i) (life j) := by
  induction j, ordered using Nat.le_induction with
  | base => exact .refl _
  | succ j _ ih =>
    have event := List.getElem?_eq_getElem (show j < events.length by omega)
    exact (ih (by omega)).trans (laws j _ event).step.extends

/-- A query that one event hands out is not handed out by a later one. -/
private theorem handed_out_before (events : List Event) (life : Nat → QueryLife)
    (laws : ∀ i e, events[i]? = some e → LawfulEvent e (life i) (life (i + 1)))
    (i j : Nat) (e e' : Event) (earlier : events[i]? = some e) (later : events[j]? = some e')
    (q : Query) (id id' : String) (request request' : QueryRequest)
    (handed : e.HandsOut q id request) (again : e'.HandsOut q id' request') : ¬ i < j := by
  intro before
  obtain ⟨t, found, stage, _, _⟩ := (laws i e earlier).own_request q id request handed
  obtain ⟨t', found', stage', _, _⟩ := (laws j e' later).own_request q id' request' again
  have within := (List.getElem?_eq_some_iff.mp later).1
  -- After the first of the two, the ticket is past the stage that the second needs.
  have moved : ∃ t₁ : QueryTicket, (life (i + 1))[q]? = some t₁ ∧ 1 ≤ t₁.stage.rank := by
    have step := (laws i e earlier).step
    rw [handed.1] at step
    generalize e.result = result at step
    generalize life (i + 1) = next at step
    cases step with
    | handOut reply all_queued =>
      refine ⟨t.handOut, (Lifecycle.get_handOut_iff _ _ _).mpr ⟨t, found, rfl⟩, ?_⟩
      simp [Ticket.handOut, stage, Stage.rank]
  obtain ⟨t₁, found₁, rank₁⟩ := moved
  obtain ⟨t₂, found₂, _, _, rank₂⟩ :=
    life_extends events life laws (i + 1) j before (by omega) q t₁ found₁
  rw [found'] at found₂
  cases found₂
  rw [stage', Stage.rank] at rank₂
  omega

/-- **The manager refines the life of a request.** In every run of interleaved
calls from the empty manager there are lives of requests that the states
represent and the calls step through lawfully, and no query is handed out by
two calls. -/
theorem queryManager_refines_lifecycle (calls : List Call) (events : List Event)
    (ran : QueryManager.default.history calls = some events) :
    ∃ life : Nat → QueryLife, life 0 = [] ∧
      (∀ i e, events[i]? = some e → LawfulEvent e (life i) (life (i + 1))) ∧
      (∀ (i j : Nat) (e e' : Event) (q : Query) (id id' : String) (request request' : QueryRequest),
        events[i]? = some e → events[j]? = some e' →
        e.HandsOut q id request → e'.HandsOut q id' request' → i = j) := by
  obtain ⟨life, start, laws⟩ := lawful_history calls _ [] .default events ran
  refine ⟨life, start, laws, ?_⟩
  intro i j e e' q id id' request request' earlier later handed again
  have notBefore := handed_out_before events life laws i j e e' earlier later q id id' request
    request' handed again
  have notAfter := handed_out_before events life laws j i e' e later earlier q id' id request'
    request again handed
  omega

/-- A run of four calls in which the second hands out what the first enqueued. -/
theorem queryManager_refines_lifecycle_run :
    ∃ events, QueryManager.default.history
        [.enqueueQuery [fun _ => 0] {}, .getPendingRequests,
          .resolveQuery "AAAAAAAA" {}, .resolveQuery "AAAAAAAA" {}] = some events ∧
      events.length = 4 ∧
      ∃ life : Nat → QueryLife, life 0 = [] ∧
        ∀ i e, events[i]? = some e → LawfulEvent e (life i) (life (i + 1)) := by
  have computed : (QueryManager.default.history
      [.enqueueQuery [fun _ => 0] {}, .getPendingRequests, .resolveQuery "AAAAAAAA" {},
        .resolveQuery "AAAAAAAA" {}]).map List.length = some 4 := by decide +kernel
  obtain ⟨events, ran, four⟩ := Option.map_eq_some_iff.mp computed
  obtain ⟨life, start, laws, _⟩ := queryManager_refines_lifecycle _ events ran
  exact ⟨events, ran, four, life, start, laws⟩

end FullServiceMirror
