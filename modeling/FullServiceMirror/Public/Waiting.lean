import FullServiceMirror.Public.Threads

/-!
# Waiters and resolvers

Every query has one waiter, the thread that enqueued it, and at most one
resolver, the thread that removed it from `pending_responses`. What a waiter
finds is a matter of the order in which the two evaluate and resolve; here is
what one step does to the cells, to the handles and to that order.
-/
namespace FullServiceMirror.Threads

open Rust Rust.Sync

variable {T : Type}

/-- The steps taken so far, the last one first. -/
abbrev History (T : Type) := List (T × Place)

/-- At this place the query's mutex is acquired by `resolve`. -/
def Place.resolves (query : Query) : Place → Bool
  | .resolve _ query' _ _ => query' = query
  | _ => false

/-- At this place the predicate of the query's wait is evaluated. -/
def Place.evaluates (query : Query) : Place → Bool
  | .evaluate query' _ => query' = query
  | _ => false

/-- `resolve(response)` has acquired the query's mutex. -/
def Resolved (history : History T) (query : Query) (response : QueryResponse) : Prop :=
  ∃ t queryId rest, (t, .resolve queryId query response rest) ∈ history

/-- The steps up to the last evaluation of the predicate. -/
def upToEvaluation (query : Query) (history : History T) : History T :=
  history.dropWhile fun step => !step.2.evaluates query

/-- `resolve(response)` acquired the mutex before the last evaluation of the predicate. -/
def InTime (history : History T) (query : Query) (response : QueryResponse) : Prop :=
  Resolved (upToEvaluation query history) query response

/-- A wait has returned the response that was there in time, or else a timeout. -/
def Exact (history : History T) (query : Query) (result : Except String QueryResponse) : Prop :=
  (∀ response, result = .ok response ↔ InTime history query response) ∧
    (result = .error "timeout" ↔ ∀ response, ¬InTime history query response)

/-- The query that a thread has enqueued and waits for, until it has returned. -/
def Place.waiter : Place → Option Query
  | .enqueued query | .wait query | .startTimer query => some query
  | .evaluate query _ | .checkElapsed query _ | .awaitLock query _ => some query
  | .assertSome query | .takeResponse query | .returning query _ => some query
  | _ => none

/-- The queries that a thread has taken out of the maps and not yet resolved or put back. -/
def Place.owns : Place → List Query
  | .resolve _ query _ _ => [query]
  | .drainLoop drained _ pendingResponses => drained.map Prod.snd ++ pendingResponses.values
  | .cloneRequest _ query drained _ pendingResponses =>
    query :: (drained.map Prod.snd ++ pendingResponses.values)
  | .insertRequest _ query _ drained _ pendingResponses =>
    query :: (drained.map Prod.snd ++ pendingResponses.values)
  | _ => []

/-- How often a query is still listed to be resolved, in the maps or by the thread at the place. -/
def handles (m : QueryManager) (place : Place) (query : Query) : Nat :=
  place.owns.count query + m.pendingRequests.values.count query + m.pendingResponses.values.count query

variable {shared shared' : Shared} {choice : Choice} {place place' : Place}
  {i : Instruction Lock Shared Place} {query : Query}

/-! ## What a step changes -/

/-- The steps that change what the mutexes guard. -/
inductive Changes (shared : Shared) : Place → Place → Shared → Prop
  | insertQuery (request : QueryRequest) (queryId : String) :
    Changes shared (.insertQuery request queryId) (.enqueued shared.manager.issued)
      (putManager shared { (shared.manager.newQuery request).1 with
        pendingRequests := shared.manager.pendingRequests.insert queryId shared.manager.issued })
  | takeResponse (query : Query) (response : QueryResponse)
    (stored : (shared.manager.cells query).response = some response) :
    Changes shared (.takeResponse query) (.returning query (.ok response))
      (putManager shared { shared.manager with
        cells := Function.update shared.manager.cells query
          { shared.manager.cells query with response := none } })
  | storeResponse (queryId : String) (query : Query) (response : QueryResponse)
    (rest : List (String × QueryResponse)) :
    Changes shared (.storeResponse queryId query response rest) (.notify query rest)
      (putManager shared (shared.manager.resolve query response))
  | removeQuery (queryId : String) (response : QueryResponse) (rest : List (String × QueryResponse))
    (query : Query) (found : shared.manager.pendingResponses.get queryId = some query) :
    Changes shared (.removeQuery queryId response rest) (.resolve queryId query response rest)
      (putManager shared { shared.manager with
        pendingResponses := shared.manager.pendingResponses.remove queryId })
  | drain (order : List (String × Query)) (visits : shared.manager.pendingRequests.Visits order) :
    Changes shared .drain (.drainLoop order .new .new)
      (putManager shared { shared.manager with pendingRequests := .new })
  | refill (pendingRequests : HashMap String QueryRequest) (pendingResponses : HashMap String Query)
    (order : List (String × Query)) (visits : pendingResponses.Visits order) :
    Changes shared (.drainLoop [] pendingRequests pendingResponses) (.reply pendingRequests)
      (putManager shared { shared.manager with
        pendingResponses := QueryManager.refillLoop shared.manager.pendingResponses order })

/-- A step makes one of these changes, or changes nothing and takes no query over. -/
theorem effect_cases (upcoming : next shared choice place = some i)
    (target : i.target = some place') :
    (i.effect shared = shared ∧ ∀ query, place'.owns.count query ≤ place.owns.count query) ∨
      Changes shared place place' (i.effect shared) := by
  revert upcoming target
  fun_cases next shared choice place <;> rintro ⟨⟩ ⟨⟩ <;>
    try exact Or.inl ⟨rfl, fun _ => Nat.le_refl _⟩
  · exact Or.inr (.insertQuery _ _)
  next response stored =>
    have taken := Changes.takeResponse _ response stored
    simp only [Instruction.effect, QueryManager.wait, stored]
    exact Or.inr taken
  next found => exact Or.inr (.removeQuery _ _ _ _ found)
  · exact Or.inl ⟨rfl, fun _ => Nat.zero_le _⟩
  · exact Or.inr (.storeResponse _ _ _ _)
  next visits => exact Or.inr (.drain _ visits)
  next visits => exact Or.inr (.refill _ _ _ visits)
  -- A drained query goes from the list to the local map, where it may replace another.
  next queryId query request drained _ pendingResponses =>
    refine Or.inl ⟨rfl, fun other => ?_⟩
    have handed := pendingResponses.count_values_insert_le queryId query other
    simp only [Place.owns, List.count_append, List.count_cons, List.count_nil] at handed ⊢
    omega

theorem Changes.issued_le (changes : Changes shared place place' shared') :
    shared.manager.issued ≤ shared'.manager.issued := by
  cases changes with
  | insertQuery => exact Nat.le_succ _
  | _ => exact Nat.le_refl _

theorem issued_le (upcoming : next shared choice place = some i) (target : i.target = some place') :
    shared.manager.issued ≤ (i.effect shared).manager.issued := by
  rcases effect_cases upcoming target with ⟨same, _⟩ | changes
  · rw [same]
  · exact changes.issued_le

/-- A response is in its cell by the step of its resolver. -/
theorem response_of_effect (upcoming : next shared choice place = some i)
    (target : i.target = some place') (response : QueryResponse)
    (stored : ((i.effect shared).manager.cells query).response = some response) :
    (shared.manager.cells query).response = some response ∨
      ∃ queryId rest, place = .storeResponse queryId query response rest := by
  rcases effect_cases upcoming target with ⟨same, _⟩ | changes
  · rw [same] at stored
    exact Or.inl stored
  · generalize i.effect shared = shared' at changes stored
    cases changes with
    -- The cell of a new query is empty.
    | insertQuery request queryId =>
      left
      by_cases fresh : query = shared.manager.issued
      · simp [putManager, QueryManager.newQuery, fresh] at stored
      · simpa [putManager, QueryManager.newQuery, fresh] using stored
    | takeResponse q r was =>
      left
      by_cases here : query = q
      · simp [putManager, here] at stored
      · simpa [putManager, here] using stored
    | storeResponse queryId q r rest =>
      by_cases here : query = q
      · subst here
        right
        simp only [putManager, QueryManager.resolve, Function.update_self, Option.some.injEq] at stored
        exact ⟨queryId, rest, by rw [stored]⟩
      · left
        simpa [putManager, QueryManager.resolve, here] using stored
    | removeQuery | drain | refill => exact Or.inl stored

/-- It stays there until the waiter takes it, or the query is resolved once more. -/
theorem response_kept (upcoming : next shared choice place = some i)
    (target : i.target = some place') (issued : query < shared.manager.issued) :
    ((i.effect shared).manager.cells query).response = (shared.manager.cells query).response ∨
      place = .takeResponse query ∨
        ∃ queryId response rest, place = .storeResponse queryId query response rest := by
  rcases effect_cases upcoming target with ⟨same, _⟩ | changes
  · rw [same]
    exact Or.inl rfl
  · generalize i.effect shared = shared' at changes
    cases changes with
    | insertQuery request queryId =>
      left
      simp [putManager, QueryManager.newQuery, Nat.ne_of_lt issued]
    | takeResponse q r was =>
      by_cases here : query = q
      · exact Or.inr (Or.inl (by rw [here]))
      · left
        simp [putManager, here]
    | storeResponse queryId q r rest =>
      by_cases here : query = q
      · exact Or.inr (Or.inr ⟨queryId, r, rest, by rw [here]⟩)
      · left
        simp [putManager, QueryManager.resolve, here]
    | removeQuery | drain | refill => exact Or.inl rfl

theorem response_unheld (upcoming : next shared choice place = some i)
    (target : i.target = some place') (issued : query < shared.manager.issued)
    (unheld : .query query ∉ holds place) :
    ((i.effect shared).manager.cells query).response = (shared.manager.cells query).response := by
  rcases response_kept upcoming target issued with same | rfl | ⟨queryId, response, rest, rfl⟩
  · exact same
  · exact absurd (by simp [holds]) unheld
  · exact absurd (by simp [holds]) unheld

/-- A thread comes to wait for a query by enqueueing it. -/
theorem waiter_of_target (upcoming : next shared choice place = some i)
    (target : i.target = some place') (waits : place'.waiter = some query) :
    place.waiter = some query ∨
      query = shared.manager.issued ∧ shared.manager.issued < (i.effect shared).manager.issued := by
  revert upcoming target waits
  fun_cases next shared choice place <;> rintro ⟨⟩ ⟨⟩ waits <;> try exact Or.inl waits
  · right
    exact ⟨(Option.some.inj waits).symm, Nat.lt_succ_self _⟩
  all_goals cases waits


theorem Changes.handles_le (changes : Changes shared place place' shared') :
    handles shared'.manager place' query ≤ handles shared.manager place query ∨
      (query = shared.manager.issued ∧ shared.manager.issued < shared'.manager.issued ∧
        handles shared'.manager place' query ≤ handles shared.manager place query + 1) := by
  cases changes with
  | insertQuery request queryId =>
    have listed := shared.manager.pendingRequests.count_values_insert_le queryId
      shared.manager.issued query
    -- The insertion lists the new query once, and may replace another under its id.
    by_cases fresh : query = shared.manager.issued
    · refine Or.inr ⟨fresh, Nat.lt_succ_self _, ?_⟩
      simp only [handles, Place.owns, putManager, QueryManager.newQuery, List.count_cons,
        List.count_nil, fresh] at listed ⊢
      simp at listed
      omega
    · left
      simp only [handles, Place.owns, putManager, QueryManager.newQuery, List.count_nil] at listed ⊢
      rw [List.count_singleton, if_neg (by simpa using Ne.symm fresh)] at listed
      omega
  | takeResponse | storeResponse => exact Or.inl (Nat.le_refl _)
  | removeQuery queryId response rest q found =>
    left
    have removed := shared.manager.pendingResponses.count_values_remove queryId q query found
    simp only [handles, Place.owns, putManager, List.count_nil]
    omega
  | drain order visits =>
    left
    have drained := visits.count_values query
    simp only [handles, Place.owns, putManager, List.count_append, HashMap.values_new, List.count_nil]
    omega
  | refill pendingRequests pendingResponses order visits =>
    left
    have refilled := HashMap.count_values_foldl_le order shared.manager.pendingResponses query
    have handed := visits.count_values query
    simp only [handles, Place.owns, putManager, List.count_append, List.map_nil, List.count_nil]
    change _ + (QueryManager.refillLoop _ _).values.count query ≤ _
    simp only [QueryManager.refillLoop]
    omega

/-- Only a new query is listed more often than before. -/
theorem handles_le (upcoming : next shared choice place = some i) (target : i.target = some place')
    (query : Query) :
    handles (i.effect shared).manager place' query ≤ handles shared.manager place query ∨
      (query = shared.manager.issued ∧ shared.manager.issued < (i.effect shared).manager.issued ∧
        handles (i.effect shared).manager place' query ≤ handles shared.manager place query + 1) := by
  rcases effect_cases upcoming target with ⟨same, fewer⟩ | changes
  · have owned := fewer query
    left
    rw [same]
    simp only [handles]
    omega
  · exact changes.handles_le

/-- Nobody but the thread that holds the manager's mutex changes what is listed there. -/
theorem listed_unheld (upcoming : next shared choice place = some i) (target : i.target = some place')
    (unheld : .manager ∉ holds place) (elsewhere : Place) :
    handles (i.effect shared).manager elsewhere query = handles shared.manager elsewhere query := by
  rcases effect_cases upcoming target with ⟨same, _⟩ | changes
  · rw [same]
  · generalize i.effect shared = shared' at changes
    cases changes with
    | takeResponse => rfl
    | insertQuery | storeResponse | removeQuery | drain | refill => exact absurd (by simp [holds]) unheld

theorem owns_eq_nil (unheld : .manager ∉ holds place) : place.owns = [] := by
  cases place with
  | resolve | drainLoop | cloneRequest | insertRequest => exact absurd (by simp [holds]) unheld
  | _ => rfl

theorem sleep_of_next {k : Lock}
    (upcoming : next shared choice place = some (.sleep k place')) :
    ∃ query start, place = .checkElapsed query start ∧ k = .query query ∧
      place' = .awaitLock query start := by
  generalize asked : Instruction.sleep k place' = i at upcoming
  revert asked upcoming
  fun_cases next shared choice place <;> rintro ⟨⟩ ⟨⟩
  exact ⟨_, _, rfl, rfl, rfl⟩

theorem evaluates_eq_false (unheld : .query query ∉ holds place) :
    place.evaluates query = false := by
  cases place with
  | evaluate q start =>
    refine decide_eq_false ?_
    rintro rfl
    exact unheld (by simp [holds])
  | _ => rfl

/-! ## The history -/

theorem resolved_cons (t : T) (history : History T) (response : QueryResponse) :
    Resolved ((t, place) :: history) query response ↔
      (∃ queryId rest, place = .resolve queryId query response rest) ∨ Resolved history query response := by
  constructor
  · rintro ⟨u, queryId, rest, member⟩
    rcases List.mem_cons.mp member with same | before
    · cases same
      exact Or.inl ⟨queryId, rest, rfl⟩
    · exact Or.inr ⟨u, queryId, rest, before⟩
  · rintro (⟨queryId, rest, rfl⟩ | ⟨u, queryId, rest, before⟩)
    · exact ⟨t, queryId, rest, List.mem_cons_self⟩
    · exact ⟨u, queryId, rest, List.mem_cons_of_mem _ before⟩

theorem Resolved.cons {history : History T} {response : QueryResponse}
    (resolved : Resolved history query response) (t : T) (place : Place) :
    Resolved ((t, place) :: history) query response :=
  (resolved_cons t history response).mpr (Or.inr resolved)

theorem inTime_cons (t : T) (history : History T) (response : QueryResponse)
    (other : place.evaluates query = false) :
    InTime ((t, place) :: history) query response ↔ InTime history query response := by
  rw [InTime, upToEvaluation, List.dropWhile_cons_of_pos (by simp [other])]
  rfl

/-- At the evaluation itself, in time is what was resolved before. -/
theorem inTime_evaluate (t : T) (history : History T) (response : QueryResponse) (start : Nat) :
    InTime ((t, .evaluate query start) :: history) query response ↔
      Resolved history query response := by
  rw [InTime, upToEvaluation, List.dropWhile_cons_of_neg (by simp [Place.evaluates]), resolved_cons]
  exact ⟨fun either => either.resolve_left (by rintro ⟨_, _, ⟨⟩⟩), Or.inr⟩

theorem InTime.resolved {history : History T} {response : QueryResponse}
    (inTime : InTime history query response) : Resolved history query response := by
  obtain ⟨t, queryId, rest, member⟩ := inTime
  exact ⟨t, queryId, rest, (List.dropWhile_sublist _).subset member⟩

theorem not_resolved_iff (history : History T) :
    (∀ response, ¬Resolved history query response) ↔
      history.countP (fun step => step.2.resolves query) = 0 := by
  rw [List.countP_eq_zero]
  constructor
  · rintro none ⟨t, place⟩ member resolves
    cases place with
    | resolve queryId q response rest =>
      have same : q = query := by simpa [Place.resolves] using resolves
      subst same
      exact none response ⟨t, queryId, rest, member⟩
    | _ => cases resolves
  · rintro none response ⟨t, queryId, rest, member⟩
    exact none _ member (by simp [Place.resolves])

/-- What one resolver resolves a query with is one response. -/
theorem Resolved.unique {history : History T} {response response' : QueryResponse}
    (resolved : Resolved history query response) (resolved' : Resolved history query response')
    (once : history.countP (fun step => step.2.resolves query) ≤ 1) : response = response' := by
  obtain ⟨t, queryId, rest, member⟩ := resolved
  obtain ⟨t', queryId', rest', member'⟩ := resolved'
  have first : (t, .resolve queryId query response rest) ∈
      history.filter fun step => step.2.resolves query :=
    List.mem_filter.mpr ⟨member, by simp [Place.resolves]⟩
  have second : (t', .resolve queryId' query response' rest') ∈
      history.filter fun step => step.2.resolves query :=
    List.mem_filter.mpr ⟨member', by simp [Place.resolves]⟩
  rw [List.countP_eq_length_filter] at once
  cases found : history.filter fun step => step.2.resolves query with
  | nil =>
    rw [found] at first
    cases first
  | cons step others =>
    rw [found] at first second once
    have alone : others = [] := List.length_eq_zero_iff.mp (Nat.le_zero.mp (Nat.le_of_succ_le_succ once))
    subst alone
    have same := (List.mem_singleton.mp first).trans (List.mem_singleton.mp second).symm
    cases same
    rfl

end FullServiceMirror.Threads
