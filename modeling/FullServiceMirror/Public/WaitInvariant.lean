import FullServiceMirror.Public.Waiting

/-!
# The invariant of the waits

It ties the response in a query's cell to the order in which its resolver and
its waiter took the query's mutex. Everything known at a place is known under a
mutex that is held there, or cannot be undone.
-/
namespace FullServiceMirror.Threads

open Rust Rust.Sync

variable {T : Type}

/-- What is known where a thread is. -/
def Asserts (m : QueryManager) (history : History T) : Place → Prop
  | .checkElapsed query _ => ∀ response, ¬Resolved history query response
  | .assertSome query | .takeResponse query =>
    ∃ response, (m.cells query).response = some response ∧ InTime history query response
  | .returning query (.ok response) => InTime history query response
  | .returning query (.error e) => e = "timeout" ∧ (∀ response, ¬InTime history query response) ∧
    (m.cells query).response = none
  | .storeResponse _ query response _ =>
    Resolved history query response ∧ ∀ t rest, (t, .notify query rest) ∉ history
  | .notify query _ | .unlockQuery query _ => ∃ response, Resolved history query response
  | _ => True

structure Waiting (s : State T Lock Shared Place) : Prop where
  asserts : ∀ t, Asserts s.data.manager s.history (s.place t)
  /-- A query is listed once at most, and once it is resolved it is not. -/
  one_handle : ∀ t query, handles s.data.manager (s.place t) query ≤ 1
  handled : ∀ t query, 0 < handles s.data.manager (s.place t) query →
    query < s.data.manager.issued ∧ ∀ response, ¬Resolved s.history query response
  one_resolver : ∀ query, s.history.countP (fun step => step.2.resolves query) ≤ 1
  resolved_issued : ∀ query response, Resolved s.history query response →
    query < s.data.manager.issued
  one_waiter : ∀ t u query, (s.place t).waiter = some query → (s.place u).waiter = some query → t = u
  waiter_issued : ∀ t query, (s.place t).waiter = some query → query < s.data.manager.issued
  stored : ∀ query response, (s.data.manager.cells query).response = some response →
    Resolved s.history query response
  /-- What was resolved is stored, or about to be, or the query's waiter is past it. -/
  kept : ∀ query response, Resolved s.history query response →
    (s.data.manager.cells query).response = some response ∨
    (∃ t queryId rest, s.place t = .storeResponse queryId query response rest) ∨
    (∀ t, (s.place t).waiter = some query → ∃ result, s.place t = .returning query result)
  returned : ∀ t query result, (t, .returning query result) ∈ s.history →
    query < s.data.manager.issued ∧ Exact s.history query result ∧
      ∀ u, (s.place u).waiter ≠ some query
  notified : ∀ t query rest, (t, .notify query rest) ∈ s.history →
    ∃ response, Resolved s.history query response
  asleep : ∀ t k, s.mode t = .asleep k → ∃ query start, k = .query query ∧
    s.place t = .awaitLock query start ∧ ∀ u rest, (u, .notify query rest) ∉ s.history

variable {s s' : State T Lock Shared Place} {t : T} {choice : Choice} {place' : Place}
  {i : Instruction Lock Shared Place} {query : Query}

namespace Waiting

/-- A waiter that finds nothing in the cell is ahead of any resolver. -/
theorem unresolved (safe : Safe holds s) (waiting : Waiting s) (start : Nat)
    (here : s.place t = .evaluate query start)
    (empty : (s.data.manager.cells query).response = none) (response : QueryResponse) :
    ¬Resolved s.history query response := by
  intro resolved
  rcases waiting.kept query response resolved with stored | ⟨u, queryId, rest, storing⟩ | past
  · rw [empty] at stored
    cases stored
  · have held : .query query ∈ holds (s.place t) := by rw [here]; simp [holds]
    have held' : .query query ∈ holds (s.place u) := by rw [storing]; simp [holds]
    have same := safe.exclusive held held'
    subst same
    rw [here] at storing
    cases storing
  · obtain ⟨result, returning⟩ := past t (by rw [here]; rfl)
    rw [here] at returning
    cases returning

/-- The cell of a query that was not resolved is empty. -/
theorem empty_of_unresolved (waiting : Waiting s) (query : Query)
    (unresolved : ∀ response, ¬Resolved s.history query response) :
    (s.data.manager.cells query).response = none := by
  cases stored : (s.data.manager.cells query).response with
  | none => rfl
  | some response => exact absurd (waiting.stored query response stored) (unresolved response)

/-- A query that is being resolved was not resolved before. -/
theorem unresolved_at_resolve (waiting : Waiting s) (queryId : String) (response : QueryResponse)
    (rest : List (String × QueryResponse))
    (here : s.place t = .resolve queryId query response rest) :
    query < s.data.manager.issued ∧ ∀ response, ¬Resolved s.history query response := by
  refine waiting.handled t query ?_
  rw [here]
  simp only [handles, Place.owns, List.count_singleton_self]
  omega

theorem asserts_self (safe : Safe holds s) (waiting : Waiting s)
    (upcoming : next s.data choice (s.place t) = some i) (target : i.target = some place') :
    Asserts (i.effect s.data).manager ((t, s.place t) :: s.history) place' := by
  have asserted := waiting.asserts t
  obtain ⟨place, here⟩ : ∃ place, s.place t = place := ⟨_, rfl⟩
  rw [here] at upcoming asserted ⊢
  revert target
  revert upcoming
  fun_cases next s.data choice place <;> rintro ⟨⟩ ⟨⟩ <;> try trivial
  -- An empty cell under the waiter's mutex: nothing was resolved for it yet.
  next query start empty =>
    intro response resolved
    have before := ((resolved_cons t _ response).mp resolved).resolve_left (by rintro ⟨_, _, ⟨⟩⟩)
    exact waiting.unresolved safe start here empty response before
  next query start response stored =>
    exact ⟨response, stored, (inTime_evaluate t _ response start).mpr (waiting.stored query response stored)⟩
  -- The time is up and the cell empty, so no response came in time.
  next query start elapsed =>
    refine ⟨rfl, ?_, waiting.empty_of_unresolved query asserted⟩
    intro response inTime
    exact asserted response ((inTime_cons t _ response rfl).mp inTime).resolved
  next query response stored =>
    obtain ⟨response', stored', inTime⟩ := asserted
    rw [stored] at stored'
    cases stored'
    exact (inTime_cons t _ response rfl).mpr inTime
  -- This very step is the resolution; nobody was notified before it.
  next queryId query response rest =>
    refine ⟨(resolved_cons t _ response).mpr (Or.inl ⟨queryId, rest, rfl⟩), fun u rest' member => ?_⟩
    rcases List.mem_cons.mp member with now | before
    · cases now
    · obtain ⟨response', resolved⟩ := waiting.notified u query rest' before
      exact (waiting.unresolved_at_resolve queryId response rest here).2 response' resolved
  next _ query response rest => exact ⟨response, asserted.1.cons t _⟩
  next query rest =>
    obtain ⟨response, resolved⟩ := asserted
    exact ⟨response, resolved.cons t _⟩

/-- What another thread knows, it knows under a mutex that it holds, or for good. -/
theorem asserts_other (safe : Safe holds s) (waiting : Waiting s)
    (upcoming : next s.data choice (s.place t) = some i) (target : i.target = some place')
    (free : ∀ k, i = .lock k place' → (s.mutex k).holder = none) (u : T) (other : u ≠ t) :
    Asserts (i.effect s.data).manager ((t, s.place t) :: s.history) (s.place u) := by
  have asserted := waiting.asserts u
  -- The two threads never hold one mutex, and `t` writes only cells whose mutex it holds.
  have apart (query : Query) (held : .query query ∈ holds (s.place u)) :
      .query query ∉ holds (s.place t) :=
    fun held' => other (safe.exclusive held held')
  have same (query : Query) (waits : (s.place u).waiter = some query)
      (held : .query query ∈ holds (s.place u)) :
      ((i.effect s.data).manager.cells query).response = (s.data.manager.cells query).response :=
    response_unheld upcoming target (waiting.waiter_issued u query waits) (apart query held)
  have unmoved (query : Query) (response : QueryResponse) (held : .query query ∈ holds (s.place u)) :
      InTime ((t, s.place t) :: s.history) query response ↔ InTime s.history query response :=
    inTime_cons t _ response (evaluates_eq_false (apart query held))
  cases at_place : s.place u with
  | checkElapsed query start =>
    rw [at_place] at asserted apart
    intro response resolved
    rcases (resolved_cons t _ response).mp resolved with ⟨queryId, rest, resolving⟩ | before
    · -- The mutex that the resolver takes here is held by the waiter.
      rw [resolving] at upcoming
      cases upcoming
      cases target
      exact safe.not_held (free _ rfl) u (by rw [at_place]; simp [holds])
    · exact asserted response before
  | assertSome query | takeResponse query =>
    rw [at_place] at asserted same unmoved
    obtain ⟨response, stored, inTime⟩ := asserted
    exact ⟨response, (same query rfl (by simp [holds])).trans stored,
      (unmoved query response (by simp [holds])).mpr inTime⟩
  | returning query result =>
    rw [at_place] at asserted same unmoved
    cases result with
    | ok response => exact (unmoved query response (by simp [holds])).mpr asserted
    | error e =>
      obtain ⟨timeout, late, empty⟩ := asserted
      refine ⟨timeout, ?_, (same query rfl (by simp [holds])).trans empty⟩
      intro response inTime
      exact late response ((unmoved query response (by simp [holds])).mp inTime)
  | storeResponse queryId query response rest =>
    rw [at_place] at asserted apart
    refine ⟨asserted.1.cons t _, fun v rest' member => ?_⟩
    rcases List.mem_cons.mp member with now | before
    · obtain ⟨-, notifying⟩ := Prod.mk.inj now
      exact apart query (by simp [holds]) (by rw [← notifying]; simp [holds])
    · exact asserted.2 v rest' before
  | notify query rest | unlockQuery query rest =>
    rw [at_place] at asserted
    obtain ⟨response, resolved⟩ := asserted
    exact ⟨response, resolved.cons t _⟩
  | _ => trivial

theorem handles_self (waiting : Waiting s) (upcoming : next s.data choice (s.place t) = some i)
    (target : i.target = some place') (query : Query) :
    handles (i.effect s.data).manager place' query ≤ 1 ∧
      (0 < handles (i.effect s.data).manager place' query →
        query < (i.effect s.data).manager.issued ∧
          ∀ response, ¬Resolved ((t, s.place t) :: s.history) query response) := by
  have once := waiting.one_handle t query
  have handled := waiting.handled t query
  have more := issued_le upcoming target
  rcases handles_le upcoming target query with fewer | ⟨rfl, fresh, listed⟩
  · refine ⟨Nat.le_trans fewer once, fun positive => ?_⟩
    obtain ⟨issued, unresolved⟩ := handled (Nat.lt_of_lt_of_le positive fewer)
    refine ⟨Nat.lt_of_lt_of_le issued more, fun response resolved => ?_⟩
    rcases (resolved_cons t _ response).mp resolved with ⟨queryId, rest, resolving⟩ | before
    · -- The step that resolves a query is the one that takes it off the list.
      rw [resolving] at upcoming once
      cases upcoming
      cases target
      simp only [handles, Place.owns, Instruction.effect, List.count_singleton_self, List.count_nil]
        at once positive
      omega
    · exact unresolved response before
  · have unlisted : handles s.data.manager (s.place t) s.data.manager.issued = 0 := by
      by_contra listed
      exact Nat.lt_irrefl _ (handled (Nat.pos_of_ne_zero listed)).1
    refine ⟨by omega, fun _ => ⟨fresh, fun response resolved => ?_⟩⟩
    rcases (resolved_cons t _ response).mp resolved with ⟨queryId, rest, resolving⟩ | before
    · rw [resolving] at unlisted
      simp [handles, Place.owns] at unlisted
    · exact Nat.lt_irrefl _ (waiting.resolved_issued _ response before)

theorem handles_other (safe : Safe holds s) (waiting : Waiting s)
    (upcoming : next s.data choice (s.place t) = some i) (target : i.target = some place') (u : T)
    (other : u ≠ t) (query : Query) :
    handles (i.effect s.data).manager (s.place u) query ≤ 1 ∧
      (0 < handles (i.effect s.data).manager (s.place u) query →
        query < (i.effect s.data).manager.issued ∧
          ∀ response, ¬Resolved ((t, s.place t) :: s.history) query response) := by
  by_cases held : .manager ∈ holds (s.place t)
  · -- Only the thread in the manager's mutex has queries of its own.
    have owns := owns_eq_nil fun held' => other (safe.exclusive held' held)
    have fewer : handles (i.effect s.data).manager (s.place u) query ≤
        handles (i.effect s.data).manager place' query := by
      simp only [handles, owns, List.count_nil]
      omega
    obtain ⟨once, handled⟩ := waiting.handles_self upcoming target query
    exact ⟨Nat.le_trans fewer once, fun positive => handled (Nat.lt_of_lt_of_le positive fewer)⟩
  · rw [listed_unheld upcoming target held]
    refine ⟨waiting.one_handle u query, fun positive => ?_⟩
    obtain ⟨issued, unresolved⟩ := waiting.handled u query positive
    refine ⟨Nat.lt_of_lt_of_le issued (issued_le upcoming target), fun response resolved => ?_⟩
    rcases (resolved_cons t _ response).mp resolved with ⟨queryId, rest, resolving⟩ | before
    · rw [resolving] at held
      simp [holds] at held
    · exact unresolved response before

theorem one_resolver_cons (waiting : Waiting s) (t : T) (query : Query) :
    ((t, s.place t) :: s.history).countP (fun step => step.2.resolves query) ≤ 1 := by
  rw [List.countP_cons]
  cases here : s.place t with
  | resolve queryId q response rest =>
    by_cases same : q = query
    · subst same
      have first := (not_resolved_iff _).mp (waiting.unresolved_at_resolve queryId response rest here).2
      rw [first]
      split <;> omega
    · simpa [Place.resolves, same] using waiting.one_resolver query
  | _ => exact waiting.one_resolver query

theorem resolved_issued_cons (waiting : Waiting s)
    (upcoming : next s.data choice (s.place t) = some i) (target : i.target = some place')
    (query : Query) (response : QueryResponse)
    (resolved : Resolved ((t, s.place t) :: s.history) query response) :
    query < (i.effect s.data).manager.issued := by
  have more := issued_le upcoming target
  rcases (resolved_cons t _ response).mp resolved with ⟨queryId, rest, resolving⟩ | before
  · exact Nat.lt_of_lt_of_le (waiting.unresolved_at_resolve queryId response rest resolving).1 more
  · exact Nat.lt_of_lt_of_le (waiting.resolved_issued query response before) more

theorem stored_cons (waiting : Waiting s) (upcoming : next s.data choice (s.place t) = some i)
    (target : i.target = some place') (query : Query) (response : QueryResponse)
    (stored : ((i.effect s.data).manager.cells query).response = some response) :
    Resolved ((t, s.place t) :: s.history) query response := by
  rw [resolved_cons]
  right
  rcases response_of_effect upcoming target response stored with before | ⟨queryId, rest, storing⟩
  · exact waiting.stored query response before
  · have asserted := waiting.asserts t
    rw [storing] at asserted
    exact asserted.1

/-- A thread that is about to return from its wait returns what was there in time. -/
theorem exact_of_returning (waiting : Waiting s) (result : Except String QueryResponse)
    (here : s.place t = .returning query result) : Exact s.history query result := by
  have asserted := waiting.asserts t
  rw [here] at asserted
  cases result with
  | ok response =>
    refine ⟨fun response' => ⟨?_, fun inTime => ?_⟩, ⟨by rintro ⟨⟩, fun none => absurd asserted (none response)⟩⟩
    · rintro ⟨⟩
      exact asserted
    · rw [asserted.resolved.unique inTime.resolved (waiting.one_resolver query)]
  | error e =>
    obtain ⟨rfl, late, _⟩ := asserted
    exact ⟨fun response => ⟨by rintro ⟨⟩, fun inTime => absurd inTime (late response)⟩, fun _ => late, fun _ => rfl⟩

theorem exact_cons {place : Place} (t : T) (history : History T) (result : Except String QueryResponse)
    (other : place.evaluates query = false) :
    Exact ((t, place) :: history) query result ↔ Exact history query result := by
  simp only [Exact, inTime_cons t history _ other]

theorem notified_cons (waiting : Waiting s) (t u : T) (query : Query)
    (rest : List (String × QueryResponse))
    (member : (u, .notify query rest) ∈ (t, s.place t) :: s.history) :
    ∃ response, Resolved ((t, s.place t) :: s.history) query response := by
  have resolved : ∃ response, Resolved s.history query response := by
    rcases List.mem_cons.mp member with now | before
    · obtain ⟨rfl, here⟩ := Prod.mk.inj now
      have asserted := waiting.asserts u
      rw [← here] at asserted
      exact asserted
    · exact waiting.notified u query rest before
  obtain ⟨response, resolved⟩ := resolved
  exact ⟨response, resolved.cons t _⟩

/-- The assertion and the `expect`s of a wait hold, and `CHARSET` is indexed in bounds. -/
theorem no_panic (waiting : Waiting s) (t : T) (choice : Choice) :
    next s.data choice (s.place t) ≠ some .panic := by
  have asserted := waiting.asserts t
  generalize s.place t = place at asserted
  fun_cases next s.data choice place <;> try rintro ⟨⟩
  next overrun => rw [drawQueryId_eq] at overrun; cases overrun
  all_goals
    next empty =>
      obtain ⟨response, stored, _⟩ := asserted
      rw [empty] at stored
      cases stored

variable [DecidableEq T]

/-- Who waits after a step waited before, or has just enqueued a new query. -/
theorem waiter_update (upcoming : next s.data choice (s.place t) = some i)
    (target : i.target = some place') (u : T) (query : Query)
    (waits : (Function.update s.place t place' u).waiter = some query) :
    (s.place u).waiter = some query ∨ (u = t ∧ query = s.data.manager.issued ∧
      s.data.manager.issued < (i.effect s.data).manager.issued) := by
  by_cases same : u = t
  · subst same
    rw [Function.update_self] at waits
    rcases waiter_of_target upcoming target waits with before | fresh
    · exact Or.inl before
    · exact Or.inr ⟨rfl, fresh⟩
  · rw [Function.update_of_ne same] at waits
    exact Or.inl waits

/-- Nobody comes to wait for a query that has been issued. -/
theorem waiter_of_issued (upcoming : next s.data choice (s.place t) = some i)
    (target : i.target = some place') (issued : query < s.data.manager.issued) (u : T)
    (waits : (Function.update s.place t place' u).waiter = some query) :
    (s.place u).waiter = some query := by
  rcases waiter_update upcoming target u query waits with known | ⟨_, rfl, _⟩
  · exact known
  · exact absurd issued (Nat.lt_irrefl _)

theorem one_waiter_update (waiting : Waiting s) (upcoming : next s.data choice (s.place t) = some i)
    (target : i.target = some place') (u v : T) (query : Query)
    (first : (Function.update s.place t place' u).waiter = some query)
    (second : (Function.update s.place t place' v).waiter = some query) : u = v := by
  have known (w : T) (waits : (s.place w).waiter = some s.data.manager.issued) : False :=
    Nat.lt_irrefl _ (waiting.waiter_issued w _ waits)
  rcases waiter_update upcoming target u query first with waits | ⟨rfl, rfl, _⟩
  · rcases waiter_update upcoming target v query second with waits' | ⟨rfl, rfl, _⟩
    · exact waiting.one_waiter u v query waits waits'
    · exact (known u waits).elim
  · rcases waiter_update upcoming target v _ second with waits' | ⟨rfl, _, _⟩
    · exact (known v waits').elim
    · rfl

theorem waiter_issued_update (waiting : Waiting s)
    (upcoming : next s.data choice (s.place t) = some i) (target : i.target = some place') (u : T)
    (query : Query) (waits : (Function.update s.place t place' u).waiter = some query) :
    query < (i.effect s.data).manager.issued := by
  rcases waiter_update upcoming target u query waits with before | ⟨_, rfl, fresh⟩
  · exact Nat.lt_of_lt_of_le (waiting.waiter_issued u query before) (issued_le upcoming target)
  · exact fresh

theorem kept_cons (waiting : Waiting s) (upcoming : next s.data choice (s.place t) = some i)
    (target : i.target = some place') (query : Query) (response : QueryResponse)
    (resolved : Resolved ((t, s.place t) :: s.history) query response) :
    ((i.effect s.data).manager.cells query).response = some response ∨
      (∃ u queryId rest, Function.update s.place t place' u = .storeResponse queryId query response rest) ∨
      (∀ u, (Function.update s.place t place' u).waiter = some query →
        ∃ result, Function.update s.place t place' u = .returning query result) := by
  rcases (resolved_cons t _ response).mp resolved with ⟨queryId, rest, resolving⟩ | before
  · -- The resolver has the mutex and goes on to store its response.
    rw [resolving] at upcoming
    cases upcoming
    cases target
    exact Or.inr (Or.inl ⟨t, queryId, rest, Function.update_self t _ s.place⟩)
  have issued := waiting.resolved_issued query response before
  -- A resolved response is in the cell, about to be stored, or was taken out; the step moves it on.
  rcases waiting.kept query response before with stored | ⟨u, queryId, rest, storing⟩ | past
  · rcases response_kept upcoming target issued with same | taking | ⟨queryId, response', rest, storing⟩
    · exact Or.inl (same.trans stored)
    · -- The waiter takes the response out and has only to return it.
      right
      right
      intro u waits
      have known := waiter_of_issued upcoming target issued u waits
      have same := waiting.one_waiter u t query known (by rw [taking]; rfl)
      subst same
      rw [taking, next, stored] at upcoming
      cases upcoming
      cases target
      exact ⟨_, Function.update_self u _ s.place⟩
    · left
      have asserted := waiting.asserts t
      rw [storing] at asserted upcoming
      have same := before.unique asserted.1 (waiting.one_resolver query)
      subst same
      cases upcoming
      simp [Instruction.effect, putManager, QueryManager.resolve]
  · by_cases same : u = t
    · subst same
      left
      rw [storing] at upcoming
      cases upcoming
      simp [Instruction.effect, putManager, QueryManager.resolve]
    · exact Or.inr (Or.inl ⟨u, queryId, rest, by rw [Function.update_of_ne same, storing]⟩)
  · right
    right
    intro u waits
    obtain ⟨result, returning⟩ := past u (waiter_of_issued upcoming target issued u waits)
    by_cases same : u = t
    · -- Its next step is to return, after which it does not wait.
      subst same
      rw [returning] at upcoming
      cases upcoming
      cases target
      rw [Function.update_self] at waits
      cases waits
    · exact ⟨result, by rw [Function.update_of_ne same, returning]⟩

theorem returned_cons (waiting : Waiting s) (upcoming : next s.data choice (s.place t) = some i)
    (target : i.target = some place') (u : T) (query : Query) (result : Except String QueryResponse)
    (member : (u, .returning query result) ∈ (t, s.place t) :: s.history) :
    query < (i.effect s.data).manager.issued ∧ Exact ((t, s.place t) :: s.history) query result ∧
      ∀ v, (Function.update s.place t place' v).waiter ≠ some query := by
  have more := issued_le upcoming target
  -- Either this step returns, or an earlier one did and its result stays exact.
  rcases List.mem_cons.mp member with now | before
  · obtain ⟨rfl, here⟩ := Prod.mk.inj now
    have waits : (s.place u).waiter = some query := by rw [← here]; rfl
    have issued := waiting.waiter_issued u query waits
    refine ⟨Nat.lt_of_lt_of_le issued more, ?_, ?_⟩
    · rw [← here]
      exact (exact_cons u _ result rfl).mpr (waiting.exact_of_returning result here.symm)
    · intro v waits'
      have known := waiter_of_issued upcoming target issued v waits'
      have same := waiting.one_waiter u v query waits known
      subst same
      rw [← here] at upcoming
      cases upcoming
      cases target
      rw [Function.update_self] at waits'
      cases waits'
  · obtain ⟨issued, was_exact, past⟩ := waiting.returned u query result before
    refine ⟨Nat.lt_of_lt_of_le issued more, (exact_cons t _ result ?_).mpr was_exact, ?_⟩
    · -- Whoever evaluates the predicate still waits for the query.
      cases here : s.place t with
      | evaluate q start =>
        refine decide_eq_false ?_
        rintro rfl
        exact past t (by rw [here]; rfl)
      | _ => rfl
    · intro v waits
      exact past v (waiter_of_issued upcoming target issued v waits)

theorem asleep_advances (waiting : Waiting s) (running : s.mode t = .running)
    (upcoming : next s.data choice (s.place t) = some i) (advances : Advances s t i s' place')
    (u : T) (k : Lock) (asleep : s'.mode u = .asleep k) :
    ∃ query start, k = .query query ∧ s'.place u = .awaitLock query start ∧
      ∀ v rest, (v, .notify query rest) ∉ s'.history := by
  rw [advances.place, advances.history]
  rcases advances.asleep k u asleep with before | ⟨rfl, rfl⟩
  · obtain ⟨query, start, rfl, here, unnotified⟩ := waiting.asleep u k before
    have other : u ≠ t := by
      rintro rfl
      rw [running] at before
      cases before
    refine ⟨query, start, rfl, by rw [Function.update_of_ne other, here], ?_⟩
    intro v rest member
    rcases List.mem_cons.mp member with now | earlier
    · -- A notification wakes the only waiter there is.
      obtain ⟨rfl, notifying⟩ := Prod.mk.inj now
      rw [← notifying] at upcoming
      cases upcoming
      have target := advances.target
      cases target
      obtain ⟨w, different, asleep'⟩ := advances.notified _ u rfl asleep
      obtain ⟨query', start', same, there, _⟩ := waiting.asleep w _ asleep'
      cases same
      exact different (waiting.one_waiter w u query (by rw [there]; rfl) (by rw [here]; rfl))
    · exact unnotified v rest earlier
  · -- The predicate was true under the mutex that is given up only now.
    obtain ⟨query, start, here, rfl, rfl⟩ := sleep_of_next upcoming
    have asserted := waiting.asserts u
    rw [here] at asserted ⊢
    refine ⟨query, start, rfl, Function.update_self u _ s.place, ?_⟩
    intro v rest member
    rcases List.mem_cons.mp member with now | earlier
    · cases now
    · obtain ⟨response, resolved⟩ := waiting.notified v query rest earlier
      exact asserted response resolved

theorem advances (safe : Safe holds s) (waiting : Waiting s) (running : s.mode t = .running)
    (upcoming : next s.data choice (s.place t) = some i) (advances : Advances s t i s' place') :
    Waiting s' := by
  have target := advances.target
  -- Only the place of `t` has changed: each part is shown for `t` and for the others.
  have elsewhere (u : T) (other : u ≠ t) : s'.place u = s.place u := by
    rw [advances.place, Function.update_of_ne other]
  have here : s'.place t = place' := by rw [advances.place, Function.update_self]
  constructor
  case asserts =>
    intro u
    rw [advances.data, advances.history]
    by_cases same : u = t
    · subst same
      rw [here]
      exact waiting.asserts_self safe upcoming target
    · rw [elsewhere u same]
      refine waiting.asserts_other safe upcoming target ?_ u same
      rintro k rfl
      exact advances.was_free k rfl
  case one_handle =>
    intro u query
    rw [advances.data]
    by_cases same : u = t
    · subst same
      rw [here]
      exact (waiting.handles_self upcoming target query).1
    · rw [elsewhere u same]
      exact (waiting.handles_other safe upcoming target u same query).1
  case handled =>
    intro u query
    rw [advances.data, advances.history]
    by_cases same : u = t
    · subst same
      rw [here]
      exact (waiting.handles_self upcoming target query).2
    · rw [elsewhere u same]
      exact (waiting.handles_other safe upcoming target u same query).2
  case one_resolver =>
    rw [advances.history]
    exact waiting.one_resolver_cons t
  case resolved_issued =>
    rw [advances.data, advances.history]
    exact waiting.resolved_issued_cons upcoming target
  case one_waiter =>
    rw [advances.place]
    exact waiting.one_waiter_update upcoming target
  case waiter_issued =>
    rw [advances.data, advances.place]
    exact waiting.waiter_issued_update upcoming target
  case stored =>
    rw [advances.data, advances.history]
    exact waiting.stored_cons upcoming target
  case kept =>
    rw [advances.data, advances.place, advances.history]
    exact waiting.kept_cons upcoming target
  case returned =>
    rw [advances.data, advances.place, advances.history]
    exact waiting.returned_cons upcoming target
  case notified =>
    rw [advances.history]
    exact waiting.notified_cons t
  case asleep => exact waiting.asleep_advances running upcoming advances

theorem wakeUp (waiting : Waiting s) (t : T) (k : Lock) : Waiting (s.wakeUp t k) where
  __ := waiting
  asleep := by
    intro u j asleep
    by_cases same : u = t
    · subst same
      simp [State.wakeUp] at asleep
    · simp only [State.wakeUp, Function.update_of_ne same] at asleep
      exact waiting.asleep u j asleep

end Waiting

theorem waiting_start : Waiting (start : State T Lock Shared Place) where
  asserts := fun _ => trivial
  one_handle := fun _ _ => Nat.zero_le _
  handled := fun _ _ positive => absurd positive (Nat.lt_irrefl _)
  one_resolver := fun _ => Nat.zero_le _
  resolved_issued := by rintro _ _ ⟨_, _, _, ⟨⟩⟩
  one_waiter := by rintro _ _ _ ⟨⟩
  waiter_issued := by rintro _ _ ⟨⟩
  stored := by rintro _ _ ⟨⟩
  kept := by rintro _ _ ⟨_, _, _, ⟨⟩⟩
  returned := by rintro _ _ _ ⟨⟩
  notified := by rintro _ _ _ ⟨⟩
  asleep := by rintro _ _ ⟨⟩

/-- In every state that the threads reach, locks are held where the program
holds them, nothing has panicked, and the waits are as they should be. -/
theorem reachable_waiting [DecidableEq T]
    (reached : Transition.Reachable (step program) Transition.Any (start : State T Lock Shared Place) s) :
    Safe holds s ∧ Waiting s := by
  refine invariant respects Waiting ?_ ?_ ?_ ?_ (.start _ _ fun _ => rfl) waiting_start reached
  · intro s t choice _ waiting
    exact waiting.no_panic t choice
  · intro s s' t choice i place' safe waiting running upcoming advances
    exact waiting.advances safe running upcoming advances
  · intro s t k _ waiting _
    exact waiting.wakeUp t k
  · intro s elapsed waiting
    exact { waiting with }

end FullServiceMirror.Threads
