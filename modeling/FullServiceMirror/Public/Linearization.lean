import FullServiceMirror.Public.Calls
import FullServiceMirror.Public.WaitInvariant

/-!
# The threads refine the lives of requests

The operations of the manager take many steps under its mutex, and waits go on
meanwhile. Each operation takes effect in one of its steps: `enqueue_query` when
the query is inserted, `resolve_query` when the response is stored, and
`get_pending_requests` when the drained queries are handed over. What has been
removed or drained before counts as still in its map.
-/
namespace FullServiceMirror.Threads

open Rust Rust.Sync

/-- The manager as the last operation left it that has taken effect. -/
def committed (m : QueryManager) : Place → QueryManager
  | .resolve queryId query _ _ | .storeResponse queryId query _ _ =>
    { m with pendingResponses := m.pendingResponses.insert queryId query }
  | .drainLoop drained _ pendingResponses =>
    { m with pendingRequests := QueryManager.refillLoop pendingResponses drained }
  | .cloneRequest queryId query drained _ pendingResponses =>
    { m with pendingRequests := QueryManager.refillLoop pendingResponses ((queryId, query) :: drained) }
  | .insertRequest queryId query _ drained _ pendingResponses =>
    { m with pendingRequests := QueryManager.refillLoop pendingResponses ((queryId, query) :: drained) }
  | _ => m

/-- Where `get_pending_requests` is in its first loop. -/
structure Draining (m : QueryManager) (drained : List (String × Query))
    (pendingRequests : HashMap String QueryRequest) (pendingResponses : HashMap String Query) :
    Prop where
  emptied : ∀ id, m.pendingRequests.get id = none
  unique : (drained.map Prod.fst).Nodup
  apart : ∀ e ∈ drained, pendingResponses.get e.1 = none
  requests : ∀ id, pendingRequests.get id = (pendingResponses.get id).map m.request

/-- What an operation under way has found out under the manager's mutex. -/
def Underway (m : QueryManager) : Place → Prop
  | .insertQuery _ queryId => ∃ draws, m.generateQueryId [draws] = some queryId
  | .resolve queryId _ _ _ | .storeResponse queryId _ _ _ => m.pendingResponses.get queryId = none
  | .drainLoop drained pendingRequests pendingResponses =>
    Draining m drained pendingRequests pendingResponses
  | .cloneRequest queryId query drained pendingRequests pendingResponses =>
    Draining m ((queryId, query) :: drained) pendingRequests pendingResponses
  | .insertRequest queryId query request drained pendingRequests pendingResponses =>
    request = m.request query ∧
      Draining m ((queryId, query) :: drained) pendingRequests pendingResponses
  | _ => True

/-- An operation on the manager or on a query, with its result. -/
inductive Operation where
  | enqueueQuery (request : QueryRequest) (queryId : String) (query : Query)
  | getPendingRequests (pendingRequests : HashMap String QueryRequest)
  | resolveQuery (queryId : String) (response : QueryResponse) (result : Except String Unit)
  | wait (query : Query) (result : Except String QueryResponse)

/-- The operation that takes effect in the step from one place to the next. -/
def operation : Place → Place → Option Operation
  | .insertQuery request queryId, .enqueued query => some (.enqueueQuery request queryId query)
  | .drainLoop [] _ _, .reply pendingRequests => some (.getPendingRequests pendingRequests)
  | .storeResponse queryId _ response _, .notify _ _ => some (.resolveQuery queryId response (.ok ()))
  | .removeQuery queryId response _, .resolved result _ => some (.resolveQuery queryId response result)
  | .takeResponse query, .returning _ result => some (.wait query result)
  | .checkElapsed query _, .returning _ result => some (.wait query result)
  | _, _ => none

/-- What a call returns. -/
inductive Outcome where
  | query (query : Query)
  | requests (pendingRequests : HashMap String QueryRequest)
  | resolved (result : Except String Unit)
  | waited (query : Query) (result : Except String QueryResponse)

def Operation.outcome : Operation → Outcome
  | .enqueueQuery _ _ query => .query query
  | .getPendingRequests pendingRequests => .requests pendingRequests
  | .resolveQuery _ _ result => .resolved result
  | .wait query result => .waited query result

/-- The result that a thread has for its call as soon as it gets here. -/
def Place.outcome : Place → Option Outcome
  | .enqueued query => some (.query query)
  | .reply pendingRequests => some (.requests pendingRequests)
  | .notify _ _ => some (.resolved (.ok ()))
  | .resolved (.error e) _ => some (.resolved (.error e))
  | .returning query result => some (.waited query result)
  | _ => none

/-- What an operation does to the lives of requests, and with which result: the
calls of the manager do what they do one at a time, and a wait takes the response
that there is. -/
inductive OperationStep : QueryLife → Operation → QueryLife → Prop
  | enqueueQuery {a : QueryLife} (request : QueryRequest) (queryId : String)
    (fresh : ∀ (q : Query) (t : QueryTicket), a[q]? = some t → t.live → t.id ≠ queryId) :
    OperationStep a (.enqueueQuery request queryId a.length) (a.enqueue queryId request)
  | getPendingRequests {a a' : QueryLife} (pendingRequests : HashMap String QueryRequest)
    (step : LifeStep a .getPendingRequests (.requests pendingRequests) a') :
    OperationStep a (.getPendingRequests pendingRequests) a'
  | resolveQuery {a a' : QueryLife} (queryId : String) (response : QueryResponse)
    (result : Except String Unit) (step : LifeStep a (.resolveQuery queryId response) (.resolved result) a') :
    OperationStep a (.resolveQuery queryId response result) a'
  | answered {a : QueryLife} (query : Query) (t : QueryTicket) (response : QueryResponse)
    (found : a[query]? = some t) (stored : t.response = some response) :
    OperationStep a (.wait query (.ok response)) (a.take query)
  | timeout {a : QueryLife} (query : Query) (t : QueryTicket) (found : a[query]? = some t)
    (empty : t.response = none) : OperationStep a (.wait query (.error "timeout")) a

/-- What a step does to the lives of requests: its operation takes effect, or nothing happens. -/
def LifeMove (place place' : Place) (a a' : QueryLife) : Prop :=
  match operation place place' with
  | some o => OperationStep a o a'
  | none => a' = a

variable {shared : Shared} {choice : Choice} {place place' : Place}
  {i : Instruction Lock Shared Place} {a : QueryLife}

/-- A thread comes to have a result in the step in which its operation takes effect. -/
theorem outcome_of_step (upcoming : next shared choice place = some i)
    (target : i.target = some place') :
    (operation place place').map Operation.outcome = place'.outcome := by
  revert upcoming target
  fun_cases next shared choice place <;> rintro ⟨⟩ ⟨⟩ <;> rfl

/-- A query that has been cloned goes over to the local map. -/
theorem Draining.insert {m : QueryManager} {queryId : String} {query : Query}
    {drained : List (String × Query)} {pendingRequests : HashMap String QueryRequest}
    {pendingResponses : HashMap String Query}
    (draining : Draining m ((queryId, query) :: drained) pendingRequests pendingResponses) :
    Draining m drained (pendingRequests.insert queryId (m.request query))
      (pendingResponses.insert queryId query) where
  emptied := draining.emptied
  unique := (List.nodup_cons.mp draining.unique).2
  apart := by
    intro e member
    -- The ids of a drain are distinct, so that no later one overwrites this.
    have different : e.1 ≠ queryId := by
      rintro same
      exact (List.nodup_cons.mp draining.unique).1 (List.mem_map.mpr ⟨e, member, same⟩)
    rw [HashMap.get_insert, if_neg different]
    exact draining.apart e (List.mem_cons_of_mem _ member)
  requests := by
    intro id
    rw [HashMap.get_insert, HashMap.get_insert]
    split
    · rfl
    · exact draining.requests id

/-- Inserting the new query is what `enqueue_query` does as a whole. -/
theorem enqueue_step (m : QueryManager) (draws : Fin QUERY_ID_LEN → UInt64) (request : QueryRequest)
    (generated : m.generateQueryId [draws] = some (candidate draws)) (refines : Refines m a) :
    ∃ a', Refines { (m.newQuery request).1 with
        pendingRequests := m.pendingRequests.insert (candidate draws) m.issued } a' ∧
      OperationStep a (.enqueueQuery request (candidate draws) m.issued) a' := by
  have returned : m.enqueueQuery [draws] request = some ({ (m.newQuery request).1 with
      pendingRequests := m.pendingRequests.insert (candidate draws) m.issued }, m.issued) := by
    rw [QueryManager.enqueueQuery, generated]
    rfl
  obtain ⟨id, generated', issued, refines'⟩ := refines.enqueueQuery [draws] request _ _ returned
  rw [generated] at generated'
  cases generated'
  obtain ⟨noRequest, noResponse⟩ := QueryManager.generateQueryId_fresh _ _ _ generated
  have step := OperationStep.enqueueQuery request _ (refines.fresh _ noRequest noResponse)
  rw [← issued] at step
  exact ⟨_, refines', step⟩

/-- Handing the drained queries over is what `get_pending_requests` does as a whole. -/
theorem handOut_step {pendingRequests : HashMap String QueryRequest}
    {pendingResponses : HashMap String Query} {order : List (String × Query)}
    (visits : pendingResponses.Visits order) (m : QueryManager)
    (draining : Draining m [] pendingRequests pendingResponses)
    (refines : Refines { m with pendingRequests := pendingResponses } a) :
    Refines { m with pendingResponses := QueryManager.refillLoop m.pendingResponses order } a.handOut ∧
      LifeStep a .getPendingRequests (.requests pendingRequests) a.handOut := by
  constructor
  · refine refines.getPendingRequests.congr rfl rfl ?_ ?_
    · intro id
      rw [QueryManager.getPendingRequests_requests]
      exact draining.emptied id
    · intro id
      rw [QueryManager.getPendingRequests_responses]
      exact QueryManager.refillLoop_get m.pendingResponses pendingResponses order visits id
  · refine .handOut a pendingRequests fun id request => ?_
    rw [← refines.reply_iff id request, QueryManager.getPendingRequests_reply, draining.requests id]
    rfl

/-- Storing the response is what `resolve_query` does as a whole. -/
theorem resolve_step (m : QueryManager) (queryId : String) (query : Query) (response : QueryResponse)
    (removed : m.pendingResponses.get queryId = none)
    (refines : Refines { m with pendingResponses := m.pendingResponses.insert queryId query } a) :
    ∃ a', Refines (m.resolve query response) a' ∧
      LifeStep a (.resolveQuery queryId response) (.resolved (.ok ())) a' := by
  have awaited : (m.pendingResponses.insert queryId query).get queryId = some query := by simp
  obtain ⟨t, found, rfl, stage⟩ := (refines.handedOut queryId query).mp awaited
  refine ⟨_, (refines.resolved t.id response query awaited).congr rfl rfl (fun _ => rfl) ?_,
    .resolve a query t response found stage⟩
  intro id
  simp only [HashMap.get_remove, HashMap.get_insert]
  split
  next same => rw [same]; exact removed
  · rfl

/-- A step of the thread in the manager's mutex. -/
theorem committed_step (held : .manager ∈ holds place)
    (upcoming : next shared choice place = some i) (target : i.target = some place')
    (underway : Underway shared.manager place) (refines : Refines (committed shared.manager place) a) :
    ∃ a', Refines (committed (i.effect shared).manager place') a' ∧
      Underway (i.effect shared).manager place' ∧ LifeMove place place' a a' := by
  cases place with
  | generateQueryId request =>
    rw [next, drawQueryId_eq] at upcoming
    dsimp only at upcoming
    split at upcoming
    next fresh =>
      cases upcoming
      cases target
      have generated : shared.manager.generateQueryId [choice.draws] =
          some (candidate choice.draws) := by
        rw [QueryManagerInner.generateQueryId, if_pos fresh]
      exact ⟨a, refines, ⟨choice.draws, generated⟩, rfl⟩
    · cases upcoming
      cases target
      exact ⟨a, refines, trivial, rfl⟩
  | insertQuery request queryId =>
    cases upcoming
    cases target
    obtain ⟨draws, generated⟩ := underway
    have drawn : candidate draws = queryId := by
      rw [QueryManagerInner.generateQueryId] at generated
      split at generated
      · exact Option.some.inj generated
      · cases generated
    subst drawn
    obtain ⟨a', refines', step⟩ := enqueue_step shared.manager draws request generated refines
    exact ⟨a', refines', trivial, step⟩
  | removeQuery queryId response rest =>
    rw [next] at upcoming
    split at upcoming
    next absent =>
      -- An id that is not awaited: the call takes effect here, and changes nothing.
      cases upcoming
      cases target
      refine ⟨a, refines, trivial, .resolveQuery queryId response _ (.unknown a queryId response ?_)⟩
      intro q t found same stage
      have known : shared.manager.pendingResponses.get queryId = some q :=
        (refines.handedOut queryId q).mpr ⟨t, found, same, stage⟩
      rw [known] at absent
      cases absent
    next query awaited =>
      -- The entry is gone from the map, but counts as there until the response is stored.
      cases upcoming
      cases target
      refine ⟨a, refines.congr rfl rfl (fun _ => rfl) ?_, ?_, rfl⟩
      · intro id
        simp only [Instruction.effect, putManager, committed, HashMap.get_insert, HashMap.get_remove]
        split
        next same => rw [same, awaited]
        · rfl
      · simp [Underway, Instruction.effect, putManager]
  | storeResponse queryId query response rest =>
    cases upcoming
    cases target
    obtain ⟨a', refines', step⟩ :=
      resolve_step shared.manager queryId query response underway refines
    exact ⟨a', refines', trivial, .resolveQuery queryId response _ step⟩
  | drain =>
    rw [next] at upcoming
    split at upcoming
    next visits =>
      -- Refilling the drained queries gives back every lookup of the map that was drained.
      cases upcoming
      cases target
      refine ⟨a, refines.congr rfl rfl ?_ fun _ => rfl, ?_, rfl⟩
      · intro id
        refine (QueryManager.refillLoop_get .new _ choice.order visits id).trans ?_
        rw [HashMap.get_new, Option.or_none]
        rfl
      · exact ⟨fun id => HashMap.get_new id, visits.keys_nodup, fun e _ => HashMap.get_new e.1, by simp⟩
    · cases upcoming
  | drainLoop drained pendingRequests pendingResponses =>
    cases drained with
    | nil =>
      rw [next] at upcoming
      split at upcoming
      next visits =>
        cases upcoming
        cases target
        obtain ⟨refines', step⟩ := handOut_step visits shared.manager underway refines
        exact ⟨_, refines', trivial, .getPendingRequests pendingRequests step⟩
      · cases upcoming
    | cons entry drained =>
      cases upcoming
      cases target
      exact ⟨a, refines, underway, rfl⟩
  | cloneRequest =>
    cases upcoming
    cases target
    exact ⟨a, refines, ⟨rfl, underway⟩, rfl⟩
  | insertRequest queryId query request drained pendingRequests pendingResponses =>
    cases upcoming
    cases target
    obtain ⟨rfl, draining⟩ := underway
    exact ⟨a, refines, draining.insert, rfl⟩
  | enqueued | resolved | reply | notify | unlockQuery | resolve =>
    cases upcoming
    cases target
    exact ⟨a, refines, underway, rfl⟩
  | _ => simp [holds] at held

theorem committed_unheld (m : QueryManager) (unheld : .manager ∉ holds place) :
    committed m place = m := by
  cases place with
  | resolve | storeResponse | drainLoop | cloneRequest | insertRequest =>
    exact absurd (by simp [holds]) unheld
  | _ => rfl

theorem underway_unheld (m : QueryManager) (unheld : .manager ∉ holds place) : Underway m place := by
  cases place with
  | insertQuery | resolve | storeResponse | drainLoop | cloneRequest | insertRequest =>
    exact absurd (by simp [holds]) unheld
  | _ => trivial

/-- Where a thread comes into the manager's mutex, no operation is under way yet. -/
theorem underway_lock (upcoming : next shared choice place = some (.lock .manager place'))
    (m : QueryManager) : committed m place' = m ∧ Underway m place' := by
  generalize asked : Instruction.lock Lock.manager place' = i at upcoming
  revert asked upcoming
  fun_cases next shared choice place <;> rintro ⟨⟩ ⟨⟩ <;> exact ⟨rfl, trivial⟩

/-- Taking a response out of its cell is nothing to an operation under way. -/
theorem underway_take (m : QueryManager) (query : Query) (underway : Underway m place) :
    Underway { m with
      cells := Function.update m.cells query { m.cells query with response := none } } place := by
  have requests (q : Query) : QueryManager.request { m with
      cells := Function.update m.cells query { m.cells query with response := none } } q =
      m.request q := by
    simp only [QueryManager.request]
    by_cases same : q = query
    · rw [same, Function.update_self]
    · rw [Function.update_of_ne same]
  have draining {drained : List (String × Query)} {pendingRequests : HashMap String QueryRequest}
      {pendingResponses : HashMap String Query}
      (before : Draining m drained pendingRequests pendingResponses) :
      Draining { m with
        cells := Function.update m.cells query { m.cells query with response := none } }
        drained pendingRequests pendingResponses := by
    refine ⟨before.emptied, before.unique, before.apart, fun id => ?_⟩
    rw [before.requests, funext requests]
  cases place with
  | drainLoop | cloneRequest => exact draining underway
  | insertRequest => exact ⟨underway.1.trans (requests _).symm, draining underway.2⟩
  | _ => exact underway

/-- No operation takes effect where a mutex is locked. -/
theorem operation_lock (k : Lock) (upcoming : next shared choice place = some (.lock k place')) :
    operation place place' = none := by
  generalize asked : Instruction.lock k place' = i at upcoming
  revert asked upcoming
  fun_cases next shared choice place <;> rintro ⟨⟩ ⟨⟩ <;> rfl

/-- Outside the manager's mutex a wait ends, or no operation takes effect. -/
inductive Unheld (shared : Shared) : Place → Place → Shared → Prop
  | silent {place place' : Place} (none : operation place place' = none) : Unheld shared place place' shared
  | timeout (query : Query) (start : Nat) :
    Unheld shared (.checkElapsed query start) (.returning query (.error "timeout")) shared
  | answered (query : Query) (response : QueryResponse)
    (stored : (shared.manager.cells query).response = some response) :
    Unheld shared (.takeResponse query) (.returning query (.ok response))
      (putManager shared (shared.manager.wait query).1)

theorem unheld_cases (unheld : .manager ∉ holds place)
    (upcoming : next shared choice place = some i) (target : i.target = some place') :
    Unheld shared place place' (i.effect shared) := by
  revert unheld upcoming target
  fun_cases next shared choice place <;> rintro unheld ⟨⟩ ⟨⟩ <;> try exact .silent rfl
  all_goals try simp [holds] at unheld
  next query start elapsed => exact .timeout query start
  next query response stored => exact .answered query response stored

theorem committed_cells (m : QueryManager) (place : Place) : (committed m place).cells = m.cells := by
  cases place <;> rfl

theorem committed_issued (m : QueryManager) (place : Place) : (committed m place).issued = m.issued := by
  cases place <;> rfl

/-- A step outside the manager's mutex, while another thread may be in it. -/
theorem unheld_step (unheld : .manager ∉ holds place) (upcoming : next shared choice place = some i)
    (target : i.target = some place')
    (issued : ∀ query, place.waiter = some query → query < shared.manager.issued)
    (empty : ∀ query start, place = .checkElapsed query start →
      (shared.manager.cells query).response = none) (elsewhere : Place)
    (refines : Refines (committed shared.manager elsewhere) a) :
    ∃ a', Refines (committed (i.effect shared).manager elsewhere) a' ∧
      (Underway shared.manager elsewhere → Underway (i.effect shared).manager elsewhere) ∧
      LifeMove place place' a a' := by
  have ticket (query : Query) (waits : place.waiter = some query) : ∃ t : QueryTicket,
      a[query]? = some t ∧ t.response = (shared.manager.cells query).response := by
    have inside : query < a.length := by
      rw [← refines.issued, committed_issued]
      exact issued query waits
    have found : a[query]? = some (a[query]) := List.getElem?_eq_getElem inside
    refine ⟨_, found, ?_⟩
    have cell := refines.cells query _ found
    rw [committed_cells] at cell
    rw [cell]
  have ended := unheld_cases unheld upcoming target
  generalize i.effect shared = shared' at ended
  cases ended with
  | silent none =>
    refine ⟨a, refines, id, ?_⟩
    rw [LifeMove, none]
  | timeout query start =>
    obtain ⟨t, found, response⟩ := ticket query rfl
    exact ⟨a, refines, id, .timeout query t found (response.trans (empty query start rfl))⟩
  | answered query response stored =>
    obtain ⟨t, found, same⟩ := ticket query rfl
    have inside : query < a.length := (List.getElem?_eq_some_iff.mp found).1
    have taken := refines.wait query inside
    rw [QueryManager.wait, committed_cells, stored] at taken
    simp only [QueryManager.wait, stored]
    refine ⟨a.take query, ?_, underway_take shared.manager query,
      .answered query t response found (same.trans stored)⟩
    -- `committed` differs from the manager in its maps only, and a wait in its cell.
    cases elsewhere <;> exact taken

/-! ## The simulation -/

variable {T : Type} {s s' : State T Lock Shared Place} {t : T}

/-- The manager as of the last operation that has taken effect, whichever thread
is in its mutex. -/
def settled (s : State T Lock Shared Place) : QueryManager :=
  match (s.mutex .manager).holder with
  | some t => committed s.data.manager (s.place t)
  | none => s.data.manager

theorem settled_held (safe : Safe holds s) (held : .manager ∈ holds (s.place t)) :
    settled s = committed s.data.manager (s.place t) := by
  rw [settled, (safe.holder_iff .manager t).mpr held]

theorem settled_free (safe : Safe holds s) (free : ∀ t, .manager ∉ holds (s.place t)) :
    settled s = s.data.manager := by
  rw [settled]
  cases holder : (s.mutex .manager).holder with
  | none => rfl
  | some t => exact absurd ((safe.holder_iff .manager t).mp holder) (free t)

/-- The threads represent the lives of requests. -/
structure Linear (s : State T Lock Shared Place) (a : QueryLife) : Prop where
  refines : Refines (settled s) a
  underway : ∀ t, Underway s.data.manager (s.place t)

variable [DecidableEq T]

/-- A step inside the manager's mutex, or into it. -/
theorem Linear.advances_inside (safe : Safe holds s) (safe' : Safe holds s') (linear : Linear s a)
    (upcoming : next s.data choice (s.place t) = some i) (advances : Advances s t i s' place')
    (inside : .manager ∈ holds (s.place t)) : ∃ a', Linear s' a' ∧ LifeMove (s.place t) place' a a' := by
  have refines := linear.refines
  rw [settled_held safe inside] at refines
  obtain ⟨a', refines', underway', move⟩ :=
    committed_step inside upcoming advances.target (linear.underway t) refines
  -- The mutex excludes the other threads, so they have no operation under way.
  have alone (u : T) (other : u ≠ t) : .manager ∉ holds (s'.place u) := by
    rw [advances.place, Function.update_of_ne other]
    exact fun held => other (safe.exclusive held inside)
  have here : s'.place t = place' := by rw [advances.place, Function.update_self]
  refine ⟨a', ⟨?_, fun u => ?_⟩, move⟩
  · have same : settled s' = committed s'.data.manager place' := by
      by_cases stays : .manager ∈ holds place'
      · rw [← here] at stays ⊢
        exact settled_held safe' stays
      · rw [committed_unheld _ stays]
        refine settled_free safe' fun u => ?_
        by_cases self : u = t
        · rw [self, here]
          exact stays
        · exact alone u self
    rw [same, advances.data]
    exact refines'
  · by_cases self : u = t
    · rw [self, here, advances.data]
      exact underway'
    · exact underway_unheld _ (alone u self)

theorem Linear.advances (safe : Safe holds s) (safe' : Safe holds s') (waiting : Waiting s)
    (linear : Linear s a) (upcoming : next s.data choice (s.place t) = some i)
    (advances : Advances s t i s' place') : ∃ a', Linear s' a' ∧ LifeMove (s.place t) place' a a' := by
  by_cases inside : .manager ∈ holds (s.place t)
  · exact linear.advances_inside safe safe' upcoming advances inside
  have here : s'.place t = place' := by rw [advances.place, Function.update_self]
  have there (u : T) (other : u ≠ t) : s'.place u = s.place u := by
    rw [advances.place, Function.update_of_ne other]
  by_cases enters : .manager ∈ holds place'
  · -- The mutex was free, and nothing has been done under it yet.
    have locks := (respects _ _ _ i upcoming).eq_lock advances.target inside enters
    subst locks
    have free := safe.not_held (advances.was_free .manager rfl)
    have fresh := underway_lock upcoming s.data.manager
    have same : s'.data = s.data := advances.data
    have refines := linear.refines
    rw [settled_free safe free] at refines
    refine ⟨a, ⟨?_, fun u => ?_⟩, ?_⟩
    · rw [← here] at enters
      rw [settled_held safe' enters, here, same, fresh.1]
      exact refines
    · rw [same]
      by_cases self : u = t
      · rw [self, here]
        exact fresh.2
      · rw [there u self]
        exact linear.underway u
    · rw [LifeMove, operation_lock .manager upcoming]
  have issued (query : Query) (waits : (s.place t).waiter = some query) :
      query < s.data.manager.issued := waiting.waiter_issued t query waits
  have empty (query : Query) (start : Nat) (at_check : s.place t = .checkElapsed query start) :
      (s.data.manager.cells query).response = none := by
    have asserted := waiting.asserts t
    rw [at_check] at asserted
    exact waiting.empty_of_unresolved query asserted
  -- The step stays outside: what it does commutes with the operation of the thread inside.
  by_cases busy : ∃ u, .manager ∈ holds (s.place u)
  · obtain ⟨u, held⟩ := busy
    have other : u ≠ t := by
      rintro rfl
      exact inside held
    have refines := linear.refines
    rw [settled_held safe held] at refines
    obtain ⟨a', refines', underway', move⟩ :=
      unheld_step inside upcoming advances.target issued empty (s.place u) refines
    refine ⟨a', ⟨?_, fun v => ?_⟩, move⟩
    · have held' : .manager ∈ holds (s'.place u) := by rwa [there u other]
      rw [settled_held safe' held', there u other, advances.data]
      exact refines'
    · rw [advances.data]
      by_cases self : v = u
      · rw [self, there u other]
        exact underway' (linear.underway u)
      · refine underway_unheld _ fun held' => ?_
        by_cases moved : v = t
        · rw [moved, here] at held'
          exact enters held'
        · rw [there v moved] at held'
          exact self (safe.exclusive held' held)
  · have free (u : T) : .manager ∉ holds (s.place u) := fun held => busy ⟨u, held⟩
    have free' (u : T) : .manager ∉ holds (s'.place u) := by
      by_cases self : u = t
      · rw [self, here]
        exact enters
      · rw [there u self]
        exact free u
    have refines := linear.refines
    rw [settled_free safe free] at refines
    obtain ⟨a', refines', _, move⟩ :=
      unheld_step inside upcoming advances.target issued empty .done refines
    refine ⟨a', ⟨?_, fun u => underway_unheld _ (free' u)⟩, move⟩
    rw [settled_free safe' free', advances.data]
    exact refines'

/-- A thread has taken a step from one place to the next. -/
structure Moved (s : State T Lock Shared Place) (t : T) (place' : Place)
    (s' : State T Lock Shared Place) : Prop where
  place : s'.place = Function.update s.place t place'
  history : s'.history = (t, s.place t) :: s.history
  outcome : (operation (s.place t) place').map Operation.outcome = place'.outcome

/-- **The threads refine the lives of requests**: whatever step is taken, at most
one operation of its thread takes effect in it, as a step of the lives. -/
theorem step_linearizes (reached : Transition.Reachable (step program) Transition.Any start s)
    (linear : Linear s a) (label : Label T Choice Nat) (taken : step program s label = some s') :
    ∃ a', Linear s' a' ∧ ((a' = a ∧ s'.place = s.place ∧ s'.history = s.history) ∨
      ∃ t place', Moved s t place' s' ∧ LifeMove (s.place t) place' a a') := by
  obtain ⟨safe, waiting⟩ := reachable_waiting reached
  obtain ⟨safe', _⟩ := reachable_waiting (.next label reached trivial taken)
  cases label with
  | act t choice woken =>
    simp only [step] at taken
    split at taken
    next running =>
      obtain ⟨i, upcoming, performed⟩ := Option.bind_eq_some_iff.mp taken
      -- Each step of a thread is at most one operation; a wakeup or the clock is none.
      have proper : i ≠ .panic := by
        rintro rfl
        exact waiting.no_panic t choice upcoming
      obtain ⟨place', advances⟩ := safe.advances proper performed
      obtain ⟨a', linear', move⟩ := linear.advances safe safe' waiting upcoming advances
      refine ⟨a', linear', Or.inr ⟨t, place', ⟨advances.place, advances.history, ?_⟩, move⟩⟩
      exact outcome_of_step upcoming advances.target
    · cases taken
  | wake t =>
    simp only [step] at taken
    split at taken
    · cases taken
      exact ⟨a, ⟨linear.refines, linear.underway⟩, Or.inl ⟨rfl, rfl, rfl⟩⟩
    · cases taken
  | outside elapsed =>
    cases taken
    exact ⟨a, ⟨linear.refines, linear.underway⟩, Or.inl ⟨rfl, rfl, rfl⟩⟩

/-- In every state that the threads reach, the manager represents lives of requests. -/
theorem reachable_linear (reached : Transition.Reachable (step program) Transition.Any start s) :
    ∃ a, Linear s a := by
  induction reached with
  | start => exact ⟨[], ⟨Refines.default, fun _ => trivial⟩⟩
  | next label before _ taken ih =>
    obtain ⟨a, linear⟩ := ih
    obtain ⟨a', linear', _⟩ := step_linearizes before linear label taken
    exact ⟨a', linear'⟩

end FullServiceMirror.Threads
