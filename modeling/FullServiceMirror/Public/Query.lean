import Mathlib.Data.List.OfFn
import Mathlib.Logic.Function.Basic
import FullServiceMirror.Api

/-!
# `public/query.rs`

Queries are cells behind an `Arc`; a `Query` is the place of its cell, so clones
of a handle name the same cell. The manager's lock makes each of its operations
one step on the two maps and the cells.
-/
namespace FullServiceMirror

open Rust

/-- A handle: cells are numbered in the order of `Arc::new`. -/
abbrev Query := Nat

structure QueryInner where
  request : QueryRequest := {}
  response : Option QueryResponse := none

def QUERY_ID_LEN : Nat := 8

def CHARSET : List Char :=
  "ABCDEFGHIJKLMNOPQRSTUVWXYZabcdefghijklmnopqrstuvwxyz0123456789".toList

theorem charset_index (draw : UInt64) : (draw % 62).toNat < CHARSET.length := by
  have length : CHARSET.length = 62 := by decide
  rw [length, UInt64.toNat_mod]
  exact Nat.mod_lt _ (by decide)

/-- `char::from(CHARSET[(rng.next_u64() % CHARSET.len() as u64) as usize])` -/
def charOf (draw : UInt64) : Char := CHARSET.get ⟨(draw % 62).toNat, charset_index draw⟩

/-- The candidate that one round of `generate_query_id` draws. -/
def candidate (draws : Fin QUERY_ID_LEN → UInt64) : String :=
  String.ofList (List.ofFn fun i => charOf (draws i))

structure QueryManagerInner where
  pendingRequests : HashMap String Query := .new
  pendingResponses : HashMap String Query := .new

/-- The loop of `generate_query_id` over the rounds of draws that the random
number generator supplies; `none` while every round so far was rejected. -/
def QueryManagerInner.generateQueryId (inner : QueryManagerInner) :
    List (Fin QUERY_ID_LEN → UInt64) → Option String
  | [] => none
  | draws :: rng =>
    let queryId := candidate draws
    -- The two maps are all that a candidate is checked against.
    if !inner.pendingRequests.containsKey queryId && !inner.pendingResponses.containsKey queryId
    then some queryId
    else inner.generateQueryId rng

/-- The manager together with the cells its handles point to. -/
structure QueryManager extends QueryManagerInner where
  issued : Nat := 0
  cells : Query → QueryInner := fun _ => {}

namespace QueryManager

/-- `QueryManager::default` -/
def default : QueryManager := {}

/-- `Query::request` -/
def request (m : QueryManager) (query : Query) : QueryRequest := (m.cells query).request

/-- `Query::resolve`; the notification is of no account to the cell. -/
def resolve (m : QueryManager) (query : Query) (response : QueryResponse) : QueryManager :=
  { m with cells := Function.update m.cells query { m.cells query with response := some response } }

/-- The end of `Query::wait`: the predicate is evaluated for the last time, and
with a response there the result is not a timeout and the response is taken out
under the same lock. -/
def wait (m : QueryManager) (query : Query) : QueryManager × Except String QueryResponse :=
  match (m.cells query).response with
  | none => (m, .error "timeout")
  | some response =>
    ({ m with cells := Function.update m.cells query { m.cells query with response := none } },
      .ok response)

/-- `Query::new` -/
def newQuery (m : QueryManager) (request : QueryRequest) : QueryManager × Query :=
  ({ m with issued := m.issued + 1,
            cells := Function.update m.cells m.issued { request, response := none } },
    m.issued)

def enqueueQuery (m : QueryManager) (rng : List (Fin QUERY_ID_LEN → UInt64))
    (request : QueryRequest) : Option (QueryManager × Query) := do
  -- The id is drawn under the lock that the insertion is made under.
  let queryId ← m.generateQueryId rng
  let (m, query) := m.newQuery request
  return ({ m with pendingRequests := m.pendingRequests.insert queryId query }, query)

/-- The first loop of `get_pending_requests`, over the drained entries: the
requests to return and the queries to hand over. -/
def drainLoop (m : QueryManager) (drained : List (String × Query)) :
    HashMap String QueryRequest × HashMap String Query :=
  drained.foldl (fun (pendingRequests, pendingResponses) (queryId, query) =>
    (pendingRequests.insert queryId (m.request query), pendingResponses.insert queryId query))
    (.new, .new)

/-- The second loop of `get_pending_requests`. -/
def refillLoop (pendingResponses : HashMap String Query) (drained : List (String × Query)) :
    HashMap String Query :=
  drained.foldl (fun responses (queryId, query) => responses.insert queryId query) pendingResponses

def getPendingRequests (m : QueryManager) : QueryManager × HashMap String QueryRequest :=
  let (pendingRequests, pendingResponses) := m.drainLoop m.pendingRequests.iter
  -- `drain` leaves the map empty, and the queries go on to the other one.
  ({ m with pendingRequests := .new,
            pendingResponses := refillLoop m.pendingResponses pendingResponses.iter },
    pendingRequests)

def resolveQuery (m : QueryManager) (queryId : String) (response : QueryResponse) :
    QueryManager × Except String Unit :=
  match m.pendingResponses.get queryId with
  -- The `?` returns before anything is changed.
  | none => (m, .error ("Unknown query id " ++ queryId))
  | some query =>
    (({ m with pendingResponses := m.pendingResponses.remove queryId }).resolve query response, .ok ())

/-! ## What each operation does -/

theorem generateQueryId_fresh (inner : QueryManagerInner)
    (rng : List (Fin QUERY_ID_LEN → UInt64)) (queryId : String)
    (returned : inner.generateQueryId rng = some queryId) :
    inner.pendingRequests.get queryId = none ∧ inner.pendingResponses.get queryId = none := by
  induction rng with
  | nil => cases returned
  | cons draws rng ih =>
    rw [QueryManagerInner.generateQueryId] at returned
    split at returned
    next accepted =>
      cases returned
      rw [Bool.and_eq_true, Bool.not_eq_true', Bool.not_eq_true',
        HashMap.not_containsKey_iff, HashMap.not_containsKey_iff] at accepted
      exact accepted
    · exact ih returned

/-- A query is enqueued under an id that neither map knows, in a cell of its own. -/
theorem enqueueQuery_cases (m m' : QueryManager) (rng : List (Fin QUERY_ID_LEN → UInt64))
    (request : QueryRequest) (query : Query)
    (returned : m.enqueueQuery rng request = some (m', query)) :
    ∃ queryId, m.generateQueryId rng = some queryId ∧ query = m.issued ∧
      m' = { pendingRequests := m.pendingRequests.insert queryId m.issued,
             pendingResponses := m.pendingResponses,
             issued := m.issued + 1,
             cells := Function.update m.cells m.issued { request, response := none } } := by
  obtain ⟨queryId, generated, equal⟩ := Option.bind_eq_some_iff.mp returned
  cases equal
  exact ⟨queryId, generated, rfl, rfl⟩

theorem drainLoop_eq (m : QueryManager) (drained : List (String × Query))
    (start : HashMap String QueryRequest × HashMap String Query) :
    drained.foldl (fun (pendingRequests, pendingResponses) (queryId, query) =>
      (pendingRequests.insert queryId (m.request query), pendingResponses.insert queryId query))
      start =
    (drained.foldl (fun acc e => acc.insert e.1 (m.request e.2)) start.1,
     drained.foldl (fun acc e => acc.insert e.1 e.2) start.2) := by
  induction drained generalizing start with
  | nil => rfl
  | cons e rest ih => simp only [List.foldl_cons, ih]

theorem drainLoop_requests (m : QueryManager) (drained : List (String × Query))
    (visits : m.pendingRequests.Visits drained) (queryId : String) :
    (m.drainLoop drained).1.get queryId = (m.pendingRequests.get queryId).map m.request := by
  rw [drainLoop, drainLoop_eq]
  exact (visits.get_insert (fun e => m.request e.2) _ queryId).trans (by simp)

theorem drainLoop_queries (m : QueryManager) (drained : List (String × Query))
    (visits : m.pendingRequests.Visits drained) (queryId : String) :
    (m.drainLoop drained).2.get queryId = m.pendingRequests.get queryId := by
  rw [drainLoop, drainLoop_eq]
  exact (visits.get_insert (fun e => e.2) _ queryId).trans (by simp)

theorem refillLoop_get (responses handedOver : HashMap String Query) (drained : List (String × Query))
    (visits : handedOver.Visits drained) (queryId : String) :
    (refillLoop responses drained).get queryId =
      (handedOver.get queryId).or (responses.get queryId) :=
  (visits.get_insert (fun e => e.2) responses queryId).trans (by simp)

/-- The reply carries the request of every pending query under the query's id. -/
theorem getPendingRequests_reply (m : QueryManager) (queryId : String) :
    m.getPendingRequests.2.get queryId = (m.pendingRequests.get queryId).map m.request :=
  drainLoop_requests m _ m.pendingRequests.visits_iter queryId

@[simp] theorem getPendingRequests_requests (m : QueryManager) (queryId : String) :
    m.getPendingRequests.1.pendingRequests.get queryId = none := HashMap.get_new queryId

/-- Every pending query is handed over under its id. -/
theorem getPendingRequests_responses (m : QueryManager) (queryId : String) :
    m.getPendingRequests.1.pendingResponses.get queryId =
      (m.pendingRequests.get queryId).or (m.pendingResponses.get queryId) := by
  rw [← drainLoop_queries m _ m.pendingRequests.visits_iter queryId]
  exact refillLoop_get m.pendingResponses _ _ (HashMap.visits_iter _) queryId

@[simp] theorem getPendingRequests_cells (m : QueryManager) :
    m.getPendingRequests.1.cells = m.cells := rfl

@[simp] theorem getPendingRequests_issued (m : QueryManager) :
    m.getPendingRequests.1.issued = m.issued := rfl

/-- An id that is handed out is resolved once; any other id changes nothing. -/
theorem resolveQuery_cases (m : QueryManager) (queryId : String) (response : QueryResponse) :
    (m.pendingResponses.get queryId = none ∧
      m.resolveQuery queryId response = (m, .error ("Unknown query id " ++ queryId))) ∨
    (∃ query, m.pendingResponses.get queryId = some query ∧
      m.resolveQuery queryId response =
        ({ m with
            pendingResponses := m.pendingResponses.remove queryId
            cells := Function.update m.cells query
              { m.cells query with response := some response } }, .ok ())) := by
  unfold resolveQuery
  cases found : m.pendingResponses.get queryId with
  | none => exact Or.inl ⟨rfl, rfl⟩
  | some query => exact Or.inr ⟨query, rfl, rfl⟩

/-- A wait ends with the stored response, which it takes out, or with a timeout. -/
theorem wait_cases (m : QueryManager) (query : Query) :
    ((m.cells query).response = none ∧ m.wait query = (m, .error "timeout")) ∨
    (∃ response, (m.cells query).response = some response ∧
      m.wait query = ({ m with
        cells := Function.update m.cells query { m.cells query with response := none } },
        .ok response)) := by
  unfold wait
  cases stored : (m.cells query).response with
  | none => exact Or.inl ⟨rfl, rfl⟩
  | some response => exact Or.inr ⟨response, rfl, rfl⟩

end QueryManager

end FullServiceMirror
