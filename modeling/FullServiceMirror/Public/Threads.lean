import FullServiceMirror.Public.Query
import FullServiceMirror.Rust.Sync

/-!
# The locks of `public/query.rs`

The same operations as threads run them: every acquisition and release of the
manager's mutex and of a query's is a step of its own, and so is every access to
what they guard. A client's thread runs `enqueue_query` and then `wait`, a
thread of the GRPC server runs `poll_impl`; a thread that is done may be given
another call.
-/
namespace FullServiceMirror

open Rust Rust.Sync

namespace Threads

/-- `Duration::from_secs(120)`, in nanoseconds. -/
def QUERY_MAX_DURATION : Nat := 120 * 1000000000

/-- The manager's mutex, and the one in each query. -/
inductive Lock where
  | manager
  | query (query : Query)
  deriving DecidableEq

/-- A query's mutex may be taken under the manager's, not the other way round. -/
def Lock.rank : Lock → Nat
  | .manager => 0
  | .query _ => 1

theorem Lock.rank_le (k : Lock) : k.rank ≤ 1 := by
  cases k with
  | manager => exact Nat.zero_le 1
  | query query => exact Nat.le_refl 1

/-- What the mutexes guard, and the clock. -/
structure Shared where
  manager : QueryManager := .default
  now : Nat := 0

/-- What a thread is to run. A poll has the responses of its request, in the
order in which an iteration visits them. -/
inductive Job where
  | client (request : QueryRequest)
  | poll (responses : List (String × QueryResponse))

/-- What a step leaves open: the job of a thread that is done, the random
numbers of a round, the order of a drain. -/
structure Choice where
  job : Job := .poll []
  draws : Fin QUERY_ID_LEN → UInt64 := fun _ => 0
  order : List (String × Query) := []

/-- Where a thread is, with its local variables. -/
inductive Place where
  | done
  -- `enqueue_query`
  | enqueueQuery (request : QueryRequest)
  | generateQueryId (request : QueryRequest)
  | insertQuery (request : QueryRequest) (queryId : String)
  | enqueued (query : Query)
  -- `Query::wait`
  | wait (query : Query)
  | startTimer (query : Query)
  | evaluate (query : Query) (start : Nat)
  | checkElapsed (query : Query) (start : Nat)
  | awaitLock (query : Query) (start : Nat)
  | assertSome (query : Query)
  | takeResponse (query : Query)
  | returning (query : Query) (result : Except String QueryResponse)
  -- `poll_impl` and `resolve_query`
  | resolveResponses (responses : List (String × QueryResponse))
  | removeQuery (queryId : String) (response : QueryResponse) (rest : List (String × QueryResponse))
  | resolve (queryId : String) (query : Query) (response : QueryResponse)
      (rest : List (String × QueryResponse))
  | storeResponse (queryId : String) (query : Query) (response : QueryResponse)
      (rest : List (String × QueryResponse))
  | notify (query : Query) (rest : List (String × QueryResponse))
  | unlockQuery (query : Query) (rest : List (String × QueryResponse))
  | resolved (result : Except String Unit) (rest : List (String × QueryResponse))
  -- `get_pending_requests`
  | drain
  | drainLoop (drained : List (String × Query)) (pendingRequests : HashMap String QueryRequest)
      (pendingResponses : HashMap String Query)
  | cloneRequest (queryId : String) (query : Query) (drained : List (String × Query))
      (pendingRequests : HashMap String QueryRequest) (pendingResponses : HashMap String Query)
  | insertRequest (queryId : String) (query : Query) (request : QueryRequest)
      (drained : List (String × Query)) (pendingRequests : HashMap String QueryRequest)
      (pendingResponses : HashMap String Query)
  | reply (pendingRequests : HashMap String QueryRequest)

/-- `CHARSET[(rng.next_u64() % CHARSET.len() as u64) as usize]`; `none` is a panic. -/
def indexCharset (draw : UInt64) : Option Char :=
  CHARSET[(draw % UInt64.ofNat CHARSET.length).toNat]?

/-- One round of `generate_query_id`. -/
def drawQueryId (draws : Fin QUERY_ID_LEN → UInt64) : Option String :=
  ((List.ofFn draws).mapM indexCharset).map String.ofList

def putManager (shared : Shared) (manager : QueryManager) : Shared := { shared with manager }

def next (shared : Shared) (choice : Choice) : Place → Option (Instruction Lock Shared Place)
  | .done =>
    match choice.job with
    | .client request => some (.run shared (.enqueueQuery request))
    | .poll responses => some (.run shared (.resolveResponses responses))
  | .enqueueQuery request => some (.lock .manager (.generateQueryId request))
  | .generateQueryId request =>
    match drawQueryId choice.draws with
    | none => some .panic
    | some queryId =>
      if !shared.manager.pendingRequests.containsKey queryId &&
        !shared.manager.pendingResponses.containsKey queryId
      then some (.run shared (.insertQuery request queryId))
      else some (.run shared (.generateQueryId request))
  | .insertQuery request queryId =>
    let created := shared.manager.newQuery request
    some (.run (putManager shared { created.1 with
        pendingRequests := created.1.pendingRequests.insert queryId created.2 })
      (.enqueued created.2))
  | .enqueued query => some (.unlock .manager (.wait query))
  | .wait query => some (.lock (.query query) (.startTimer query))
  -- From here on `wait_timeout_while`.
  | .startTimer query => some (.run shared (.evaluate query shared.now))
  | .evaluate query start =>
    match (shared.manager.cells query).response with
    | none => some (.run shared (.checkElapsed query start))
    | some _ => some (.run shared (.assertSome query))
  | .checkElapsed query start =>
    -- `checked_sub` gives no time that is left over.
    if QUERY_MAX_DURATION < shared.now - start
    then some (.run shared (.returning query (.error "timeout")))
    else some (.sleep (.query query) (.awaitLock query start))
  | .awaitLock query start => some (.lock (.query query) (.evaluate query start))
  | .assertSome query =>
    match (shared.manager.cells query).response with
    | none => some .panic
    | some _ => some (.run shared (.takeResponse query))
  | .takeResponse query =>
    match (shared.manager.cells query).response with
    | none => some .panic
    | some response =>
      some (.run (putManager shared (shared.manager.wait query).1) (.returning query (.ok response)))
  | .returning query _ => some (.unlock (.query query) .done)
  | .resolveResponses [] => some (.lock .manager .drain)
  | .resolveResponses ((queryId, response) :: rest) =>
    some (.lock .manager (.removeQuery queryId response rest))
  | .removeQuery queryId response rest =>
    match shared.manager.pendingResponses.get queryId with
    | none => some (.run shared (.resolved (.error ("Unknown query id " ++ queryId)) rest))
    | some query =>
      some (.run (putManager shared { shared.manager with
          pendingResponses := shared.manager.pendingResponses.remove queryId })
        (.resolve queryId query response rest))
  | .resolve queryId query response rest =>
    some (.lock (.query query) (.storeResponse queryId query response rest))
  | .storeResponse _ query response rest =>
    some (.run (putManager shared (shared.manager.resolve query response)) (.notify query rest))
  | .notify query rest => some (.notifyOne (.query query) (.unlockQuery query rest))
  | .unlockQuery query rest => some (.unlock (.query query) (.resolved (.ok ()) rest))
  | .resolved _ rest => some (.unlock .manager (.resolveResponses rest))
  | .drain =>
    if shared.manager.pendingRequests.Visits choice.order
    then some (.run (putManager shared { shared.manager with pendingRequests := .new })
      (.drainLoop choice.order .new .new))
    else none
  | .drainLoop ((queryId, query) :: drained) pendingRequests pendingResponses =>
    some (.lock (.query query)
      (.cloneRequest queryId query drained pendingRequests pendingResponses))
  | .drainLoop [] pendingRequests pendingResponses =>
    if pendingResponses.Visits choice.order
    then some (.run (putManager shared { shared.manager with
        pendingResponses :=
          QueryManager.refillLoop shared.manager.pendingResponses choice.order })
      (.reply pendingRequests))
    else none
  | .cloneRequest queryId query drained pendingRequests pendingResponses =>
    some (.run shared (.insertRequest queryId query (shared.manager.request query) drained
      pendingRequests pendingResponses))
  | .insertRequest queryId query request drained pendingRequests pendingResponses =>
    some (.unlock (.query query) (.drainLoop drained (pendingRequests.insert queryId request)
      (pendingResponses.insert queryId query)))
  | .reply _ => some (.unlock .manager .done)

/-- The program of the public side's threads; outside, time passes. -/
def program : Program Lock Shared Place Choice Nat where
  next := next
  outside := fun elapsed shared => { shared with now := shared.now + elapsed }

/-- All threads are done before the first call. -/
def start {T : Type} : State T Lock Shared Place := { data := {}, place := fun _ => .done }

/-! ## The discipline -/

/-- The guards that are alive at each place. -/
def holds : Place → List Lock
  | .generateQueryId _ | .insertQuery _ _ | .enqueued _ => [.manager]
  | .startTimer query | .evaluate query _ | .checkElapsed query _ => [.query query]
  | .assertSome query | .takeResponse query | .returning query _ => [.query query]
  | .removeQuery _ _ _ | .resolve _ _ _ _ | .resolved _ _ => [.manager]
  | .storeResponse _ query _ _ | .notify query _ | .unlockQuery query _ => [.query query, .manager]
  | .drain | .drainLoop _ _ _ | .reply _ => [.manager]
  | .cloneRequest _ query _ _ _ | .insertRequest _ query _ _ _ _ => [.query query, .manager]
  | .done | .enqueueQuery _ | .wait _ | .awaitLock _ _ | .resolveResponses _ => []

/-- Every acquisition and release is where the guards say, and a query's mutex
is taken last. -/
theorem respects : program.Respects holds Lock.rank := by
  intro shared choice place i upcoming
  change next shared choice place = some i at upcoming
  revert upcoming
  fun_cases next shared choice place <;> rintro ⟨⟩ <;> simp [Instruction.Respects, holds, Lock.rank]

/-- The index into `CHARSET` is always in bounds. -/
theorem indexCharset_eq (draw : UInt64) : indexCharset draw = some (charOf draw) :=
  List.getElem?_eq_getElem (charset_index draw)

theorem drawQueryId_eq (draws : Fin QUERY_ID_LEN → UInt64) :
    drawQueryId draws = some (candidate draws) := by
  have indexed : indexCharset = fun draw => pure (charOf draw) := funext indexCharset_eq
  rw [drawQueryId, indexed, List.mapM_pure, List.map_ofFn]
  rfl

/-- Nowhere does the program lack an instruction. -/
theorem available (shared : Shared) (place : Place) :
    ∃ choice i, program.next shared choice place = some i := by
  simp only [program]
  cases place with
  | drain => exact ⟨{ order := shared.manager.pendingRequests.iter }, _, if_pos (HashMap.visits_iter _)⟩
  | drainLoop drained pendingRequests pendingResponses =>
    cases drained with
    | nil => exact ⟨{ order := pendingResponses.iter }, _, if_pos (HashMap.visits_iter _)⟩
    | cons entry rest => exact ⟨{}, _, rfl⟩
  | resolveResponses responses => cases responses <;> exact ⟨{}, _, rfl⟩
  | generateQueryId _ =>
    refine ⟨{}, ?_⟩
    rw [next, drawQueryId_eq]
    dsimp only
    split <;> exact ⟨_, rfl⟩
  | evaluate _ _ | checkElapsed _ _ | assertSome _ | takeResponse _ | removeQuery _ _ _ =>
    refine ⟨{}, ?_⟩
    rw [next]
    split <;> exact ⟨_, rfl⟩
  | _ => exact ⟨{}, _, rfl⟩

end Threads

end FullServiceMirror
