import FullServiceMirror.Public.Calls
import FullServiceMirror.Public.MirrorService
import FullServiceMirror.Transition

/-!
# `poll_impl` in any order of iteration

`poll_impl` iterates three hash maps: the responses of the request, and the two
maps that are drained. Here each order is a list of its own, and what the call
leaves behind is determined without them.
-/
namespace FullServiceMirror

open Rust Transition

/-! ## States of the manager -/

inductive ManagerAction where
  | call (c : Call)
  | wait (query : Query)

/-- A call of the manager by any thread, or the end of the wait on a query. -/
def managerStep (m : QueryManager) : ManagerAction → Option QueryManager
  | .call c => (m.call c).map Prod.fst
  | .wait query => if query < m.issued then some (m.wait query).1 else none

theorem reachable_refines {m : QueryManager} (reached : Reachable managerStep Any .default m) :
    ∃ a, Refines m a := by
  refine reached.invariant (fun m => ∃ a, Refines m a) ⟨[], .default⟩ ?_
  rintro m action m' _ _ ⟨a, refines⟩ taken
  cases action with
  | call c =>
    obtain ⟨⟨_, result⟩, called, rfl⟩ := Option.map_eq_some_iff.mp taken
    obtain ⟨a', _, refines'⟩ := call_simulates m _ a c result refines called
    exact ⟨a', refines'⟩
  | wait query =>
    rw [managerStep] at taken
    split at taken
    next issued =>
      cases taken
      exact ⟨_, refines.wait query (refines.issued ▸ issued)⟩
    · cases taken

namespace MirrorService

/-- `poll_impl`, with the orders in which its loops visit the responses, the
drained `pending_requests` and the drained local map of `get_pending_requests`. -/
def pollImplIn (m : QueryManager) (responses : List (String × QueryResponse))
    (drained handedOver : List (String × Query)) : QueryManager × List Resolution × PollResponse :=
  let (m, resolutions) := resolveResponses m responses
  let (pendingRequests, _) := m.drainLoop drained
  ({ m with pendingRequests := .new,
            pendingResponses := QueryManager.refillLoop m.pendingResponses handedOver },
    resolutions, { queryRequests := pendingRequests })

/-- The orders are some that the three maps may be iterated in. -/
structure Visited (m : QueryManager) (request : PollRequest) (responses : List (String × QueryResponse))
    (drained handedOver : List (String × Query)) : Prop where
  resolves : request.queryResponses.Visits responses
  drains : (resolveResponses m responses).1.pendingRequests.Visits drained
  handsOver : ((resolveResponses m responses).1.drainLoop drained).2.Visits handedOver

/-- `pollImpl` is the run in the orders that the tables list. -/
theorem pollImpl_in (m : QueryManager) (request : PollRequest) :
    ∃ responses drained handedOver, Visited m request responses drained handedOver ∧
      pollImpl m request = pollImplIn m responses drained handedOver :=
  ⟨_, _, _, ⟨HashMap.visits_iter _, HashMap.visits_iter _, HashMap.visits_iter _⟩, rfl⟩

/-! ## What the call leaves behind -/

/-- No query awaits a response under two ids. -/
def OneId (m : QueryManager) : Prop :=
  ∀ id id' q, m.pendingResponses.get id = some q → m.pendingResponses.get id' = some q → id = id'

theorem oneId_of_refines {m : QueryManager} {a : QueryLife} (refines : Refines m a) : OneId m := by
  intro id id' q awaited awaited'
  obtain ⟨t, found, rfl, _⟩ := (refines.handedOut id q).mp awaited
  obtain ⟨t', found', rfl, _⟩ := (refines.handedOut id' q).mp awaited'
  rw [found] at found'
  cases found'
  rfl

/-- What resolving a batch of responses does: each of them by itself, on the
state before the batch. -/
structure ResolvesEach (m : QueryManager) (entries : List (String × QueryResponse)) (m' : QueryManager)
    (resolutions : List Resolution) : Prop where
  requests : m'.pendingRequests = m.pendingRequests
  issued : m'.issued = m.issued
  resolved : ∀ id, m'.pendingResponses.get id =
    if id ∈ entries.map Prod.fst then none else m.pendingResponses.get id
  stored : ∀ id q r, (id, r) ∈ entries → m.pendingResponses.get id = some q →
    m'.cells q = { m.cells q with response := some r }
  kept : ∀ q, (∀ id r, (id, r) ∈ entries → m.pendingResponses.get id ≠ some q) → m'.cells q = m.cells q
  calls : resolutions.map (fun x => (x.queryId, x.queryResponse)) = entries
  results : ∀ x ∈ resolutions, x.result = if m.pendingResponses.containsKey x.queryId then .ok ()
    else .error ("Unknown query id " ++ x.queryId)

theorem ResolvesEach.nil (m : QueryManager) : ResolvesEach m [] m [] where
  requests := rfl
  issued := rfl
  resolved := by intro id; simp
  stored := by intro id q r member; cases member
  kept := by intro q _; rfl
  calls := rfl
  results := by intro x member; cases member

/-- One call: an id that awaits no response changes nothing. -/
theorem ResolvesEach.single (m : QueryManager) (id : String) (r : QueryResponse) :
    ResolvesEach m [(id, r)] (m.resolveQuery id r).1 [⟨id, r, (m.resolveQuery id r).2⟩] := by
  rcases m.resolveQuery_cases id r with ⟨absent, outcome⟩ | ⟨q, awaited, outcome⟩
  · rw [outcome]
    refine ⟨rfl, rfl, fun id' => ?_, fun id' q r' member awaited => ?_, fun _ _ => rfl, rfl, ?_⟩
    · by_cases same : id' = id
      · simp [same, absent]
      · simp [same]
    · cases List.mem_singleton.mp member
      rw [absent] at awaited
      cases awaited
    · simp [HashMap.containsKey, absent]
  -- The entry is taken out and the response written to the cell of its query.
  · rw [outcome]
    refine ⟨rfl, rfl, fun id' => by simp, fun id' q' r' member awaited' => ?_, fun q' none => ?_, rfl, ?_⟩
    · cases List.mem_singleton.mp member
      rw [awaited] at awaited'
      cases awaited'
      exact Function.update_self _ _ _
    · refine Function.update_of_ne (fun same => ?_) _ _
      exact none id r List.mem_cons_self (same ▸ awaited)
    · simp [HashMap.containsKey, awaited]

/-- Batches under different ids follow one another: an id that is resolved takes
its own entry out of the map and writes its own cell, so the second batch finds
what it would have found before. -/
theorem ResolvesEach.append {m m₁ m₂ : QueryManager} {xs ys : List (String × QueryResponse)}
    {rs rs' : List Resolution} (oneId : OneId m) (first : ResolvesEach m xs m₁ rs)
    (second : ResolvesEach m₁ ys m₂ rs')
    (apart : ∀ id ∈ ys.map Prod.fst, id ∉ xs.map Prod.fst) :
    ResolvesEach m (xs ++ ys) m₂ (rs ++ rs') := by
  have before (id : String) (q : Query) (awaited : m₁.pendingResponses.get id = some q) :
      id ∉ xs.map Prod.fst ∧ m.pendingResponses.get id = some q := by
    rw [first.resolved] at awaited
    split at awaited
    · cases awaited
    next other => exact ⟨other, awaited⟩
  have untouched (id : String) (outside : id ∉ xs.map Prod.fst) :
      m₁.pendingResponses.get id = m.pendingResponses.get id := by
    rw [first.resolved, if_neg outside]
  refine ⟨second.requests.trans first.requests, second.issued.trans first.issued, fun id => ?_,
    fun id q r member awaited => ?_, fun q none => ?_, ?_, fun x member => ?_⟩
  · rw [second.resolved, first.resolved, List.map_append]
    by_cases later : id ∈ ys.map Prod.fst
    · rw [if_pos later, if_pos (List.mem_append_right _ later)]
    · simp only [List.mem_append, later, or_false, if_false]
  · rcases List.mem_append.mp member with earlier | later
    · rw [← first.stored id q r earlier awaited]
      -- The second batch does not find this query, under this id or another one.
      refine second.kept q fun id' r' _ awaited' => ?_
      obtain ⟨outside, awaited'⟩ := before id' q awaited'
      rw [oneId id' id q awaited' awaited] at outside
      exact outside (List.mem_map_of_mem earlier)
    · have outside := apart id (List.mem_map_of_mem later)
      rw [second.stored id q r later ((untouched id outside).trans awaited)]
      rw [first.kept q fun id' r' earlier awaited' => ?_]
      rw [oneId id' id q awaited' awaited] at earlier
      exact outside (List.mem_map_of_mem earlier)
  · rw [second.kept q fun id r later awaited => none id r (List.mem_append_right _ later) (before id q awaited).2]
    exact first.kept q fun id r earlier => none id r (List.mem_append_left _ earlier)
  · rw [List.map_append, first.calls, second.calls]
  · rcases List.mem_append.mp member with earlier | later
    · exact first.results x earlier
    · have named : x.queryId ∈ ys.map Prod.fst := by
        rw [← second.calls, List.map_map]
        exact List.mem_map_of_mem later
      rw [second.results x later, HashMap.containsKey, HashMap.containsKey,
        untouched x.queryId (apart _ named)]

/-- Loop lemma, by induction on the batch. -/
theorem resolveResponses_each (entries : List (String × QueryResponse))
    (distinct : (entries.map Prod.fst).Nodup) (m : QueryManager) (oneId : OneId m) :
    ResolvesEach m entries (resolveResponses m entries).1 (resolveResponses m entries).2 := by
  induction entries generalizing m with
  | nil => exact .nil m
  | cons entry rest ih =>
    obtain ⟨id, r⟩ := entry
    rw [List.map_cons, List.nodup_cons] at distinct
    obtain ⟨once, distinct⟩ := distinct
    have now := ResolvesEach.single m id r
    -- Taking an entry out leaves every query with one id at most.
    have oneId' : OneId (m.resolveQuery id r).1 := by
      intro id₁ id₂ q awaited₁ awaited₂
      rw [now.resolved] at awaited₁ awaited₂
      split at awaited₁
      · cases awaited₁
      · split at awaited₂
        · cases awaited₂
        · exact oneId id₁ id₂ q awaited₁ awaited₂
    refine ResolvesEach.append oneId now (ih distinct _ oneId') fun id' later same => ?_
    rw [List.map_singleton, List.mem_singleton] at same
    exact once (same ▸ later)

/-- What a call of `poll_impl` leaves behind and returns, without any order. -/
structure PollExact (m : QueryManager) (request : PollRequest)
    (result : QueryManager × List Resolution × PollResponse) : Prop where
  /-- `pending_requests` is empty. -/
  drained : ∀ id, result.1.pendingRequests.get id = none
  /-- What was queued now awaits its response, and what the request names no longer does. -/
  awaiting : ∀ id, result.1.pendingResponses.get id = (m.pendingRequests.get id).or
    (if request.queryResponses.containsKey id then none else m.pendingResponses.get id)
  /-- A query that awaited its response has the one that the request carries for its id. -/
  resolved : ∀ id q r, m.pendingResponses.get id = some q → request.queryResponses.get id = some r →
    result.1.cells q = { m.cells q with response := some r }
  /-- Every other cell is as it was. -/
  kept : ∀ q, (∀ id r, request.queryResponses.get id = some r → m.pendingResponses.get id ≠ some q) →
    result.1.cells q = m.cells q
  issued : result.1.issued = m.issued
  /-- Every id of the request is passed to `resolve_query`, which fails for those
  that await no response. -/
  attempted : ∀ id r, request.queryResponses.get id = some r →
    ∃ x ∈ result.2.1, x.queryId = id ∧ x.queryResponse = r ∧
      x.result = if m.pendingResponses.containsKey id then .ok () else .error ("Unknown query id " ++ id)
  /-- Every query that was queued is returned under its id with its request. -/
  returned : ∀ id, result.2.2.queryRequests.get id = (m.pendingRequests.get id).map m.request

/-- Two results that no operation on the maps and cells tells apart. -/
structure SameResult (result result' : QueryManager × List Resolution × PollResponse) : Prop where
  requests : ∀ id, result.1.pendingRequests.get id = result'.1.pendingRequests.get id
  responses : ∀ id, result.1.pendingResponses.get id = result'.1.pendingResponses.get id
  cells : result.1.cells = result'.1.cells
  issued : result.1.issued = result'.1.issued
  reply : ∀ id, result.2.2.queryRequests.get id = result'.2.2.queryRequests.get id

theorem PollExact.same {m : QueryManager} {request : PollRequest}
    {result result' : QueryManager × List Resolution × PollResponse} (h : PollExact m request result)
    (h' : PollExact m request result') : SameResult result result' where
  requests := by intro id; rw [h.drained, h'.drained]
  responses := by intro id; rw [h.awaiting, h'.awaiting]
  cells := by
    funext q
    by_cases answered : ∃ id r, request.queryResponses.get id = some r ∧ m.pendingResponses.get id = some q
    · obtain ⟨id, r, carried, awaited⟩ := answered
      rw [h.resolved id q r awaited carried, h'.resolved id q r awaited carried]
    · have other : ∀ id r, request.queryResponses.get id = some r → m.pendingResponses.get id ≠ some q :=
        fun id r carried awaited => answered ⟨id, r, carried, awaited⟩
      rw [h.kept q other, h'.kept q other]
  issued := by rw [h.issued, h'.issued]
  reply := by intro id; rw [h.returned, h'.returned]

/-- Resolving changes no request. -/
theorem ResolvesEach.request {m m' : QueryManager} {entries : List (String × QueryResponse)}
    {resolutions : List Resolution} (each : ResolvesEach m entries m' resolutions) (q : Query) :
    m'.request q = m.request q := by
  rw [QueryManager.request, QueryManager.request]
  by_cases answered : ∃ id r, (id, r) ∈ entries ∧ m.pendingResponses.get id = some q
  · obtain ⟨id, r, member, awaited⟩ := answered
    rw [each.stored id q r member awaited]
  · rw [each.kept q fun id r member awaited => answered ⟨id, r, member, awaited⟩]

theorem pollImplIn_exact (m : QueryManager) (oneId : OneId m) (request : PollRequest)
    (responses : List (String × QueryResponse)) (drained handedOver : List (String × Query))
    (visited : Visited m request responses drained handedOver) :
    PollExact m request (pollImplIn m responses drained handedOver) := by
  have each := resolveResponses_each responses visited.resolves.keys_nodup m oneId
  have named (id : String) : id ∈ responses.map Prod.fst ↔ request.queryResponses.containsKey id = true := by
    rw [HashMap.containsKey_iff, List.mem_map]
    constructor
    · rintro ⟨⟨_, r⟩, member, rfl⟩
      exact ⟨r, (visited.resolves.mem_iff _ r).mp member⟩
    · rintro ⟨r, carried⟩
      exact ⟨(id, r), (visited.resolves.mem_iff id r).mpr carried, rfl⟩
  refine ⟨fun id => HashMap.get_new id, fun id => ?_, fun id q r awaited carried => ?_, fun q none => ?_,
    each.issued, fun id r carried => ?_, fun id => ?_⟩
  · refine (QueryManager.refillLoop_get _ _ handedOver visited.handsOver id).trans ?_
    rw [QueryManager.drainLoop_queries _ drained visited.drains, each.requests, each.resolved]
    simp only [named]
  · exact each.stored id q r ((visited.resolves.mem_iff id r).mpr carried) awaited
  · exact each.kept q fun id r member => none id r ((visited.resolves.mem_iff id r).mp member)
  · have member := (visited.resolves.mem_iff id r).mpr carried
    rw [← each.calls] at member
    obtain ⟨x, among, equal⟩ := List.mem_map.mp member
    cases equal
    exact ⟨x, among, rfl, rfl, each.results x among⟩
  · refine (QueryManager.drainLoop_requests _ drained visited.drains id).trans ?_
    rw [each.requests]
    exact congrArg (Option.map · _) (funext each.request)

/-- **`poll_impl` is exact and independent of the orders of iteration.** In every
reachable state of the manager and for every request, whatever the orders in
which the three maps are visited, the call leaves and returns what `PollExact`
says, and any other orders lead to the same result. -/
theorem pollImpl_exact (m : QueryManager) (reached : Reachable managerStep Any .default m)
    (request : PollRequest) :
    PollExact m request (pollImpl m request) ∧
    ∀ responses drained handedOver, Visited m request responses drained handedOver →
      PollExact m request (pollImplIn m responses drained handedOver) ∧
      ∀ responses' drained' handedOver', Visited m request responses' drained' handedOver' →
        SameResult (pollImplIn m responses drained handedOver)
          (pollImplIn m responses' drained' handedOver') := by
  obtain ⟨a, refines⟩ := reachable_refines reached
  have oneId := oneId_of_refines refines
  constructor
  · obtain ⟨responses, drained, handedOver, visited, run⟩ := pollImpl_in m request
    rw [run]
    exact pollImplIn_exact m oneId request _ _ _ visited
  · intro responses drained handedOver visited
    have exactly := pollImplIn_exact m oneId request _ _ _ visited
    refine ⟨exactly, fun responses' drained' handedOver' visited' => ?_⟩
    exact exactly.same (pollImplIn_exact m oneId request _ _ _ visited')

/-- The poll names an id that is handed out and one that is only queued. -/
theorem pollImpl_exact_run :
    ∃ m, Reachable managerStep Any .default m ∧
      m.pendingResponses.get "AAAAAAAA" = some 0 ∧ m.pendingRequests.get "BBBBBBBB" = some 1 ∧
      PollExact m { queryResponses := (HashMap.new.insert "AAAAAAAA" {}).insert "BBBBBBBB" {} }
        (pollImpl m { queryResponses := (HashMap.new.insert "AAAAAAAA" {}).insert "BBBBBBBB" {} }) := by
  obtain ⟨m, reached, holds⟩ := exists_reachable_of_run managerStep Any .default
    [.call (.enqueueQuery [fun _ => 0] {}), .call .getPendingRequests,
      .call (.enqueueQuery [fun _ => 1] {})]
    (fun m => m.pendingResponses.get "AAAAAAAA" = some 0 && m.pendingRequests.get "BBBBBBBB" = some 1)
    (by decide +kernel)
  obtain ⟨awaited, queued⟩ := Bool.and_eq_true_iff.mp holds
  exact ⟨m, reached, of_decide_eq_true awaited, of_decide_eq_true queued, (pollImpl_exact m reached _).1⟩

end MirrorService

end FullServiceMirror
