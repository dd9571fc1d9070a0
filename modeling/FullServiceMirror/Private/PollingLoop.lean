import FullServiceMirror.Private.Requests

/-!
# The polling loop of `private/main.rs`

One iteration sends the pending responses and, after a successful poll, replaces
them by the responses to the requests that came back. A run follows a list of
poll outcomes; there is none once processing a request panics.
-/
namespace FullServiceMirror

open Rust Json

/-- How a poll ends, with how the wallet service is going to treat each request. -/
inductive PollOutcome where
  | ok (response : PollResponse) (exchange : String → Exchange)
  | err

structure Iteration where
  request : PollRequest
  outcome : PollOutcome
  pendingResponses : HashMap String QueryResponse

variable (fromStr : String → Except String Value) (config : Config)

/-- "Process requests." -/
def processRequests (exchange : String → Exchange) : List (String × QueryRequest) →
    HashMap String QueryResponse → Option (HashMap String QueryResponse)
  | [], pendingResponses => some pendingResponses
  | (queryId, queryRequest) :: rest, pendingResponses =>
    match (respond fromStr config (exchange queryId) queryRequest).2 with
    | some response => processRequests exchange rest (pendingResponses.insert queryId response)
    -- A panic ends the program.
    | none => none

/-- What the `match` on the result of the poll does to `pending_responses`. -/
def afterPoll (pendingResponses : HashMap String QueryResponse) :
    PollOutcome → Option (HashMap String QueryResponse)
  | .ok response exchange =>
    -- `pending_responses.clear()` comes before any request is processed.
    let pendingResponses := .new
    processRequests fromStr config exchange response.queryRequests.iter pendingResponses
  | .err => some pendingResponses

def pollingLoop (pendingResponses : HashMap String QueryResponse) :
    List PollOutcome → Option (List Iteration)
  | [] => some []
  | outcome :: rest => do
    let request : PollRequest := { queryResponses := pendingResponses }
    let pendingResponses ← afterPoll fromStr config pendingResponses outcome
    let later ← pollingLoop pendingResponses rest
    return { request, outcome, pendingResponses } :: later

variable {fromStr config}

/-- There is one iteration for every poll, in the order of the polls. -/
theorem pollingLoop_outcomes (outcomes : List PollOutcome) (start : HashMap String QueryResponse)
    (iterations : List Iteration) (ran : pollingLoop fromStr config start outcomes = some iterations) :
    iterations.map Iteration.outcome = outcomes := by
  induction outcomes generalizing start iterations with
  | nil =>
    cases ran
    rfl
  | cons outcome rest ih =>
    obtain ⟨result, _, ran⟩ := Option.bind_eq_some_iff.mp ran
    obtain ⟨later, remaining, equal⟩ := Option.bind_eq_some_iff.mp ran
    cases equal
    exact congrArg (outcome :: ·) (ih result later remaining)

theorem pollingLoop_length (outcomes : List PollOutcome) (start : HashMap String QueryResponse)
    (iterations : List Iteration) (ran : pollingLoop fromStr config start outcomes = some iterations) :
    iterations.length = outcomes.length := by
  rw [← pollingLoop_outcomes outcomes start iterations ran, List.length_map]

/-! ## One iteration more -/

theorem processRequests_append (exchange : String → Exchange)
    (entries later : List (String × QueryRequest)) (start result : HashMap String QueryResponse)
    (returned : processRequests fromStr config exchange entries start = some result) :
    processRequests fromStr config exchange (entries ++ later) start =
      processRequests fromStr config exchange later result := by
  induction entries generalizing start with
  | nil =>
    cases returned
    rfl
  | cons entry rest ih =>
    rw [processRequests] at returned
    rw [List.cons_append, processRequests]
    split at returned
    · exact ih _ returned
    · cases returned

/-- Only what the wallet service does for the requests processed matters. -/
theorem processRequests_congr (exchange exchange' : String → Exchange)
    (entries : List (String × QueryRequest)) (same : ∀ e ∈ entries, exchange e.1 = exchange' e.1)
    (start : HashMap String QueryResponse) :
    processRequests fromStr config exchange entries start =
      processRequests fromStr config exchange' entries start := by
  induction entries generalizing start with
  | nil => rfl
  | cons entry rest ih =>
    rw [List.forall_mem_cons] at same
    simp only [processRequests, same.1, ih same.2]

/-- What is pending after these iterations. -/
def pendingAfter (start : HashMap String QueryResponse) :
    List Iteration → HashMap String QueryResponse
  | [] => start
  | iteration :: later => pendingAfter iteration.pendingResponses later

theorem pollingLoop_append (outcomes : List PollOutcome) (outcome : PollOutcome)
    (start : HashMap String QueryResponse) (iterations : List Iteration)
    (ran : pollingLoop fromStr config start outcomes = some iterations) :
    pollingLoop fromStr config start (outcomes ++ [outcome]) =
      (afterPoll fromStr config (pendingAfter start iterations) outcome).map fun pendingResponses =>
        iterations ++ [{ request := { queryResponses := pendingAfter start iterations }, outcome,
                         pendingResponses }] := by
  induction outcomes generalizing start iterations with
  | nil =>
    cases ran
    rw [List.nil_append, pollingLoop, pendingAfter]
    cases afterPoll fromStr config start outcome <;> rfl
  | cons first rest ih =>
    obtain ⟨result, returned, ran⟩ := Option.bind_eq_some_iff.mp ran
    obtain ⟨later, remaining, equal⟩ := Option.bind_eq_some_iff.mp ran
    cases equal
    rw [List.cons_append, pollingLoop, returned]
    simp only [Option.bind_eq_bind, Option.bind_some, ih result later remaining, pendingAfter]
    cases afterPoll fromStr config (pendingAfter result later) outcome <;> rfl

theorem pendingAfter_append (start : HashMap String QueryResponse) (iterations : List Iteration)
    (iteration : Iteration) :
    pendingAfter start (iterations ++ [iteration]) = iteration.pendingResponses := by
  induction iterations generalizing start with
  | nil => rfl
  | cons first rest ih => exact ih first.pendingResponses

end FullServiceMirror
