import FullServiceMirror.System.Invariant

/-!
# Response correlation

The id is all that ties a response to its query. As long as the ids handed out
are distinct, the response that ends a wait was computed from the very request
of the waiting client, however polls fail, are repeated or overlap.
-/
namespace FullServiceMirror

open Rust Json Transition

variable {L : Type} [DecidableEq L]
variable {fromStr : String → Except String Value} {config : L → Config}

omit [DecidableEq L] in
/-- Distinct ids: two queries named by one id are the same query. -/
theorem same_query {s : State L} (distinct : s.ids.Nodup) (q q' : Query)
    (ticket ticket' : QueryTicket) (found : s.tickets[q]? = some ticket)
    (found' : s.tickets[q']? = some ticket') (same : ticket.id = ticket'.id) : q = q' := by
  obtain ⟨inside, _⟩ := List.getElem?_eq_some_iff.mp found
  have bound : q < s.ids.length := by rw [State.ids, List.length_map]; exact inside
  refine (List.getElem?_inj bound distinct).mp ?_
  rw [State.ids, List.getElem?_map, List.getElem?_map, found, found', Option.map_some, Option.map_some,
    same]

/-- A client was answered with what a loop computed from the client's request. -/
def State.AnsweredFrom (fromStr : String → Except String Value) (config : L → Config) (s : State L)
    (q : Query) (response : QueryResponse) : Prop :=
  ∃ ticket : QueryTicket, s.tickets[q]? = some ticket ∧ ∃ c ∈ s.computed,
    c.query = q ∧ c.queryId = ticket.id ∧ c.request = ticket.request ∧ c.response = response ∧
      (respond fromStr (config c.l) c.exchange ticket.request).2 = some response

omit [DecidableEq L] in
theorem Invariant.resolved_from {s : State L} (h : Invariant fromStr config s)
    (distinct : s.ids.Nodup) (x : Resolved) (member : x ∈ s.resolved) :
    s.AnsweredFrom fromStr config x.query x.response := by
  obtain ⟨⟨c, computed, query, id, response⟩, ticket, found, ticket_id, _⟩ :=
    h.answered.resolved x member
  obtain ⟨⟨ticket', found', id', request'⟩, stored⟩ := h.sourced.computed c computed
  -- The id of the response names the resolved query and the one it was computed for.
  have same : c.query = x.query :=
    same_query distinct c.query x.query ticket' ticket found' found (by rw [id', id, ticket_id])
  rw [same, found] at found'
  cases found'
  exact ⟨ticket, found, c, computed, same, id'.symm, request'.symm, response,
    by rw [request', stored, response]⟩

/-- **Response correlation.** In every run whose ids are distinct: what a wait
returns was computed from the request of that client; no query is resolved
twice; and a handler answers 200 with the payload of what its wait returned, of
the kind that it serves, and 400 in every other case. -/
theorem responses_correlate (s : State L)
    (reached : Reachable (step fromStr config) Any .start s)
    (distinct : s.ids.Nodup) :
    (∀ a ∈ s.answers, ∀ q response, a.waited = some (q, .ok response) →
      s.AnsweredFrom fromStr config q response) ∧
    (s.resolved.map (·.query)).Nodup ∧
    (∀ a ∈ s.answers,
      (∃ q response body, a.waited = some (q, .ok response) ∧
        a.endpoint.payload response = some body ∧ a.response = { status := 200, body }) ∨
      (a.response.status = 400 ∧ ∀ q response, a.waited = some (q, .ok response) →
        a.endpoint.payload response = none)) := by
  have h := reachable_invariant reached
  refine ⟨fun a member q response returned => ?_, h.answered.once, fun a member => ?_⟩
  · obtain ⟨_, source⟩ := h.answered.answers a member q _ returned
    obtain ⟨x, resolved, rfl, rfl⟩ := source response rfl
    exact h.resolved_from distinct x resolved
  -- A handler that did not wait could not read its request.
  · cases waited : a.waited with
    | none =>
      refine Or.inr ⟨h.answered.unread a member waited, fun q response returned => ?_⟩
      cases returned
    | some wait =>
      obtain ⟨q, result⟩ := wait
      rw [(h.answered.answers a member q result waited).1]
      rcases a.endpoint.reply_cases result with ⟨response, body, rfl, kind, reply⟩ | ⟨status, other⟩
      · exact Or.inl ⟨q, response, body, rfl, kind, reply⟩
      · refine Or.inr ⟨status, fun q' response returned => ?_⟩
        cases returned
        exact other response rfl

theorem responses_correlate_roundTrip :
    ∃ s : State Unit, Reachable (step parse fun _ => {}) Any .start s ∧
      s.answers.map (·.response.status) = [200] ∧
      ∀ a ∈ s.answers, ∀ q response, a.waited = some (q, .ok response) →
        s.AnsweredFrom parse (fun _ => {}) q response := by
  obtain ⟨s, reached, holds⟩ := exists_reachable_of_run (step parse fun _ => {}) Any .start roundTrip
    (fun s => decide (s.answers.map (·.response.status) = [200] ∧ s.ids.Nodup))
    (by decide +kernel)
  obtain ⟨answered, distinct⟩ := of_decide_eq_true holds
  exact ⟨s, reached, answered, (responses_correlate s reached distinct).1⟩

end FullServiceMirror
