import FullServiceMirror.Lifecycle
import FullServiceMirror.Public.Query

/-!
# The query manager refines the life of a request

`pending_requests` holds exactly the queued tickets and `pending_responses`
exactly the tickets that are handed out, each under its own id; the cells hold
what the tickets were issued with and what resolved them.
-/
namespace FullServiceMirror

open Rust

abbrev QueryTicket := Ticket String QueryRequest QueryResponse

abbrev QueryLife := Lifecycle String QueryRequest QueryResponse

/-- The maps and cells of a manager represent a lifecycle. -/
structure Refines (m : QueryManager) (a : QueryLife) : Prop where
  valid : Lifecycle.Valid a
  issued : m.issued = a.length
  queued : ∀ (id : String) (q : Query), m.pendingRequests.get id = some q ↔
    ∃ t : QueryTicket, a[q]? = some t ∧ t.id = id ∧ t.stage = .queued
  handedOut : ∀ (id : String) (q : Query), m.pendingResponses.get id = some q ↔
    ∃ t : QueryTicket, a[q]? = some t ∧ t.id = id ∧ t.stage = .handedOut
  cells : ∀ (q : Query) (t : QueryTicket), a[q]? = some t →
    m.cells q = { request := t.request, response := t.response }

namespace Refines

variable {m : QueryManager} {a : QueryLife}

theorem default : Refines QueryManager.default [] where
  valid := .nil
  issued := rfl
  queued := by
    intro id q
    rw [show QueryManager.default.pendingRequests.get id = none from HashMap.get_new id]
    simp
  handedOut := by
    intro id q
    rw [show QueryManager.default.pendingResponses.get id = none from HashMap.get_new id]
    simp
  cells := by intro q t found; cases found

/-- Only the bindings of the two maps matter. -/
theorem congr (h : Refines m a) {m' : QueryManager} (issued : m'.issued = m.issued)
    (cells : m'.cells = m.cells)
    (requests : ∀ id, m'.pendingRequests.get id = m.pendingRequests.get id)
    (responses : ∀ id, m'.pendingResponses.get id = m.pendingResponses.get id) : Refines m' a where
  valid := h.valid
  issued := issued.trans h.issued
  queued := by
    intro id q
    rw [requests]
    exact h.queued id q
  handedOut := by
    intro id q
    rw [responses]
    exact h.handedOut id q
  cells := by
    intro q t found
    rw [cells]
    exact h.cells q t found

/-- No id is in both maps. -/
theorem disjoint (h : Refines m a) (id : String) (q q' : Query)
    (requested : m.pendingRequests.get id = some q)
    (awaited : m.pendingResponses.get id = some q') : False := by
  obtain ⟨t, found, same, stage⟩ := (h.queued id q).mp requested
  obtain ⟨t', found', same', stage'⟩ := (h.handedOut id q').mp awaited
  have live : t.live := by simp [Ticket.live, stage]
  have live' : t'.live := by simp [Ticket.live, stage']
  have equal := h.valid.unique q q' t t' found found' live live' (same.trans same'.symm)
  subst equal
  rw [found] at found'
  cases found'
  rw [stage] at stage'
  cases stage'

/-- An id that neither map knows names no live ticket. -/
theorem fresh (h : Refines m a) (id : String) (requests : m.pendingRequests.get id = none)
    (responses : m.pendingResponses.get id = none) (q : Query) (t : QueryTicket)
    (found : a[q]? = some t) (live : t.live) : t.id ≠ id := by
  intro same
  cases stage : t.stage with
  | queued => rw [(h.queued id q).mpr ⟨t, found, same, stage⟩] at requests; cases requests
  | handedOut => rw [(h.handedOut id q).mpr ⟨t, found, same, stage⟩] at responses; cases responses
  | resolved => exact live stage

theorem enqueueQuery (h : Refines m a) (rng : List (Fin QUERY_ID_LEN → UInt64))
    (request : QueryRequest) (m' : QueryManager) (query : Query)
    (returned : m.enqueueQuery rng request = some (m', query)) :
    ∃ id, m.generateQueryId rng = some id ∧ query = a.length ∧ Refines m' (a.enqueue id request) := by
  obtain ⟨id, generated, rfl, rfl⟩ := m.enqueueQuery_cases m' rng request query returned
  obtain ⟨noRequest, noResponse⟩ := QueryManager.generateQueryId_fresh _ rng id generated
  have outside : ∀ t : QueryTicket, a[m.issued]? ≠ some t := by
    intro t found
    rw [h.issued, List.getElem?_eq_none (Nat.le_refl _)] at found
    cases found
  refine ⟨id, generated, h.issued, h.valid.enqueue id request (h.fresh id noRequest noResponse),
    by simp [Lifecycle.enqueue, h.issued], ?_, ?_, ?_⟩
  -- The new id names the new ticket only: neither map knew it.
  · intro id' q
    simp only [HashMap.get_insert, Lifecycle.get_enqueue_iff]
    split
    next same =>
      subst same
      constructor
      · intro equal
        cases equal
        exact ⟨_, Or.inr ⟨h.issued, rfl⟩, rfl, rfl⟩
      · rintro ⟨t, old | ⟨new, rfl⟩, same, stage⟩
        · rw [(h.queued id' q).mpr ⟨t, old, same, stage⟩] at noRequest
          cases noRequest
        · rw [new, h.issued]
    next different =>
      rw [h.queued id' q]
      constructor
      · rintro ⟨t, old, same, stage⟩
        exact ⟨t, Or.inl old, same, stage⟩
      · rintro ⟨t, old | ⟨_, rfl⟩, same, stage⟩
        · exact ⟨t, old, same, stage⟩
        · exact absurd same.symm different
  · intro id' q
    simp only [Lifecycle.get_enqueue_iff]
    rw [h.handedOut id' q]
    constructor
    · rintro ⟨t, old, same, stage⟩
      exact ⟨t, Or.inl old, same, stage⟩
    · rintro ⟨t, old | ⟨_, rfl⟩, same, stage⟩
      · exact ⟨t, old, same, stage⟩
      · cases stage
  · intro q t found
    rw [Lifecycle.get_enqueue_iff] at found
    rcases found with old | ⟨rfl, rfl⟩
    · have different : q ≠ m.issued := by rintro rfl; exact outside t old
      simp only [Function.update_of_ne different, h.cells q t old]
    · simp [h.issued]

theorem getPendingRequests (h : Refines m a) : Refines m.getPendingRequests.1 a.handOut where
  valid := h.valid.handOut
  issued := by simp [Lifecycle.handOut, h.issued]
  queued := by
    intro id q
    rw [QueryManager.getPendingRequests_requests]
    constructor
    · intro absent; cases absent
    · rintro ⟨t, found, _, stage⟩
      obtain ⟨t₀, _, rfl⟩ := (Lifecycle.get_handOut_iff a q t).mp found
      exact absurd stage t₀.handOut_queued
  handedOut := by
    intro id q
    rw [QueryManager.getPendingRequests_responses, Option.or_eq_some_iff]
    constructor
    · rintro (requested | ⟨_, awaited⟩)
      · obtain ⟨t, found, same, stage⟩ := (h.queued id q).mp requested
        exact ⟨t.handOut, (Lifecycle.get_handOut_iff a q _).mpr ⟨t, found, rfl⟩, by simp [same],
          t.handOut_handedOut_iff.mpr (Or.inl stage)⟩
      · obtain ⟨t, found, same, stage⟩ := (h.handedOut id q).mp awaited
        exact ⟨t.handOut, (Lifecycle.get_handOut_iff a q _).mpr ⟨t, found, rfl⟩, by simp [same],
          t.handOut_handedOut_iff.mpr (Or.inr stage)⟩
    · rintro ⟨t, found, same, stage⟩
      obtain ⟨t₀, found₀, rfl⟩ := (Lifecycle.get_handOut_iff a q t).mp found
      rw [Ticket.handOut_id] at same
      rcases t₀.handOut_handedOut_iff.mp stage with queued | handed
      · exact Or.inl ((h.queued id q).mpr ⟨t₀, found₀, same, queued⟩)
      · have awaited := (h.handedOut id q).mpr ⟨t₀, found₀, same, handed⟩
        -- A query moved over hides none that was there: the maps share no id.
        refine Or.inr ⟨?_, awaited⟩
        cases requested : m.pendingRequests.get id with
        | none => rfl
        | some q' => exact (h.disjoint id q' q requested awaited).elim
  cells := by
    intro q t found
    obtain ⟨t₀, found₀, rfl⟩ := (Lifecycle.get_handOut_iff a q t).mp found
    simpa using h.cells q t₀ found₀

/-- What one call hands out: every queued ticket's request under the ticket's id. -/
theorem reply_iff (h : Refines m a) (id : String) (request : QueryRequest) :
    m.getPendingRequests.2.get id = some request ↔
      ∃ (q : Query) (t : QueryTicket), a[q]? = some t ∧ t.stage = .queued ∧ t.id = id ∧
        t.request = request := by
  rw [QueryManager.getPendingRequests_reply, Option.map_eq_some_iff]
  constructor
  · rintro ⟨q, requested, rfl⟩
    obtain ⟨t, found, same, stage⟩ := (h.queued id q).mp requested
    refine ⟨q, t, found, stage, same, ?_⟩
    rw [QueryManager.request, h.cells q t found]
  · rintro ⟨q, t, found, stage, same, rfl⟩
    refine ⟨q, (h.queued id q).mpr ⟨t, found, same, stage⟩, ?_⟩
    rw [QueryManager.request, h.cells q t found]

/-- Resolving the ticket that holds an id. -/
theorem resolved (h : Refines m a) (id : String) (response : QueryResponse) (q : Query)
    (awaited : m.pendingResponses.get id = some q) :
    Refines { m with
      pendingResponses := m.pendingResponses.remove id
      cells := Function.update m.cells q { m.cells q with response := some response } }
      (a.resolve q response) where
  valid := h.valid.resolve q response
  issued := by simp [Lifecycle.resolve, h.issued]
  queued := by
    intro id' q'
    simp only [Lifecycle.resolve, Lifecycle.get_modify_iff]
    rw [h.queued id' q']
    obtain ⟨t, found, _, stage⟩ := (h.handedOut id q).mp awaited
    constructor
    · rintro ⟨t', found', same', stage'⟩
      have different : q ≠ q' := by
        rintro rfl
        rw [found] at found'
        cases found'
        rw [stage] at stage'
        cases stage'
      exact ⟨t', ⟨t', found', if_neg different⟩, same', stage'⟩
    · rintro ⟨_, ⟨t', found', rfl⟩, same', stage'⟩
      split at stage'
      · cases stage'
      next different => rw [if_neg different] at same'; exact ⟨t', found', same', stage'⟩
  handedOut := by
    intro id' q'
    simp only [Lifecycle.resolve, Lifecycle.get_modify_iff, HashMap.get_remove]
    obtain ⟨t, found, same, stage⟩ := (h.handedOut id q).mp awaited
    constructor
    · intro other
      split at other
      · cases other
      next notId =>
        obtain ⟨t', found', same', stage'⟩ := (h.handedOut id' q').mp other
        have different : q ≠ q' := by
          rintro rfl
          rw [found] at found'
          cases found'
          exact notId (same'.symm.trans same)
        exact ⟨t', ⟨t', found', if_neg different⟩, same', stage'⟩
    · rintro ⟨_, ⟨t', found', rfl⟩, same', stage'⟩
      split at stage'
      · cases stage'
      next different =>
        rw [if_neg different] at same'
        -- Of the live tickets only `q` has this id, so no other entry is removed.
        have notId : id' ≠ id := by
          rintro rfl
          exact different (h.valid.unique q q' t t' found found' (by simp [Ticket.live, stage])
            (by simp [Ticket.live, stage']) (same.trans same'.symm))
        rw [if_neg notId]
        exact (h.handedOut id' q').mpr ⟨t', found', same', stage'⟩
  cells := by
    intro q' t' found'
    obtain ⟨t₀, found₀, rfl⟩ := (Lifecycle.get_modify_iff a _ q' q t').mp found'
    by_cases same : q = q'
    · subst same
      simp [h.cells q t₀ found₀, Ticket.resolve]
    · simp [same, Function.update_of_ne (Ne.symm same), h.cells q' t₀ found₀]

/-- `resolve_query` with an id that is handed out, and with any other. -/
theorem resolveQuery (h : Refines m a) (id : String) (response : QueryResponse) (q : Query)
    (awaited : m.pendingResponses.get id = some q) :
    Refines (m.resolveQuery id response).1 (a.resolve q response) := by
  rcases m.resolveQuery_cases id response with ⟨absent, _⟩ | ⟨q', awaited', result⟩
  · rw [absent] at awaited
    cases awaited
  · rw [awaited] at awaited'
    cases awaited'
    rw [result]
    exact h.resolved id response q awaited

theorem resolveQuery_unknown (h : Refines m a) (id : String) (response : QueryResponse)
    (absent : m.pendingResponses.get id = none) : Refines (m.resolveQuery id response).1 a := by
  rcases m.resolveQuery_cases id response with ⟨_, result⟩ | ⟨q, awaited, _⟩
  · rw [result]
    exact h
  · rw [absent] at awaited
    cases awaited

theorem wait (h : Refines m a) (q : Query) (issued : q < a.length) :
    Refines (m.wait q).1 (a.take q) := by
  have ticket : ∃ t : QueryTicket, a[q]? = some t := ⟨a[q], List.getElem?_eq_getElem issued⟩
  obtain ⟨t, found⟩ := ticket
  have cell := h.cells q t found
  have keeps (id : String) (q' : Query) (stage : Stage) :
      (∃ t' : QueryTicket, (a.take q)[q']? = some t' ∧ t'.id = id ∧ t'.stage = stage) ↔
        ∃ t' : QueryTicket, a[q']? = some t' ∧ t'.id = id ∧ t'.stage = stage := by
    simp only [Lifecycle.take, Lifecycle.get_modify_iff]
    constructor
    · rintro ⟨_, ⟨t', found', rfl⟩, same, stage'⟩
      refine ⟨t', found', ?_⟩
      split at same <;> simp_all [Ticket.take]
    · rintro ⟨t', found', same, stage'⟩
      refine ⟨_, ⟨t', found', rfl⟩, ?_⟩
      split <;> exact ⟨same, stage'⟩
  -- With or without a response in the cell, the maps stay as they are.
  have represents (m' : QueryManager) (maps : m'.toQueryManagerInner = m.toQueryManagerInner)
      (count : m'.issued = m.issued)
      (taken : m'.cells q = { request := t.request, response := none })
      (others : ∀ q', q' ≠ q → m'.cells q' = m.cells q') : Refines m' (a.take q) := by
    refine ⟨h.valid.take q, by simp [Lifecycle.take, count, h.issued], ?_, ?_, ?_⟩
    · intro id q'; rw [maps, keeps, h.queued]
    · intro id q'; rw [maps, keeps, h.handedOut]
    · intro q' t' found'
      obtain ⟨t₀, found₀, rfl⟩ := (Lifecycle.get_modify_iff a _ q' q t').mp found'
      by_cases same : q = q'
      · subst same
        rw [found] at found₀
        cases found₀
        simp [taken, Ticket.take]
      · rw [others q' (Ne.symm same), if_neg same, h.cells q' t₀ found₀]
  rcases m.wait_cases q with ⟨empty, result⟩ | ⟨response, stored, result⟩
  · rw [result]
    refine represents m rfl rfl ?_ (fun _ _ => rfl)
    rw [cell] at empty ⊢
    simpa using empty
  · rw [result]
    refine represents _ rfl rfl ?_ (fun q' different => by simp [Function.update_of_ne different])
    simp [cell]

end Refines

end FullServiceMirror
