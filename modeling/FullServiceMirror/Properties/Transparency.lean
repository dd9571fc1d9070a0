import FullServiceMirror.Properties.Correlation
import FullServiceMirror.System.Direct

/-!
# The mirror is as good as a direct call

With distinct ids, everything that clients and the wallet service see of a run
could be seen of the program without a mirror in it: the same requests, the same
bodies POSTed and the same replies, in the same order.
-/
namespace FullServiceMirror

open Rust Json Transition

variable {L : Type}

/-- The actions that clients or the wallet service take part in. -/
def Action.shows : Action L → Bool
  | .request _ _ _ | .waitReturn _ | .process _ _ => true
  | _ => false

/-- An action of the mirror and the event that it looks like. -/
inductive Matches : Action L → Direct.Event L → Prop
  | request (endpoint : Endpoint) (data : Data) (rng : List (Fin QUERY_ID_LEN → UInt64)) :
      Matches (.request endpoint data rng) (.request endpoint data)
  | process (l : L) (exchange : Exchange) (call : Nat) :
      Matches (.process l exchange) (.process call l exchange)
  | reply (call : Nat) : Matches (.waitReturn call) (.reply call)
  | giveUp (call : Nat) : Matches (.waitReturn call) (.giveUp call)

/-- A call of the direct program stands for a query. -/
structure StandsFor (s : State L) (call : Direct.Call) (q : Query) : Prop where
  request : ∃ ticket : QueryTicket, s.tickets[q]? = some ticket ∧ ticket.request = call.request
  processed : call.processed = true ↔ s.place q = .gone
  response : ∀ c ∈ s.computed, c.query = q → call.response = some c.response
  waiting : s.waiting q = if call.replied then none else some call.endpoint

structure Agrees (s : State L) (d : Direct.State L) : Prop where
  count : d.calls.length = s.tickets.length
  calls : ∀ q call, d.calls[q]? = some call → StandsFor s call q
  posts : d.posts = s.posts
  answers : d.answers = s.answers

theorem agrees_start : Agrees (State.start : State L) Direct.State.start where
  count := rfl
  calls := by intro q call found; cases found
  posts := rfl
  answers := rfl

/-- A query that nothing happens to. -/
theorem StandsFor.frame {s t : State L} {call : Direct.Call} {q : Query} (stands : StandsFor s call q)
    (extended : Lifecycle.Extends s.tickets t.tickets) (gone : t.place q = .gone ↔ s.place q = .gone)
    (computed : ∀ c ∈ t.computed, c.query = q → c ∈ s.computed) (waiting : t.waiting q = s.waiting q) :
    StandsFor t call q where
  request := by
    obtain ⟨ticket, found, same⟩ := stands.request
    obtain ⟨ticket', found', _, request, _⟩ := extended q ticket found
    exact ⟨ticket', found', request.trans same⟩
  processed := stands.processed.trans gone.symm
  response := fun c member about => stands.response c (computed c member about) about
  waiting := waiting.trans stands.waiting

/-- Every query has its call. -/
theorem Agrees.call {s : State L} {d : Direct.State L} (h : Agrees s d) (q : Query) (ticket : QueryTicket)
    (found : s.tickets[q]? = some ticket) :
    ∃ call, d.calls[q]? = some call ∧ StandsFor s call q ∧ call.request = ticket.request := by
  obtain ⟨inside, _⟩ := List.getElem?_eq_some_iff.mp found
  rw [← h.count] at inside
  have stands := h.calls q _ (List.getElem?_eq_getElem inside)
  refine ⟨_, List.getElem?_eq_getElem inside, stands, ?_⟩
  obtain ⟨ticket', found', same⟩ := stands.request
  rw [found] at found'
  cases found'
  exact same.symm

/-- One call changes, and the others stand for their queries as before. -/
theorem stands_set {s t : State L} {d : Direct.State L} (h : Agrees s d) (n : Nat) (call : Direct.Call)
    (stands : StandsFor t call n)
    (others : ∀ q call', q ≠ n → StandsFor s call' q → StandsFor t call' q) :
    ∀ q call', (d.calls.set n call)[q]? = some call' → StandsFor t call' q := by
  intro q call' found
  rw [List.getElem?_set] at found
  by_cases same : n = q
  · subst same
    rw [if_pos rfl] at found
    split at found
    · cases found
      exact stands
    · cases found
  · rw [if_neg same] at found
    exact others q call' (Ne.symm same) (h.calls q call' found)

variable [DecidableEq L] {fromStr : String → Except String Value} {config : L → Config}

/-- Ids are only added. -/
theorem ids_back (s t : State L) (a : Action L) (taken : step fromStr config s a = some t)
    (distinct : t.ids.Nodup) : s.ids.Nodup := by
  have kept : s.ids <+: t.ids := by
    rw [List.prefix_iff_getElem?]
    intro i inside
    rw [State.ids, List.length_map] at inside
    obtain ⟨ticket', found', same, _⟩ :=
      step_extends s t a (step_cases s t a taken) i _ (List.getElem?_eq_getElem inside)
    simp only [State.ids, List.getElem?_map, List.getElem_map, found', Option.map_some, same]
  exact distinct.sublist kept.sublist

/-- Only processing a request makes it gone. -/
theorem gone_iff_of_hidden (s t : State L) (a : Action L) (h : Invariant fromStr config s)
    (taken : Step fromStr config s a t) (hidden : a.shows = false) (q : Query) :
    t.place q = .gone ↔ s.place q = .gone := by
  cases taken with
  | unread | request | waitReturn | abort | process => cases hidden
  | drain p stage =>
    dsimp only
    split
    next drained =>
      -- What is drained was queued, and so with the manager.
      obtain ⟨ticket, found, queued⟩ := (drained_iff h.represented q).mp drained
      have place := h.placed.unsent q fun ticket' found' => by
        rw [found] at found'
        cases found'
        exact queued
      simp [place]
    · exact Iff.rfl
  | deliver l order p phase requests stage visits =>
    dsimp only
    split
    next replied => simp [replied]
    · exact Iff.rfl
  | _ => exact Iff.rfl

/-- A hidden step leaves the direct program as it is. -/
theorem agrees_hidden (s t : State L) (a : Action L) (d : Direct.State L) (h : Invariant fromStr config s)
    (agrees : Agrees s d) (taken : Step fromStr config s a t) (hidden : a.shows = false) : Agrees t d := by
  have extended := step_extends s t a taken
  have gone := gone_iff_of_hidden s t a h taken hidden
  obtain ⟨count, computed, waiting, posts, answers⟩ : t.tickets.length = s.tickets.length ∧
      t.computed = s.computed ∧ t.waiting = s.waiting ∧ t.posts = s.posts ∧ t.answers = s.answers := by
    cases taken with
    | unread | request | waitReturn | abort | process => cases hidden
    | resolve p queryId response rest stage query awaited =>
      exact ⟨List.length_modify _ _ _, rfl, rfl, rfl, rfl⟩
    | drain p stage => exact ⟨List.length_map _, rfl, rfl, rfl, rfl⟩
    | _ => exact ⟨rfl, rfl, rfl, rfl, rfl⟩
  refine ⟨agrees.count.trans count.symm, fun q call found => ?_, agrees.posts.trans posts.symm,
    agrees.answers.trans answers.symm⟩
  apply (agrees.calls q call found).frame extended (gone q)
  · rw [computed]
    exact fun c member _ => member
  · rw [waiting]

/-- A client's request arrives. -/
theorem agrees_request (s t : State L) (d : Direct.State L) (h : Invariant fromStr config s)
    (agrees : Agrees s d) (endpoint : Endpoint) (data : Data) (rng : List (Fin QUERY_ID_LEN → UInt64))
    (taken : Step fromStr config s (.request endpoint data rng) t) :
    ∃ d', Direct.step fromStr config d (.request endpoint data) = some d' ∧ Agrees t d' := by
  have extended := step_extends s t _ taken
  cases taken with
  | unread _ _ _ e failed =>
    refine ⟨{ d with answers := d.answers ++ [{ endpoint, waited := none, response := e.respondTo }] },
      by simp only [Direct.step, failed], agrees.count, fun q call found => ?_, agrees.posts, ?_⟩
    · exact (agrees.calls q call found).frame extended Iff.rfl (fun _ member _ => member) rfl
    · rw [agrees.answers]
  | request _ _ _ queryRequest read queryId generated manager query enqueued =>
    obtain ⟨_, _, rfl, _⟩ := h.represented.refines.enqueueQuery rng queryRequest manager query enqueued
    -- The new query is the next call, and nothing has happened to it.
    have place := h.placed.unsent s.tickets.length fun ticket found => by
      rw [List.getElem?_eq_none (Nat.le_refl _)] at found
      cases found
    refine ⟨{ d with calls := d.calls ++ [{ endpoint, request := queryRequest }] },
      by simp only [Direct.step, read], ?_, fun q call found => ?_, agrees.posts, agrees.answers⟩
    · simp [Lifecycle.enqueue, agrees.count]
    -- Older queries keep their numbers.
    rcases Nat.lt_or_ge q d.calls.length with before | new
    · rw [List.getElem?_append_left before] at found
      apply (agrees.calls q call found).frame extended Iff.rfl fun _ member _ => member
      rw [agrees.count] at before
      exact Function.update_of_ne (Nat.ne_of_lt before) _ _
    · rw [List.getElem?_append_right new] at found
      have inside := (List.getElem?_eq_some_iff.mp found).choose
      rw [List.length_singleton] at inside
      obtain rfl : q = d.calls.length := Nat.le_antisymm (by omega) new
      rw [Nat.sub_self] at found
      cases found
      rw [agrees.count]
      refine ⟨⟨_, (Lifecycle.get_enqueue_iff _ _ _ _ _).mpr (Or.inr ⟨rfl, rfl⟩), rfl⟩, ?_, ?_, ?_⟩
      · simp [place]
      · intro c member about
        have gone := h.placed.computed c member
        rw [about, place] at gone
        cases gone
      · exact Function.update_self _ _ _

/-- A loop processes a request, which no loop did before. -/
theorem agrees_process (s t : State L) (d : Direct.State L) (h : Invariant fromStr config s)
    (agrees : Agrees s d) (l : L) (exchange : Exchange)
    (taken : Step fromStr config s (.process l exchange) t) :
    ∃ n d', Direct.step fromStr config d (.process n l exchange) = some d' ∧ Agrees t d' := by
  have extended := step_extends s t _ taken
  have waiting : t.waiting = s.waiting := by cases taken <;> rfl
  obtain ⟨queryId, request, rest, loop, phase, _, _, _, _, tickets, place, posts, _, answers, computed⟩ :=
    process_effect s t l exchange taken
  obtain ⟨here, ticket, found, _, same⟩ := ((h.placed.processing l _ phase).2 _ List.mem_cons_self)
  dsimp only at here found same
  generalize (s.loops l).origin queryId = q at *
  obtain ⟨call, at_q, stands, asked⟩ := agrees.call q ticket found
  rw [same] at asked
  -- A request that a loop has in hand is not gone yet.
  have unprocessed : call.processed = false := by
    rw [← Bool.not_eq_true, stands.processed, here]
    simp
  refine ⟨q, { d with
    calls := d.calls.set q
      { call with processed := true, response := (respond fromStr (config l) exchange request).2 }
    posts := d.posts ++ (respond fromStr (config l) exchange request).1.map fun body => ⟨l, q, body⟩ },
    ?_, ?_, ?_, ?_, agrees.answers.trans answers.symm⟩
  · simp [Direct.step, at_q, unprocessed, asked]
  · rw [List.length_set, tickets]
    exact agrees.count
  · apply stands_set agrees
    · obtain ⟨ticket', found', _, request', _⟩ := extended q ticket found
      refine ⟨⟨ticket', found', request'.trans (same.trans asked.symm)⟩, ?_, ?_, ?_⟩
      · simp [place]
      -- What is computed for the query is computed in this step.
      · intro c member about
        have fresh (old : c ∈ s.computed) : False := by
          have gone := h.placed.computed c old
          rw [about, here] at gone
          cases gone
        rcases computed with ⟨none, _⟩ | ⟨response, stored, one, _⟩
        · rw [none] at member
          exact (fresh member).elim
        · rw [one] at member
          rcases List.mem_append.mp member with old | new
          · exact (fresh old).elim
          · rw [List.mem_singleton.mp new]
            exact stored
      · rw [waiting]
        exact stands.waiting
    -- Nothing is computed for another query.
    · intro q' call' other stands'
      apply stands'.frame extended
      · rw [place, Function.update_of_ne other]
      · intro c member about
        rcases computed with ⟨none, _⟩ | ⟨response, stored, one, _⟩
        · rwa [none] at member
        · rw [one] at member
          rcases List.mem_append.mp member with old | new
          · exact old
          · rw [List.mem_singleton.mp new] at about
            exact absurd about.symm other
      · rw [waiting]
  · rw [posts, agrees.posts]

omit [DecidableEq L] in
/-- Both programs answer a client and close the call. -/
theorem agrees_answer (s : State L) (d : Direct.State L) (agrees : Agrees s d) (query : Query)
    (call : Direct.Call) (at_query : d.calls[query]? = some call) (manager : QueryManager)
    (waited : Except String QueryResponse) : Agrees { s with
      manager
      waiting := Function.update s.waiting query none
      tickets := s.tickets.take query
      answers := s.answers ++ [{ endpoint := call.endpoint, waited := some (query, waited),
                                 response := call.endpoint.reply waited }] }
      (d.answer query call waited) := by
  have extended : Lifecycle.Extends s.tickets (s.tickets.take query) := Lifecycle.extends_take _ _
  have stands := agrees.calls query call at_query
  refine ⟨?_, ?_, agrees.posts, ?_⟩
  · rw [Direct.State.answer, List.length_set]
    exact agrees.count.trans (List.length_modify _ _ _).symm
  · apply stands_set agrees
    · refine ⟨?_, stands.processed, stands.response, Function.update_self _ _ _⟩
      obtain ⟨ticket, found, same⟩ := stands.request
      obtain ⟨ticket', found', _, request', _⟩ := extended query ticket found
      exact ⟨ticket', found', request'.trans same⟩
    · intro q call' other stands'
      apply stands'.frame
      · exact extended
      · exact Iff.rfl
      · exact fun _ member _ => member
      · exact Function.update_of_ne other _ _
  · rw [Direct.State.answer, agrees.answers]

/-- A wait ends: with the response to the client's own request, or with a timeout. -/
theorem agrees_waitReturn (s t : State L) (d : Direct.State L) (after : Invariant fromStr config t)
    (distinct : t.ids.Nodup) (represented : Represented s) (agrees : Agrees s d) (query : Query)
    (taken : Step fromStr config s (.waitReturn query) t) :
    ∃ e d', Matches (.waitReturn query) e ∧ Direct.step fromStr config d e = some d' ∧ Agrees t d' := by
  cases taken with
  | waitReturn _ endpoint waits =>
    obtain ⟨ticket, found⟩ : ∃ ticket, s.tickets[query]? = some ticket :=
      ⟨_, List.getElem?_eq_getElem (represented.waiting query endpoint waits)⟩
    obtain ⟨call, at_query, stands, _⟩ := agrees.call query ticket found
    -- A client waits only as long as its call is open.
    obtain ⟨unreplied, rfl⟩ : call.replied = false ∧ endpoint = call.endpoint := by
      have waiting := stands.waiting
      rw [waits] at waiting
      cases replied : call.replied with
      | false =>
        rw [replied] at waiting
        exact ⟨rfl, Option.some.inj waiting⟩
      | true =>
        rw [replied] at waiting
        cases waiting
    have answered := agrees_answer s d agrees query call at_query (s.manager.wait query).1
      (s.manager.wait query).2
    rcases s.manager.wait_cases query with ⟨_, timeout⟩ | ⟨response, _, returned⟩
    · refine ⟨.giveUp query, _, .giveUp query, ?_, answered⟩
      rw [timeout]
      simp [Direct.step, at_query, unreplied]
    -- With distinct ids the response was computed from the request of this query.
    · obtain ⟨_, source⟩ := after.answered.answers _ (List.mem_append_right _ (List.mem_singleton_self _))
        query _ rfl
      obtain ⟨x, resolved, about, same⟩ := source response (by rw [returned])
      obtain ⟨_, _, c, computed, own, _, _, computed_response, _⟩ := after.resolved_from distinct x resolved
      have stored := stands.response c computed (own.trans about)
      rw [computed_response, same] at stored
      refine ⟨.reply query, _, .reply query, ?_, answered⟩
      rw [returned]
      simp [Direct.step, at_query, unreplied, stored]

/-- An action that shows is an event of the direct program. -/
theorem agrees_shown (s t : State L) (a : Action L) (d : Direct.State L)
    (reached : Reachable (step fromStr config) Any .start s) (distinct : t.ids.Nodup) (agrees : Agrees s d)
    (taken : step fromStr config s a = some t) (shows : a.shows = true) :
    ∃ e d', Matches a e ∧ Direct.step fromStr config d e = some d' ∧ Agrees t d' := by
  have h := reachable_invariant reached
  have moved := step_cases s t a taken
  cases a with
  | request endpoint data rng =>
    obtain ⟨d', taken', agrees'⟩ := agrees_request s t d h agrees endpoint data rng moved
    exact ⟨_, d', .request endpoint data rng, taken', agrees'⟩
  | process l exchange =>
    obtain ⟨n, d', taken', agrees'⟩ := agrees_process s t d h agrees l exchange moved
    exact ⟨_, d', .process l exchange n, taken', agrees'⟩
  | waitReturn query =>
    have after := reachable_invariant (reached.next _ trivial taken)
    exact agrees_waitReturn s t d after distinct h.represented agrees query moved
  | _ => cases shows

/-- **The mirror is as good as a direct call.** Every run whose ids are distinct
looks like a run of the direct program, in which each client's request is
processed at most once next to the wallet service, and each client gets the
response to its own request or a timeout: the events are the actions that show,
in their order, and the bodies POSTed and the replies to the clients are the
same. -/
theorem mirror_transparent (labels : List (Action L)) (s : State L)
    (path : Path (step fromStr config) Any .start labels s) (distinct : s.ids.Nodup) :
    ∃ events d, Path (Direct.step fromStr config) Any .start events d ∧
      List.Forall₂ Matches (labels.filter Action.shows) events ∧
      d.posts = s.posts ∧ d.answers = s.answers := by
  obtain ⟨events, d, path', matched, agrees⟩ := path.refined Action.shows (fun s => s.ids.Nodup)
    (fun s a t => ids_back s t a)
    (fun s a t d reached _ agrees taken hidden =>
      agrees_hidden s t a d (reachable_invariant reached) agrees (step_cases s t a taken) hidden)
    (fun s a t d reached distinct agrees taken shows =>
      agrees_shown s t a d reached distinct agrees taken shows)
    distinct agrees_start
  exact ⟨events, d, path', matched, agrees.posts, agrees.answers⟩

theorem mirror_transparent_roundTrip :
    ∃ s events d, Path (step parse fun _ => {}) Any .start roundTrip s ∧
      Path (Direct.step parse fun _ : Unit => {}) Any .start events d ∧ events.length = 3 ∧
      d.answers.map (·.response.status) = [200] := by
  have computed : ((run (step parse fun _ => {}) Any State.start roundTrip).any fun s =>
      decide (s.answers.map (·.response.status) = [200] ∧ s.ids.Nodup)) = true := by decide +kernel
  obtain ⟨s, taken, holds⟩ := (Option.any_eq_true _ _).mp computed
  obtain ⟨answered, distinct⟩ := of_decide_eq_true holds
  have path := path_of_run roundTrip State.start s taken
  obtain ⟨events, d, path', matched, _, answers⟩ := mirror_transparent roundTrip s path distinct
  refine ⟨s, events, d, path, path', ?_, ?_⟩
  · rw [← matched.length_eq]
    rfl
  · rw [answers, answered]

end FullServiceMirror
