import FullServiceMirror.Properties.TamperEvidence
import FullServiceMirror.System.Invariant

/-!
# Only vetted requests reach the wallet service, and modes do not mix

What a loop POSTs passed `validate_method` and is what a client asked for in the
loop's mode. What a loop with a mirror key stores depends on the wallet's text
only through its encryption.
-/
namespace FullServiceMirror

open Rust Json Transition

variable {L : Type} [DecidableEq L]
variable {fromStr : String → Except String Value} {config : L → Config}

variable (fromStr config) in
/-- A POSTed body was vetted, and a client's request admits it in the mode of the loop. -/
def State.Vetted (s : State L) (post : Post L) : Prop :=
  validateMethod fromStr post.body = .ok true ∧
    ∃ ticket : QueryTicket, s.tickets[post.query]? = some ticket ∧
      (config post.l).Admits ticket.request post.body

omit [DecidableEq L] in
theorem State.Vetted.mono {s t : State L} (extended : Lifecycle.Extends s.tickets t.tickets)
    {post : Post L} (vetted : s.Vetted fromStr config post) : t.Vetted fromStr config post := by
  obtain ⟨passed, ticket, found, admits⟩ := vetted
  obtain ⟨ticket', found', _, request, _⟩ := extended post.query ticket found
  exact ⟨passed, ticket', found', request ▸ admits⟩

theorem vetted_step (s t : State L) (a : Action L) (placed : Placed s)
    (h : ∀ post ∈ s.posts, s.Vetted fromStr config post) (taken : Step fromStr config s a t) :
    ∀ post ∈ t.posts, t.Vetted fromStr config post := by
  have extended := step_extends s t a taken
  cases a with
  | process l exchange =>
    obtain ⟨queryId, request, rest, _, phase, _, _, _, _, _, _, posts, _⟩ :=
      process_effect s t l exchange taken
    -- The request at the head is the one that the ticket was issued with.
    obtain ⟨_, ticket, found, _, rfl⟩ := (placed.processing l _ phase).2 _ List.mem_cons_self
    intro post member
    rw [posts, List.mem_append] at member
    rcases member with earlier | now
    · exact (h post earlier).mono extended
    · obtain ⟨body, posted, rfl⟩ := List.mem_map.mp now
      rcases @respond_posts fromStr (config l) exchange ticket.request with
        none | ⟨body', once, vetted, admits⟩
      · rw [none] at posted
        cases posted
      · rw [once, List.mem_singleton] at posted
        subst posted
        exact State.Vetted.mono extended ⟨vetted, ticket, found, admits⟩
  | _ =>
    cases taken <;> exact fun post member => (h post member).mono extended

/-- **Only vetted requests reach the wallet service, and modes do not mix.** In
every run each POSTed body passed `validate_method` and is what some client's
request admits. A loop with a mirror key never stores an unencrypted response;
what it stores for a request is the same for all texts of the wallet service, or
for each text its encryption; and where encryption succeeds on two texts, the two
responses differ in that payload at most. -/
theorem only_vetted_requests (s : State L) (reached : Reachable (step fromStr config) Any .start s) :
    (∀ post ∈ s.posts, s.Vetted fromStr config post) ∧
    (∀ l mirrorKey, (config l).mirrorKey = some mirrorKey →
      (∀ queryId response, (s.loops l).pendingResponses.get queryId = some response →
        response.hasUnencryptedResponse = false) ∧
      (∀ queryRequest,
        (∃ stored, ∀ jsonResponse,
          (respond fromStr (config l) (.text jsonResponse) queryRequest).2 = stored) ∨
        (∀ jsonResponse, (respond fromStr (config l) (.text jsonResponse) queryRequest).2 =
          unwrapOrError (encryptedAnswer mirrorKey jsonResponse))) ∧
      (∀ queryRequest text text' payload payload',
        Crypto.encrypt mirrorKey (asBytes text) = .ok payload →
        Crypto.encrypt mirrorKey (asBytes text') = .ok payload' →
        (respond fromStr (config l) (.text text) queryRequest).2 =
          (respond fromStr (config l) (.text text') queryRequest).2 ∨
        ((respond fromStr (config l) (.text text) queryRequest).2 =
            some (QueryResponse.setEncryptedResponse {} { payload }) ∧
          (respond fromStr (config l) (.text text') queryRequest).2 =
            some (QueryResponse.setEncryptedResponse {} { payload := payload' })))) := by
  constructor
  · refine reached.invariant (fun s => ∀ post ∈ s.posts, s.Vetted fromStr config post)
      (fun post member => by cases member) fun s a t before _ h taken => ?_
    exact vetted_step s t a (reachable_invariant before).placed h (step_cases s t a taken)
  · intro l mirrorKey keyed
    have h := reachable_invariant reached
    refine ⟨fun queryId response pending => ?_, respond_seals (config l) mirrorKey keyed, ?_⟩
    · obtain ⟨c, computed, rfl, _, _, rfl⟩ := h.sourced.loops l queryId response pending
      have answers := respond_answers _ c.exchange c.request c.response (h.sourced.computed c computed).2
      exact answers.encrypted_only mirrorKey keyed
    · intro queryRequest text text' payload payload' sealed sealed'
      -- Refused alike for both texts, or each text is sealed.
      rcases @respond_seals fromStr (config l) mirrorKey keyed queryRequest with
        ⟨stored, fixed⟩ | encrypted
      · exact Or.inl (by rw [fixed, fixed])
      · right
        rw [encrypted, encrypted]
        exact ⟨unwrapOrError_encryptedAnswer mirrorKey text payload sealed,
          unwrapOrError_encryptedAnswer mirrorKey text' payload' sealed'⟩

/-- The body of an encrypted request, POSTed by a loop with a mirror key. -/
theorem only_vetted_requests_encryptedAnswered :
    ∃ s : State Unit, Reachable (step parse fun _ => { mirrorKey := some largePrivateKey }) Any .start s ∧
      s.posts.length = 1 ∧
      (∀ post ∈ s.posts, s.Vetted parse (fun _ => { mirrorKey := some largePrivateKey }) post) ∧
      (∃ response, (s.loops ()).pendingResponses.get "AAAAAAAA" = some response ∧
        response.hasUnencryptedResponse = false) ∧
      (∀ text text' payload payload', Crypto.encrypt largePrivateKey (asBytes text) = .ok payload →
        Crypto.encrypt largePrivateKey (asBytes text') = .ok payload' →
        (respond parse { mirrorKey := some largePrivateKey } (.text text)
            (QueryRequest.setEncryptedRequest {} { payload := requestPayload })).2 =
          (respond parse { mirrorKey := some largePrivateKey } (.text text')
            (QueryRequest.setEncryptedRequest {} { payload := requestPayload })).2 ∨
        ((respond parse { mirrorKey := some largePrivateKey } (.text text)
            (QueryRequest.setEncryptedRequest {} { payload := requestPayload })).2 =
            some (QueryResponse.setEncryptedResponse {} { payload }) ∧
          (respond parse { mirrorKey := some largePrivateKey } (.text text')
            (QueryRequest.setEncryptedRequest {} { payload := requestPayload })).2 =
            some (QueryResponse.setEncryptedResponse {} { payload := payload' }))) := by
  obtain ⟨s, reached, holds⟩ := exists_reachable_of_run
    (step parse fun _ => { mirrorKey := some largePrivateKey }) Any .start (encryptedAnswered "\x7b\x7d")
    (fun s => decide (s.posts.length = 1 ∧
      ((s.loops ()).pendingResponses.get "AAAAAAAA").isSome = true)) (by decide +kernel)
  obtain ⟨once, pending⟩ := of_decide_eq_true holds
  obtain ⟨response, pending⟩ := Option.isSome_iff_exists.mp pending
  obtain ⟨vetted, keyed⟩ := only_vetted_requests s reached
  obtain ⟨stored, _, texts⟩ := keyed () largePrivateKey rfl
  exact ⟨s, reached, once, vetted, ⟨response, pending, stored _ response pending⟩, texts _⟩

end FullServiceMirror
