import FullServiceMirror.Client.Script
import FullServiceMirror.Properties.Correlation
import FullServiceMirror.Properties.RequestFormat
import FullServiceMirror.Properties.TamperEvidence

/-!
# A session of the example client

The codec, the correlation of responses and the handlers put together: what the
script prints for a request is what the wallet service answered to that request,
or a message of the mirror.
-/
namespace FullServiceMirror

open Rust Json Transition

theorem bufferToString_asBytes (text : String) : ExampleClient.bufferToString (asBytes text) = text := by
  have encoding : asBytes text = text.toList.flatMap String.utf8EncodeChar := by
    rw [asBytes_eq_utf8, Utf16.utf8, Utf16.decode_encode]
  rw [ExampleClient.bufferToString, encoding, ExampleClient.readText_encode _ _ (Nat.le_refl _),
    String.ofList_toList]

variable {priv : PrivateKey} {pub : PublicKey}

/-- The test of the key lets only keys of the expected size pass. -/
theorem size_of_prepared (boring : PublicEncrypts priv pub) (keySize : Nat)
    (room : PKCS1_PADDING_LEN + 3 ≤ keySize) (testPadding padding : Nat → Bytes) (request : List UInt16)
    (payload : Bytes)
    (prepared : ExampleClient.prepareRequest pub keySize testPadding padding request = .ok payload) :
    priv.size = keySize ∧ ExampleClient.encryptString pub keySize padding request = .ok payload := by
  have three : 3 ≤ keySize - 11 := Nat.le_sub_of_add_le (by rw [Nat.add_comm]; exact room)
  obtain ⟨testData, tested, prepared⟩ := (bind_ok_iff _ _ _).mp prepared
  obtain ⟨res, called, flat⟩ := (bind_ok_iff _ _ _).mp tested
  cases flat
  obtain ⟨blocks, calls, rfl⟩ :=
    (ExampleClient.sliceLoop_ok_iff _ (by omega) _ _ _ _ _ (Nat.le_refl _)).mp called
  -- The test data fits one block.
  have pieces : piecesOf (keySize - 11) ([1, 2, 3] : Bytes) = [[1, 2, 3]] := by
    rw [piecesOf_cons _ (by omega) _ (List.cons_ne_nil _ _), List.take_of_length_le three,
      List.drop_eq_nil_of_le three, piecesOf_nil]
  rw [pieces] at calls
  obtain ⟨block, _, encrypted, none, rfl⟩ := List.forall₂_cons_left_iff.mp calls
  cases none
  -- A key that is too small for the test would have thrown.
  have full : block.length = priv.size := by
    by_cases short : 3 ≤ priv.size - PKCS1_PADDING_LEN
    · obtain ⟨block', encrypted', full, _⟩ := boring.fits (testPadding 0) [1, 2, 3] short
      have same := encrypted'.symm.trans encrypted
      cases same
      exact full
    · obtain ⟨e, thrown⟩ := boring.too_long (testPadding 0) [1, 2, 3] (Nat.lt_of_not_le short)
      have clash := thrown.symm.trans encrypted
      cases clash
  have length : ([block].flatten).length = priv.size := by rw [List.flatten_singleton, full]
  rw [length] at prepared
  split at prepared
  · cases prepared
  next size => exact ⟨not_not.mp size, prepared⟩

variable {L : Type} [DecidableEq L] {fromStr : String → Except String Value} {config : L → Config}

variable (fromStr config) in
/-- Processing a request POSTed what it says that it did. -/
def State.Posted (s : State L) : Prop :=
  ∀ c ∈ s.computed, ∀ body ∈ (respond fromStr (config c.l) c.exchange c.request).1,
    ⟨c.l, c.query, body⟩ ∈ s.posts

theorem posted_step (s t : State L) (a : Action L) (h : s.Posted fromStr config)
    (taken : Step fromStr config s a t) : t.Posted fromStr config := by
  cases a with
  | process l exchange =>
    obtain ⟨queryId, request, _, _, _, _, _, _, _, _, _, posts, _, _, computed⟩ :=
      process_effect s t l exchange taken
    have earlier (c : Computation L) (member : c ∈ s.computed) (body : String)
        (posted : body ∈ (respond fromStr (config c.l) c.exchange c.request).1) :
        ⟨c.l, c.query, body⟩ ∈ t.posts := by
      rw [posts]
      exact List.mem_append_left _ (h c member body posted)
    rcases computed with ⟨computed, _⟩ | ⟨response, _, computed, _⟩
    · intro c member
      rw [computed] at member
      exact earlier c member
    · intro c member body posted
      rw [computed, List.mem_append, List.mem_singleton] at member
      rcases member with before | rfl
      · exact earlier c before body posted
      · rw [posts]
        exact List.mem_append_right _ (List.mem_map_of_mem posted)
  | _ => cases taken <;> exact h

theorem reachable_posted {s : State L} (reached : Reachable (step fromStr config) Any .start s) :
    s.Posted fromStr config := by
  refine reached.invariant _ (fun c member => by cases member) ?_
  intro s a t _ _ h taken
  exact posted_step s t a h (step_cases s t a taken)

/-- The wallet service was asked once for the query, for exactly this request,
and answered with the text. -/
def State.Served (s : State L) (q : Query) (request text : String) : Prop :=
  ∃ l, s.posts.filter (fun post => post.query = q) = [⟨l, q, request⟩] ∧
    ∃ c ∈ s.computed, c.l = l ∧ c.query = q ∧ c.exchange = .text text

omit [DecidableEq L] in
/-- A query that was POSTed has been POSTed once. -/
theorem posts_of_member {s : State L} (h : Placed s) (post : Post L) (member : post ∈ s.posts) :
    s.posts.filter (fun post' => post'.query = post.query) = [post] := by
  have unique := List.inj_on_of_nodup_map h.once
  have distinct : s.posts.Nodup := List.Nodup.of_map _ h.once
  refine List.perm_singleton.mp ((List.perm_ext_iff_of_nodup (distinct.filter _) (List.nodup_singleton _)).mpr ?_)
  intro post'
  rw [List.mem_filter, decide_eq_true_iff, List.mem_singleton]
  constructor
  · rintro ⟨member', same⟩
    exact unique member' member same
  · rintro rfl
    exact ⟨member, rfl⟩

/-- A response with a payload was made of what the wallet service answered to the
body that the request admits. -/
theorem served_of_computed {s : State L}
    (reached : Reachable (step fromStr fun _ => { mirrorKey := some priv }) Any .start s)
    (c : Computation L) (computed : c ∈ s.computed) (payload : Bytes) (request : String)
    (asked : c.request = QueryRequest.setEncryptedRequest {} { payload })
    (decrypted : Crypto.decrypt priv payload = .ok (asBytes request)) (body : Bytes)
    (kind : c.response = QueryResponse.setEncryptedResponse {} { payload := body }) :
    ∃ text, s.Served c.query request text ∧ validateMethod fromStr request = .ok true ∧
      Crypto.encrypt priv (asBytes text) = .ok body := by
  have h := reachable_invariant reached
  obtain ⟨_, stored⟩ := h.sourced.computed c computed
  have posted := reachable_posted reached c computed
  rcases respond_cases { mirrorKey := some priv } c.request with
    ⟨e, refused⟩ | ⟨_, panicked⟩ | ⟨body', admits, passed⟩
  · rw [refused, kind] at stored
    cases stored
  · rw [panicked] at stored
    cases stored
  · obtain ⟨payload', asked', decrypted'⟩ := admits
    rw [asked] at asked'
    cases asked'
    -- The body that the private side read is what the client meant.
    rw [decrypted, Except.ok.injEq] at decrypted'
    have same := asBytes_injective decrypted'
    subst same
    rw [passed] at stored posted
    rcases passAlong_cases c.exchange request ({ mirrorKey := some priv } : Config).answer with
      ⟨e, failed, _⟩ | ⟨text, exchange, vetted, result⟩
    · rw [failed, kind] at stored
      cases stored
    · rw [result] at stored posted
      dsimp only at stored
      have member := posted request List.mem_cons_self
      refine ⟨text, ⟨c.l, posts_of_member h.placed _ member, c, computed, rfl, rfl, exchange⟩, vetted, ?_⟩
      have answers := answer_answers _ text c.response stored
      rw [kind] at answers
      generalize shape : QueryResponse.setEncryptedResponse {} { payload := body } = answer at answers
      cases answers with
      | error e => cases shape
      | unencrypted _ _ plain => cases plain
      | encrypted _ got _ keyed _ sealed =>
        cases shape
        cases got
        cases keyed
        exact sealed

theorem eq_of_payload (response : QueryResponse) (body : Bytes)
    (kind : Endpoint.encryptedRequest.payload response = some body) :
    response = QueryResponse.setEncryptedResponse {} { payload := body } := by
  obtain ⟨oneof⟩ := response
  rcases oneof with _ | ⟨error | unencrypted | encrypted⟩ <;> cases kind
  rfl

/-- What a handler answers with another status than 200 is a message. -/
theorem message_of_refused (endpoint : Endpoint) (waited : Except String QueryResponse)
    (refused : (endpoint.reply waited).status = 400) :
    ∃ message, (endpoint.reply waited).body = asBytes message := by
  cases endpoint with
  | unencryptedRequest =>
    rw [Endpoint.reply] at refused ⊢
    split at refused
    next e _ => exact ⟨e.message, rfl⟩
    · cases refused
  | encryptedRequest =>
    rw [Endpoint.reply] at refused ⊢
    split at refused
    next e _ => exact ⟨e.message, rfl⟩
    · cases refused

/-- **A session of the client.** In every run with a mirror key whose ids are
distinct, a client that prepared its request and was answered either prints, in
whatever pieces the response arrived, exactly the text with which the wallet
service answered the one POST of exactly that request, or gets status 400 and
prints the pieces of the mirror's message with commas between them, which is the
message when it arrived as one piece. -/
theorem client_session (pkcs1 : Pkcs1 priv pub) (boring : PublicEncrypts priv pub) (s : State L)
    (reached : Reachable (step fromStr fun _ => { mirrorKey := some priv }) Any .start s)
    (distinct : s.ids.Nodup) (keySize : Nat) (room : PKCS1_PADDING_LEN + 3 ≤ keySize)
    (testPadding padding : Nat → Bytes) (request : String) (payload : Bytes)
    (prepared : ExampleClient.prepareRequest pub keySize testPadding padding
      (Utf16.encode request.toList) = .ok payload)
    (a : Answer) (answered : a ∈ s.answers) (q : Query) (waited : Except String QueryResponse)
    (returned : a.waited = some (q, waited)) (route : a.endpoint = .encryptedRequest)
    (ticket : QueryTicket) (found : s.tickets[q]? = some ticket)
    (asked : ticket.request = QueryRequest.setEncryptedRequest {} { payload })
    (buf : List Bytes) (arrived : buf.flatten = a.response.body) :
    (a.response.status = 200 ∧ ∃ text, s.Served q request text ∧
      validateMethod fromStr request = .ok true ∧
      ExampleClient.onEnd pub keySize a.response.status buf = .ok text) ∨
    (a.response.status = 400 ∧
      ExampleClient.onEnd pub keySize a.response.status buf =
        .ok ("Http error, status: 400: " ++ ",".intercalate (buf.map ExampleClient.bufferToString)) ∧
      ∃ message, a.response.body = asBytes message ∧
        (buf.length = 1 → ExampleClient.onEnd pub keySize a.response.status buf =
          .ok ("Http error, status: 400: " ++ message))) := by
  obtain ⟨size, encrypted⟩ := size_of_prepared boring keySize room testPadding padding _ payload prepared
  have space : PKCS1_PADDING_LEN < priv.size := by rw [size]; omega
  have h := reachable_invariant reached
  obtain ⟨reply, source⟩ := h.answered.answers a answered q waited returned
  rw [route] at reply
  rcases Endpoint.encryptedRequest.reply_cases waited with ⟨response, body, rfl, kind, ok⟩ | ⟨refused, _⟩
  · rw [ok] at reply
    rw [reply] at arrived ⊢
    left
    refine ⟨rfl, ?_⟩
    -- The payload is that of a response computed for this very query.
    obtain ⟨x, resolved, rfl, rfl⟩ := source response rfl
    obtain ⟨ticket', found', c, computed, query, _, same, stored, _⟩ := h.resolved_from distinct x resolved
    rw [found, Option.some.injEq] at found'
    rw [← found', asked] at same
    -- The private side reads what the client encrypted.
    have decrypted : Crypto.decrypt priv payload = .ok (asBytes request) := by
      rw [← size] at encrypted
      obtain ⟨payload', encrypted', decrypted⟩ := agree_of_fits boring space padding _
        (fits_of_encrypted boring space padding _ payload encrypted)
      rw [encrypted, Except.ok.injEq] at encrypted'
      rw [encrypted', decrypted, asBytes_eq_utf8]
    obtain ⟨text, served, vetted, sealed⟩ := served_of_computed reached c computed payload request same
      decrypted body (stored.trans (eq_of_payload x.response body kind))
    rw [query] at served
    refine ⟨text, served, vetted, ?_⟩
    -- And the client reads what the private side encrypted.
    obtain ⟨sealed_text, encrypted_text, _, read⟩ := private_to_client pkcs1 space (asBytes text)
    rw [sealed, Except.ok.injEq] at encrypted_text
    rw [← encrypted_text, size] at read
    rw [ExampleClient.onEnd, if_pos rfl, arrived, read]
    exact congrArg Except.ok (bufferToString_asBytes text)
  · rw [← reply] at refused
    right
    obtain ⟨message, body⟩ := message_of_refused .encryptedRequest waited (reply ▸ refused)
    rw [← reply] at body
    have printed : ExampleClient.onEnd pub keySize a.response.status buf =
        .ok ("Http error, status: 400: " ++ ",".intercalate (buf.map ExampleClient.bufferToString)) := by
      rw [ExampleClient.onEnd, refused, if_neg (by decide)]
      rfl
    refine ⟨refused, printed, message, body, fun whole => ?_⟩
    obtain ⟨piece, rfl⟩ := List.length_eq_one_iff.mp whole
    rw [List.flatten_singleton, body] at arrived
    rw [printed, arrived, List.map_singleton, bufferToString_asBytes]
    rfl

/-- The wallet's answer in the run below. -/
def replyText : String := "\x7b\"balance\": \"1000\"\x7d"

def replyPayload : Bytes := (Crypto.encrypt largePrivateKey (asBytes replyText)).toOption.getD []

/-- The run of an encrypted request, up to the answer to its client. -/
def encryptedRoundTrip : List (Action Unit) :=
  encryptedAnswered replyText ++
    [.accept 1 [("AAAAAAAA", QueryResponse.setEncryptedResponse {} { payload := replyPayload })],
     .resolve 1, .waitReturn 0]

/-- The wait for the same request ends without a response. -/
def encryptedTimeout : List (Action Unit) :=
  [.request .encryptedRequest (.ok requestPayload) [fun _ => 0], .waitReturn 0]

/-- What a run shows at whose end the client of this request was answered. -/
theorem answered_of_run (labels : List (Action Unit)) (status : Nat)
    (holds : ((run (step parse fun _ => { mirrorKey := some largePrivateKey }) Any .start labels).any
      fun s => decide (s.ids.Nodup ∧
        (s.tickets[0]?.map fun ticket => ticket.request) =
          some (QueryRequest.setEncryptedRequest {} { payload := requestPayload }) ∧
        (s.answers.map fun a => (a.endpoint, a.waited.map Prod.fst, a.response.status)) =
          [(.encryptedRequest, some 0, status)])) = true) :
    ∃ (s : State Unit) (a : Answer) (waited : Except String QueryResponse) (ticket : QueryTicket),
      Reachable (step parse fun _ => { mirrorKey := some largePrivateKey }) Any .start s ∧ s.ids.Nodup ∧
      a ∈ s.answers ∧ a.waited = some (0, waited) ∧ a.endpoint = .encryptedRequest ∧
      a.response.status = status ∧ s.tickets[0]? = some ticket ∧
      ticket.request = QueryRequest.setEncryptedRequest {} { payload := requestPayload } := by
  obtain ⟨s, reached, holds⟩ := exists_reachable_of_run _ Any State.start labels _ holds
  obtain ⟨distinct, asked, answers⟩ := of_decide_eq_true holds
  -- The run has answered one client, whose query is the first.
  obtain ⟨ticket, found, asked⟩ := Option.map_eq_some_iff.mp asked
  obtain ⟨a, answers', entry⟩ := List.map_eq_singleton_iff.mp answers
  simp only [Prod.mk.injEq, Option.map_eq_some_iff, Prod.exists, exists_and_right, exists_eq_right] at entry
  obtain ⟨route, ⟨waited, returned⟩, status⟩ := entry
  have answered : a ∈ s.answers := by rw [answers']; exact List.mem_cons_self
  exact ⟨s, a, waited, ticket, reached, distinct, answered, returned, route, status, found, asked⟩

/-- The answer of the first run is printed as the wallet's text, that of the second
as a message in two pieces. -/
theorem client_session_encryptedRoundTrip :
    (∃ s : State Unit, ∃ a ∈ s.answers, ∃ text, a.response.status = 200 ∧
      s.Served 0 "\x7b\"method\": \"get_block\"\x7d" text ∧
      ExampleClient.onEnd largePublicKey 512 a.response.status
        [a.response.body.take 20, a.response.body.drop 20] = .ok text) ∧
    (∃ s : State Unit, ∃ a ∈ s.answers, ∃ message, a.response.status = 400 ∧
      a.response.body = asBytes message ∧
      ExampleClient.onEnd largePublicKey 512 a.response.status
          [a.response.body.take 3, a.response.body.drop 3] =
        .ok ("Http error, status: 400: " ++ ",".intercalate
          [ExampleClient.bufferToString (a.response.body.take 3),
           ExampleClient.bufferToString (a.response.body.drop 3)])) := by
  have pkcs1 : Pkcs1 largePrivateKey largePublicKey := pkcs1_ofRsa largeKey _ (by decide +kernel)
  have prepared : ExampleClient.prepareRequest largePublicKey 512 (fun _ => []) (fun _ => [])
      (Utf16.encode "\x7b\"method\": \"get_block\"\x7d".toList) = .ok requestPayload := by
    decide +kernel
  constructor
  · obtain ⟨s, a, waited, ticket, reached, distinct, answered, returned, route, status, found, asked⟩ :=
      answered_of_run encryptedRoundTrip 200 (by decide +kernel)
    rcases client_session pkcs1 publicEncrypts_largeKey s reached distinct 512 (by decide) _ _ _
        requestPayload prepared a answered 0 waited returned route ticket found asked
        [a.response.body.take 20, a.response.body.drop 20] (by simp) with
      ⟨_, text, served, _, printed⟩ | ⟨refused, _⟩
    · exact ⟨s, a, answered, text, status, served, printed⟩
    · rw [status] at refused
      cases refused
  · obtain ⟨s, a, waited, ticket, reached, distinct, answered, returned, route, status, found, asked⟩ :=
      answered_of_run encryptedTimeout 400 (by decide +kernel)
    rcases client_session pkcs1 publicEncrypts_largeKey s reached distinct 512 (by decide) _ _ _
        requestPayload prepared a answered 0 waited returned route ticket found asked
        [a.response.body.take 3, a.response.body.drop 3] (by simp) with
      ⟨served, _⟩ | ⟨_, printed, message, body, _⟩
    · rw [status] at served
      cases served
    · exact ⟨s, a, answered, message, status, body, printed⟩

end FullServiceMirror
