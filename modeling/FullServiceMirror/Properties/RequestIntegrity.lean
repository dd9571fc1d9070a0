import FullServiceMirror.Json.Extension
import FullServiceMirror.Private.PollingLoop
import FullServiceMirror.Properties.MethodAllowlist
import FullServiceMirror.Properties.RequestFormat

/-!
# What a hostile public side can have executed

The public side hands the private one whatever it likes. Without the clients'
key it can make no block that decrypts, so it is left with the blocks that the
clients sent, in any order and number. Requests of one block each are then safe
from being altered: two of them put together are no JSON text any more.
-/
namespace FullServiceMirror

open Rust Json

variable {priv : PrivateKey} {pub : PublicKey} {fromStr : String → Except String Value}

/-- A payload whose blocks, so far as they decrypt, are blocks of ciphertexts sent. -/
def Built (priv : PrivateKey) (sent : List Bytes) (payload : Bytes) : Prop :=
  ∀ block ∈ piecesOf priv.size payload, ∀ chunk, priv.privateDecrypt block = .ok chunk →
    ∃ c ∈ sent, block ∈ piecesOf priv.size c

variable (fromStr) in
/-- What the requests of a reply have POSTed. -/
def PollOutcome.posts (config : Config) : PollOutcome → List String
  | .ok reply exchange => reply.queryRequests.iter.flatMap fun e =>
      (respond fromStr config (exchange e.1) e.2).1
  | .err => []

/-- The requests of a reply are made of what was sent. -/
def PollOutcome.MadeOf (priv : PrivateKey) (sent : List Bytes) : PollOutcome → Prop
  | .ok reply _ => ∀ e ∈ reply.queryRequests.iter, Built priv sent e.2.getEncryptedRequest.payload
  | .err => True

/-- A client's request of one block, with the ciphertext of it. -/
structure Client (priv : PrivateKey) (pub : PublicKey) where
  request : String
  payload : Bytes
  padding : Nat → Bytes
  encrypted : ExampleClient.encryptString pub priv.size padding (Utf16.encode request.toList) = .ok payload
  object : ∃ members, document request = some (.object members)
  short : (asBytes request).length ≤ priv.size - PKCS1_PADDING_LEN

/-- The ciphertext is the one block of the request. -/
theorem Client.block (boring : PublicEncrypts priv pub) (room : PKCS1_PADDING_LEN < priv.size)
    (client : Client priv pub) : piecesOf priv.size client.payload = [client.payload] ∧
      priv.privateDecrypt client.payload = .ok (asBytes client.request) := by
  have short := client.short
  rw [asBytes_eq_utf8] at short ⊢
  have stride : 0 < priv.size - PKCS1_PADDING_LEN := by omega
  have units := (Utf16.length_utf8 (Utf16.encode client.request.toList)).1
  have nonempty : Utf16.encode client.request.toList ≠ [] := by
    intro empty
    obtain ⟨members, object⟩ := client.object
    have nothing := congrArg Utf16.decode empty
    rw [Utf16.decode_encode] at nothing
    exact not_blank_of_document _ _ object (by rw [nothing]; rfl)
  have one : piecesOf (priv.size - PKCS1_PADDING_LEN) (Utf16.encode client.request.toList) =
      [Utf16.encode client.request.toList] := by
    rw [piecesOf_cons _ stride _ nonempty, List.take_of_length_le (Nat.le_trans units short),
      List.drop_eq_nil_of_le (Nat.le_trans units short), piecesOf_nil]
  -- So there is one call of `publicEncrypt`, on all of the request.
  obtain ⟨blocks, calls, payload⟩ :=
    (ExampleClient.encryptString_ok_iff pub priv.size room client.padding _ _).mp client.encrypted
  change List.Forall₂ _ (piecesOf (priv.size - PKCS1_PADDING_LEN) _).zipIdx blocks at calls
  rw [one] at calls
  obtain ⟨block, _, called, none, rfl⟩ := List.forall₂_cons_left_iff.mp calls
  cases none
  obtain ⟨block', called', full, decrypted⟩ := boring.fits (client.padding 0) _ short
  rw [called, Except.ok.injEq] at called'
  rw [← called'] at full decrypted
  rw [List.flatten_singleton] at payload
  rw [payload]
  refine ⟨?_, decrypted⟩
  have whole := piecesOf_blocks priv.size (by omega) [block] (by simpa using full)
  rwa [List.flatten_singleton] at whole

/-- Appending texts is appending their bytes. -/
theorem asBytes_join (texts : List String) :
    asBytes (String.join texts) = (texts.map asBytes).flatten := by
  induction texts with
  | nil => rfl
  | cons text rest ih =>
    rw [String.join_cons, List.map_cons, List.flatten_cons, ← ih]
    simp [asBytes_eq_utf8, Utf16.utf8, Utf16.decode_encode]

/-- What a built payload decrypts to is requests of clients, one after another. -/
theorem requests_of_built (boring : PublicEncrypts priv pub) (room : PKCS1_PADDING_LEN < priv.size)
    (clients : List (Client priv pub)) (payload plaintext : Bytes)
    (built : Built priv (clients.map Client.payload) payload)
    (decrypted : Crypto.decrypt priv payload = .ok plaintext) :
    ∃ requests, (∀ r ∈ requests, r ∈ clients.map Client.request) ∧
      plaintext = asBytes (String.join requests) := by
  have positive : 0 < priv.size := by omega
  obtain ⟨plain, decrypts, rfl⟩ := (Crypto.decrypt_ok_iff priv positive payload plaintext).mp decrypted
  unfold Built at built
  generalize piecesOf priv.size payload = blocks at built decrypts
  clear decrypted
  induction decrypts with
  | nil => exact ⟨[], by simp, rfl⟩
  | cons decrypts rest ih =>
    rename_i block chunk blocks plain
    obtain ⟨requests, among, joined⟩ := ih fun b member => built b (List.mem_cons_of_mem _ member)
    obtain ⟨c, sent, member⟩ := built block List.mem_cons_self chunk decrypts
    obtain ⟨client, known, rfl⟩ := List.mem_map.mp sent
    obtain ⟨one, whole⟩ := client.block boring room
    -- A client's only block stands for the whole request.
    rw [one, List.mem_singleton] at member
    rw [member, whole, Except.ok.injEq] at decrypts
    refine ⟨client.request :: requests, ?_, ?_⟩
    · exact List.forall_mem_cons.mpr ⟨List.mem_map_of_mem known, among⟩
    · rw [List.flatten_cons, joined, asBytes_join, asBytes_join, List.map_cons, List.flatten_cons, decrypts]

/-- A request that admits a vetted body has it POSTed, once the HTTP client is used. -/
theorem respond_admits (config : Config) (queryRequest : QueryRequest) (body : String)
    (admits : config.Admits queryRequest body) (vetted : validateMethod fromStr body = .ok true)
    (jsonResponse : String) :
    (respond fromStr config (.text jsonResponse) queryRequest).1 = [body] := by
  unfold Config.Admits at admits
  unfold respond
  cases mode : config.mirrorKey with
  | none =>
    rw [mode] at admits
    obtain ⟨request⟩ := queryRequest
    cases admits
    simp [processUnencryptedRequest, QueryRequest.hasUnencryptedRequest, QueryRequest.getUnencryptedRequest,
      passAlong, vetted]
  | some mirrorKey =>
    rw [mode] at admits
    obtain ⟨payload, request, decrypted⟩ := admits
    obtain ⟨_⟩ := queryRequest
    cases request
    simp [processEncryptedRequest, QueryRequest.hasEncryptedRequest, QueryRequest.getEncryptedRequest,
      decrypted, fromUtf8_asBytes, passAlong, vetted]

/-- **What a hostile public side can have executed.** Whatever it answers to the
polls, in any number and order, with payloads made of what the clients sent: the
bodies that it can have POSTed are the clients' vetted requests, none altered. -/
theorem hostile_posts_iff (boring : PublicEncrypts priv pub) (serde : SerdeJson fromStr)
    (room : PKCS1_PADDING_LEN < priv.size) (clients : List (Client priv pub)) (body : String) :
    (∃ outcomes : List PollOutcome, (∀ o ∈ outcomes, o.MadeOf priv (clients.map Client.payload)) ∧
      body ∈ outcomes.flatMap (PollOutcome.posts fromStr { mirrorKey := some priv })) ↔
    body ∈ clients.map Client.request ∧ validateMethod fromStr body = .ok true := by
  constructor
  · rintro ⟨outcomes, made, posted⟩
    obtain ⟨outcome, member, posted⟩ := List.mem_flatMap.mp posted
    have hostile := made outcome member
    cases outcome with
    | err => cases posted
    | ok reply exchange =>
      obtain ⟨e, entry, posted⟩ := List.mem_flatMap.mp posted
      have built := hostile e entry
      rcases @respond_posts fromStr { mirrorKey := some priv } (exchange e.1) e.2 with
        none | ⟨body', once, vetted, payload, request, decrypted⟩
      · rw [none] at posted
        cases posted
      · rw [once, List.mem_singleton] at posted
        subst posted
        rw [QueryRequest.getEncryptedRequest, request] at built
        obtain ⟨requests, among, same⟩ := requests_of_built boring room clients payload _ built decrypted
        obtain ⟨d, _, read, _, _⟩ := validateMethod_last serde body vetted
        -- What is POSTed is the joined requests, and reads as one JSON object.
        obtain rfl := asBytes_injective same
        -- Only one of them can have been used.
        obtain ⟨r, used, join⟩ := mem_of_document_join requests d (fun r used => by
          obtain ⟨client, _, rfl⟩ := List.mem_map.mp (among r used)
          exact client.object) read
        rw [join] at vetted ⊢
        exact ⟨among r used, vetted⟩
  -- The public side may answer one poll with one client's request as it came.
  · rintro ⟨known, vetted⟩
    obtain ⟨client, member, rfl⟩ := List.mem_map.mp known
    let queryRequest := QueryRequest.setEncryptedRequest {} { payload := client.payload }
    have entries (e : String × QueryRequest) :
        e ∈ (HashMap.new.insert "" queryRequest).iter ↔ e = ("", queryRequest) := by
      obtain ⟨queryId, request⟩ := e
      rw [HashMap.mem_iter_iff, HashMap.get_insert, HashMap.get_new]
      simp [eq_comm]
    obtain ⟨one, whole⟩ := client.block boring room
    have decrypted : Crypto.decrypt priv client.payload = .ok (asBytes client.request) := by
      refine (Crypto.decrypt_ok_iff priv (by omega) _ _).mpr ⟨[asBytes client.request], ?_, by simp⟩
      rw [one]
      exact .cons whole .nil
    have admits : ({ mirrorKey := some priv } : Config).Admits queryRequest client.request :=
      ⟨client.payload, rfl, decrypted⟩
    refine ⟨[.ok { queryRequests := HashMap.new.insert "" queryRequest } fun _ => .text ""], ?_, ?_⟩
    · intro o member
      rw [List.mem_singleton.mp member]
      intro e entry
      rw [(entries e).mp entry]
      exact fun block member' _ _ => ⟨client.payload, List.mem_map_of_mem ‹client ∈ clients›, member'⟩
    · rw [List.flatMap_singleton]
      refine List.mem_flatMap.mpr ⟨_, (entries _).mpr rfl, ?_⟩
      rw [respond_admits _ queryRequest client.request admits vetted]
      exact List.mem_singleton_self _

/-- A client of the large key. -/
theorem exists_client (request : String) (object : ∃ members, document request = some (.object members))
    (short : (asBytes request).length ≤ 501)
    (fits : FitsBlocks 501 (Utf16.encode request.toList)) :
    ∃ client : Client largePrivateKey largePublicKey, client.request = request := by
  obtain ⟨c, encrypted, _⟩ := agree_of_fits publicEncrypts_largeKey (by decide +kernel) (fun _ => []) _ fits
  exact ⟨⟨request, c, _, encrypted, object, short⟩, rfl⟩

theorem hostile_posts_iff_largeKey :
    ∃ client : Client largePrivateKey largePublicKey,
      client.request = "\x7b\"method\": \"get_block\"\x7d" ∧
      ∀ body, (∃ outcomes : List PollOutcome,
          (∀ o ∈ outcomes, o.MadeOf largePrivateKey [client.payload]) ∧
          body ∈ outcomes.flatMap (PollOutcome.posts parse { mirrorKey := some largePrivateKey })) ↔
        body = "\x7b\"method\": \"get_block\"\x7d" := by
  have read : (document "\x7b\"method\": \"get_block\"\x7d").map (fun d => d.topMembers.length) = some 1 := by
    decide +kernel
  obtain ⟨d, read, one⟩ := Option.map_eq_some_iff.mp read
  have object : ∃ members, document "\x7b\"method\": \"get_block\"\x7d" = some (.object members) := by
    cases d with
    | object members => exact ⟨members, read⟩
    | _ => cases one
  obtain ⟨client, request⟩ := exists_client _ object (by decide +kernel) (by decide +kernel)
  have vetted : validateMethod parse "\x7b\"method\": \"get_block\"\x7d" = .ok true := by decide +kernel
  refine ⟨client, request, fun body => ?_⟩
  have posts := hostile_posts_iff publicEncrypts_largeKey parse_serdeJson (by decide +kernel) [client] body
  rw [List.map_singleton, List.map_singleton, List.mem_singleton, request] at posts
  rw [posts]
  constructor
  · exact fun both => both.1
  · rintro rfl
    exact ⟨rfl, vetted⟩

end FullServiceMirror
