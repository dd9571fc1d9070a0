import FullServiceMirror.Json.Document
import FullServiceMirror.Private.Crypto

/-!
# Requests on the private side

`validate_method`, `process_unencrypted_request` and `process_encrypted_request`
of `private/main.rs`. Two things come from outside: `serde_json::from_str`, and
how the HTTP exchange with the wallet service went. A request is processed to
the bodies it POSTed and its outcome.
-/
namespace FullServiceMirror

open Rust Json

def SUPPORTED_ENDPOINTS : List String := [
  "check_receiver_receive_status",
  "create_payment_request",
  "get_account",
  "get_account_status",
  "get_address_for_account",
  "get_addresses_for_account",
  "get_all_accounts",
  "get_all_transaction_logs_for_block",
  "get_balance_for_account",
  "get_balance_for_address",
  "get_block",
  "get_confirmations",
  "get_network_status",
  "get_transaction_log",
  "get_transaction_logs_for_account",
  "get_wallet_status",
  "validate_confirmation",
  "verify_address"]

structure Config where
  mirrorKey : Option PrivateKey := none

/-- `value[key]`: null when the value is no object or has no such member. -/
def index (value : Value) (key : String) : Value := (value.member key).getD .null

/-- `Value::as_str` -/
def asStr : Value → Option String
  | .string s => some s
  | _ => none

def validateMethod (fromStr : String → Except String Value) (json : String) : Except String Bool := do
  let json ← fromStr json
  let method := (asStr (index json "method")).getD ""
  return SUPPORTED_ENDPOINTS.any fun s => s = method

/-! ## UTF-8 -/

def isContinuation (b : UInt8) : Bool := 0x80 ≤ b && b ≤ 0xBF

/-- May `b` follow `first` in a sequence of three or four bytes? -/
def isSecond (first b : UInt8) : Bool :=
  if first = 0xE0 then 0xA0 ≤ b && b ≤ 0xBF
  else if first = 0xED then 0x80 ≤ b && b ≤ 0x9F
  else if first = 0xF0 then 0x90 ≤ b && b ≤ 0xBF
  else if first = 0xF4 then 0x80 ≤ b && b ≤ 0x8F
  else isContinuation b

/-- The tests that the bytes after `first` have to pass, one for each byte; none
when `first` starts no sequence. -/
def followers (first : UInt8) : Option (List (UInt8 → Bool)) :=
  if first < 0x80 then some []
  else if 0xC2 ≤ first && first ≤ 0xDF then some [isContinuation]
  else if 0xE0 ≤ first && first ≤ 0xEF then some [isSecond first, isContinuation]
  else if 0xF0 ≤ first && first ≤ 0xF4 then some [isSecond first, isContinuation, isContinuation]
  else none

/-- Where a sequence breaks off: `error_len` of a `Utf8Error`, with `none` for
the end of the input, or the bytes left after a whole sequence. -/
def sequenceEnd : Nat → List (UInt8 → Bool) → Bytes → Option Nat ⊕ Bytes
  | _, [], rest => .inr rest
  | _, _ :: _, [] => .inl none
  | seen, test :: tests, b :: rest =>
    if test b then sequenceEnd (seen + 1) tests rest else .inl (some seen)

/-- The `Display` text of the `Utf8Error` of bytes that are not UTF-8. -/
def utf8Error : Nat → Nat → Bytes → String
  | rounds + 1, validUpTo, first :: rest =>
    match followers first with
    | none => "invalid utf-8 sequence of 1 bytes from index " ++ toString validUpTo
    | some tests =>
      match sequenceEnd 1 tests rest with
      | .inr rest => utf8Error rounds (validUpTo + 1 + tests.length) rest
      | .inl none => "incomplete utf-8 byte sequence from index " ++ toString validUpTo
      | .inl (some errorLen) => "invalid utf-8 sequence of " ++ toString errorLen ++
          " bytes from index " ++ toString validUpTo
  | _, validUpTo, _ => "incomplete utf-8 byte sequence from index " ++ toString validUpTo

/-- `String::from_utf8` -/
def fromUtf8 (bytes : Bytes) : Except String String :=
  match String.fromUTF8? ⟨bytes.toArray⟩ with
  | some s => .ok s
  | none => .error (utf8Error bytes.length 0 bytes)

/-! ## Processing -/

/-- How the use of the HTTP client for one request goes. A `send` that fails may
have reached the wallet service or not. -/
inductive Exchange where
  | buildFailed (error : String)
  | sendFailed (posted : Bool) (error : String)
  | textFailed (error : String)
  | text (jsonResponse : String)
  deriving DecidableEq, Repr

/-- The part that both kinds of requests share: check that the request is of an
allowed type, pass it along and make an answer of the text that comes back. -/
def passAlong (fromStr : String → Except String Value) (exchange : Exchange) (jsonRequest : String)
    (answer : String → Outcome QueryResponse) : List String × Outcome QueryResponse :=
  match validateMethod fromStr jsonRequest with
  | .ok true =>
    match exchange with
    | .buildFailed e => ([], .error (.err e))
    -- A timeout comes after the body was sent, a refused connection before.
    | .sendFailed posted e => (if posted then [jsonRequest] else [], .error (.err e))
    | .textFailed e => ([jsonRequest], .error (.err e))
    | .text jsonResponse => ([jsonRequest], answer jsonResponse)
  | .ok false => ([], .error (.err "Unsupported request"))
  -- A text that does not parse is answered here, not with an `Err`.
  | .error e => ([], .ok (QueryResponse.setError {} ("Error parsing JSON request: " ++ e)))

def processUnencryptedRequest (fromStr : String → Except String Value) (exchange : Exchange)
    (queryRequest : QueryRequest) : List String × Outcome QueryResponse :=
  if !queryRequest.hasUnencryptedRequest then
    ([], .error (.err "Only processing unencrypted requests"))
  else
    passAlong fromStr exchange queryRequest.getUnencryptedRequest.jsonRequest fun jsonResponse =>
      .ok (QueryResponse.setUnencryptedResponse {} { jsonResponse })

/-- `encrypt(..).map_err(|_e| "Encryption failed")?` and the response around it. -/
def encryptedAnswer (mirrorKey : PrivateKey) (jsonResponse : String) : Outcome QueryResponse :=
  match Crypto.encrypt mirrorKey (asBytes jsonResponse) with
  | .error (.err _) => .error (.err "Encryption failed")
  | .error (.panic message) => .error (.panic message)
  | .ok payload => .ok (QueryResponse.setEncryptedResponse {} { payload })

def processEncryptedRequest (fromStr : String → Except String Value) (mirrorKey : PrivateKey)
    (exchange : Exchange) (queryRequest : QueryRequest) : List String × Outcome QueryResponse :=
  if !queryRequest.hasEncryptedRequest then
    ([], .error (.err "Only processing encrypted requests"))
  else
    match Crypto.decrypt mirrorKey queryRequest.getEncryptedRequest.payload with
    | .error (.panic message) => ([], .error (.panic message))
    -- Bytes that do not decrypt, or not to UTF-8, are answered here as well.
    | .error (.err e) => ([], .ok (QueryResponse.setError {} ("Error decrypting request: " ++ e)))
    | .ok decrypted =>
      match fromUtf8 decrypted with
      | .error e => ([], .ok (QueryResponse.setError {} ("Error parsing utf8: " ++ e)))
      | .ok jsonRequest => passAlong fromStr exchange jsonRequest (encryptedAnswer mirrorKey)

/-- `.unwrap_or_else(|err| ..)` of the polling loop; a panic ends the program. -/
def unwrapOrError : Outcome QueryResponse → Option QueryResponse
  | .ok response => some response
  | .error (.err e) => some (QueryResponse.setError {} e)
  | .error (.panic _) => none

/-- One request of a reply: the bodies POSTed, and what is stored for its id. -/
def respond (fromStr : String → Except String Value) (config : Config) (exchange : Exchange)
    (queryRequest : QueryRequest) : List String × Option QueryResponse :=
  let (posted, result) := match config.mirrorKey with
    | some mirrorKey => processEncryptedRequest fromStr mirrorKey exchange queryRequest
    | none => processUnencryptedRequest fromStr exchange queryRequest
  (posted, unwrapOrError result)

/-! ## What processing a request does -/

variable {fromStr : String → Except String Value}

theorem fromUtf8_ok (bytes : Bytes) (s : String) (valid : fromUtf8 bytes = .ok s) :
    asBytes s = bytes := by
  unfold fromUtf8 at valid
  split at valid
  next decoded found =>
    cases valid
    rw [String.fromUTF8?] at found
    split at found
    · cases found
      rfl
    · cases found
  · cases valid

theorem fromUTF8_asBytes (text : String) : String.fromUTF8? ⟨(asBytes text).toArray⟩ = some text :=
  dif_pos text.isValidUTF8

theorem fromUtf8_asBytes (text : String) : fromUtf8 (asBytes text) = .ok text := by
  rw [fromUtf8, fromUTF8_asBytes]

theorem asBytes_injective {text text' : String} (same : asBytes text = asBytes text') : text = text' := by
  have read := fromUtf8_asBytes text
  rw [same, fromUtf8_asBytes text'] at read
  cases read
  rfl

/-- The body that a request asks for, in the mode of a configuration: the text of
an unencrypted request without a mirror key, the UTF-8 plaintext of an encrypted
one with a mirror key. -/
def Config.Admits (config : Config) (queryRequest : QueryRequest) (body : String) : Prop :=
  match config.mirrorKey with
  | none => queryRequest.request = some (.unencryptedRequest { jsonRequest := body })
  | some mirrorKey => ∃ payload, queryRequest.request = some (.encryptedRequest { payload }) ∧
      Crypto.decrypt mirrorKey payload = .ok (asBytes body)

/-- The response around the wallet's text, in the mode of a configuration. -/
def Config.answer (config : Config) (jsonResponse : String) : Outcome QueryResponse :=
  match config.mirrorKey with
  | none => .ok (QueryResponse.setUnencryptedResponse {} { jsonResponse })
  | some mirrorKey => encryptedAnswer mirrorKey jsonResponse

/-- A mirror key, if there is one, leaves room for data in a block. -/
def Config.HasRoom (config : Config) : Prop :=
  ∀ mirrorKey, config.mirrorKey = some mirrorKey → PKCS1_PADDING_LEN < mirrorKey.size

/-- A request is turned down before the wallet service is used, or it admits a
body that is passed along. The only panic before that is one of an empty key. -/
theorem respond_cases (config : Config) (queryRequest : QueryRequest) :
    (∃ e, ∀ exchange, respond fromStr config exchange queryRequest =
      ([], some (QueryResponse.setError {} e))) ∨
    (¬ config.HasRoom ∧ ∀ exchange, respond fromStr config exchange queryRequest = ([], none)) ∨
    (∃ body, config.Admits queryRequest body ∧ ∀ exchange,
      respond fromStr config exchange queryRequest =
        ((passAlong fromStr exchange body config.answer).1,
          unwrapOrError (passAlong fromStr exchange body config.answer).2)) := by
  unfold respond Config.Admits Config.answer
  cases mode : config.mirrorKey with
  | none =>
    simp only [processUnencryptedRequest]
    cases kind : queryRequest.hasUnencryptedRequest with
    | false => exact Or.inl ⟨_, fun _ => rfl⟩
    | true =>
      rw [QueryRequest.hasUnencryptedRequest_iff] at kind
      exact Or.inr (Or.inr ⟨_, kind, fun _ => rfl⟩)
  | some mirrorKey =>
    simp only [processEncryptedRequest]
    cases kind : queryRequest.hasEncryptedRequest with
    | false => exact Or.inl ⟨_, fun _ => rfl⟩
    | true =>
      rw [QueryRequest.hasEncryptedRequest_iff] at kind
      cases decrypted : Crypto.decrypt mirrorKey queryRequest.getEncryptedRequest.payload with
      | error fault =>
        cases fault with
        | err e => exact Or.inl ⟨_, fun _ => rfl⟩
        | panic message =>
          -- `decrypt` panics on an empty key only, which has no room for data.
          refine Or.inr (Or.inl ⟨fun room => ?_, fun _ => rfl⟩)
          have fits := room mirrorKey mode
          exact Crypto.decrypt_noPanic mirrorKey (Nat.lt_of_le_of_lt (Nat.zero_le _) fits) _ _ decrypted
      | ok plaintext =>
        cases utf8 : fromUtf8 plaintext with
        | error e => simp only [utf8]; exact Or.inl ⟨_, fun _ => rfl⟩
        | ok body =>
          rw [← fromUtf8_ok plaintext body utf8] at decrypted
          simp only [utf8]
          exact Or.inr (Or.inr ⟨body, ⟨_, kind, decrypted⟩, fun _ => rfl⟩)

/-- What is passed along is vetted, POSTed at most once and answered from the
wallet's text; everything else is answered with an error. -/
theorem passAlong_cases (exchange : Exchange) (body : String) (answer : String → Outcome QueryResponse) :
    (∃ e, unwrapOrError (passAlong fromStr exchange body answer).2 =
        some (QueryResponse.setError {} e) ∧
      ((passAlong fromStr exchange body answer).1 = [] ∨
        (validateMethod fromStr body = .ok true ∧ (passAlong fromStr exchange body answer).1 = [body]))) ∨
    (∃ jsonResponse, exchange = .text jsonResponse ∧ validateMethod fromStr body = .ok true ∧
      passAlong fromStr exchange body answer = ([body], answer jsonResponse)) := by
  unfold passAlong
  cases vetted : validateMethod fromStr body with
  | error e => exact Or.inl ⟨_, rfl, Or.inl rfl⟩
  | ok allowed =>
    cases allowed with
    | false => exact Or.inl ⟨_, rfl, Or.inl rfl⟩
    | true =>
      cases exchange with
      | buildFailed e => exact Or.inl ⟨e, rfl, Or.inl rfl⟩
      | sendFailed posted e => cases posted <;> exact Or.inl ⟨e, rfl, by simp⟩
      | textFailed e => exact Or.inl ⟨e, rfl, Or.inr ⟨rfl, rfl⟩⟩
      | text jsonResponse => exact Or.inr ⟨jsonResponse, rfl, rfl, rfl⟩

/-- What a request POSTs: nothing, or once a body that is vetted and admitted. -/
theorem respond_posts (config : Config) (exchange : Exchange) (queryRequest : QueryRequest) :
    (respond fromStr config exchange queryRequest).1 = [] ∨
      ∃ body, (respond fromStr config exchange queryRequest).1 = [body] ∧
        validateMethod fromStr body = .ok true ∧ config.Admits queryRequest body := by
  rcases respond_cases config queryRequest with ⟨e, refused⟩ | ⟨_, panicked⟩ | ⟨body, admits, passed⟩
  · exact Or.inl (by rw [refused])
  · exact Or.inl (by rw [panicked])
  · rw [passed exchange]
    rcases passAlong_cases exchange body config.answer with
      ⟨e, _, none | ⟨vetted, once⟩⟩ | ⟨jsonResponse, _, vetted, result⟩
    · exact Or.inl none
    · exact Or.inr ⟨body, once, vetted, admits⟩
    · exact Or.inr ⟨body, by rw [result], vetted, admits⟩

theorem encryptedAnswer_cases (mirrorKey : PrivateKey) (jsonResponse : String) :
    (∃ payload, Crypto.encrypt mirrorKey (asBytes jsonResponse) = .ok payload ∧
      encryptedAnswer mirrorKey jsonResponse = .ok (QueryResponse.setEncryptedResponse {} { payload })) ∨
    encryptedAnswer mirrorKey jsonResponse = .error (.err "Encryption failed") ∨
    (∃ message, Crypto.encrypt mirrorKey (asBytes jsonResponse) = .error (.panic message) ∧
      encryptedAnswer mirrorKey jsonResponse = .error (.panic message)) := by
  unfold encryptedAnswer
  cases Crypto.encrypt mirrorKey (asBytes jsonResponse) with
  | error fault =>
    cases fault with
    | err e => exact Or.inr (Or.inl rfl)
    | panic message => exact Or.inr (Or.inr ⟨message, rfl, rfl⟩)
  | ok payload => exact Or.inl ⟨payload, rfl, rfl⟩

/-- What can be stored for a request: an error, or the wallet's text in the form
that the mode of the configuration prescribes. -/
inductive Answers (config : Config) (exchange : Exchange) : QueryResponse → Prop
  | error (e : String) : Answers config exchange (QueryResponse.setError {} e)
  | unencrypted (jsonResponse : String) (got : exchange = .text jsonResponse)
      (plain : config.mirrorKey = none) :
      Answers config exchange (QueryResponse.setUnencryptedResponse {} { jsonResponse })
  | encrypted (jsonResponse : String) (got : exchange = .text jsonResponse) (mirrorKey : PrivateKey)
      (keyed : config.mirrorKey = some mirrorKey) (payload : Bytes)
      (sealed : Crypto.encrypt mirrorKey (asBytes jsonResponse) = .ok payload) :
      Answers config exchange (QueryResponse.setEncryptedResponse {} { payload })

theorem unwrapOrError_encryptedAnswer (mirrorKey : PrivateKey) (jsonResponse : String)
    (payload : Bytes) (sealed : Crypto.encrypt mirrorKey (asBytes jsonResponse) = .ok payload) :
    unwrapOrError (encryptedAnswer mirrorKey jsonResponse) =
      some (QueryResponse.setEncryptedResponse {} { payload }) := by
  rw [encryptedAnswer, sealed]
  rfl

theorem answer_answers (config : Config) (jsonResponse : String) (response : QueryResponse)
    (stored : unwrapOrError (config.answer jsonResponse) = some response) :
    Answers config (.text jsonResponse) response := by
  unfold Config.answer at stored
  cases mode : config.mirrorKey with
  | none =>
    rw [mode] at stored
    cases stored
    exact .unencrypted jsonResponse rfl mode
  | some mirrorKey =>
    rw [mode] at stored
    dsimp only at stored
    rcases encryptedAnswer_cases mirrorKey jsonResponse with
      ⟨payload, sealed, result⟩ | failed | ⟨message, _, panicked⟩
    · rw [result] at stored
      cases stored
      exact .encrypted jsonResponse rfl mirrorKey mode payload sealed
    · rw [failed] at stored
      cases stored
      exact .error _
    · rw [panicked] at stored
      cases stored

/-- Every stored response answers in the mode of the configuration. -/
theorem respond_answers (config : Config) (exchange : Exchange) (queryRequest : QueryRequest)
    (response : QueryResponse)
    (stored : (respond fromStr config exchange queryRequest).2 = some response) :
    Answers config exchange response := by
  rcases respond_cases config queryRequest with ⟨e, refused⟩ | ⟨_, panicked⟩ | ⟨body, _, passed⟩
  · rw [refused] at stored
    cases stored
    exact .error e
  · rw [panicked] at stored
    cases stored
  · rw [passed] at stored
    rcases passAlong_cases exchange body config.answer with ⟨e, failed, _⟩ | ⟨jsonResponse, rfl, _, result⟩
    · rw [failed] at stored
      cases stored
      exact .error e
    · rw [result] at stored
      exact answer_answers config jsonResponse response stored

section

variable {config : Config} {exchange : Exchange} {response : QueryResponse}

/-- Exactly one case of the `oneof` is set. -/
theorem Answers.isSome (answers : Answers config exchange response) :
    response.response.isSome = true := by
  cases answers <;> rfl

/-- With a mirror key, no stored response is an unencrypted one. -/
theorem Answers.encrypted_only (answers : Answers config exchange response) (mirrorKey : PrivateKey)
    (keyed : config.mirrorKey = some mirrorKey) : response.hasUnencryptedResponse = false := by
  cases answers with
  | error e => rfl
  | unencrypted jsonResponse got plain =>
    rw [keyed] at plain
    cases plain
  | encrypted jsonResponse got mirrorKey' keyed' payload sealed => rfl

end

/-- With a mirror key, the wallet's text has no influence on what is stored but
through `encryptedAnswer`. -/
theorem respond_seals (config : Config) (mirrorKey : PrivateKey)
    (keyed : config.mirrorKey = some mirrorKey) (queryRequest : QueryRequest) :
    (∃ stored, ∀ jsonResponse,
      (respond fromStr config (.text jsonResponse) queryRequest).2 = stored) ∨
    (∀ jsonResponse, (respond fromStr config (.text jsonResponse) queryRequest).2 =
      unwrapOrError (encryptedAnswer mirrorKey jsonResponse)) := by
  rcases respond_cases config queryRequest with ⟨e, refused⟩ | ⟨_, panicked⟩ | ⟨body, _, passed⟩
  · exact Or.inl ⟨some (QueryResponse.setError {} e), fun _ => by rw [refused]⟩
  · exact Or.inl ⟨none, fun _ => by rw [panicked]⟩
  -- The wallet service is asked for a vetted body only.
  · cases vetted : validateMethod fromStr body with
    | error e =>
      refine Or.inl ⟨some (QueryResponse.setError {} ("Error parsing JSON request: " ++ e)), fun _ => ?_⟩
      rw [passed, passAlong, vetted]
      rfl
    | ok allowed =>
      cases allowed with
      | false =>
        refine Or.inl ⟨some (QueryResponse.setError {} "Unsupported request"), fun _ => ?_⟩
        rw [passed, passAlong, vetted]
        rfl
      | true =>
        refine Or.inr fun jsonResponse => ?_
        rw [passed, passAlong, vetted]
        simp only [Config.answer, keyed]

end FullServiceMirror
