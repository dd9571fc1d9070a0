import FullServiceMirror.Properties.CodecRoundTrip
import FullServiceMirror.Properties.MethodAllowlist
import FullServiceMirror.Public.Handlers

/-!
# What the answer to a rejected payload tells

An encrypted payload is checked in four steps before anything is POSTed. The
first step that fails names itself in the text of the answer, and the text
reaches the submitter as the body of a 400.
-/
namespace FullServiceMirror

open Rust Json

/-- The step that turns a payload down, with the text of its error. -/
inductive Rejection where
  | decrypt (e : String)
  | utf8 (e : String)
  | json (e : String)
  | method
  deriving DecidableEq, Repr

/-- The text that the private side answers with. -/
def Rejection.text : Rejection → String
  | .decrypt e => "Error decrypting request: " ++ e
  | .utf8 e => "Error parsing utf8: " ++ e
  | .json e => "Error parsing JSON request: " ++ e
  | .method => "Unsupported request"

/-- The step is the first of the four to fail on a payload. -/
inductive Rejects (fromStr : String → Except String Value) (mirrorKey : PrivateKey) (payload : Bytes) :
    Rejection → Prop
  | decrypt (e : String) (failed : Crypto.decrypt mirrorKey payload = .error (.err e)) :
      Rejects fromStr mirrorKey payload (.decrypt e)
  | utf8 (plaintext : Bytes) (e : String) (decrypted : Crypto.decrypt mirrorKey payload = .ok plaintext)
      (failed : fromUtf8 plaintext = .error e) : Rejects fromStr mirrorKey payload (.utf8 e)
  | json (plaintext : Bytes) (text e : String) (decrypted : Crypto.decrypt mirrorKey payload = .ok plaintext)
      (decoded : fromUtf8 plaintext = .ok text) (failed : validateMethod fromStr text = .error e) :
      Rejects fromStr mirrorKey payload (.json e)
  | method (plaintext : Bytes) (text : String) (decrypted : Crypto.decrypt mirrorKey payload = .ok plaintext)
      (decoded : fromUtf8 plaintext = .ok text) (unlisted : validateMethod fromStr text = .ok false) :
      Rejects fromStr mirrorKey payload .method

/-- The request that `/encrypted-request` makes of a payload. -/
def encryptedRequestOf (payload : Bytes) : QueryRequest := QueryRequest.setEncryptedRequest {} { payload }

theorem encryptedRequestOf_readRequest (payload : Bytes) :
    Endpoint.encryptedRequest.readRequest (.ok payload) = .ok (encryptedRequestOf payload) := rfl

/-- However the exchange with the wallet service would go, the payload leads to no POST. -/
def NeverPosted (fromStr : String → Except String Value) (mirrorKey : PrivateKey) (payload : Bytes) : Prop :=
  ∀ exchange, (respond fromStr { mirrorKey := some mirrorKey } exchange (encryptedRequestOf payload)).1 = []

variable {fromStr : String → Except String Value} {mirrorKey : PrivateKey}

/-- The number of the step. -/
def Rejection.step : Rejection → Fin 4
  | .decrypt _ => 0
  | .utf8 _ => 1
  | .json _ => 2
  | .method => 3

/-- How the text of each step starts, up to where the steps differ. -/
def Rejection.start (step : Fin 4) : List Char :=
  (["Error decryptin", "Error parsing u", "Error parsing J", "Unsupported req"].get step).toList

private theorem take_toList_append (label e : String) (long : 15 ≤ label.toList.length) :
    (label ++ e).toList.take 15 = label.toList.take 15 := by
  rw [String.toList_append, List.take_append_of_le_length long]

theorem Rejection.text_start (r : Rejection) : r.text.toList.take 15 = start r.step := by
  cases r with
  | decrypt e => exact (take_toList_append _ e (by decide +kernel)).trans (by decide +kernel : _ = start 0)
  | utf8 e => exact (take_toList_append _ e (by decide +kernel)).trans (by decide +kernel : _ = start 1)
  | json e => exact (take_toList_append _ e (by decide +kernel)).trans (by decide +kernel : _ = start 2)
  | method => decide +kernel

theorem Rejection.step_of_text (r r' : Rejection) (same : r.text = r'.text) : r.step = r'.step := by
  -- Fifteen characters tell the four steps apart.
  have differ : ∀ i j, start i = start j → i = j := by decide +kernel
  exact differ _ _ (r.text_start.symm.trans (same ▸ r'.text_start))

/-- The texts of two steps differ, and within a step its errors are told apart. -/
theorem Rejection.text_inj (r r' : Rejection) : r.text = r'.text ↔ r = r' := by
  constructor
  · intro same
    -- The steps agree, and after the same label the errors have to.
    have steps := r.step_of_text r' same
    cases r <;> cases r' <;> first
      | rfl
      | exact congrArg _ ((String.append_right_inj _).mp same)
      | exact absurd steps (by simp [step])
  · intro same
    rw [same]

/-- The branches of `process_encrypted_request` on an encrypted request. -/
theorem respond_encrypted (payload : Bytes) (exchange : Exchange) :
    respond fromStr { mirrorKey := some mirrorKey } exchange (encryptedRequestOf payload) =
      Prod.map id unwrapOrError (match Crypto.decrypt mirrorKey payload with
        | .error (.panic message) => ([], .error (.panic message))
        | .error (.err e) => ([], .ok (QueryResponse.setError {} ("Error decrypting request: " ++ e)))
        | .ok decrypted =>
          match fromUtf8 decrypted with
          | .error e => ([], .ok (QueryResponse.setError {} ("Error parsing utf8: " ++ e)))
          | .ok jsonRequest => passAlong fromStr exchange jsonRequest (encryptedAnswer mirrorKey)) := rfl

/-- A plaintext that is a text is passed along. -/
theorem respond_passed (payload plaintext : Bytes) (text : String)
    (decrypted : Crypto.decrypt mirrorKey payload = .ok plaintext) (decoded : fromUtf8 plaintext = .ok text)
    (exchange : Exchange) :
    respond fromStr { mirrorKey := some mirrorKey } exchange (encryptedRequestOf payload) =
      Prod.map id unwrapOrError (passAlong fromStr exchange text (encryptedAnswer mirrorKey)) := by
  rw [respond_encrypted, decrypted]
  simp only [decoded]

/-- A payload that a step turns down is answered with the text of the step, and not POSTed. -/
theorem respond_rejected (payload : Bytes) (r : Rejection) (rejects : Rejects fromStr mirrorKey payload r)
    (exchange : Exchange) :
    respond fromStr { mirrorKey := some mirrorKey } exchange (encryptedRequestOf payload) =
      ([], some (QueryResponse.setError {} r.text)) := by
  cases rejects with
  | decrypt e failed =>
    rw [respond_encrypted, failed]
    rfl
  | utf8 plaintext e decrypted failed =>
    rw [respond_encrypted, decrypted]
    simp only [failed]
    rfl
  | json plaintext text e decrypted decoded failed =>
    rw [respond_passed payload plaintext text decrypted decoded]
    simp only [passAlong, failed]
    rfl
  | method plaintext text decrypted decoded unlisted =>
    rw [respond_passed payload plaintext text decrypted decoded]
    simp only [passAlong, unlisted]
    rfl

/-- Without a panic, a payload leads to no POST exactly when a step turns it down. -/
theorem neverPosted_iff (positive : 0 < mirrorKey.size) (payload : Bytes) :
    NeverPosted fromStr mirrorKey payload ↔ ∃ r, Rejects fromStr mirrorKey payload r := by
  constructor
  · intro never
    cases decrypted : Crypto.decrypt mirrorKey payload with
    | error fault =>
      cases fault with
      | err e => exact ⟨_, .decrypt e decrypted⟩
      | panic message => exact absurd decrypted (Crypto.decrypt_noPanic mirrorKey positive payload message)
    | ok plaintext =>
      cases decoded : fromUtf8 plaintext with
      | error e => exact ⟨_, .utf8 plaintext e decrypted decoded⟩
      | ok text =>
        cases vetted : validateMethod fromStr text with
        | error e => exact ⟨_, .json plaintext text e decrypted decoded vetted⟩
        | ok listed =>
          cases listed with
          | false => exact ⟨_, .method plaintext text decrypted decoded vetted⟩
          | true =>
            -- A text that passes every step is POSTed when the client reaches the wallet.
            have posted := never (.textFailed "")
            rw [respond_passed payload plaintext text decrypted decoded] at posted
            simp only [passAlong, vetted] at posted
            cases posted
  · rintro ⟨r, rejects⟩ exchange
    rw [respond_rejected payload r rejects]

theorem neverPosted_of_rejects (positive : 0 < mirrorKey.size) (payload : Bytes) (r : Rejection)
    (rejects : Rejects fromStr mirrorKey payload r) : NeverPosted fromStr mirrorKey payload :=
  (neverPosted_iff positive payload).mpr ⟨r, rejects⟩

theorem asBytes_inj (s s' : String) : asBytes s = asBytes s' ↔ s = s' := by
  simp [asBytes, ← String.toByteArray_inj, ByteArray.ext_iff, Array.toList_inj]

/-- What the submitter reads of an answer. -/
def submitterReads (answer : Option QueryResponse) : Option HttpResponse :=
  answer.map fun response => Endpoint.encryptedRequest.reply (.ok response)

theorem submitterReads_error (e : String) :
    submitterReads (some (QueryResponse.setError {} e)) = some { status := 400, body := asBytes e } := rfl

/-- **What a rejection tells.** Two payloads that lead to no POST are each
answered with the text of the first step to fail, which the submitter reads as
the body of a 400, whatever the wallet service would do. The answers are the
same exactly when the same step failed with the same error. -/
theorem rejections_answered (positive : 0 < mirrorKey.size) (p q : Bytes)
    (p_never : NeverPosted fromStr mirrorKey p) (q_never : NeverPosted fromStr mirrorKey q) :
    ∃ r r', Rejects fromStr mirrorKey p r ∧ Rejects fromStr mirrorKey q r' ∧
      ∀ exchange exchange',
        let answer := (respond fromStr { mirrorKey := some mirrorKey } exchange (encryptedRequestOf p)).2
        let answer' := (respond fromStr { mirrorKey := some mirrorKey } exchange' (encryptedRequestOf q)).2
        answer = some (QueryResponse.setError {} r.text) ∧
        answer' = some (QueryResponse.setError {} r'.text) ∧
        submitterReads answer = some { status := 400, body := asBytes r.text } ∧
        submitterReads answer' = some { status := 400, body := asBytes r'.text } ∧
        (answer = answer' ↔ r = r') ∧
        (submitterReads answer = submitterReads answer' ↔ r = r') := by
  obtain ⟨r, rejects⟩ := (neverPosted_iff positive p).mp p_never
  obtain ⟨r', rejects'⟩ := (neverPosted_iff positive q).mp q_never
  refine ⟨r, r', rejects, rejects', fun exchange exchange' => ?_⟩
  dsimp only
  rw [respond_rejected p r rejects, respond_rejected q r' rejects']
  refine ⟨rfl, rfl, submitterReads_error _, submitterReads_error _, ?_, ?_⟩
  · simp [QueryResponse.setError, Rejection.text_inj]
  · rw [submitterReads_error, submitterReads_error]
    simp [asBytes_inj, Rejection.text_inj]

/-- A block that the client made of the text `hi`. -/
def encryptedHi : Bytes := [91, 254, 146, 110, 71, 177, 32, 222, 99, 248, 45, 153, 253, 40, 164, 133]

theorem rejects_zeros :
    Rejects parse smallPrivateKey (List.replicate 16 0) (.decrypt "decrypt failed: PADDING_CHECK_FAILED") :=
  .decrypt _ (by decide +kernel)

theorem rejects_encryptedHi : Rejects parse smallPrivateKey encryptedHi (.json "expected value") :=
  .json [104, 105] "hi" _ (by decide +kernel) (by decide +kernel) (by decide +kernel)

theorem rejections_answered_zeros :
    ∃ r r', Rejects parse smallPrivateKey (List.replicate 16 0) r ∧
      Rejects parse smallPrivateKey encryptedHi r' ∧ ∀ exchange exchange',
        (submitterReads (respond parse { mirrorKey := some smallPrivateKey } exchange
            (encryptedRequestOf (List.replicate 16 0))).2 =
          submitterReads (respond parse { mirrorKey := some smallPrivateKey } exchange'
            (encryptedRequestOf encryptedHi)).2 ↔ r = r') := by
  obtain ⟨r, r', rejects, rejects', told⟩ := @rejections_answered parse smallPrivateKey (by decide)
    (List.replicate 16 0) encryptedHi (neverPosted_of_rejects (by decide) _ _ rejects_zeros)
    (neverPosted_of_rejects (by decide) _ _ rejects_encryptedHi)
  exact ⟨r, r', rejects, rejects', fun exchange exchange' => (told exchange exchange').2.2.2.2.2⟩

/-- A block whose padding is wrong is told apart from one whose text is not JSON. -/
theorem rejections_differ :
    NeverPosted parse smallPrivateKey (List.replicate 16 0) ∧
    NeverPosted parse smallPrivateKey encryptedHi ∧
    ∀ exchange exchange',
      (respond parse { mirrorKey := some smallPrivateKey } exchange
          (encryptedRequestOf (List.replicate 16 0))).2 ≠
        (respond parse { mirrorKey := some smallPrivateKey } exchange' (encryptedRequestOf encryptedHi)).2 ∧
      submitterReads (respond parse { mirrorKey := some smallPrivateKey } exchange
          (encryptedRequestOf (List.replicate 16 0))).2 ≠
        submitterReads (respond parse { mirrorKey := some smallPrivateKey } exchange'
          (encryptedRequestOf encryptedHi)).2 := by
  refine ⟨neverPosted_of_rejects (by decide) _ _ rejects_zeros,
    neverPosted_of_rejects (by decide) _ _ rejects_encryptedHi, fun exchange exchange' => ?_⟩
  rw [respond_rejected _ _ rejects_zeros, respond_rejected _ _ rejects_encryptedHi]
  exact ⟨by decide +kernel, by decide +kernel⟩

end FullServiceMirror
