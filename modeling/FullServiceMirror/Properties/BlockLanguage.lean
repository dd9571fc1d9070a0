import FullServiceMirror.Properties.Rejections

/-!
# The ciphertexts that `decrypt` accepts

`decrypt` accepts the concatenations of whole blocks that each decrypt, and
returns their plaintexts one after another. Anything else is refused as a whole,
with the error of one block.
-/
namespace FullServiceMirror

open Rust Json

/-- What is assumed of `private_decrypt`: it takes blocks of the size of the key
only, and what it writes fits a buffer of that size. -/
structure PrivateDecrypts (key : PrivateKey) : Prop where
  whole : ∀ block chunk, key.privateDecrypt block = .ok chunk → block.length = key.size
  fits : ∀ block chunk, key.privateDecrypt block = .ok chunk → chunk.length ≤ key.size

/-- The ciphertext is made of blocks of the size of the key that decrypt to the
pieces of the plaintext. -/
def Accepts (key : PrivateKey) (c p : Bytes) : Prop :=
  ∃ blocks chunks, c = blocks.flatten ∧ (∀ block ∈ blocks, block.length = key.size) ∧
    List.Forall₂ (fun block chunk => key.privateDecrypt block = .ok chunk ∧ chunk.length ≤ key.size)
      blocks chunks ∧
    p = chunks.flatten

variable {key : PrivateKey}

theorem decrypt_iff_accepts (boring : PrivateDecrypts key) (positive : 0 < key.size) (c p : Bytes) :
    Crypto.decrypt key c = .ok p ↔ Accepts key c p := by
  rw [Crypto.decrypt_ok_iff key positive]
  constructor
  · rintro ⟨chunks, decrypts, rfl⟩
    refine ⟨piecesOf key.size c, chunks, (piecesOf_flatten key.size positive c).symm, fun block member => ?_,
      decrypts.imp fun block chunk decrypted => ⟨decrypted, boring.fits block chunk decrypted⟩, rfl⟩
    -- A short last piece would not have been decrypted.
    obtain ⟨chunk, _, decrypted⟩ := exists_of_forall₂ decrypts block member
    exact boring.whole block chunk decrypted
  · rintro ⟨blocks, chunks, rfl, full, decrypts, rfl⟩
    refine ⟨chunks, ?_, rfl⟩
    rw [piecesOf_blocks key.size positive blocks full]
    exact decrypts.imp fun _ _ both => both.1

/-- A failure of `decrypt` is that of one of the blocks. -/
theorem decrypt_failed (positive : 0 < key.size) (c : Bytes) (fault : Fault)
    (failed : Crypto.decrypt key c = .error fault) :
    ∃ block ∈ piecesOf key.size c, ∃ e, key.privateDecrypt block = .error e ∧
      fault = .err ("decrypt failed: " ++ e) := by
  simp only [Crypto.decrypt, chunks_ok _ positive, bind, Except.bind] at failed
  split at failed
  next fault' collected =>
    cases failed
    obtain ⟨block, member, called⟩ := exists_of_collect_error _ _ _ collected
    refine ⟨block, member, ?_⟩
    split at called
    next e refused =>
      cases called
      exact ⟨e, refused, rfl⟩
    · cases called
  · cases failed

/-- **The accepted language of `decrypt`.** It returns a plaintext exactly for
the concatenations of whole blocks that each decrypt. In every other case it
returns the error of one block, and of the whole request nothing but that error
is answered and nothing is POSTed. -/
theorem decrypt_all_or_nothing (boring : PrivateDecrypts key) (positive : 0 < key.size) (c : Bytes) :
    (∀ p, Crypto.decrypt key c = .ok p ↔ Accepts key c p) ∧
    ((¬ ∃ p, Accepts key c p) →
      ∃ block ∈ piecesOf key.size c, ∃ e, key.privateDecrypt block = .error e ∧
        Crypto.decrypt key c = .error (.err ("decrypt failed: " ++ e)) ∧
        ∀ fromStr exchange, respond fromStr { mirrorKey := some key } exchange (encryptedRequestOf c) =
          ([], some (QueryResponse.setError {} ("Error decrypting request: " ++ ("decrypt failed: " ++ e))))) := by
  refine ⟨decrypt_iff_accepts boring positive c, fun none => ?_⟩
  cases result : Crypto.decrypt key c with
  | ok p => exact absurd ⟨p, (decrypt_iff_accepts boring positive c p).mp result⟩ none
  | error fault =>
    obtain ⟨block, member, e, refused, rfl⟩ := decrypt_failed positive c fault result
    exact ⟨block, member, e, refused, rfl, fun fromStr exchange =>
      respond_rejected c (.decrypt _) (.decrypt _ result) exchange⟩

/-- Textbook RSA with PKCS#1 v1.5 padding is as assumed. -/
theorem privateDecrypts_ofRsa (rsa : Rsa.Key) (size_lt : rsa.k < 2 ^ 32) :
    PrivateDecrypts (.ofRsa rsa size_lt) where
  whole := fun block chunk decrypted => (rsa.decryptWith_length Rsa.encrypting rsa.d block chunk decrypted).1
  fits := by
    intro block chunk decrypted
    have short := (rsa.decryptWith_length Rsa.encrypting rsa.d block chunk decrypted).2
    exact Nat.le_of_add_right_le short

/-- A block is accepted, and refused as a whole with one more byte. -/
theorem decrypt_all_or_nothing_encryptedHi :
    Accepts smallPrivateKey encryptedHi [104, 105] ∧
    ∃ block ∈ piecesOf 16 (encryptedHi ++ [7]), ∃ e, smallPrivateKey.privateDecrypt block = .error e ∧
      Crypto.decrypt smallPrivateKey (encryptedHi ++ [7]) = .error (.err ("decrypt failed: " ++ e)) := by
  have boring : PrivateDecrypts smallPrivateKey := privateDecrypts_ofRsa smallKey (by decide)
  have refused : Crypto.decrypt smallPrivateKey (encryptedHi ++ [7]) =
      .error (.err "decrypt failed: DATA_TOO_LARGE_FOR_MODULUS") := by decide +kernel
  obtain ⟨accepts, _⟩ := decrypt_all_or_nothing boring (by decide) encryptedHi
  obtain ⟨accepts', nothing⟩ := decrypt_all_or_nothing boring (by decide) (encryptedHi ++ [7])
  refine ⟨(accepts [104, 105]).mp (by decide +kernel), ?_⟩
  obtain ⟨block, member, e, failed, result, _⟩ := nothing fun ⟨p, accepted⟩ => by
    rw [(accepts' p).mpr accepted] at refused
    cases refused
  exact ⟨block, member, e, failed, result⟩

end FullServiceMirror
