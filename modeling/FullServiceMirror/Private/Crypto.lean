import FullServiceMirror.Api
import FullServiceMirror.Rust.Slice

/-!
# `private/crypto.rs`

RSA comes from the `boring` crate. What it computes is a parameter: a call with
PKCS#1 padding fails, or writes bytes to the front of its output buffer and
returns their number. Errors are shown with their `Debug` text.
-/
namespace FullServiceMirror

open Rust

def PKCS1_PADDING_LEN : Nat := 11

/-- `Rsa<Private>`; `key.size()` is a `u32`. -/
structure PrivateKey where
  size : Nat
  size_lt : size < 2 ^ 32
  privateEncrypt : Bytes → Except String Bytes
  privateDecrypt : Bytes → Except String Bytes

/-- `Rsa<Public>`; encryption draws fresh padding for every block. -/
structure PublicKey where
  publicEncrypt : Bytes → Bytes → Except String Bytes
  publicDecrypt : Bytes → Except String Bytes

/-- An output buffer after a call wrote to its front. -/
def writeFront (output written : Bytes) : Bytes := written ++ output.drop written.length

namespace Crypto

/-- Encrypt a payload of arbitrary length using a private key. -/
def encrypt (key : PrivateKey) (payload : Bytes) : Outcome Bytes := do
  let keySize := key.size
  let maxChunkSize := usizeSub keySize PKCS1_PADDING_LEN
  let chunks ← (← chunks maxChunkSize payload).mapM fun chunk =>
    let output := List.replicate keySize 0
    match key.privateEncrypt chunk with
    | .error e => .error (.err ("encrypt failed: " ++ e))
    -- The whole buffer is kept, whatever number of bytes was written.
    | .ok written => .ok (writeFront output written)
  return chunks.flatten

/-- Decrypt a payload of arbitrary length using a private key. -/
def decrypt (key : PrivateKey) (payload : Bytes) : Outcome Bytes := do
  let keySize := key.size
  let chunks ← (← chunks keySize payload).mapM fun chunk =>
    let output := List.replicate keySize 0
    match key.privateDecrypt chunk with
    | .error e => .error (.err ("decrypt failed: " ++ e))
    -- `output.truncate(num_bytes)`
    | .ok written => .ok ((writeFront output written).take written.length)
  return chunks.flatten

/-- Load a private key from a file. -/
def loadPrivateKey (readToString : String → Except String String)
    (privateKeyFromPem : Bytes → Except String PrivateKey) (src : String) : Except String PrivateKey := do
  let keyStr ← (readToString src).mapError fun err =>
    "failed reading key file " ++ src ++ ": " ++ err
  (privateKeyFromPem (asBytes keyStr)).mapError fun err =>
    "failed parsing key file " ++ src ++ ": " ++ err

/-- A block of full size fills the output buffer. -/
theorem writeFront_full (size : Nat) (written : Bytes) (full : written.length = size) :
    writeFront (List.replicate size 0) written = written := by
  rw [writeFront, List.drop_eq_nil_of_le (by simp [full]), List.append_nil]

/-- Truncating to the number of bytes written leaves what was written. -/
theorem writeFront_take (output written : Bytes) :
    (writeFront output written).take written.length = written :=
  List.take_left' rfl

/-- A key longer than the padding has room for data in a block. -/
theorem maxChunkSize_eq (key : PrivateKey) (room : PKCS1_PADDING_LEN < key.size) :
    usizeSub key.size PKCS1_PADDING_LEN = key.size - PKCS1_PADDING_LEN :=
  if_pos (Nat.le_of_lt room)

/-- `encrypt` returns the blocks of the chunks, one after another. -/
theorem encrypt_ok_iff (key : PrivateKey) (payload result : Bytes) : encrypt key payload = .ok result ↔
      0 < usizeSub key.size PKCS1_PADDING_LEN ∧
      ∃ blocks, List.Forall₂ (fun chunk block => ∃ written, key.privateEncrypt chunk = .ok written ∧
          writeFront (List.replicate key.size 0) written = block)
        (piecesOf (usizeSub key.size PKCS1_PADDING_LEN) payload) blocks ∧ result = blocks.flatten := by
  rcases Nat.eq_zero_or_pos (usizeSub key.size PKCS1_PADDING_LEN) with zero | positive
  -- A key of the size of the padding leaves chunks of size zero, and `chunks` panics.
  · simp [encrypt, zero, chunks, bind, Except.bind]
  simp only [encrypt, chunks_ok _ positive, bind_ok_iff, Except.ok.injEq,
    exists_eq_left', collect_iff, pure, Except.pure, positive, true_and]
  refine exists_congr fun blocks => and_congr ?_ eq_comm
  refine iff_of_eq (congrArg (fun r => List.Forall₂ r _ blocks) ?_)
  funext chunk block
  cases called : key.privateEncrypt chunk <;> simp

/-- `decrypt` returns what the blocks decrypt to, one after another. -/
theorem decrypt_ok_iff (key : PrivateKey) (positive : 0 < key.size) (payload result : Bytes) :
    decrypt key payload = .ok result ↔
      ∃ plain, List.Forall₂ (fun block chunk => key.privateDecrypt block = .ok chunk)
        (piecesOf key.size payload) plain ∧ result = plain.flatten := by
  simp only [decrypt, chunks_ok _ positive, bind_ok_iff, Except.ok.injEq, exists_eq_left',
    collect_iff, pure, Except.pure, writeFront_take]
  refine exists_congr fun plain => and_congr ?_ eq_comm
  refine iff_of_eq (congrArg (fun r => List.Forall₂ r _ plain) ?_)
  funext block chunk
  cases called : key.privateDecrypt block <;> simp

theorem decrypt_noPanic (key : PrivateKey) (positive : 0 < key.size) (payload : Bytes) :
    NoPanic (decrypt key payload) := by
  simp only [decrypt, chunks_ok _ positive]
  refine noPanic_bind _ _ (noPanic_ok _) fun chunks => ?_
  refine noPanic_bind _ _ (noPanic_collect _ (fun chunk => ?_) chunks) fun _ => noPanic_ok _
  split
  · exact noPanic_err _
  · exact noPanic_ok _

end Crypto

end FullServiceMirror
