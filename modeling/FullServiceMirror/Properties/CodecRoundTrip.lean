import Mathlib.Algebra.Order.Floor.Div
import Mathlib.Tactic.NormNum.Prime
import FullServiceMirror.Client.ExampleClient
import FullServiceMirror.Rsa

/-!
# The codec round trip

Encryption cuts the plaintext every `k - 11` bytes, decryption cuts the
ciphertext every `k` bytes. Since every block comes out with exactly `k` bytes,
the two cuts realign for every length of the plaintext.
-/
namespace FullServiceMirror

open Rust

/-- What is assumed of PKCS#1 v1.5: data that leaves room for the padding is
encrypted to a block of the size of the key, and the other half of the key
recovers it. -/
structure Pkcs1 (priv : PrivateKey) (pub : PublicKey) : Prop where
  private_block : ∀ chunk : Bytes, chunk.length ≤ priv.size - PKCS1_PADDING_LEN →
    ∃ block, priv.privateEncrypt chunk = .ok block ∧ block.length = priv.size ∧
      pub.publicDecrypt block = .ok chunk
  public_block : ∀ padding chunk : Bytes, chunk.length ≤ priv.size - PKCS1_PADDING_LEN →
    ∃ block, pub.publicEncrypt padding chunk = .ok block ∧ block.length = priv.size ∧
      priv.privateDecrypt block = .ok chunk

/-- The halves of a textbook key. -/
def PrivateKey.ofRsa (key : Rsa.Key) (size_lt : key.k < 2 ^ 32) : PrivateKey where
  size := key.k
  size_lt := size_lt
  privateEncrypt := key.privateEncrypt
  privateDecrypt := key.privateDecrypt

def PublicKey.ofRsa (key : Rsa.Key) : PublicKey where
  publicEncrypt := key.publicEncrypt
  publicDecrypt := key.publicDecrypt

/-- Textbook RSA with PKCS#1 v1.5 padding is as assumed. -/
theorem pkcs1_ofRsa (key : Rsa.Key) (size_lt : key.k < 2 ^ 32) (room : PKCS1_PADDING_LEN < key.k) :
    Pkcs1 (.ofRsa key size_lt) (.ofRsa key) where
  private_block := by
    intro chunk short
    have fits : chunk.length + 11 ≤ key.k := Nat.add_le_of_le_sub (Nat.le_of_lt room) short
    exact key.publicDecrypt_privateEncrypt chunk fits
  public_block := by
    intro padding chunk short
    have fits : chunk.length + 11 ≤ key.k := Nat.add_le_of_le_sub (Nat.le_of_lt room) short
    exact key.privateDecrypt_publicEncrypt padding chunk fits

variable {priv : PrivateKey} {pub : PublicKey}

/-- A response encrypted by the private side reaches the client. -/
theorem private_to_client (pkcs1 : Pkcs1 priv pub) (room : PKCS1_PADDING_LEN < priv.size)
    (m : Bytes) : ∃ c, Crypto.encrypt priv m = .ok c ∧
      c.length = priv.size * (m.length ⌈/⌉ (priv.size - PKCS1_PADDING_LEN)) ∧
      ExampleClient.decrypt pub priv.size c = .ok m := by
  have stride : 0 < priv.size - PKCS1_PADDING_LEN := by omega
  have positive : 0 < priv.size := by omega
  obtain ⟨blocks, encoded, recut, length⟩ := piecesOf_encoded priv.size positive
    (fun chunk block => priv.privateEncrypt chunk = .ok block ∧ block.length = priv.size ∧
      pub.publicDecrypt block = .ok chunk) (piecesOf (priv.size - PKCS1_PADDING_LEN) m)
    (by
      intro chunk member
      obtain ⟨block, encrypted, full, decrypted⟩ :=
        pkcs1.private_block chunk (piecesOf_bounded _ stride m chunk member)
      exact ⟨block, ⟨encrypted, full, decrypted⟩, full⟩)
  -- The client's cut of the ciphertext finds the blocks again.
  refine ⟨blocks.flatten, ?_, ?_, ?_⟩
  · rw [Crypto.encrypt_ok_iff, Crypto.maxChunkSize_eq priv room]
    refine ⟨stride, blocks, encoded.imp ?_, rfl⟩
    rintro chunk block ⟨encrypted, full, _⟩
    exact ⟨block, encrypted, Crypto.writeFront_full priv.size block full⟩
  · rw [length, piecesOf_length _ stride, Nat.ceilDiv_eq_add_pred_div]
  · rw [ExampleClient.decrypt_ok_iff pub priv.size positive, recut]
    refine ⟨_, encoded.flip.imp ?_, (piecesOf_flatten _ stride m).symm⟩
    rintro block chunk ⟨_, _, decrypted⟩
    exact decrypted

/-- A request encrypted by the client, with any padding, reaches the private side. -/
theorem client_to_private (pkcs1 : Pkcs1 priv pub) (room : PKCS1_PADDING_LEN < priv.size)
    (padding : Nat → Bytes) (m : Bytes) :
    ∃ c, ExampleClient.encrypt pub priv.size padding m = .ok c ∧ Crypto.decrypt priv c = .ok m := by
  have stride : 0 < priv.size - PKCS1_PADDING_LEN := by omega
  have positive : 0 < priv.size := by omega
  obtain ⟨blocks, encoded, recut, _⟩ := piecesOf_encoded priv.size positive
    (fun (piece : Bytes × Nat) block => pub.publicEncrypt (padding piece.2) piece.1 = .ok block ∧
      priv.privateDecrypt block = .ok piece.1) ((piecesOf (priv.size - PKCS1_PADDING_LEN) m).zipIdx)
    (by
      rintro ⟨chunk, i⟩ member
      have bounded := piecesOf_bounded _ stride m chunk (List.fst_mem_of_mem_zipIdx member)
      obtain ⟨block, encrypted, full, decrypted⟩ := pkcs1.public_block (padding i) chunk bounded
      exact ⟨block, ⟨encrypted, decrypted⟩, full⟩)
  refine ⟨blocks.flatten, ?_, ?_⟩
  · simp only [ExampleClient.encrypt, bind_ok_iff, pure, Except.pure, Except.ok.injEq]
    exact ⟨blocks, (ExampleClient.sliceLoop_ok_iff _ stride _ _ _ _ _ (Nat.le_refl _)).mpr
      ⟨blocks, encoded.imp fun _ _ both => both.1, rfl⟩, rfl⟩
  · rw [Crypto.decrypt_ok_iff priv positive, recut]
    refine ⟨piecesOf (priv.size - PKCS1_PADDING_LEN) m, ?_, (piecesOf_flatten _ stride m).symm⟩
    -- The numbering was only there to draw the padding.
    rw [← List.zipIdx_map_fst 0 (piecesOf _ m), List.forall₂_map_right_iff]
    exact encoded.flip.imp fun _ _ both => both.2

/-- **Codec round trip**, in both directions, for every key that leaves room for
data and every payload. -/
theorem codec_round_trip (pkcs1 : Pkcs1 priv pub) (room : PKCS1_PADDING_LEN < priv.size)
    (padding : Nat → Bytes) (m : Bytes) :
    (∃ c, Crypto.encrypt priv m = .ok c ∧
      c.length = priv.size * (m.length ⌈/⌉ (priv.size - PKCS1_PADDING_LEN)) ∧
      ExampleClient.decrypt pub priv.size c = .ok m) ∧
    (∃ c, ExampleClient.encrypt pub priv.size padding m = .ok c ∧ Crypto.decrypt priv c = .ok m) :=
  ⟨private_to_client pkcs1 room m, client_to_private pkcs1 room padding m⟩

/-- A key of 128 bits, made of primes `p` for which `p - 1` divides 5040. -/
def smallKey : Rsa.Key :=
  .ofPrimes [2521, 1009, 631, 421, 337, 281, 241, 211, 181, 127, 113, 73, 71, 61, 43, 41, 37] 17 593 16
    (by norm_num) (by decide) (by decide) (by decide) (by decide) (by decide)

def smallPrivateKey : PrivateKey := .ofRsa smallKey (by decide)

def smallPublicKey : PublicKey := .ofRsa smallKey

theorem codec_round_trip_smallKey :
    (∃ c, Crypto.encrypt smallPrivateKey [109, 111, 98, 105, 108, 101] = .ok c ∧
      c.length = 16 * (6 ⌈/⌉ 5) ∧
      ExampleClient.decrypt smallPublicKey 16 c = .ok [109, 111, 98, 105, 108, 101]) ∧
    (∃ c, ExampleClient.encrypt smallPublicKey 16 (fun _ => []) [109, 111, 98, 105, 108, 101] = .ok c ∧
      Crypto.decrypt smallPrivateKey c = .ok [109, 111, 98, 105, 108, 101]) :=
  codec_round_trip (pkcs1_ofRsa smallKey (by decide) (by decide)) (by decide) (fun _ => [])
    [109, 111, 98, 105, 108, 101]

end FullServiceMirror
