import FullServiceMirror.Private.Requests
import FullServiceMirror.Properties.CodecRoundTrip

/-!
# The request format of client and private side

The client cuts a request string between code units and encodes each piece by
itself, while the limit of a block counts bytes. The two sides agree on exactly
the requests whose full pieces are ASCII and whose rest fits a block.
-/
namespace FullServiceMirror

open Rust

/-- What is assumed of `publicEncrypt` with PKCS#1 v1.5 padding, towards the
`private_decrypt` of the other half. -/
structure PublicEncrypts (priv : PrivateKey) (pub : PublicKey) : Prop where
  fits : ∀ padding chunk : Bytes, chunk.length ≤ priv.size - PKCS1_PADDING_LEN →
    ∃ block, pub.publicEncrypt padding chunk = .ok block ∧ block.length = priv.size ∧
      priv.privateDecrypt block = .ok chunk
  too_long : ∀ padding chunk : Bytes, priv.size - PKCS1_PADDING_LEN < chunk.length →
    ∃ e, pub.publicEncrypt padding chunk = .error e

theorem publicEncrypts_ofRsa (key : Rsa.Key) (size_lt : key.k < 2 ^ 32) (room : PKCS1_PADDING_LEN < key.k) :
    PublicEncrypts (.ofRsa key size_lt) (.ofRsa key) where
  fits := (pkcs1_ofRsa key size_lt room).public_block
  too_long := by
    intro padding chunk long
    have exceeds : key.k < chunk.length + 11 := by
      change key.k - 11 < chunk.length at long
      omega
    exact ⟨_, if_pos exceeds⟩

/-- The pieces before the last one are ASCII, and the last one fits a block of `n` bytes. -/
def FitsBlocks (n : Nat) (units : List UInt16) : Prop :=
  (∀ u ∈ units.take (n * (units.length / n)), u < 0x80) ∧
    (Utf16.utf8 (units.drop (n * (units.length / n)))).length ≤ n

instance (n : Nat) (units : List UInt16) : Decidable (FitsBlocks n units) :=
  @instDecidableAnd _ _ (List.decidableBAll _ _) (Nat.decLe _ _)

/-- A full piece fits when it is ASCII. -/
theorem fitsBlocks_iff (n : Nat) (positive : 0 < n) (units : List UInt16) :
    FitsBlocks n units ↔ ∀ piece ∈ piecesOf n units, (Utf16.utf8 piece).length ≤ n := by
  induction units using chunks_induction n positive with
  | nil => simp [FitsBlocks, Utf16.utf8, Utf16.decode]
  | cons units nonempty ih =>
    rw [piecesOf_cons n positive units nonempty, List.forall_mem_cons, ← ih]
    by_cases full : n ≤ units.length
    · have one_more : units.length / n = (units.drop n).length / n + 1 := by
        rw [List.length_drop]
        exact Nat.div_eq_sub_div positive full
      have first := (Utf16.length_utf8 (units.take n)).2
      rw [List.length_take, Nat.min_eq_left full] at first
      rw [FitsBlocks, FitsBlocks, one_more, Nat.mul_succ, Nat.add_comm, List.take_add, ← List.drop_drop,
        List.forall_mem_append, first, and_assoc]
    -- The only piece is the last one.
    · have none : units.length / n = 0 := Nat.div_eq_of_lt (by omega)
      have whole : units.take n = units := List.take_of_length_le (by omega)
      have rest : units.drop n = [] := List.drop_eq_nil_of_le (by omega)
      rw [FitsBlocks, none, Nat.mul_zero, List.take_zero, List.drop_zero, whole, rest]
      simp [FitsBlocks, Utf16.utf8, Utf16.decode]

/-- What fits is encoded piece by piece into the encoding of the whole. -/
theorem utf8_pieces (n : Nat) (positive : 0 < n) (units : List UInt16)
    (fits : ∀ piece ∈ piecesOf n units, (Utf16.utf8 piece).length ≤ n) :
    ((piecesOf n units).map Utf16.utf8).flatten = Utf16.utf8 units := by
  induction units using chunks_induction n positive with
  | nil => rfl
  | cons units nonempty ih =>
    rw [piecesOf_cons n positive units nonempty] at fits ⊢
    obtain ⟨first, rest⟩ := List.forall_mem_cons.mp fits
    rw [List.map_cons, List.flatten_cons, ih rest]
    by_cases full : n ≤ units.length
    · have ascii := (Utf16.length_utf8 (units.take n)).2.mp (by rw [List.length_take]; omega)
      rw [← Utf16.utf8_append, List.take_append_drop]
      intro u last
      exact Utf16.isHigh_of_ascii u (ascii u (List.mem_of_getLast? last))
    · rw [List.take_of_length_le (by omega), List.drop_eq_nil_of_le (by omega)]
      exact List.append_nil _

theorem asBytes_eq_utf8 (request : String) : asBytes request = Utf16.utf8 (Utf16.encode request.toList) := by
  have encoding : request.toUTF8 = request.toList.utf8Encode := by
    rw [← String.toByteArray_ofList, String.ofList_toList]
    rfl
  rw [Utf16.utf8, Utf16.decode_encode, asBytes, encoding]
  exact List.toList_data_toByteArray

variable {priv : PrivateKey} {pub : PublicKey}

/-- Requests that fit are encrypted and decrypted to their UTF-8 encoding. -/
theorem agree_of_fits (boring : PublicEncrypts priv pub) (room : PKCS1_PADDING_LEN < priv.size)
    (padding : Nat → Bytes) (units : List UInt16)
    (fits : FitsBlocks (priv.size - PKCS1_PADDING_LEN) units) :
    ∃ c, ExampleClient.encryptString pub priv.size padding units = .ok c ∧
      Crypto.decrypt priv c = .ok (Utf16.utf8 units) := by
  have stride : 0 < priv.size - PKCS1_PADDING_LEN := by omega
  have positive : 0 < priv.size := by omega
  have short := (fitsBlocks_iff _ stride units).mp fits
  obtain ⟨blocks, encoded, recut, _⟩ := piecesOf_encoded priv.size positive
    (fun (piece : List UInt16 × Nat) block =>
      pub.publicEncrypt (padding piece.2) (Utf16.utf8 piece.1) = .ok block ∧
        priv.privateDecrypt block = .ok (Utf16.utf8 piece.1))
    (piecesOf (priv.size - PKCS1_PADDING_LEN) units).zipIdx
    (by
      rintro ⟨piece, i⟩ member
      obtain ⟨block, encrypted, full, decrypted⟩ :=
        boring.fits (padding i) _ (short piece (List.fst_mem_of_mem_zipIdx member))
      exact ⟨block, ⟨encrypted, decrypted⟩, full⟩)
  refine ⟨blocks.flatten, ?_, ?_⟩
  · exact (ExampleClient.encryptString_ok_iff pub priv.size room padding units _).mpr
      ⟨blocks, encoded.imp fun _ _ both => both.1, rfl⟩
  · rw [Crypto.decrypt_ok_iff priv positive, recut]
    refine ⟨(piecesOf (priv.size - PKCS1_PADDING_LEN) units).map Utf16.utf8, ?_,
      (utf8_pieces _ stride units short).symm⟩
    -- The numbering was only there to draw the padding.
    rw [← List.zipIdx_map_fst 0 (piecesOf _ units), List.map_map, List.forall₂_map_right_iff]
    exact encoded.flip.imp fun _ _ both => both.2

/-- Only requests that fit are encrypted at all. -/
theorem fits_of_encrypted (boring : PublicEncrypts priv pub) (room : PKCS1_PADDING_LEN < priv.size)
    (padding : Nat → Bytes) (units : List UInt16) (c : Bytes)
    (encrypted : ExampleClient.encryptString pub priv.size padding units = .ok c) :
    FitsBlocks (priv.size - PKCS1_PADDING_LEN) units := by
  obtain ⟨blocks, calls, _⟩ :=
    (ExampleClient.encryptString_ok_iff pub priv.size room padding units c).mp encrypted
  refine (fitsBlocks_iff _ (by omega) units).mpr fun piece member => ?_
  by_contra long
  -- The call for a piece that is too long throws.
  obtain ⟨i, here⟩ := List.mem_iff_getElem?.mp member
  obtain ⟨block, _, called⟩ :=
    exists_of_forall₂ calls (piece, i) (List.mem_zipIdx_iff_getElem?.mpr here)
  obtain ⟨e, thrown⟩ := boring.too_long (padding i) (Utf16.utf8 piece) (by omega)
  rw [thrown] at called
  cases called

/-- **The request format.** For a 4096-bit key and every request, the client's
`encrypt` succeeds and the private side reads the request back exactly when the
request fits blocks of 501 bytes. -/
theorem request_format_agrees_iff (boring : PublicEncrypts priv pub) (size : priv.size = 512)
    (padding : Nat → Bytes) (request : String) :
    (∃ c plaintext, ExampleClient.encryptString pub 512 padding (Utf16.encode request.toList) = .ok c ∧
      Crypto.decrypt priv c = .ok plaintext ∧ plaintext = asBytes request ∧
      fromUtf8 plaintext = .ok request) ↔
    FitsBlocks 501 (Utf16.encode request.toList) := by
  have room : PKCS1_PADDING_LEN < priv.size := by rw [size]; decide
  have blocks : priv.size - PKCS1_PADDING_LEN = 501 := by rw [size]; rfl
  rw [← size, ← blocks]
  constructor
  · rintro ⟨c, _, encrypted, _⟩
    exact fits_of_encrypted boring room padding _ c encrypted
  · intro fits
    obtain ⟨c, encrypted, decrypted⟩ := agree_of_fits boring room padding _ fits
    rw [← asBytes_eq_utf8] at decrypted
    exact ⟨c, _, encrypted, decrypted, rfl, fromUtf8_asBytes request⟩

/-- The prime factors of the key below. -/
def largePrime (k : Nat) : Nat := k * 2 ^ 2028 + 1

/-- A key of 4096 bits. -/
def largeKey : Rsa.Key :=
  .ofPrimes [largePrime 1046413, largePrime 1046077] 65537
    -- The inverse of the public exponent: 46796 makes the division exact.
    ((46796 * ((largePrime 1046413 - 1) * (largePrime 1046077 - 1)) + 1) / 65537) 512
    (by
      refine List.forall_mem_cons.mpr ⟨?_, List.forall_mem_singleton.mpr ?_⟩
      · exact Rsa.prime_of_powMod _ 1046413 2028 3 (by norm_num) rfl (by decide +kernel)
          (by decide +kernel) (by decide +kernel)
      · exact Rsa.prime_of_powMod _ 1046077 2028 3 (by norm_num) rfl (by decide +kernel)
          (by decide +kernel) (by decide +kernel))
    (by decide +kernel) (by decide +kernel) (by decide +kernel) (by decide +kernel) (by decide +kernel)

theorem size_lt_largeKey : largeKey.k < 2 ^ 32 := by decide +kernel

def largePrivateKey : PrivateKey := .ofRsa largeKey size_lt_largeKey

def largePublicKey : PublicKey := .ofRsa largeKey

theorem publicEncrypts_largeKey : PublicEncrypts largePrivateKey largePublicKey :=
  publicEncrypts_ofRsa largeKey _ (by decide +kernel)

/-- The characters of a request of one full piece and a rest that is not ASCII. -/
def longRequest : List Char :=
  "\x7b\"method\": \"get_block\", \"params\": \"".toList ++ List.replicate 466 'x' ++ ['é', '"', '\x7d']

theorem fits_longRequest : FitsBlocks 501 (Utf16.encode longRequest) := by decide +kernel

theorem request_format_agrees_iff_largeKey :
    (Utf16.encode longRequest).length = 504 ∧
    ∃ c plaintext, ExampleClient.encryptString largePublicKey 512 (fun _ => [])
        (Utf16.encode (String.ofList longRequest).toList) = .ok c ∧
      Crypto.decrypt largePrivateKey c = .ok plaintext ∧ plaintext = asBytes (String.ofList longRequest) ∧
      fromUtf8 plaintext = .ok (String.ofList longRequest) := by
  refine ⟨by decide +kernel, (request_format_agrees_iff publicEncrypts_largeKey rfl (fun _ => []) _).mpr ?_⟩
  rw [String.toList_ofList]
  exact fits_longRequest

/-- A request of 251 characters that take two bytes each. -/
theorem request_format_disagrees :
    PublicEncrypts largePrivateKey largePublicKey ∧
    ¬ ∃ c plaintext, ExampleClient.encryptString largePublicKey 512 (fun _ => [])
        (Utf16.encode (List.replicate 251 'é')) = .ok c ∧
      Crypto.decrypt largePrivateKey c = .ok plaintext ∧
      fromUtf8 plaintext = .ok (String.ofList (List.replicate 251 'é')) := by
  refine ⟨publicEncrypts_largeKey, ?_⟩
  rintro ⟨c, _, encrypted, _⟩
  have fits := fits_of_encrypted publicEncrypts_largeKey (by decide +kernel) (fun _ => []) _ c encrypted
  exact absurd fits (by decide +kernel)

end FullServiceMirror
