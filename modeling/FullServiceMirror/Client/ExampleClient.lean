import Mathlib.Data.List.Enum
import FullServiceMirror.Private.Crypto
import FullServiceMirror.Utf16

/-!
# `example-client.js`

The client's `encrypt` and `decrypt` cut what they are given by a `while` loop
over `slice`, which a buffer, an array and a string all have. A call into
`crypto` returns bytes or throws. The constant `KEY_SIZE`, 512 in the client, is
a parameter here.
-/
namespace FullServiceMirror

open Rust

namespace ExampleClient

/-- `while (buf.length > 0) { data = buf.slice(0, size); buf = buf.slice(data.length); .. }`,
pushing what `f` makes of the `res.length`-th piece. A round shortens the
buffer, whose length therefore bounds the rounds. -/
def sliceLoop {α : Type} (size : Nat) (f : Nat → List α → Except String Bytes) :
    Nat → List α → List Bytes → Except String (List Bytes)
  | 0, _, res => .ok res
  | rounds + 1, buf, res =>
    if 0 < buf.length then do
      -- `slice` stops at the end of the buffer, so the last piece may be shorter.
      let data := buf.take size
      let buf := buf.drop data.length
      let block ← f res.length data
      sliceLoop size f rounds buf (res ++ [block])
    else .ok res

/-- `encrypt(buf)`, with the padding drawn for each call of `publicEncrypt`. -/
def encrypt (key : PublicKey) (keySize : Nat) (padding : Nat → Bytes) (buf : Bytes) :
    Except String Bytes := do
  let maxChunkSize := keySize - 11
  let res ← sliceLoop maxChunkSize (fun i data => key.publicEncrypt (padding i) data) buf.length buf []
  return res.flatten

/-- `encrypt(buf)` on a string: `length` and `slice` count code units, and
`Buffer.from` makes UTF-8 of every piece by itself. -/
def encryptString (key : PublicKey) (keySize : Nat) (padding : Nat → Bytes) (buf : List UInt16) :
    Except String Bytes := do
  let maxChunkSize := keySize - 11
  let res ← sliceLoop maxChunkSize (fun i data => key.publicEncrypt (padding i) (Utf16.utf8 data))
    buf.length buf []
  return res.flatten

/-- `decrypt(buf)` -/
def decrypt (key : PublicKey) (keySize : Nat) (buf : Bytes) : Except String Bytes := do
  let res ← sliceLoop keySize (fun _ data => key.publicDecrypt data) buf.length buf []
  return res.flatten

/-- The loop makes one call per chunk, in order. -/
theorem sliceLoop_ok_iff {α : Type} (size : Nat) (positive : 0 < size)
    (f : Nat → List α → Except String Bytes) (rounds : Nat) (buf : List α) (res out : List Bytes)
    (enough : buf.length ≤ rounds) : sliceLoop size f rounds buf res = .ok out ↔
      ∃ blocks, List.Forall₂ (fun piece block => f piece.2 piece.1 = .ok block)
        ((piecesOf size buf).zipIdx res.length) blocks ∧ out = res ++ blocks := by
  induction rounds generalizing buf res with
  | zero =>
    have empty : buf = [] := List.length_eq_zero_iff.mp (Nat.le_zero.mp enough)
    subst empty
    simp [sliceLoop, eq_comm]
  | succ rounds ih =>
    rw [sliceLoop]
    split
    next occupied =>
      have nonempty : buf ≠ [] := List.ne_nil_of_length_pos occupied
      -- The loop drops the length of the piece, which is shorter than `size` only at the end.
      have advance : buf.drop (buf.take size).length = buf.drop size := by
        rw [List.length_take]
        rcases Nat.le_total size buf.length with short | long
        · rw [Nat.min_eq_left short]
        · rw [Nat.min_eq_right long, List.drop_length, List.drop_eq_nil_of_le long]
      have shorter : (buf.drop size).length ≤ rounds := by rw [List.length_drop]; omega
      simp only [advance, bind_ok_iff, ih _ _ shorter, List.length_append, List.length_singleton]
      rw [piecesOf_cons size positive buf nonempty, List.zipIdx_cons]
      simp only [List.forall₂_cons_left_iff]
      constructor
      · rintro ⟨block, called, blocks, rest, rfl⟩
        exact ⟨block :: blocks, ⟨block, blocks, called, rest, rfl⟩, by simp⟩
      · rintro ⟨_, ⟨block, blocks, called, rest, rfl⟩, rfl⟩
        exact ⟨block, called, blocks, rest, by simp⟩
    next vacant =>
      have empty : buf = [] := List.length_eq_zero_iff.mp (by omega)
      subst empty
      simp [eq_comm]

/-- `decrypt` returns what the blocks decrypt to, one after another. -/
theorem decrypt_ok_iff (key : PublicKey) (keySize : Nat) (positive : 0 < keySize)
    (buf result : Bytes) : decrypt key keySize buf = .ok result ↔
      ∃ plain, List.Forall₂ (fun block chunk => key.publicDecrypt block = .ok chunk)
        (piecesOf keySize buf) plain ∧ result = plain.flatten := by
  have unnumbered (start : Nat) (pieces plain : List Bytes) :
      List.Forall₂ (fun (piece : Bytes × Nat) chunk => key.publicDecrypt piece.1 = .ok chunk)
        (pieces.zipIdx start) plain ↔
      List.Forall₂ (fun block chunk => key.publicDecrypt block = .ok chunk) pieces plain := by
    rw [← List.zipIdx_map_fst start pieces, List.forall₂_map_left_iff, List.zipIdx_map_fst]
  simp only [decrypt, bind_ok_iff, pure, Except.pure, Except.ok.injEq,
    sliceLoop_ok_iff keySize positive _ _ _ _ _ (Nat.le_refl _), unnumbered, List.nil_append]
  constructor
  · rintro ⟨out, ⟨plain, decrypts, rfl⟩, rfl⟩
    exact ⟨out, decrypts, rfl⟩
  · rintro ⟨plain, decrypts, rfl⟩
    exact ⟨plain, ⟨plain, decrypts, rfl⟩, rfl⟩

/-- `encryptString` returns the blocks of the pieces, one after another. -/
theorem encryptString_ok_iff (key : PublicKey) (keySize : Nat) (room : 11 < keySize)
    (padding : Nat → Bytes) (buf : List UInt16) (result : Bytes) :
    encryptString key keySize padding buf = .ok result ↔
      ∃ blocks, List.Forall₂ (fun piece block => key.publicEncrypt (padding piece.2) (Utf16.utf8 piece.1) = .ok block)
        (piecesOf (keySize - 11) buf).zipIdx blocks ∧ result = blocks.flatten := by
  have positive : 0 < keySize - 11 := by omega
  simp only [encryptString, bind_ok_iff, pure, Except.pure, Except.ok.injEq,
    sliceLoop_ok_iff _ positive _ _ _ _ _ (Nat.le_refl _), List.nil_append, List.length_nil]
  constructor
  · rintro ⟨out, ⟨blocks, encrypts, rfl⟩, rfl⟩
    exact ⟨out, encrypts, rfl⟩
  · rintro ⟨blocks, encrypts, rfl⟩
    exact ⟨blocks, ⟨blocks, encrypts, rfl⟩, rfl⟩

end ExampleClient

end FullServiceMirror
