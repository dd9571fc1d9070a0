import FullServiceMirror.Client.ExampleClient
import FullServiceMirror.Private.Requests

/-!
# The script around `encrypt` and `decrypt`

What `example-client.js` does once its arguments are read and its key is loaded:
it tests the size of the key, encrypts the request, POSTs it to
`/encrypted-request` and prints what comes back. The response arrives in pieces,
at boundaries that the network chooses.
-/
namespace FullServiceMirror.ExampleClient

open Rust

/-! ## `Buffer` -/

/-- The bytes that one U+FFFD stands for: as many as could have been continued. -/
def malformedLength (first : UInt8) (rest : Bytes) : Nat :=
  match followers first with
  | none => 1
  | some tests =>
    match sequenceEnd 1 tests rest with
    | .inl none => rest.length + 1
    | .inl (some seen) => seen
    | .inr _ => 1

/-- A character takes at least one byte, so the length of the buffer bounds the rounds. -/
def readText : Nat → Bytes → List Char
  | rounds + 1, first :: rest =>
    match ByteArray.utf8DecodeChar? ⟨(first :: rest).toArray⟩ 0 with
    | some c => c :: readText rounds ((first :: rest).drop c.utf8Size)
    | none => Char.ofNat 0xFFFD :: readText rounds ((first :: rest).drop (malformedLength first rest))
  | _, _ => []

/-- `buf.toString()` -/
def bufferToString (buf : Bytes) : String := String.ofList (readText buf.length buf)

/-- A character is read back whatever follows it. -/
theorem utf8DecodeChar_encode (c : Char) (rest : Bytes) :
    ByteArray.utf8DecodeChar? ⟨(String.utf8EncodeChar c ++ rest).toArray⟩ 0 = some c := by
  have same : (⟨(String.utf8EncodeChar c ++ rest).toArray⟩ : ByteArray) =
      (String.utf8EncodeChar c).toByteArray ++ rest.toByteArray := by
    rw [← List.toByteArray_append]
    apply ByteArray.ext
    apply Array.toList_inj.mp
    rw [List.toList_data_toByteArray]
  rw [same]
  exact ByteArray.utf8DecodeChar?_utf8EncodeChar_append

/-- Reading the UTF-8 encoding of a text gives the text. -/
theorem readText_encode (text : List Char) (rounds : Nat)
    (enough : (text.flatMap String.utf8EncodeChar).length ≤ rounds) :
    readText rounds (text.flatMap String.utf8EncodeChar) = text := by
  induction text generalizing rounds with
  | nil => cases rounds <;> rfl
  | cons c rest ih =>
    rw [List.flatMap_cons, List.length_append, String.length_utf8EncodeChar] at enough
    have nonempty := c.utf8Size_pos
    have decoded := utf8DecodeChar_encode c (rest.flatMap String.utf8EncodeChar)
    have dropped : (String.utf8EncodeChar c ++ rest.flatMap String.utf8EncodeChar).drop c.utf8Size =
        rest.flatMap String.utf8EncodeChar := by
      rw [← String.length_utf8EncodeChar c, List.drop_left]
    rw [List.flatMap_cons]
    cases bytes : String.utf8EncodeChar c with
    | nil => exact absurd bytes String.utf8EncodeChar_ne_nil
    | cons first others =>
      rw [bytes, List.cons_append] at decoded dropped
      cases rounds with
      | zero => omega
      | succ rounds =>
        rw [List.cons_append, readText, decoded]
        dsimp only
        rw [dropped, ih rounds (by omega)]

/-! ## The script -/

/-- From the test of the key to the body of the request. -/
def prepareRequest (key : PublicKey) (keySize : Nat) (testPadding padding : Nat → Bytes)
    (request : List UInt16) : Except String Bytes := do
  let testData ← encrypt key keySize testPadding [1, 2, 3]
  if testData.length ≠ keySize then
    .error ("Key is not 4096-bit, encrypted output chunk size returned was " ++ toString testData.length)
  else encryptString key keySize padding request

/-- What is printed at the end of a response; `decrypt` may throw instead. -/
def onEnd (key : PublicKey) (keySize : Nat) (statusCode : Nat) (buf : List Bytes) : Except String String :=
  if statusCode = 200 then do
    let result ← decrypt key keySize buf.flatten
    return bufferToString result
  -- An array in a template is the texts of its items, separated by commas.
  else return "Http error, status: " ++ toString statusCode ++ ": " ++
    ",".intercalate (buf.map bufferToString)

end FullServiceMirror.ExampleClient
