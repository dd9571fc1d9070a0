import FullServiceMirror.Rsa
import FullServiceMirror.Rust.Slice

/-!
# SHA-256

The hash function on octet strings, with words as bit vectors. The schedule of a
block is a window of sixteen words that moves along with the rounds.
-/
namespace Sha256

open Rsa

/-- The first bits of the cube roots of the first 64 primes. -/
def roundConstants : List (BitVec 32) := [
  0x428a2f98, 0x71374491, 0xb5c0fbcf, 0xe9b5dba5, 0x3956c25b, 0x59f111f1, 0x923f82a4, 0xab1c5ed5,
  0xd807aa98, 0x12835b01, 0x243185be, 0x550c7dc3, 0x72be5d74, 0x80deb1fe, 0x9bdc06a7, 0xc19bf174,
  0xe49b69c1, 0xefbe4786, 0x0fc19dc6, 0x240ca1cc, 0x2de92c6f, 0x4a7484aa, 0x5cb0a9dc, 0x76f988da,
  0x983e5152, 0xa831c66d, 0xb00327c8, 0xbf597fc7, 0xc6e00bf3, 0xd5a79147, 0x06ca6351, 0x14292967,
  0x27b70a85, 0x2e1b2138, 0x4d2c6dfc, 0x53380d13, 0x650a7354, 0x766a0abb, 0x81c2c92e, 0x92722c85,
  0xa2bfe8a1, 0xa81a664b, 0xc24b8b70, 0xc76c51a3, 0xd192e819, 0xd6990624, 0xf40e3585, 0x106aa070,
  0x19a4c116, 0x1e376c08, 0x2748774c, 0x34b0bcb5, 0x391c0cb3, 0x4ed8aa4a, 0x5b9cca4f, 0x682e6ff3,
  0x748f82ee, 0x78a5636f, 0x84c87814, 0x8cc70208, 0x90befffa, 0xa4506ceb, 0xbef9a3f7, 0xc67178f2]

/-- The eight working variables. -/
structure Words where
  a : BitVec 32
  b : BitVec 32
  c : BitVec 32
  d : BitVec 32
  e : BitVec 32
  f : BitVec 32
  g : BitVec 32
  h : BitVec 32

/-- The first bits of the square roots of the first eight primes. -/
def initial : Words :=
  ⟨0x6a09e667, 0xbb67ae85, 0x3c6ef372, 0xa54ff53a, 0x510e527f, 0x9b05688c, 0x1f83d9ab, 0x5be0cd19⟩

def Words.round (s : Words) (k w : BitVec 32) : Words :=
  let t1 := s.h + (s.e.rotateRight 6 ^^^ s.e.rotateRight 11 ^^^ s.e.rotateRight 25) +
    ((s.e &&& s.f) ^^^ (~~~s.e &&& s.g)) + k + w
  let t2 := (s.a.rotateRight 2 ^^^ s.a.rotateRight 13 ^^^ s.a.rotateRight 22) +
    ((s.a &&& s.b) ^^^ (s.a &&& s.c) ^^^ (s.b &&& s.c))
  ⟨t1 + t2, s.a, s.b, s.c, s.d + t1, s.e, s.f, s.g⟩

/-- The word of the schedule that follows sixteen others. -/
def nextWord (window : List (BitVec 32)) : BitVec 32 :=
  let w1 := window.getD 1 0
  let w14 := window.getD 14 0
  (w14.rotateRight 17 ^^^ w14.rotateRight 19 ^^^ w14 >>> 10) + window.getD 9 0 +
    (w1.rotateRight 7 ^^^ w1.rotateRight 18 ^^^ w1 >>> 3) + window.getD 0 0

def rounds : List (BitVec 32) → List (BitVec 32) → Words → Words
  | k :: constants, w :: window, s =>
    rounds constants (window ++ [nextWord (w :: window)]) (s.round k w)
  | _, _, s => s

def compress (s : Words) (block : Octets) : Words :=
  let window := (Rust.piecesOf 4 block).map fun word => BitVec.ofNat 32 (fromOctets word)
  let t := rounds roundConstants window s
  ⟨s.a + t.a, s.b + t.b, s.c + t.c, s.d + t.d, s.e + t.e, s.f + t.f, s.g + t.g, s.h + t.h⟩

/-- A one bit, zeros, and the length in bits fill up the last block. -/
def pad (message : Octets) : Octets :=
  message ++ 0x80 :: List.replicate ((119 - message.length % 64) % 64) 0 ++ toOctets 8 (8 * message.length)

def digest (message : Octets) : Octets :=
  let s := (Rust.piecesOf 64 (pad message)).foldl compress initial
  [s.a, s.b, s.c, s.d, s.e, s.f, s.g, s.h].flatMap fun word => toOctets 4 word.toNat

/-- The text "abc". -/
example : digest [97, 98, 99] = [
    0xba, 0x78, 0x16, 0xbf, 0x8f, 0x01, 0xcf, 0xea, 0x41, 0x41, 0x40, 0xde, 0x5d, 0xae, 0x22, 0x23,
    0xb0, 0x03, 0x61, 0xa3, 0x96, 0x17, 0x7a, 0x9c, 0xb4, 0x10, 0xff, 0x61, 0xf2, 0x00, 0x15, 0xad] := by
  decide +kernel

end Sha256
