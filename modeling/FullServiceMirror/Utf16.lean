import Mathlib.Data.List.Basic
import Mathlib.Tactic.Common

/-!
# UTF-16 strings and their UTF-8 encoding

A string is a list of code units. Two units may stand for one character, as a
high and a low surrogate; a surrogate that stands alone is read as U+FFFD. Cuts
between the units of a pair change what a string says, and only ASCII characters
take as many bytes of UTF-8 as they take units.
-/
namespace Utf16

def isHigh (u : UInt16) : Bool := 0xD800 ≤ u.toNat && u.toNat < 0xDC00

def isLow (u : UInt16) : Bool := 0xDC00 ≤ u.toNat && u.toNat < 0xE000

/-- The code point of a surrogate pair. -/
def pair (high low : UInt16) : Char :=
  Char.ofNat (0x10000 + (high.toNat - 0xD800) * 0x400 + (low.toNat - 0xDC00))

/-- The code point of a unit outside of a pair. -/
def single (u : UInt16) : Char :=
  if isHigh u || isLow u then Char.ofNat 0xFFFD else Char.ofNat u.toNat

def decode : List UInt16 → List Char
  | [] => []
  | [u] => [single u]
  | u :: v :: rest =>
    if isHigh u && isLow v then pair u v :: decode rest else single u :: decode (v :: rest)

def encodeChar (c : Char) : List UInt16 :=
  if c.toNat < 0x10000 then [UInt16.ofNat c.toNat]
  else [UInt16.ofNat (0xD800 + (c.toNat - 0x10000) / 0x400),
    UInt16.ofNat (0xDC00 + (c.toNat - 0x10000) % 0x400)]

def encode (text : List Char) : List UInt16 := text.flatMap encodeChar

/-- The UTF-8 encoding of what a string says. -/
def utf8 (s : List UInt16) : List UInt8 := (decode s).flatMap String.utf8EncodeChar

/-! ## Decoding -/

theorem decode_cons_of_not_high (u : UInt16) (rest : List UInt16) (plain : isHigh u = false) :
    decode (u :: rest) = single u :: decode rest := by
  cases rest with
  | nil => rfl
  | cons v rest => rw [decode, plain]; rfl

theorem decode_pair (u v : UInt16) (rest : List UInt16) (high : isHigh u = true) (low : isLow v = true) :
    decode (u :: v :: rest) = pair u v :: decode rest := by
  rw [decode, high, low]
  rfl

/-- A string is read in two parts when the cut is not after a high surrogate. -/
theorem decode_append (s t : List UInt16) (uncut : ∀ u, s.getLast? = some u → isHigh u = false) :
    decode (s ++ t) = decode s ++ decode t := by
  fun_induction decode s with
  | case1 => rfl
  | case2 u => exact decode_cons_of_not_high u t (uncut u rfl)
  | case3 u v rest both ih =>
    obtain ⟨high, low⟩ := Bool.and_eq_true_iff.mp both
    rw [List.cons_append, List.cons_append, decode_pair u v _ high low, ih ?_, List.cons_append]
    intro w last
    refine uncut w ?_
    cases rest with
    | nil => cases last
    | cons x rest => rw [List.getLast?_cons_cons, List.getLast?_cons_cons, last]
  | case4 u v rest apart ih =>
    rw [List.cons_append, List.cons_append, decode, if_neg apart, List.cons_append, ← List.cons_append]
    exact congrArg _ (ih fun w last => uncut w (by rw [List.getLast?_cons_cons, last]))

/-! ## Encoding -/

theorem toNat_ofNat (n : Nat) (small : n < 0x10000) : (UInt16.ofNat n).toNat = n := by
  rw [UInt16.toNat_ofNat']
  exact Nat.mod_eq_of_lt small

/-- What is no surrogate is one unit, read as itself. -/
theorem single_ofNat (c : Char) (basic : c.toNat < 0x10000) :
    isHigh (UInt16.ofNat c.toNat) = false ∧ single (UInt16.ofNat c.toNat) = c := by
  have valid : c.toNat < 0xD800 ∨ 0xDFFF < c.toNat ∧ c.toNat < 0x110000 := c.valid
  have same := toNat_ofNat c.toNat basic
  have high : isHigh (UInt16.ofNat c.toNat) = false := by
    rw [isHigh, same, Bool.and_eq_false_iff, decide_eq_false_iff_not, decide_eq_false_iff_not]
    omega
  have low : isLow (UInt16.ofNat c.toNat) = false := by
    rw [isLow, same, Bool.and_eq_false_iff, decide_eq_false_iff_not, decide_eq_false_iff_not]
    omega
  refine ⟨high, ?_⟩
  rw [single, high, low, same]
  exact Char.ofNat_toNat c

/-- A character beyond the basic plane is two surrogates, read as itself. -/
theorem pair_ofNat (c : Char) (beyond : 0x10000 ≤ c.toNat) :
    isHigh (UInt16.ofNat (0xD800 + (c.toNat - 0x10000) / 0x400)) = true ∧
      isLow (UInt16.ofNat (0xDC00 + (c.toNat - 0x10000) % 0x400)) = true ∧
      pair (UInt16.ofNat (0xD800 + (c.toNat - 0x10000) / 0x400))
        (UInt16.ofNat (0xDC00 + (c.toNat - 0x10000) % 0x400)) = c := by
  have valid : c.toNat < 0xD800 ∨ 0xDFFF < c.toNat ∧ c.toNat < 0x110000 := c.valid
  have high := toNat_ofNat (0xD800 + (c.toNat - 0x10000) / 0x400) (by omega)
  have low := toNat_ofNat (0xDC00 + (c.toNat - 0x10000) % 0x400) (by omega)
  refine ⟨?_, ?_, ?_⟩
  · rw [isHigh, high, Bool.and_eq_true, decide_eq_true_eq, decide_eq_true_eq]
    omega
  · rw [isLow, low, Bool.and_eq_true, decide_eq_true_eq, decide_eq_true_eq]
    omega
  · have back : 0x10000 + (0xD800 + (c.toNat - 0x10000) / 0x400 - 0xD800) * 0x400 +
        (0xDC00 + (c.toNat - 0x10000) % 0x400 - 0xDC00) = c.toNat := by omega
    rw [pair, high, low, back]
    exact Char.ofNat_toNat c

/-- A string without lone surrogates says what was encoded. -/
theorem decode_encode (text : List Char) : decode (encode text) = text := by
  induction text with
  | nil => rfl
  | cons c rest ih =>
    rw [encode, List.flatMap_cons, ← encode, encodeChar]
    split
    next basic =>
      obtain ⟨plain, same⟩ := single_ofNat c basic
      rw [List.singleton_append, decode_cons_of_not_high _ _ plain, same, ih]
    next beyond =>
      obtain ⟨high, low, same⟩ := pair_ofNat c (by omega)
      rw [List.cons_append, List.singleton_append, decode_pair _ _ _ high low, same, ih]

/-! ## The length of the UTF-8 encoding -/

theorem utf8_append (s t : List UInt16) (uncut : ∀ u, s.getLast? = some u → isHigh u = false) :
    utf8 (s ++ t) = utf8 s ++ utf8 t := by
  rw [utf8, decode_append s t uncut, List.flatMap_append]
  rfl

theorem isHigh_of_ascii (u : UInt16) (ascii : u < 0x80) : isHigh u = false := by
  have small : u.toNat < 0x80 := ascii
  rw [isHigh, Bool.and_eq_false_iff, decide_eq_false_iff_not, decide_eq_false_iff_not]
  omega

theorem utf8Size_eq_one_iff (c : Char) : c.utf8Size = 1 ↔ c.toNat < 0x80 := by
  rw [Char.utf8Size_eq_one_iff, UInt32.le_iff_toNat_le]
  exact Nat.lt_succ_iff.symm

theorem toNat_char (n : Nat) (valid : n.isValidChar) : (Char.ofNat n).toNat = n := by
  rw [Char.ofNat, dif_pos valid]
  rfl

/-- A unit outside of a pair takes one byte if it is ASCII, and more else. -/
theorem utf8Size_single (u : UInt16) : (single u).utf8Size = 1 ↔ u < 0x80 := by
  have ascii : u < 0x80 ↔ u.toNat < 0x80 := Iff.rfl
  rw [utf8Size_eq_one_iff, ascii, single]
  split
  next surrogate =>
    have replaced : (Char.ofNat 0xFFFD).toNat = 0xFFFD := by decide
    simp only [isHigh, isLow, Bool.or_eq_true, Bool.and_eq_true, decide_eq_true_eq] at surrogate
    rw [replaced]
    omega
  next plain =>
    have bound := u.toNat_lt
    have valid : u.toNat.isValidChar := by
      simp only [isHigh, isLow, Bool.or_eq_true, Bool.and_eq_true, decide_eq_true_eq] at plain
      rw [Nat.isValidChar]
      omega
    rw [toNat_char _ valid]

theorem utf8Size_pair (u v : UInt16) (high : isHigh u = true) (low : isLow v = true) :
    (pair u v).utf8Size = 4 := by
  simp only [isHigh, isLow, Bool.and_eq_true, decide_eq_true_eq] at high low
  have valid : (0x10000 + (u.toNat - 0xD800) * 0x400 + (v.toNat - 0xDC00)).isValidChar := by
    rw [Nat.isValidChar]
    omega
  have value : (pair u v).toNat = 0x10000 + (u.toNat - 0xD800) * 0x400 + (v.toNat - 0xDC00) := by
    rw [pair, toNat_char _ valid]
  rw [Char.utf8Size_eq_four_iff, UInt32.lt_iff_toNat_lt]
  change 0xFFFF < (pair u v).toNat
  omega

/-- There are at least as many bytes as units, and as many for ASCII strings only. -/
theorem length_utf8 (s : List UInt16) :
    s.length ≤ (utf8 s).length ∧ ((utf8 s).length ≤ s.length ↔ ∀ u ∈ s, u < 0x80) := by
  simp only [utf8, List.length_flatMap, String.length_utf8EncodeChar]
  fun_induction decode s with
  | case1 => simp
  | case2 u =>
    have size := utf8Size_single u
    have some := (single u).utf8Size_pos
    simp only [List.map_cons, List.map_nil, List.sum_cons, List.sum_nil, List.length_singleton,
      List.forall_mem_singleton, ← size]
    omega
  | case3 u v rest both ih =>
    obtain ⟨high, low⟩ := Bool.and_eq_true_iff.mp both
    have size := utf8Size_pair u v high low
    -- Two units make four bytes, and neither is ASCII.
    have beyond : ¬ u < 0x80 := fun ascii => by
      rw [isHigh_of_ascii u ascii] at high
      cases high
    simp only [List.map_cons, List.sum_cons, List.length_cons, List.forall_mem_cons, size, beyond,
      false_and, iff_false]
    omega
  | case4 u v rest apart ih =>
    have size := utf8Size_single u
    have some := (single u).utf8Size_pos
    obtain ⟨more, exactly⟩ := ih
    rw [List.forall_mem_cons, ← size, ← exactly]
    simp only [List.map_cons, List.sum_cons, List.length_cons] at *
    omega

end Utf16
