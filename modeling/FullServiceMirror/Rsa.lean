import Mathlib.Data.List.TakeWhile
import Mathlib.Data.Nat.ChineseRemainder
import Mathlib.Data.Nat.Digits.Lemmas
import Mathlib.FieldTheory.Finite.Basic
import Mathlib.NumberTheory.LucasPrimality

/-!
# RSA with PKCS#1 v1.5 padding

The textbook scheme over a product of distinct primes. Both operations of a key
take blocks of `k` octets to blocks of `k` octets, and each undoes the other.
Padding is strict: an octet string is the padding of at most one message.
-/
namespace Rsa

abbrev Octets := List UInt8

/-! ## Octets and numbers -/

/-- Most significant octet first. -/
def fromOctets (block : Octets) : Nat := Nat.ofDigits 256 (block.reverse.map UInt8.toNat)

def toOctets (k n : Nat) : Octets := (List.range k).reverse.map fun i => UInt8.ofNat (n / 256 ^ i)

theorem digits_lt (block : Octets) : ∀ x ∈ block.reverse.map UInt8.toNat, x < 256 := by
  intro x member
  obtain ⟨b, _, rfl⟩ := List.mem_map.mp member
  exact b.toNat_lt

theorem fromOctets_lt (block : Octets) : fromOctets block < 256 ^ block.length := by
  have bound := Nat.ofDigits_lt_base_pow_length (by decide) (digits_lt block)
  rwa [List.length_map, List.length_reverse] at bound

theorem fromOctets_zero_cons (block : Octets) : fromOctets (0 :: block) = fromOctets block := by
  rw [fromOctets, List.reverse_cons, List.map_append, Nat.ofDigits_append]
  simp [fromOctets]

/-- Blocks of one length differ as numbers. -/
theorem fromOctets_inj (block block' : Octets) (length : block.length = block'.length)
    (same : fromOctets block = fromOctets block') : block = block' := by
  have digits := Nat.ofDigits_inj_of_len_eq (by decide) (by simpa using length) (digits_lt block)
    (digits_lt block') same
  exact List.reverse_injective (List.map_injective_iff.mpr (fun _ _ => UInt8.toNat_inj.mp) digits)

theorem toOctets_length (k n : Nat) : (toOctets k n).length = k := by
  rw [toOctets, List.length_map, List.length_reverse, List.length_range]

theorem fromOctets_toOctets (k n : Nat) (small : n < 256 ^ k) : fromOctets (toOctets k n) = n := by
  have octets : (toOctets k n).reverse.map UInt8.toNat = (List.range k).map fun i => n / 256 ^ i % 256 := by
    simp [toOctets, Function.comp_def]
  rw [fromOctets, octets]
  clear octets
  induction k generalizing n with
  | zero =>
    have zero : n = 0 := by simpa using small
    rw [zero]
    rfl
  | succ k ih =>
    have shorter : n / 256 < 256 ^ k := by
      rw [Nat.pow_succ] at small
      omega
    have rest := ih (n / 256) shorter
    simp only [Nat.div_div_eq_div_mul, ← Nat.pow_succ'] at rest
    rw [List.range_succ_eq_map, List.map_cons, List.map_map, Nat.ofDigits_cons]
    simp only [Function.comp_def, Nat.succ_eq_add_one, rest, Nat.pow_zero, Nat.div_one]
    exact Nat.mod_add_div n 256

theorem toOctets_fromOctets (block : Octets) : toOctets block.length (fromOctets block) = block :=
  fromOctets_inj _ block (toOctets_length _ _) (fromOctets_toOctets _ _ (fromOctets_lt block))

/-! ## Raising to a power -/

/-- The power modulo `n`, by the lowest hexadecimal digits of the exponent. -/
def powDigits (n x : Nat) : Nat → Nat → Nat
  | 0, _ => 1 % n
  | digits + 1, exponent => powDigits n x digits (exponent / 16) ^ 16 % n * x ^ (exponent % 16) % n

theorem powDigits_eq (n x digits exponent : Nat) (small : exponent < 16 ^ digits) :
    powDigits n x digits exponent = x ^ exponent % n := by
  induction digits generalizing exponent with
  | zero =>
    have zero : exponent = 0 := by simpa using small
    rw [zero, powDigits, Nat.pow_zero]
  | succ digits ih =>
    have shorter : exponent / 16 < 16 ^ digits := by
      rw [Nat.pow_succ] at small
      omega
    calc powDigits n x (digits + 1) exponent
        = (x ^ (exponent / 16) % n) ^ 16 % n * x ^ (exponent % 16) % n := by rw [powDigits, ih _ shorter]
      _ = x ^ (exponent / 16 * 16 + exponent % 16) % n := by
        rw [← Nat.pow_mod, ← pow_mul, Nat.mod_mul_mod, ← pow_add]
      _ = x ^ exponent % n := by rw [Nat.div_add_mod']

/-- `x ^ exponent % n`, also where the power itself would be too large to write down. -/
def powMod (n x exponent : Nat) : Nat := powDigits n x (exponent.log2 / 4 + 1) exponent

theorem powMod_eq (n x exponent : Nat) : powMod n x exponent = x ^ exponent % n := by
  apply powDigits_eq
  calc exponent < 2 ^ (exponent.log2 + 1) := Nat.lt_log2_self
    _ ≤ 2 ^ (4 * (exponent.log2 / 4 + 1)) := Nat.pow_le_pow_right (by decide) (by omega)
    _ = 16 ^ (exponent.log2 / 4 + 1) := pow_mul 2 4 _

/-- Lucas's test for one more than a power of two times a prime. -/
theorem prime_of_powMod (p k m x : Nat) (prime : k.Prime) (shape : p = k * 2 ^ m + 1)
    (fermat : powMod p x (p - 1) = 1) (half : powMod p x ((p - 1) / 2) ≠ 1)
    (cofactor : powMod p x ((p - 1) / k) ≠ 1) : p.Prime := by
  have large : 1 % p = 1 := by
    have : 0 < k * 2 ^ m := Nat.mul_pos prime.pos (Nat.two_pow_pos m)
    exact Nat.mod_eq_of_lt (by omega)
  -- Powers that are 1 modulo `p` are what `powMod` computes.
  have unit_iff (exponent : Nat) : (x : ZMod p) ^ exponent = 1 ↔ powMod p x exponent = 1 := by
    rw [powMod_eq, ← Nat.cast_pow, ← Nat.cast_one, ZMod.natCast_eq_natCast_iff', large]
  refine lucas_primality p x ((unit_iff _).mpr fermat) fun q prime_q divides unit => ?_
  rw [unit_iff] at unit
  -- A prime factor of the exponent is `k` or two.
  rw [shape, Nat.add_sub_cancel, Nat.Prime.dvd_mul prime_q] at divides
  rcases divides with divides_k | divides_two
  · rw [(Nat.prime_dvd_prime_iff_eq prime_q prime).mp divides_k] at unit
    exact cofactor unit
  · rw [(Nat.prime_dvd_prime_iff_eq prime_q Nat.prime_two).mp (prime_q.dvd_of_dvd_pow divides_two)] at unit
    exact half unit

/-- Fermat's little theorem, for exponents that are 1 modulo `p - 1`. -/
theorem pow_modEq_of_prime (p m : Nat) (prime : p.Prime) (positive : 0 < m) (exponent : p - 1 ∣ m - 1)
    (x : Nat) : x ^ m ≡ x [MOD p] := by
  by_cases divides : p ∣ x
  · have zero : x ≡ 0 [MOD p] := (Nat.modEq_zero_iff_dvd).mpr divides
    calc x ^ m ≡ 0 ^ m [MOD p] := zero.pow m
      _ ≡ x [MOD p] := by rw [Nat.zero_pow positive]; exact zero.symm
  · obtain ⟨c, cofactor⟩ := exponent
    have coprime : x.Coprime p := ((Nat.Prime.coprime_iff_not_dvd prime).mpr divides).symm
    have fermat := Nat.ModEq.pow_card_sub_one_eq_one prime coprime
    calc x ^ m = (x ^ (p - 1)) ^ c * x := by rw [← pow_mul, ← cofactor, ← pow_succ, Nat.sub_add_cancel positive]
      _ ≡ 1 ^ c * x [MOD p] := (fermat.pow c).mul_right x
      _ = x := by rw [one_pow, one_mul]

theorem pow_modEq_of_primes (primes : List Nat) (m : Nat) (prime : ∀ p ∈ primes, p.Prime)
    (distinct : primes.Nodup) (positive : 0 < m) (exponent : ∀ p ∈ primes, p - 1 ∣ m - 1) (x : Nat) :
    x ^ m ≡ x [MOD primes.prod] := by
  have coprime : primes.Pairwise Nat.Coprime := by
    refine List.Pairwise.imp_of_mem (fun {p q} member member' different => ?_) distinct
    exact (Nat.coprime_primes (prime p member) (prime q member')).mpr different
  refine (Nat.modEq_list_prod_iff coprime).mpr fun i => ?_
  have member := List.get_mem primes i
  exact pow_modEq_of_prime _ m (prime _ member) positive (exponent _ member) x

/-- A key of `k` octets, public exponent `e` and private exponent `d`. -/
structure Key where
  n : Nat
  e : Nat
  d : Nat
  k : Nat
  large : 256 ^ (k - 1) ≤ n
  fits : n ≤ 256 ^ k
  inverse : ∀ x < n, x ^ (e * d) % n = x

def Key.ofPrimes (primes : List Nat) (e d k : Nat) (prime : ∀ p ∈ primes, p.Prime)
    (distinct : primes.Nodup) (large : 256 ^ (k - 1) ≤ primes.prod) (fits : primes.prod ≤ 256 ^ k)
    (positive : 0 < e * d) (exponent : ∀ p ∈ primes, p - 1 ∣ e * d - 1) : Key where
  n := primes.prod
  e := e
  d := d
  k := k
  large := large
  fits := fits
  inverse := by
    intro x small
    have same := pow_modEq_of_primes primes (e * d) prime distinct positive exponent x
    rwa [Nat.ModEq, Nat.mod_eq_of_lt small] at same

variable (key : Key)

/-- The operation with one of the exponents; blocks beyond the modulus are refused. -/
def Key.raise (exponent : Nat) (block : Octets) : Option Octets :=
  if block.length = key.k ∧ fromOctets block < key.n then
    some (toOctets key.k (powMod key.n (fromOctets block) exponent))
  else none

theorem Key.raise_length (exponent : Nat) (block raised : Octets)
    (result : key.raise exponent block = some raised) : raised.length = key.k := by
  unfold raise at result
  split at result
  · cases result
    exact toOctets_length _ _
  · cases result

/-- The two exponents undo each other. -/
theorem Key.raise_raise (a b : Nat) (pair : a * b = key.e * key.d) (block raised : Octets)
    (result : key.raise a block = some raised) : key.raise b raised = some block := by
  have full := key.raise_length a block raised result
  simp only [raise, powMod_eq] at result ⊢
  split at result
  next valid =>
    obtain ⟨length, small⟩ := valid
    cases result
    have below : fromOctets block ^ a % key.n < key.n := Nat.mod_lt _ (by omega)
    rw [fromOctets_toOctets _ _ (Nat.lt_of_lt_of_le below key.fits), if_pos ⟨full, below⟩]
    rw [← Nat.pow_mod, ← pow_mul, pair, key.inverse _ small, ← length, toOctets_fromOctets]
  · cases result

/-! ## Padding -/

/-- A block type and the octets that may fill up a block. -/
structure Padding where
  tag : UInt8
  fills : UInt8 → Bool
  stops : fills 0 = false

/-- Block type 1, for operations with the private key. -/
def signing : Padding where
  tag := 1
  fills b := b = 0xFF
  stops := by decide

/-- Block type 2, for operations with the public key. -/
def encrypting : Padding where
  tag := 2
  fills b := b ≠ 0
  stops := by decide

variable (padding : Padding)

def Padding.pad (fill data : Octets) : Octets := 0 :: padding.tag :: (fill ++ 0 :: data)

def Padding.unpad : Octets → Option Octets
  | first :: tag :: rest =>
    match rest.dropWhile padding.fills with
    | separator :: data =>
      if first = 0 ∧ tag = padding.tag ∧ 8 ≤ (rest.takeWhile padding.fills).length ∧ separator = 0 then
        some data
      else none
    | [] => none
  | _ => none

theorem Padding.pad_length (fill data : Octets) :
    (padding.pad fill data).length = fill.length + data.length + 3 := by
  simp only [pad, List.length_cons, List.length_append]
  omega

theorem Padding.unpad_pad (fill data : Octets) (filled : ∀ b ∈ fill, padding.fills b = true)
    (long : 8 ≤ fill.length) : padding.unpad (padding.pad fill data) = some data := by
  have prefixed : (fill ++ 0 :: data).takeWhile padding.fills = fill := by
    rw [List.takeWhile_append_of_pos filled, List.takeWhile_cons_of_neg (by simp [padding.stops]),
      List.append_nil]
  have remains : (fill ++ 0 :: data).dropWhile padding.fills = 0 :: data := by
    rw [List.dropWhile_append_of_pos filled, List.dropWhile_cons_of_neg (by simp [padding.stops])]
  simp only [pad, unpad, prefixed, remains, long, and_self, if_true]

/-- What is unpadded was padded. -/
theorem Padding.pad_of_unpad (block data : Octets) (result : padding.unpad block = some data) :
    ∃ fill, (∀ b ∈ fill, padding.fills b = true) ∧ 8 ≤ fill.length ∧ block = padding.pad fill data := by
  unfold unpad at result
  split at result
  next first tag rest =>
    split at result
    next separator remaining found =>
      split at result
      next valid =>
        obtain ⟨rfl, rfl, long, rfl⟩ := valid
        cases result
        refine ⟨rest.takeWhile padding.fills, fun b member => List.mem_takeWhile_imp member, long, ?_⟩
        rw [pad, ← found, List.takeWhile_append_dropWhile]
      · cases result
    · cases result
  · cases result

/-! ## Encryption and decryption -/

/-- Pad a message with the octets that `fill` gives, and raise the block. -/
def Key.encryptWith (exponent : Nat) (fill : Nat → UInt8) (data : Octets) : Except String Octets :=
  if key.k < data.length + 11 then .error "DATA_TOO_LARGE_FOR_KEY_SIZE"
  else
    match key.raise exponent (padding.pad ((List.range (key.k - 3 - data.length)).map fill) data) with
    | some block => .ok block
    | none => .error "DATA_TOO_LARGE_FOR_MODULUS"

def Key.decryptWith (exponent : Nat) (block : Octets) : Except String Octets :=
  match key.raise exponent block with
  | none => .error "DATA_TOO_LARGE_FOR_MODULUS"
  | some raised =>
    match padding.unpad raised with
    | some data => .ok data
    | none => .error "PADDING_CHECK_FAILED"

def Key.privateEncrypt (data : Octets) : Except String Octets :=
  key.encryptWith signing key.d (fun _ => 0xFF) data

def Key.publicDecrypt (block : Octets) : Except String Octets := key.decryptWith signing key.e block

/-- The octets drawn at random may not be zero. -/
def Key.publicEncrypt (random data : Octets) : Except String Octets :=
  key.encryptWith encrypting key.e (fun i => if random.getD i 0 = 0 then 1 else random.getD i 0) data

def Key.privateDecrypt (block : Octets) : Except String Octets := key.decryptWith encrypting key.d block

/-- Blocks of other lengths are refused, and the padding takes eleven octets at least. -/
theorem Key.decryptWith_length (exponent : Nat) (block data : Octets)
    (decrypted : key.decryptWith padding exponent block = .ok data) :
    block.length = key.k ∧ data.length + 11 ≤ key.k := by
  unfold decryptWith at decrypted
  split at decrypted
  · cases decrypted
  next raised result =>
    split at decrypted
    next unpadded =>
      cases decrypted
      obtain ⟨fill, _, long, rfl⟩ := padding.pad_of_unpad raised data unpadded
      have full := key.raise_length _ _ _ result
      rw [padding.pad_length] at full
      unfold raise at result
      split at result
      next valid => exact ⟨valid.1, by omega⟩
      · cases result
    · cases decrypted

/-- A padded message of the right length starts with a zero and is below the modulus. -/
theorem Key.raise_pad (exponent : Nat) (fill data : Octets)
    (length : fill.length + data.length + 3 = key.k) :
    ∃ block, key.raise exponent (padding.pad fill data) = some block := by
  have full := padding.pad_length fill data
  have small : fromOctets (padding.pad fill data) < key.n := by
    -- The first octet is zero, so the number is one of `k - 1` octets.
    have bound := fromOctets_lt (padding.tag :: (fill ++ 0 :: data))
    rw [Padding.pad, fromOctets_zero_cons]
    refine Nat.lt_of_lt_of_le bound (Nat.le_trans (Nat.pow_le_pow_right (by decide) ?_) key.large)
    simp only [List.length_cons, List.length_append]
    omega
  exact ⟨_, if_pos ⟨full.trans length, small⟩⟩

/-- What is encrypted with one exponent is decrypted with the other. -/
theorem Key.decryptWith_encryptWith (a b : Nat) (pair : a * b = key.e * key.d) (fill : Nat → UInt8)
    (filled : ∀ i, padding.fills (fill i) = true) (data : Octets) (room : data.length + 11 ≤ key.k) :
    ∃ block, key.encryptWith padding a fill data = .ok block ∧ block.length = key.k ∧
      key.decryptWith padding b block = .ok data := by
  have length : ((List.range (key.k - 3 - data.length)).map fill).length + data.length + 3 = key.k := by
    rw [List.length_map, List.length_range]
    omega
  obtain ⟨block, raised⟩ := key.raise_pad padding a _ data length
  refine ⟨block, ?_, key.raise_length _ _ _ raised, ?_⟩
  · rw [encryptWith, if_neg (by omega), raised]
  · rw [decryptWith, key.raise_raise a b pair _ _ raised]
    simp only
    rw [padding.unpad_pad _ _ (by simpa using fun i _ => filled i) (by omega)]

theorem Key.publicDecrypt_privateEncrypt (data : Octets) (room : data.length + 11 ≤ key.k) :
    ∃ block, key.privateEncrypt data = .ok block ∧ block.length = key.k ∧
      key.publicDecrypt block = .ok data :=
  key.decryptWith_encryptWith signing key.d key.e (Nat.mul_comm _ _) _ (fun _ => by decide) data room

theorem Key.privateDecrypt_publicEncrypt (random data : Octets) (room : data.length + 11 ≤ key.k) :
    ∃ block, key.publicEncrypt random data = .ok block ∧ block.length = key.k ∧
      key.privateDecrypt block = .ok data := by
  refine key.decryptWith_encryptWith encrypting key.e key.d rfl _ (fun i => ?_) data room
  split
  · decide
  next nonzero => exact decide_eq_true nonzero

/-- Only what the private key encrypted decrypts under the public key: the
padding of block type 1 is determined by the message. -/
theorem Key.privateEncrypt_of_publicDecrypt (block data : Octets)
    (decrypted : key.publicDecrypt block = .ok data) : key.privateEncrypt data = .ok block := by
  unfold publicDecrypt decryptWith at decrypted
  split at decrypted
  · cases decrypted
  next raised result =>
    split at decrypted
    next unpadded =>
      cases decrypted
      obtain ⟨fill, filled, long, rfl⟩ := signing.pad_of_unpad raised data unpadded
      have length := (signing.pad_length fill data).symm.trans (key.raise_length _ _ _ result)
      -- Raising what was decrypted gives the block back.
      have back := key.raise_raise key.e key.d rfl block _ result
      -- The octets of this fill are all the same, and the length says how many there are.
      have forced : (List.range (key.k - 3 - data.length)).map (fun _ => (0xFF : UInt8)) = fill := by
        have count : key.k - 3 - data.length = fill.length := by omega
        rw [count, List.map_const', List.length_range]
        exact (List.eq_replicate_iff.mpr ⟨rfl, fun b member => of_decide_eq_true (filled b member)⟩).symm
      rw [privateEncrypt, encryptWith, if_neg (by omega), forced, back]
    · cases decrypted

theorem Key.privateEncrypt_length (data block : Octets) (encrypted : key.privateEncrypt data = .ok block) :
    data.length + 11 ≤ key.k ∧ block.length = key.k := by
  unfold privateEncrypt encryptWith at encrypted
  split at encrypted
  · cases encrypted
  next room =>
    split at encrypted
    next raised result =>
      cases encrypted
      exact ⟨by omega, key.raise_length _ _ _ result⟩
    · cases encrypted

theorem Key.publicDecrypt_iff (block data : Octets) :
    key.publicDecrypt block = .ok data ↔ key.privateEncrypt data = .ok block := by
  refine ⟨key.privateEncrypt_of_publicDecrypt block data, fun encrypted => ?_⟩
  obtain ⟨block', encrypted', _, decrypted⟩ :=
    key.publicDecrypt_privateEncrypt data (key.privateEncrypt_length data block encrypted).1
  rw [encrypted] at encrypted'
  cases encrypted'
  exact decrypted

/-! ## Signatures -/

/-- The number of octets of a modulus. -/
def octetLength (n : Nat) : Nat := n.log2 / 8 + 1

theorem Key.octetLength_eq (positive : 0 < key.k) (below : key.n < 256 ^ key.k) :
    octetLength key.n = key.k := by
  have octets (k : Nat) : 256 ^ k = 2 ^ (8 * k) := (pow_mul 2 8 k).symm
  have large := key.large
  rw [octets] at large below
  have nonzero : key.n ≠ 0 := by
    have := Nat.two_pow_pos (8 * (key.k - 1))
    omega
  -- The modulus takes `key.k` octets and no fewer.
  have lower := (Nat.le_log2 nonzero).mpr large
  have upper := (Nat.log2_lt nonzero).mpr below
  rw [octetLength]
  omega

/-- The check of a signature: what the public exponent makes of it is the padded data. -/
def verify (n e : Nat) (data signature : Octets) : Bool :=
  signature.length = octetLength n && fromOctets signature < n &&
    signing.unpad (toOctets (octetLength n) (powMod n (fromOctets signature) e)) = some data

/-- Exactly what the private key makes of the data verifies. -/
theorem Key.verify_iff (positive : 0 < key.k) (below : key.n < 256 ^ key.k) (data signature : Octets) :
    verify key.n key.e data signature = true ↔ key.privateEncrypt data = .ok signature := by
  rw [← key.publicDecrypt_iff, publicDecrypt, decryptWith, raise]
  simp only [verify, key.octetLength_eq positive below, Bool.and_eq_true, decide_eq_true_eq]
  -- Outside the valid range both sides refuse.
  by_cases valid : signature.length = key.k ∧ fromOctets signature < key.n
  · rw [if_pos valid]
    simp only [valid, true_and]
    cases signing.unpad (toOctets key.k (powMod key.n (fromOctets signature) key.e)) <;> simp
  · rw [if_neg valid]
    simp [valid]

end Rsa
