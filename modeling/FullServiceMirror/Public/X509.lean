import FullServiceMirror.Public.Utils
import FullServiceMirror.Sha256

/-!
# Certificates signed with RSA

A parser of PEM files whose certificates are signed with RSA and SHA-256; any
other signature algorithm is unsupported. A signature verifies under a key
exactly where the private half of the key made it.
-/
namespace FullServiceMirror

open Rust

/-! ## PEM -/

def base64Value (c : Nat) : Option Nat :=
  if 65 ≤ c && c ≤ 90 then some (c - 65)
  else if 97 ≤ c && c ≤ 122 then some (c - 71)
  else if 48 ≤ c && c ≤ 57 then some (c + 4)
  else if c = 43 then some 62
  else if c = 47 then some 63
  else none

/-- Four characters of six bits each make three bytes, fewer at the end. -/
def base64 : List Nat → Bytes
  | a :: b :: c :: d :: rest =>
    let n := ((a * 64 + b) * 64 + c) * 64 + d
    UInt8.ofNat (n / 65536) :: UInt8.ofNat (n / 256) :: UInt8.ofNat n :: base64 rest
  | [a, b, c] =>
    let n := (a * 64 + b) * 64 + c
    [UInt8.ofNat (n / 1024), UInt8.ofNat (n / 4)]
  | [a, b] => [UInt8.ofNat ((a * 64 + b) / 16)]
  | _ => []

def beginLine : Bytes := asBytes "-----BEGIN CERTIFICATE-----"

def endLine : Bytes := asBytes "-----END CERTIFICATE-----"

/-- A reader of `CERTIFICATE` blocks: the lines of one block up to its end, and
the lines after it. -/
def readPem (bytes : Bytes) : Except String (Bytes × Pem) :=
  let lines := bytes.splitOn 10
  match lines.takeWhile (· ≠ endLine), (lines.dropWhile (· ≠ endLine)).drop 1 with
  | header :: body, rest =>
    if header = beginLine then
      let values := body.flatten.filterMap fun b => base64Value b.toNat
      .ok ([10].intercalate rest, { label := "CERTIFICATE", contents := base64 values })
    else .error "MissingHeader"
  | [], _ => .error "MissingHeader"

/-! ## DER -/

/-- One element, with the bytes it consists of. -/
structure Element where
  contents : Bytes
  raw : Bytes

def splitElement (header : Bytes) (length : Nat) (rest : Bytes) : Option (Element × Bytes) :=
  if length ≤ rest.length then
    some ({ contents := rest.take length, raw := header ++ rest.take length }, rest.drop length)
  else none

/-- Lengths take one byte below 128, else one or two more. -/
def readElement : Bytes → Option (Element × Bytes)
  | tag :: 0x82 :: high :: low :: rest =>
    splitElement [tag, 0x82, high, low] (256 * high.toNat + low.toNat) rest
  | tag :: 0x81 :: length :: rest => splitElement [tag, 0x81, length] length.toNat rest
  | tag :: length :: rest => if length < 0x80 then splitElement [tag, length] length.toNat rest else none
  | _ => none

/-- At most `n` elements, with nothing after them. -/
def readElements : Nat → Bytes → Option (List Element)
  | _, [] => some []
  | 0, _ => none
  | n + 1, bytes => do
    let (element, rest) ← readElement bytes
    return element :: (← readElements n rest)

/-- The parts of a certificate that its verification reads. -/
structure X509Certificate where
  tbsCertificate : Bytes
  signatureAlgorithm : Bytes
  subjectPki : Bytes
  signatureValue : Bytes
  deriving DecidableEq, Repr

def readCertificate (bytes : Bytes) : Option (Bytes × X509Certificate) := do
  let (certificate, rem) ← readElement bytes
  let [tbs, algorithm, signature] ← readElements 3 certificate.contents | none
  let (identifier, _) ← readElement algorithm.contents
  -- Version, serial number, algorithm, issuer, validity and subject come before the key.
  let _ :: _ :: _ :: _ :: _ :: _ :: subjectPki :: _ ← readElements 10 tbs.contents | none
  return (rem, {
    tbsCertificate := tbs.raw
    signatureAlgorithm := identifier.contents
    subjectPki := subjectPki.contents
    -- The first byte of a bit string counts its unused bits.
    signatureValue := signature.contents.drop 1 })

/-- The modulus and the exponent of a public key. -/
def readRsaKey (subjectPki : Bytes) : Option (Nat × Nat) := do
  let [_, bits] ← readElements 2 subjectPki | none
  let (key, _) ← readElement (bits.contents.drop 1)
  let [n, e] ← readElements 2 key.contents | none
  return (Rsa.fromOctets n.contents, Rsa.fromOctets e.contents)

/-! ## Signatures -/

/-- The object identifier 1.2.840.113549.1.1.11. -/
def sha256WithRsaEncryption : Bytes := [0x2a, 0x86, 0x48, 0x86, 0xf7, 0x0d, 0x01, 0x01, 0x0b]

/-- What is signed of some data: their digest, with the name of the hash function. -/
def digestInfo (data : Bytes) : Bytes :=
  [0x30, 0x31, 0x30, 0x0d, 0x06, 0x09, 0x60, 0x86, 0x48, 0x01, 0x65, 0x03, 0x04, 0x02, 0x01, 0x05, 0x00,
    0x04, 0x20] ++ Sha256.digest data

/-- Keys of 2048 to 8192 bits, in whole bytes. -/
def verifiesRsa (subjectPki data signature : Bytes) : Bool :=
  match readRsaKey subjectPki with
  | some (n, e) =>
    256 ≤ Rsa.octetLength n && Rsa.octetLength n ≤ 1024 && Rsa.verify n e (digestInfo data) signature
  | none => false

def rsaX509 : X509Parser X509Certificate Bytes where
  pemToDer := readPem
  parseX509Der bytes :=
    match readCertificate bytes with
    | some parsed => .ok parsed
    | none => .error "InvalidCertificate"
  subjectPki := X509Certificate.subjectPki
  verifySignature cert key :=
    if cert.signatureAlgorithm = sha256WithRsaEncryption then
      if verifiesRsa (key.getD cert.subjectPki) cert.tbsCertificate cert.signatureValue then .ok ()
      else .error .signatureVerificationError
    else .error (.other "SignatureUnsupportedAlgorithm")

/-- A certificate of this algorithm verifies or has a bad signature. -/
theorem verifySignature_rsa (cert : X509Certificate) (pki : Bytes)
    (algorithm : cert.signatureAlgorithm = sha256WithRsaEncryption) :
    rsaX509.verifySignature cert (some pki) =
      if verifiesRsa pki cert.tbsCertificate cert.signatureValue then .ok ()
      else .error .signatureVerificationError :=
  if_pos algorithm

/-- A signature verifies under a public key exactly where the private key made it. -/
theorem verifiesRsa_iff (key : Rsa.Key) (long : 256 ≤ key.k) (short : key.k ≤ 1024)
    (below : key.n < 256 ^ key.k) (pki data signature : Bytes) (reads : readRsaKey pki = some (key.n, key.e)) :
    verifiesRsa pki data signature = true ↔ key.privateEncrypt (digestInfo data) = .ok signature := by
  rw [← key.verify_iff (by omega) below, verifiesRsa, reads]
  simp only [key.octetLength_eq (by omega) below, long, short, decide_true, Bool.true_and]

end FullServiceMirror
