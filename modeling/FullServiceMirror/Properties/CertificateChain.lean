import FullServiceMirror.Public.X509

/-!
# The self-signed check on certificate chains

The check reads the first block of the chain file and demands that nothing
follows it, so it classifies files with a single certificate. A chain with
issuers after the leaf is an error, and the public side does not start.
-/
namespace FullServiceMirror

open Rust

variable {Certificate PublicKeyInfo : Type}
variable {x509 : X509Parser Certificate PublicKeyInfo}

variable (x509) in
/-- The leaf's signature verifies under its own public key. -/
def SelfSigned (cert : Certificate) : Prop :=
  x509.verifySignature cert (some (x509.subjectPki cert)) = .ok ()

variable (x509) in
/-- A PEM block, followed by `rest`, that holds a well-formed certificate with a
supported signature algorithm. -/
structure CertificateBlock (block rest : Bytes) (cert : Certificate) : Prop where
  occupied : block ≠ []
  decodes : ∃ der, x509.pemToDer (block ++ rest) = .ok (rest, { label := "CERTIFICATE", contents := der }) ∧
    x509.parseX509Der der = .ok ([], cert)
  supported : SelfSigned x509 cert ∨
    x509.verifySignature cert (some (x509.subjectPki cert)) = .error .signatureVerificationError

variable (x509) in
/-- The concatenation of the blocks of some certificates, leaf first. -/
inductive Chain : List Certificate → Bytes → Prop
  | last (block : Bytes) (cert : Certificate) (holds : CertificateBlock x509 block [] cert) :
      Chain [cert] block
  | followed (block rest : Bytes) (cert : Certificate) (certs : List Certificate)
      (holds : CertificateBlock x509 block rest cert) (chain : Chain certs rest) :
      Chain (cert :: certs) (block ++ rest)

theorem Chain.ne_nil {certs : List Certificate} {bytes : Bytes} (chain : Chain x509 certs bytes) :
    bytes ≠ [] := by
  cases chain with
  | last block cert holds => exact holds.occupied
  | followed block rest cert certs holds chain =>
    intro empty
    exact holds.occupied (List.append_eq_nil_iff.mp empty).1

/-- A block with nothing after it is classified. -/
theorem isTlsSelfSigned_last (uri : ConnectionUri) (tls : uri.useTls = true) (block : Bytes)
    (cert : Certificate) (holds : CertificateBlock x509 block [] cert) (file : uri.tlsChain = .ok block) :
    (SelfSigned x509 cert ∧ isTlsSelfSigned x509 uri = .ok true) ∨
    (¬ SelfSigned x509 cert ∧ isTlsSelfSigned x509 uri = .ok false) := by
  -- Nothing is left after the block nor after the certificate in it.
  obtain ⟨der, decoded, parsed⟩ := holds.decodes
  rw [List.append_nil] at decoded
  rcases holds.supported with verifies | fails
  · refine Or.inl ⟨verifies, ?_⟩
    rw [SelfSigned] at verifies
    simp [isTlsSelfSigned, tls, file, decoded, parsed, verifies, Except.mapError, bind, Except.bind]
  · refine Or.inr ⟨fun verifies => ?_, ?_⟩
    · rw [SelfSigned, fails] at verifies
      cases verifies
    · simp [isTlsSelfSigned, tls, file, decoded, parsed, fails, Except.mapError, bind, Except.bind]

/-- A block with anything after it is an error. -/
theorem isTlsSelfSigned_followed (uri : ConnectionUri) (tls : uri.useTls = true) (block rest : Bytes)
    (cert : Certificate) (holds : CertificateBlock x509 block rest cert) (more : rest ≠ [])
    (file : uri.tlsChain = .ok (block ++ rest)) :
    isTlsSelfSigned x509 uri =
      .error ("Failed parsing PEM: rem=" ++ debugBytes rest ++ ", pem.label=CERTIFICATE") := by
  -- The guard on the remaining bytes comes before the certificate is looked at.
  obtain ⟨der, decoded, _⟩ := holds.decodes
  simp [isTlsSelfSigned, tls, file, decoded, more, Except.mapError, bind, Except.bind, String.append_assoc]

/-- **The self-signed check.** For a chain of a single certificate the check says
whether it is self-signed; for a chain with issuers after the leaf it is an error
that shows them, whatever the certificates are. Without `--allow-self-signed-tls`
the public side refuses to start exactly when the leaf is self-signed or has
issuers after it. -/
theorem self_signed_check_single (debug : String → String) (config : PublicConfig)
    (tls : config.mirrorListenUri.useTls = true) (leaf : Certificate) (issuers : List Certificate)
    (bytes : Bytes) (file : config.mirrorListenUri.tlsChain = .ok bytes)
    (chain : Chain x509 (leaf :: issuers) bytes) :
    (issuers = [] →
      (SelfSigned x509 leaf → isTlsSelfSigned x509 config.mirrorListenUri = .ok true) ∧
      (¬ SelfSigned x509 leaf → isTlsSelfSigned x509 config.mirrorListenUri = .ok false)) ∧
    (issuers ≠ [] → ∃ rest, Chain x509 issuers rest ∧ isTlsSelfSigned x509 config.mirrorListenUri =
      .error ("Failed parsing PEM: rem=" ++ debugBytes rest ++ ", pem.label=CERTIFICATE")) ∧
    (config.allowSelfSignedTls = false →
      ((∃ message, checkSelfSignedTls x509 debug config = .error (.panic message)) ↔
        SelfSigned x509 leaf ∨ issuers ≠ [])) ∧
    (config.allowSelfSignedTls = true → checkSelfSignedTls x509 debug config = .ok ()) := by
  have allowed : config.allowSelfSignedTls = true → checkSelfSignedTls x509 debug config = .ok () := by
    intro allow
    rw [checkSelfSignedTls, allow, if_pos rfl]
  cases chain with
  | last _ _ holds =>
    rcases isTlsSelfSigned_last _ tls bytes leaf holds file with ⟨verifies, result⟩ | ⟨fails, result⟩
    · refine ⟨fun _ => ⟨fun _ => result, fun fails => absurd verifies fails⟩, fun more => absurd rfl more,
        fun strict => ?_, allowed⟩
      simp [checkSelfSignedTls, strict, result, verifies]
    · refine ⟨fun _ => ⟨fun verifies => absurd verifies fails, fun _ => result⟩, fun more => absurd rfl more,
        fun strict => ?_, allowed⟩
      simp [checkSelfSignedTls, strict, result, fails]
  | followed block rest _ _ holds chain =>
    -- The blocks of the issuers remain after the first one.
    have more : issuers ≠ [] := by cases chain <;> simp
    have result := isTlsSelfSigned_followed _ tls block rest leaf holds chain.ne_nil file
    refine ⟨fun none => absurd none more, fun _ => ⟨rest, chain, result⟩, fun strict => ?_, allowed⟩
    simp [checkSelfSignedTls, strict, result, more]

/-! ## Certificates of RSA keys -/

theorem supported_rsa (cert : X509Certificate)
    (algorithm : cert.signatureAlgorithm = sha256WithRsaEncryption) :
    SelfSigned rsaX509 cert ∨
    rsaX509.verifySignature cert (some (rsaX509.subjectPki cert)) = .error .signatureVerificationError := by
  rw [SelfSigned, verifySignature_rsa cert _ algorithm]
  split
  · exact Or.inl rfl
  · exact Or.inr rfl

theorem selfSigned_rsa (cert : X509Certificate)
    (algorithm : cert.signatureAlgorithm = sha256WithRsaEncryption) :
    SelfSigned rsaX509 cert ↔ verifiesRsa cert.subjectPki cert.tbsCertificate cert.signatureValue = true := by
  rw [SelfSigned, verifySignature_rsa cert _ algorithm]
  split
  next verifies => exact ⟨fun _ => verifies, fun _ => rfl⟩
  next fails => exact ⟨fun h => (by cases h), fun verifies => absurd verifies fails⟩

/-- A file with one block is classified by whether the key in the certificate made
its signature. -/
theorem isTlsSelfSigned_rsa (uri : ConnectionUri) (tls : uri.useTls = true) (key : Rsa.Key)
    (long : 256 ≤ key.k) (short : key.k ≤ 1024) (below : key.n < 256 ^ key.k) (block : Bytes)
    (cert : X509Certificate) (holds : CertificateBlock rsaX509 block [] cert)
    (file : uri.tlsChain = .ok block) (algorithm : cert.signatureAlgorithm = sha256WithRsaEncryption)
    (reads : readRsaKey cert.subjectPki = some (key.n, key.e)) :
    isTlsSelfSigned rsaX509 uri = .ok true ↔
      key.privateEncrypt (digestInfo cert.tbsCertificate) = .ok cert.signatureValue := by
  rw [← verifiesRsa_iff key long short below _ _ _ reads, ← selfSigned_rsa cert algorithm]
  rcases isTlsSelfSigned_last uri tls block cert holds file with ⟨verifies, result⟩ | ⟨fails, result⟩
  · simp [result, verifies]
  · simp [result, fails]

/-- A certificate that the next one issued. -/
def leafPem : String :=
  "-----BEGIN CERTIFICATE-----\n" ++
  "MIICqDCCAZCgAwIBAgIBAjANBgkqhkiG9w0BAQsFADARMQ8wDQYDVQQDDAZpc3N1\n" ++
  "ZXIwHhcNMjYxMTIwMTc1MjAwWhcNMzYxMTE3MTc1MjAwWjAPMQ0wCwYDVQQDDARs\n" ++
  "ZWFmMIIBIjANBgkqhkiG9w0BAQEFAAOCAQ8AMIIBCgKCAQEAvfyD0K7+lByj/iAc\n" ++
  "QI5YsCNVHVk9auoAhZfFQ0MbS3CEkrvutUhPovuK7fu7WL/u36vqW/hRRhfsd6ax\n" ++
  "i8JqJZyAqKHzMVcdcYWvt6tP6tHgA7mtW+22U0b4D9vizVM7SLVQD0gNmrEWFdDx\n" ++
  "MkROW/fw2wxfGl//3lQghPjsBlyVvS/qpRllfA2KLA7UltgZvsDCx1iQXmyMU0py\n" ++
  "r9r4nNN1dFzho06WPiO2sYup61OhbcN5yKQc8myvh6mONRG16AvjZZJvCpaBcDuN\n" ++
  "94DWq5c/kxPI/67PbIAbtwDL6SK2lOLwIO6jCsUBAyiK4Yj65GMfrPOjA7PIhKBr\n" ++
  "DyU42wIDAQABow0wCzAJBgNVHRMEAjAAMA0GCSqGSIb3DQEBCwUAA4IBAQBn9umt\n" ++
  "WgzvGCPxPBTxrwgwEzvj2aWV10x3IVN0JXVMms1mJc6sfd2Iugpmz0vLzBe6ukiT\n" ++
  "m11zVJLzP7g9uufuTozwBT98ueid8r5WmNnqNbJydYr9tBBVMMqMA/LPg44tqFBz\n" ++
  "Kj1HvGDSs4USwS2OERiP3FxiyACDc5XYYadScRWjlOAxhshkYAXh1E05kGLIMN+5\n" ++
  "vXHKP4M2YAComqKK41T5XX+EEqJO5qd45kL8EN42/JWbid6ziKTDKmLjhulWDhGk\n" ++
  "EC4HKnpDtRpH/POlWiJ0F5lSOTPg6Sw4Jb71Xfvaq+7VfsesWl2AVnes1Kss8E2a\n" ++
  "NeQSaf7qHt74xXqH\n" ++
  "-----END CERTIFICATE-----\n"

/-- A certificate that signed itself. -/
def issuerPem : String :=
  "-----BEGIN CERTIFICATE-----\n" ++
  "MIICsDCCAZigAwIBAgIBATANBgkqhkiG9w0BAQsFADARMQ8wDQYDVQQDDAZpc3N1\n" ++
  "ZXIwHhcNMjYxMTIwMTc1MjAwWhcNMzYxMTE3MTc1MjAwWjARMQ8wDQYDVQQDDAZp\n" ++
  "c3N1ZXIwggEiMA0GCSqGSIb3DQEBAQUAA4IBDwAwggEKAoIBAQC1oR/4HWYqUz34\n" ++
  "g3z4zcQqi9n3E+VZLnnlEnx9IyhQ1uh5ogMWkvXHeGmCF5PCo2AgiGtO8NLvf/4b\n" ++
  "ZIHQpIPDO0I6xaR4lE3U77Ic8Tf4zLP1XxqS20TtIgR+js5nCkBRHYqHFsF6eH0b\n" ++
  "fLDNRHi6L+Xp0CmSAhLRhg+5D1bx5qgqpb1mTGN/QMWhvaSJcvG50Y9YiYmYra97\n" ++
  "5EngzEV7CnSEFipMmc9iqboYqgnYiMkVymtAaJJ5z2IWWO+dFmnwXwN6fWgYIv9q\n" ++
  "udSM86jyGOl6bmwFdo1nfBGXsVyIOThJVLXvFTLMkQcGdJ4ur7IQ5V+z83pyUhuP\n" ++
  "3zOD56MbAgMBAAGjEzARMA8GA1UdEwEB/wQFMAMBAf8wDQYJKoZIhvcNAQELBQAD\n" ++
  "ggEBAClO6zT9fodk4kjXaVgEp7sQwtX5MeXADVGK7Xj+xDUT51JjJ8YwlcB/SoyZ\n" ++
  "p3GBf+/t3DSXkI3GkSanxGw19jRo0LfLh3odX+pCK2nkrRhAf2x136ST9onDEj9T\n" ++
  "w8VI6UVvX/r1qTYSk0PBMVYAaUeNOTKgNtBsxmxpbJIM+kCzXbSfczSbnpQ/8+vt\n" ++
  "bjOdJ43nrhZDJnXEmP8SKAhUSnteiWIobRK/uBkmd5hOuFLNOR/jXYwoK+1ImuOo\n" ++
  "3LCQsHk+knl0tfZilUrTTxEvPICSFro3jP3l/ySzrz2icdldOE55nnyrFVLXMLQE\n" ++
  "VsZd0r8Kl1G/dqpxLmJYdmlx7TE=\n" ++
  "-----END CERTIFICATE-----\n"

/-- The contents of a PEM block. -/
def derOf (pem : String) : Bytes :=
  match readPem (asBytes pem) with
  | .ok (_, block) => block.contents
  | .error _ => []

def certificateOf (pem : String) : X509Certificate :=
  match readCertificate (derOf pem) with
  | some (_, cert) => cert
  | none => { tbsCertificate := [], signatureAlgorithm := [], subjectPki := [], signatureValue := [] }

/-- The text is one block with a certificate that is signed with RSA and SHA-256,
and whose own key `verifies` the signature. -/
structure RsaPem (pem : String) (verifies : Bool) : Prop where
  decodes : readPem (asBytes pem) = .ok ([], { label := "CERTIFICATE", contents := derOf pem })
  parses : readCertificate (derOf pem) = some ([], certificateOf pem)
  algorithm : (certificateOf pem).signatureAlgorithm = sha256WithRsaEncryption
  signature : verifiesRsa (certificateOf pem).subjectPki (certificateOf pem).tbsCertificate
    (certificateOf pem).signatureValue = verifies

instance (pem : String) (verifies : Bool) : Decidable (RsaPem pem verifies) :=
  decidable_of_iff (_ ∧ _ ∧ _ ∧ _)
    ⟨fun ⟨decodes, parses, algorithm, signature⟩ => ⟨decodes, parses, algorithm, signature⟩,
      fun h => ⟨h.decodes, h.parses, h.algorithm, h.signature⟩⟩

namespace RsaPem

variable {pem : String} {verifies : Bool}

theorem parseX509Der (h : RsaPem pem verifies) :
    rsaX509.parseX509Der (derOf pem) = .ok ([], certificateOf pem) := by
  simp only [rsaX509, h.parses]

theorem selfSigned_iff (h : RsaPem pem verifies) :
    SelfSigned rsaX509 (certificateOf pem) ↔ verifies = true := by
  rw [selfSigned_rsa _ h.algorithm, h.signature]

theorem block (h : RsaPem pem verifies) (occupied : asBytes pem ≠ []) :
    CertificateBlock rsaX509 (asBytes pem) [] (certificateOf pem) where
  occupied := occupied
  decodes := ⟨derOf pem, by rw [List.append_nil]; exact h.decodes, h.parseX509Der⟩
  supported := supported_rsa _ h.algorithm

end RsaPem

theorem rsaPem_leaf : RsaPem leafPem false := by decide +kernel

theorem rsaPem_issuer : RsaPem issuerPem true := by decide +kernel

theorem leafBlock : CertificateBlock rsaX509 (asBytes leafPem) [] (certificateOf leafPem) :=
  rsaPem_leaf.block (by decide +kernel)

theorem issuerBlock : CertificateBlock rsaX509 (asBytes issuerPem) [] (certificateOf issuerPem) :=
  rsaPem_issuer.block (by decide +kernel)

theorem leafBlock_followed :
    CertificateBlock rsaX509 (asBytes leafPem) (asBytes issuerPem) (certificateOf leafPem) where
  occupied := leafBlock.occupied
  decodes := ⟨derOf leafPem, by decide +kernel, rsaPem_leaf.parseX509Der⟩
  supported := leafBlock.supported

/-- The key of the issuer made the signature of the leaf. -/
theorem leaf_issued :
    rsaX509.verifySignature (certificateOf leafPem) (some (certificateOf issuerPem).subjectPki) = .ok () := by
  rw [verifySignature_rsa _ _ rsaPem_leaf.algorithm]
  exact if_pos (by decide +kernel)

theorem leaf_not_selfSigned : ¬ SelfSigned rsaX509 (certificateOf leafPem) := by
  rw [rsaPem_leaf.selfSigned_iff]
  decide

theorem issuer_selfSigned : SelfSigned rsaX509 (certificateOf issuerPem) :=
  rsaPem_issuer.selfSigned_iff.mpr rfl

/-- The file with both certificates, leaf first. -/
def chainUri : ConnectionUri := { useTls := true, tlsChain := .ok (asBytes leafPem ++ asBytes issuerPem) }

theorem chain_of_two :
    Chain rsaX509 [certificateOf leafPem, certificateOf issuerPem] (asBytes leafPem ++ asBytes issuerPem) :=
  .followed _ _ _ _ leafBlock_followed (.last _ _ issuerBlock)

theorem self_signed_check_single_leaf :
    isTlsSelfSigned rsaX509 { useTls := true, tlsChain := .ok (asBytes leafPem) } = .ok false ∧
    isTlsSelfSigned rsaX509 { useTls := true, tlsChain := .ok (asBytes issuerPem) } = .ok true ∧
    (∃ rest, Chain rsaX509 [certificateOf issuerPem] rest ∧ isTlsSelfSigned rsaX509 chainUri =
      .error ("Failed parsing PEM: rem=" ++ debugBytes rest ++ ", pem.label=CERTIFICATE")) ∧
    (∃ message, checkSelfSignedTls rsaX509 id { mirrorListenUri := chainUri } = .error (.panic message)) ∧
    checkSelfSignedTls rsaX509 id { mirrorListenUri := chainUri, allowSelfSignedTls := true } = .ok () := by
  obtain ⟨leaf, _⟩ := self_signed_check_single id
    { mirrorListenUri := { useTls := true, tlsChain := .ok (asBytes leafPem) } } rfl _ [] _ rfl
    (.last _ _ leafBlock)
  obtain ⟨issuer, _⟩ := self_signed_check_single id
    { mirrorListenUri := { useTls := true, tlsChain := .ok (asBytes issuerPem) } } rfl _ [] _ rfl
    (.last _ _ issuerBlock)
  obtain ⟨_, followed, strict, _⟩ := self_signed_check_single id { mirrorListenUri := chainUri } rfl _ _ _ rfl
    chain_of_two
  obtain ⟨_, _, _, allowed⟩ := self_signed_check_single id
    { mirrorListenUri := chainUri, allowSelfSignedTls := true } rfl _ _ _ rfl chain_of_two
  have more : [certificateOf issuerPem] ≠ [] := List.cons_ne_nil _ _
  exact ⟨(leaf rfl).2 leaf_not_selfSigned, (issuer rfl).1 issuer_selfSigned, followed more,
    (strict rfl).mpr (Or.inr more), allowed rfl⟩

/-- A leaf that did not sign itself, with its issuer after it, keeps the public
side from starting. -/
theorem self_signed_check_refuses_issuer :
    Chain rsaX509 [certificateOf leafPem, certificateOf issuerPem] (asBytes leafPem ++ asBytes issuerPem) ∧
    ¬ SelfSigned rsaX509 (certificateOf leafPem) ∧
    rsaX509.verifySignature (certificateOf leafPem) (some (certificateOf issuerPem).subjectPki) = .ok () ∧
    isTlsSelfSigned rsaX509
      { useTls := true, tlsChain := .ok (asBytes leafPem ++ asBytes issuerPem) } ≠ .ok false ∧
    checkSelfSignedTls rsaX509 id
      { mirrorListenUri := { useTls := true, tlsChain := .ok (asBytes leafPem ++ asBytes issuerPem) } } ≠
        .ok () := by
  have refused := isTlsSelfSigned_followed
    { useTls := true, tlsChain := .ok (asBytes leafPem ++ asBytes issuerPem) } rfl _ _ _ leafBlock_followed
    issuerBlock.occupied rfl
  refine ⟨chain_of_two, leaf_not_selfSigned, leaf_issued, ?_, ?_⟩
  · rw [refused]
    simp
  · simp [checkSelfSignedTls, refused]

end FullServiceMirror
