import FullServiceMirror.Api
import FullServiceMirror.Rust.Slice

/-!
# `public/utils.rs`

The check for a self-signed certificate, and the start of `main` that depends on
it. The decoding of PEM and X.509 and the verification of a signature come from
the `x509-parser` crate and are parameters.
-/
namespace FullServiceMirror

open Rust

structure Pem where
  label : String
  contents : Bytes
  deriving DecidableEq, Repr

inductive X509Error where
  | signatureVerificationError
  | other (debug : String)
  deriving DecidableEq, Repr

/-- What `utils.rs` uses of `x509-parser`; errors are given by their text. -/
structure X509Parser (Certificate PublicKeyInfo : Type) where
  pemToDer : Bytes → Except String (Bytes × Pem)
  parseX509Der : Bytes → Except String (Bytes × Certificate)
  subjectPki : Certificate → PublicKeyInfo
  verifySignature : Certificate → Option PublicKeyInfo → Except X509Error Unit

/-- What `is_tls_self_signed` asks a URI. -/
structure ConnectionUri where
  useTls : Bool
  tlsChain : Except String Bytes

/-- `{:?}` of a byte slice. -/
def debugBytes (bytes : Bytes) : String :=
  "[" ++ ", ".intercalate (bytes.map fun b => toString b.toNat) ++ "]"

variable {Certificate PublicKeyInfo : Type}

/-- Checks if an optionally-provided TLS certificate is self-signed. Returns
false if no TLS is configured for the URI. -/
def isTlsSelfSigned (x509 : X509Parser Certificate PublicKeyInfo) (uri : ConnectionUri) :
    Except String Bool :=
  if !uri.useTls then .ok false
  else do
    let certPemBytes ← uri.tlsChain
    let (rem, pem) ← (x509.pemToDer certPemBytes).mapError ("pem_to_der failed: " ++ ·)
    -- Bytes after the first block are an error, whatever they hold.
    if !rem.isEmpty || pem.label != "CERTIFICATE" then
      .error ("Failed parsing PEM: rem=" ++ debugBytes rem ++ ", pem.label=" ++ pem.label)
    else do
      let (rem, cert) ← (x509.parseX509Der pem.contents).mapError ("parse_x509_der failed: " ++ ·)
      if !rem.isEmpty then .error ("Failed parsing DER: rem=" ++ debugBytes rem)
      else
        match x509.verifySignature cert (some (x509.subjectPki cert)) with
        | .ok () => .ok true
        | .error .signatureVerificationError => .ok false
        | .error (.other err) => .error ("Error verifying certificate: " ++ err)

/-- The part of the public side's `Config` that its start depends on. -/
structure PublicConfig where
  mirrorListenUri : ConnectionUri
  allowSelfSignedTls : Bool := false

/-- The first lines of the public `main`; where they do not panic the servers
are started. `debug` is the text of `{:?}` that `expect` adds for the error. -/
def checkSelfSignedTls (x509 : X509Parser Certificate PublicKeyInfo) (debug : String → String)
    (config : PublicConfig) : Outcome Unit :=
  if config.allowSelfSignedTls then .ok ()
  else
    match isTlsSelfSigned x509 config.mirrorListenUri with
    | .error e => .error (.panic ("is_tls_self_signed failed: " ++ debug e))
    | .ok true => .error (.panic ("Refusing to start with self-signed TLS certificate. " ++
        "Use --allow-self-signed-tls to override this check."))
    | .ok false => .ok ()

end FullServiceMirror
