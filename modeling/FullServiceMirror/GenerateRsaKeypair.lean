import FullServiceMirror.Api
import FullServiceMirror.Transition

/-!
# `generate-rsa-keypair/main.rs`

The program that makes the two key files, run any number of times, one run after
another. Every access to a file is a step of its own, a file is written piece by
piece, and a run may be killed between any two steps. The `boring` crate is a
parameter; `Path::exists` is taken to be able to look.
-/
namespace FullServiceMirror.GenerateRsaKeypair

def PRIVATE_KEY_FILENAME : String := "mirror-private.pem"

def PUBLIC_KEY_FILENAME : String := "mirror-client.pem"

/-- What the program uses of `boring::rsa::Rsa`, with keys of the type `K`. -/
structure Rsa (K : Type) where
  privateKeyFromPemPassphrase : Bytes → Except String K
  privateKeyToPem : K → Except String Bytes
  publicKeyToPem : K → Except String Bytes

variable {K : Type}

/-- The contents of the files of the directory, by name. -/
abbrev Files := String → Option Bytes

/-- Where a run is, with its local variables; the first four are no run. -/
inductive Place (K : Type) where
  | idle
  | exited
  | panicked (message : String)
  | killed
  | checkPublic
  | checkPrivate
  | readPrivate
  | parsePrivate (keyStr : String)
  | generate
  | privateKeyToPem (privKey : K)
  | publicKeyToPem (privKey : K) (privKeyPem : Bytes)
  | createPrivate (privKeyPem pubKeyPem : Bytes)
  | writePrivate (rest pubKeyPem : Bytes)
  | createPublic (pubKeyPem : Bytes)
  | writePublic (rest : Bytes)
  deriving DecidableEq

def Place.running : Place K → Bool
  | .idle | .exited | .panicked _ | .killed => false
  | _ => true

structure State (K : Type) where
  files : Files
  place : Place K

inductive Label (K : Type) where
  /-- The program is started. -/
  | start
  | kill
  /-- What comes next succeeds. -/
  | act
  /-- `Rsa::generate(4096)` returns a key. -/
  | generated (privKey : K)
  /-- A round of `write_all` writes some bytes. -/
  | wrote (count : Nat)
  /-- The call that comes next returns an error. -/
  | fail (error : String)

/-- A file gets contents. -/
def Files.put (files : Files) (name : String) (contents : Bytes) : Files :=
  Function.update files name (some contents)

def State.goto (s : State K) (place : Place K) : State K := { s with place }

/-- A step of `main` that needs no choice. -/
def act (rsa : Rsa K) (s : State K) : Option (State K) :=
  match s.place with
  | .checkPublic =>
    if (s.files PUBLIC_KEY_FILENAME).isSome then
      some (s.goto (.panicked (PUBLIC_KEY_FILENAME ++ " already exists")))
    else some (s.goto .checkPrivate)
  | .checkPrivate =>
    if (s.files PRIVATE_KEY_FILENAME).isSome then some (s.goto .readPrivate) else some (s.goto .generate)
  | .readPrivate =>
    match s.files PRIVATE_KEY_FILENAME with
    | none => none
    | some contents =>
      -- `read_to_string`
      match String.fromUTF8? ⟨contents.toArray⟩ with
      | none => some (s.goto (.panicked ("failed reading private key file " ++ PRIVATE_KEY_FILENAME ++
          ": stream did not contain valid UTF-8")))
      | some keyStr => some (s.goto (.parsePrivate keyStr))
  | .parsePrivate keyStr =>
    match rsa.privateKeyFromPemPassphrase (asBytes keyStr) with
    | .error err => some (s.goto (.panicked ("failed parsing private key file " ++ PRIVATE_KEY_FILENAME ++
        ": " ++ err)))
    | .ok privKey => some (s.goto (.privateKeyToPem privKey))
  | .privateKeyToPem privKey =>
    match rsa.privateKeyToPem privKey with
    | .error err => some (s.goto (.panicked ("Failed getting privte key as PEM: " ++ err)))
    | .ok privKeyPem => some (s.goto (.publicKeyToPem privKey privKeyPem))
  | .publicKeyToPem privKey privKeyPem =>
    match rsa.publicKeyToPem privKey with
    | .error err => some (s.goto (.panicked ("Failed getting public key as PEM: " ++ err)))
    | .ok pubKeyPem => some (s.goto (.createPrivate privKeyPem pubKeyPem))
  -- `fs::write` creates the file or empties the one that is there.
  | .createPrivate privKeyPem pubKeyPem =>
    some ⟨s.files.put PRIVATE_KEY_FILENAME [], .writePrivate privKeyPem pubKeyPem⟩
  | .writePrivate [] pubKeyPem => some (s.goto (.createPublic pubKeyPem))
  | .createPublic pubKeyPem => some ⟨s.files.put PUBLIC_KEY_FILENAME [], .writePublic pubKeyPem⟩
  | .writePublic [] => some (s.goto .exited)
  | _ => none

/-- The files after a write of some more bytes to one that is open. -/
def Files.append (files : Files) (name : String) (bytes : Bytes) : Files :=
  files.put name ((files name).getD [] ++ bytes)

/-- The panic that an error of the next call leads to. -/
def failure (error : String) : Place K → Option String
  | .readPrivate => some ("failed reading private key file " ++ PRIVATE_KEY_FILENAME ++ ": " ++ error)
  | .generate => some ("failed generating private key: " ++ error)
  | .createPrivate _ _ | .writePrivate _ _ => some ("Failed writing private key to file: " ++ error)
  | .createPublic _ | .writePublic _ => some ("Failed writing public key to file: " ++ error)
  | _ => none

def step (rsa : Rsa K) (s : State K) : Label K → Option (State K)
  | .start => if s.place.running then none else some (s.goto .checkPublic)
  | .kill => if s.place.running then some (s.goto .killed) else none
  | .act => act rsa s
  | .generated privKey =>
    match s.place with
    | .generate => some (s.goto (.privateKeyToPem privKey))
    | _ => none
  | .wrote count =>
    match s.place with
    | .writePrivate rest pubKeyPem =>
      if 0 < count ∧ count ≤ rest.length then
        some ⟨s.files.append PRIVATE_KEY_FILENAME (rest.take count), .writePrivate (rest.drop count) pubKeyPem⟩
      else none
    | .writePublic rest =>
      if 0 < count ∧ count ≤ rest.length then
        some ⟨s.files.append PUBLIC_KEY_FILENAME (rest.take count), .writePublic (rest.drop count)⟩
      else none
    | _ => none
  | .fail error => (failure error s.place).map fun message => s.goto (.panicked message)

/-- What the steps do; every panic leaves the files as they are. -/
inductive Step (rsa : Rsa K) : State K → Label K → State K → Prop
  | start (files : Files) (place : Place K) (ended : place.running = false) :
      Step rsa ⟨files, place⟩ .start ⟨files, .checkPublic⟩
  | kill (files : Files) (place : Place K) (running : place.running = true) :
      Step rsa ⟨files, place⟩ .kill ⟨files, .killed⟩
  | panic (files : Files) (place : Place K) (running : place.running = true) (message : String)
      (reading : ∀ rest pubKeyPem, place ≠ .writePrivate rest pubKeyPem) :
      Step rsa ⟨files, place⟩ .act ⟨files, .panicked message⟩
  | fail (files : Files) (place : Place K) (running : place.running = true) (error message : String) :
      Step rsa ⟨files, place⟩ (.fail error) ⟨files, .panicked message⟩
  | absent (files : Files) (absent : files PUBLIC_KEY_FILENAME = none) :
      Step rsa ⟨files, .checkPublic⟩ .act ⟨files, .checkPrivate⟩
  | existing (files : Files) (contents : Bytes) (found : files PRIVATE_KEY_FILENAME = some contents) :
      Step rsa ⟨files, .checkPrivate⟩ .act ⟨files, .readPrivate⟩
  | missing (files : Files) (missing : files PRIVATE_KEY_FILENAME = none) :
      Step rsa ⟨files, .checkPrivate⟩ .act ⟨files, .generate⟩
  | read (files : Files) (contents : Bytes) (found : files PRIVATE_KEY_FILENAME = some contents)
      (keyStr : String) (decoded : String.fromUTF8? ⟨contents.toArray⟩ = some keyStr) :
      Step rsa ⟨files, .readPrivate⟩ .act ⟨files, .parsePrivate keyStr⟩
  | parsed (files : Files) (keyStr : String) (privKey : K)
      (parsed : rsa.privateKeyFromPemPassphrase (asBytes keyStr) = .ok privKey) :
      Step rsa ⟨files, .parsePrivate keyStr⟩ .act ⟨files, .privateKeyToPem privKey⟩
  | generated (files : Files) (privKey : K) :
      Step rsa ⟨files, .generate⟩ (.generated privKey) ⟨files, .privateKeyToPem privKey⟩
  | privateKeyToPem (files : Files) (privKey : K) (privKeyPem : Bytes)
      (got : rsa.privateKeyToPem privKey = .ok privKeyPem) :
      Step rsa ⟨files, .privateKeyToPem privKey⟩ .act ⟨files, .publicKeyToPem privKey privKeyPem⟩
  | publicKeyToPem (files : Files) (privKey : K) (privKeyPem pubKeyPem : Bytes)
      (got : rsa.publicKeyToPem privKey = .ok pubKeyPem) :
      Step rsa ⟨files, .publicKeyToPem privKey privKeyPem⟩ .act ⟨files, .createPrivate privKeyPem pubKeyPem⟩
  | createPrivate (files : Files) (privKeyPem pubKeyPem : Bytes) :
      Step rsa ⟨files, .createPrivate privKeyPem pubKeyPem⟩ .act
        ⟨files.put PRIVATE_KEY_FILENAME [], .writePrivate privKeyPem pubKeyPem⟩
  | wrotePrivate (files : Files) (written rest pubKeyPem : Bytes) (count : Nat) :
      Step rsa ⟨files, .writePrivate (written ++ rest) pubKeyPem⟩ (.wrote count)
        ⟨files.append PRIVATE_KEY_FILENAME written, .writePrivate rest pubKeyPem⟩
  | wroteAll (files : Files) (pubKeyPem : Bytes) :
      Step rsa ⟨files, .writePrivate [] pubKeyPem⟩ .act ⟨files, .createPublic pubKeyPem⟩
  | createPublic (files : Files) (pubKeyPem : Bytes) :
      Step rsa ⟨files, .createPublic pubKeyPem⟩ .act
        ⟨files.put PUBLIC_KEY_FILENAME [], .writePublic pubKeyPem⟩
  | wrotePublic (files : Files) (written rest : Bytes) (count : Nat) :
      Step rsa ⟨files, .writePublic (written ++ rest)⟩ (.wrote count)
        ⟨files.append PUBLIC_KEY_FILENAME written, .writePublic rest⟩
  | exit (files : Files) : Step rsa ⟨files, .writePublic []⟩ .act ⟨files, .exited⟩

variable {rsa : Rsa K}

theorem act_cases (s t : State K) (taken : act rsa s = some t) : Step rsa s .act t := by
  obtain ⟨files, place⟩ := s
  simp only [act, State.goto] at taken
  split at taken
  · split at taken
    · cases taken
      exact .panic files _ rfl _ nofun
    next absent =>
      cases taken
      exact .absent files (Option.not_isSome_iff_eq_none.mp absent)
  · split at taken
    next found =>
      cases taken
      obtain ⟨contents, found⟩ := Option.isSome_iff_exists.mp found
      exact .existing files contents found
    next missing =>
      cases taken
      exact .missing files (Option.not_isSome_iff_eq_none.mp missing)
  · split at taken
    · cases taken
    next contents found =>
      split at taken
      · cases taken
        exact .panic files _ rfl _ nofun
      next keyStr decoded =>
        cases taken
        exact .read files contents found keyStr decoded
  · split at taken
    · cases taken
      exact .panic files _ rfl _ nofun
    next privKey parsed =>
      cases taken
      exact .parsed files _ privKey parsed
  · split at taken
    · cases taken
      exact .panic files _ rfl _ nofun
    next got =>
      cases taken
      exact .privateKeyToPem files _ _ got
  · split at taken
    · cases taken
      exact .panic files _ rfl _ nofun
    next got =>
      cases taken
      exact .publicKeyToPem files _ _ _ got
  · cases taken
    exact .createPrivate files _ _
  · cases taken
    exact .wroteAll files _
  · cases taken
    exact .createPublic files _
  · cases taken
    exact .exit files
  · cases taken

theorem step_cases (s t : State K) (label : Label K) (taken : step rsa s label = some t) :
    Step rsa s label t := by
  obtain ⟨files, place⟩ := s
  cases label with
  | start =>
    simp only [step, State.goto] at taken
    split at taken
    · cases taken
    next ended =>
      cases taken
      exact .start files place (Bool.eq_false_iff.mpr ended)
  | kill =>
    simp only [step, State.goto] at taken
    split at taken
    next running =>
      cases taken
      exact .kill files place running
    · cases taken
  | act => exact act_cases _ t taken
  | generated privKey =>
    simp only [step, State.goto] at taken
    split at taken
    · cases taken
      exact .generated files privKey
    · cases taken
  | wrote count =>
    simp only [step] at taken
    split at taken
    next rest pubKeyPem =>
      split at taken
      · cases taken
        have cut := @Step.wrotePrivate K rsa files (rest.take count) (rest.drop count) pubKeyPem count
        rwa [List.take_append_drop] at cut
      · cases taken
    next rest =>
      split at taken
      · cases taken
        have cut := @Step.wrotePublic K rsa files (rest.take count) (rest.drop count) count
        rwa [List.take_append_drop] at cut
      · cases taken
    · cases taken
  | fail error =>
    obtain ⟨message, failed, same⟩ := Option.map_eq_some_iff.mp taken
    cases same
    refine .fail files place ?_ error message
    cases place <;> first | rfl | cases failed

end FullServiceMirror.GenerateRsaKeypair
