import Mathlib.Data.List.GetD
import FullServiceMirror.Properties.RequestFormat
import FullServiceMirror.System.Invariant

/-!
# Tamper evidence of encrypted responses

A response is encrypted block by block, and nothing in a block says which
response it belongs to, where in it, or how many blocks there are. So the client
accepts whatever blocks an intermediary puts together, and gets the pieces that
they carry.
-/
namespace FullServiceMirror

open Rust Json Transition

/-- RSA taken symbolically: only a block that the private key made decrypts under
the public key, to the chunk that it was made of. -/
structure Symbolic (priv : PrivateKey) (pub : PublicKey) : Prop where
  positive : 0 < priv.size
  full : ∀ chunk block, priv.privateEncrypt chunk = .ok block → block.length = priv.size
  decrypts_iff : ∀ block chunk, block.length = priv.size →
    (pub.publicDecrypt block = .ok chunk ↔ priv.privateEncrypt chunk = .ok block)

theorem symbolic_ofRsa (key : Rsa.Key) (size_lt : key.k < 2 ^ 32) (positive : 0 < key.k) :
    Symbolic (.ofRsa key size_lt) (.ofRsa key) where
  positive := positive
  full chunk block encrypted := (key.privateEncrypt_length chunk block encrypted).2
  decrypts_iff block chunk _ := key.publicDecrypt_iff block chunk

variable {priv : PrivateKey} {pub : PublicKey}

/-- The language that the client accepts, of strings of whole blocks. -/
theorem decrypt_blocks_iff (symbolic : Symbolic priv pub)
    (blocks : List Bytes) (full : ∀ b ∈ blocks, b.length = priv.size) (m : Bytes) :
    ExampleClient.decrypt pub priv.size blocks.flatten = .ok m ↔
      ∃ plain, List.Forall₂ (fun block chunk => priv.privateEncrypt chunk = .ok block) blocks plain ∧
        m = plain.flatten := by
  rw [ExampleClient.decrypt_ok_iff pub priv.size symbolic.positive,
    piecesOf_blocks priv.size symbolic.positive blocks full]
  -- The two sides differ only in which of the two keys relates a block to its chunk.
  refine exists_congr fun plain => and_congr_left fun _ => ?_
  constructor
  · intro decrypts
    refine List.forall₂_iff_get.mpr ⟨decrypts.length_eq, fun i below below' => ?_⟩
    exact (symbolic.decrypts_iff _ _ (full _ (List.get_mem blocks ⟨i, below⟩))).mp (decrypts.get below below')
  · intro encrypts
    refine List.forall₂_iff_get.mpr ⟨encrypts.length_eq, fun i below below' => ?_⟩
    exact (symbolic.decrypts_iff _ _ (full _ (List.get_mem blocks ⟨i, below⟩))).mpr (encrypts.get below below')

/-- A ciphertext consists of the blocks of the chunks of the plaintext. -/
theorem blocks_of_encrypt (symbolic : Symbolic priv pub) (m payload : Bytes)
    (encrypted : Crypto.encrypt priv m = .ok payload) :
    ∃ blocks, List.Forall₂ (fun chunk block => priv.privateEncrypt chunk = .ok block)
        (piecesOf (usizeSub priv.size PKCS1_PADDING_LEN) m) blocks ∧
      (∀ b ∈ blocks, b.length = priv.size) ∧ payload = blocks.flatten := by
  obtain ⟨_, blocks, made, rfl⟩ := (Crypto.encrypt_ok_iff priv m payload).mp encrypted
  -- `encrypt` copies the first `size` bytes of what it is given, which is all of it.
  have whole : List.Forall₂ (fun chunk block => priv.privateEncrypt chunk = .ok block)
      (piecesOf (usizeSub priv.size PKCS1_PADDING_LEN) m) blocks := by
    refine made.imp ?_
    rintro chunk block ⟨written, called, rfl⟩
    rw [Crypto.writeFront_full priv.size written (symbolic.full chunk written called)]
    exact called
  refine ⟨blocks, whole, fun block member => ?_, rfl⟩
  obtain ⟨i, below, rfl⟩ := List.getElem_of_mem member
  exact symbolic.full _ _ (whole.get (whole.length_eq ▸ below) below)

/-- Cutting a ciphertext gives back the blocks of the chunks. -/
theorem pieces_of_encrypt (symbolic : Symbolic priv pub) (m payload : Bytes)
    (encrypted : Crypto.encrypt priv m = .ok payload) :
    List.Forall₂ (fun chunk block => priv.privateEncrypt chunk = .ok block)
      (piecesOf (usizeSub priv.size PKCS1_PADDING_LEN) m) (piecesOf priv.size payload) := by
  obtain ⟨blocks, made, full, rfl⟩ := blocks_of_encrypt symbolic m payload encrypted
  rwa [piecesOf_blocks priv.size symbolic.positive blocks full]

/-- The block at a position is the one of the chunk at that position. -/
theorem block_of_encrypt (symbolic : Symbolic priv pub) (m payload : Bytes)
    (encrypted : Crypto.encrypt priv m = .ok payload) (i : Nat)
    (inside : i < (piecesOf priv.size payload).length) :
    priv.privateEncrypt ((piecesOf (usizeSub priv.size PKCS1_PADDING_LEN) m).getD i []) =
      .ok ((piecesOf priv.size payload).getD i []) := by
  have made := pieces_of_encrypt symbolic m payload encrypted
  have inside' := made.length_eq ▸ inside
  rw [List.getD_eq_getElem _ _ inside, List.getD_eq_getElem _ _ inside']
  exact made.get inside' inside

/-! ## What an intermediary can build -/

variable {L : Type}

/-- The private side encrypted what the wallet service answered to a query. -/
def State.Sealed (s : State L) (q : Query) (text : String) (payload : Bytes) : Prop :=
  ∃ c ∈ s.computed, c.query = q ∧ c.exchange = .text text ∧
    c.response = QueryResponse.setEncryptedResponse {} { payload }

/-- The bytes are a wallet response that was encrypted for the query. -/
def State.IsResponse (s : State L) (q : Query) (m : Bytes) : Prop :=
  ∃ text payload, s.Sealed q text payload ∧ m = asBytes text

/-- A poll carried the ciphertext for the query. -/
def State.Emitted (s : State L) (q : Query) (payload : Bytes) : Prop :=
  ∃ p queryId, (s.polls p).origin queryId = q ∧
    (s.polls p).responses.get queryId = some (QueryResponse.setEncryptedResponse {} { payload })

/-- A block that an intermediary picks from a ciphertext. -/
structure Fragment where
  query : Query
  text : String
  payload : Bytes
  index : Nat

namespace Fragment

def block (size : Nat) (f : Fragment) : Bytes := (piecesOf size f.payload).getD f.index []

/-- The piece of the wallet's text at the position of the block. -/
def chunk (size : Nat) (f : Fragment) : Bytes :=
  (piecesOf (usizeSub size PKCS1_PADDING_LEN) (asBytes f.text)).getD f.index []

/-- The block is one of a ciphertext that a poll carried. -/
def Picked (size : Nat) (s : State L) (f : Fragment) : Prop :=
  s.Emitted f.query f.payload ∧ s.Sealed f.query f.text f.payload ∧
    f.index < (piecesOf size f.payload).length

theorem Picked.block_mem {size : Nat} {s : State L} {f : Fragment} (picked : f.Picked size s) :
    f.block size ∈ piecesOf size f.payload := by
  rw [block, List.getD_eq_getElem _ _ picked.2.2]
  exact List.getElem_mem picked.2.2

end Fragment

/-- Any choice of blocks, in any order: some of a ciphertext may be left out,
repeated or moved, and those of several ciphertexts be mixed. -/
def splice (size : Nat) (fragments : List Fragment) : Bytes :=
  (fragments.map (Fragment.block size)).flatten

/-- The pieces of the wallet's texts at the positions that the blocks come from. -/
def splicedText (size : Nat) (fragments : List Fragment) : Bytes :=
  (fragments.map (Fragment.chunk size)).flatten

/-- The fragments of a ciphertext, all of them in order. -/
def wholeFragments (size : Nat) (query : Query) (text : String) (payload : Bytes) : List Fragment :=
  (List.range (piecesOf size payload).length).map fun index => { query, text, payload, index }

theorem map_getD_range (n : Nat) (pieces : List Bytes) (length : n = pieces.length) :
    (List.range n).map (fun i => pieces.getD i []) = pieces := by
  refine List.ext_getElem (by simp [length]) fun i _ inside => ?_
  rw [List.getElem_map, List.getElem_range, List.getD_eq_getElem _ _ inside]

theorem block_wholeFragments (size : Nat) (q : Query) (text : String) (payload : Bytes) :
    (wholeFragments size q text payload).map (Fragment.block size) = piecesOf size payload := by
  rw [wholeFragments, List.map_map]
  exact map_getD_range _ (piecesOf size payload) rfl

/-- All blocks of a ciphertext in order stand for the whole text. -/
theorem splicedText_whole (symbolic : Symbolic priv pub) (q : Query) (text : String) (payload : Bytes)
    (encrypted : Crypto.encrypt priv (asBytes text) = .ok payload) :
    splicedText priv.size (wholeFragments priv.size q text payload) = asBytes text := by
  have made := pieces_of_encrypt symbolic (asBytes text) payload encrypted
  -- There are as many chunks as blocks, so that all chunks are taken, in order.
  have stride := ((Crypto.encrypt_ok_iff priv (asBytes text) payload).mp encrypted).1
  rw [splicedText, wholeFragments, List.map_map]
  exact (congrArg List.flatten (map_getD_range _ _ made.length_eq.symm)).trans (piecesOf_flatten _ stride _)

variable [DecidableEq L] {fromStr : String → Except String Value}

theorem encrypted_of_sealed (s : State L)
    (reached : Reachable (step fromStr fun _ => { mirrorKey := some priv }) Any .start s) (q : Query)
    (text : String) (payload : Bytes) (made : s.Sealed q text payload) :
    Crypto.encrypt priv (asBytes text) = .ok payload := by
  obtain ⟨c, member, _, exchange, response⟩ := made
  obtain ⟨_, stored⟩ := (reachable_invariant reached).sourced.computed c member
  have answers := respond_answers _ _ _ _ stored
  -- Of the three forms of an answer only the encrypted one has this shape.
  rw [exchange, response] at answers
  generalize shape : QueryResponse.setEncryptedResponse {} { payload } = answer at answers
  cases answers with
  | error e => cases shape
  | unencrypted jsonResponse got plain => cases shape
  | encrypted jsonResponse got mirrorKey keyed payload' encrypted =>
    cases shape
    cases got
    cases keyed
    exact encrypted

/-- Every ciphertext that a poll carries is one that the private side made for
the query, so that an intermediary may pick any of its blocks. -/
theorem sealed_of_emitted (s : State L)
    (reached : Reachable (step fromStr fun _ => { mirrorKey := some priv }) Any .start s) (q : Query)
    (payload : Bytes) (emitted : s.Emitted q payload) : ∃ text, s.Sealed q text payload := by
  obtain ⟨p, queryId, origin, carried⟩ := emitted
  obtain ⟨c, member, query, _, response⟩ := (reachable_invariant reached).sourced.polls p queryId _ carried
  obtain ⟨_, stored⟩ := (reachable_invariant reached).sourced.computed c member
  have answers := respond_answers _ _ _ _ stored
  rw [response] at answers
  generalize shape : QueryResponse.setEncryptedResponse {} { payload } = answer at answers
  cases answers with
  | error e => cases shape
  | unencrypted jsonResponse got plain => cases shape
  | encrypted jsonResponse got mirrorKey keyed payload' encrypted =>
    exact ⟨jsonResponse, c, member, query.trans origin, got, response⟩

/-- Every list of blocks of ciphertexts that polls carried is a choice of fragments. -/
theorem exists_picked (size : Nat) (s : State L)
    (reached : Reachable (step fromStr fun _ => { mirrorKey := some priv }) Any .start s)
    (blocks : List Bytes)
    (known : ∀ b ∈ blocks, ∃ q payload, s.Emitted q payload ∧ b ∈ piecesOf size payload) :
    ∃ fragments : List Fragment, (∀ f ∈ fragments, f.Picked size s) ∧
      fragments.map (Fragment.block size) = blocks := by
  induction blocks with
  | nil => exact ⟨[], by simp, rfl⟩
  | cons b rest ih =>
    obtain ⟨fragments, picked, built⟩ := ih fun b' member => known b' (List.mem_cons_of_mem _ member)
    obtain ⟨q, payload, emitted, member⟩ := known b List.mem_cons_self
    -- A block of an emitted ciphertext has a text and a position.
    obtain ⟨text, made⟩ := sealed_of_emitted s reached q payload emitted
    obtain ⟨i, inside, rfl⟩ := List.getElem_of_mem member
    refine ⟨⟨q, text, payload, i⟩ :: fragments, ?_, ?_⟩
    · exact List.forall_mem_cons.mpr ⟨⟨emitted, made, inside⟩, picked⟩
    · rw [List.map_cons, built, Fragment.block, List.getD_eq_getElem _ _ inside]

/-- The client accepts what an intermediary builds of blocks, and gets their pieces. -/
theorem decrypt_splice (symbolic : Symbolic priv pub) (s : State L)
    (reached : Reachable (step fromStr fun _ => { mirrorKey := some priv }) Any .start s)
    (fragments : List Fragment) (picked : ∀ f ∈ fragments, f.Picked priv.size s) :
    ExampleClient.decrypt pub priv.size (splice priv.size fragments) =
      .ok (splicedText priv.size fragments) := by
  have encrypted (f : Fragment) (member : f ∈ fragments) :
      Crypto.encrypt priv (asBytes f.text) = .ok f.payload :=
    encrypted_of_sealed s reached f.query f.text f.payload (picked f member).2.1
  have made (f : Fragment) (member : f ∈ fragments) :
      priv.privateEncrypt (f.chunk priv.size) = .ok (f.block priv.size) :=
    block_of_encrypt symbolic _ _ (encrypted f member) f.index (picked f member).2.2
  -- So every block is one that the private key made of its chunk, wherever it stands.
  refine (decrypt_blocks_iff symbolic _ (fun block member => ?_) _).mpr ⟨_, ?_, rfl⟩
  · obtain ⟨f, picked_f, rfl⟩ := List.mem_map.mp member
    exact symbolic.full _ _ (made f picked_f)
  · rw [List.forall₂_map_left_iff, List.forall₂_map_right_iff]
    exact List.forall₂_same.mpr made

/-- **What a client accepts.** In every run with a mirror key the client accepts
every string of blocks that polls carried, as the answer to any query, and gets
the pieces of the wallet's texts at the positions that the blocks come from, in
the order of the blocks. All blocks of the ciphertext for a query in their order
stand for the complete response to it. -/
theorem decrypt_pieces (symbolic : Symbolic priv pub) (s : State L)
    (reached : Reachable (step fromStr fun _ => { mirrorKey := some priv }) Any .start s)
    (blocks : List Bytes)
    (known : ∀ b ∈ blocks, ∃ q payload, s.Emitted q payload ∧ b ∈ piecesOf priv.size payload) :
    (∃ fragments : List Fragment, (∀ f ∈ fragments, f.Picked priv.size s) ∧
      fragments.map (Fragment.block priv.size) = blocks) ∧
    (∀ fragments : List Fragment, (∀ f ∈ fragments, f.Picked priv.size s) →
      fragments.map (Fragment.block priv.size) = blocks →
      ExampleClient.decrypt pub priv.size blocks.flatten = .ok (splicedText priv.size fragments)) ∧
    (∀ q payload, s.Emitted q payload → blocks = piecesOf priv.size payload →
      ∃ text, s.Sealed q text payload ∧
        ExampleClient.decrypt pub priv.size blocks.flatten = .ok (asBytes text)) := by
  refine ⟨exists_picked priv.size s reached blocks known, ?_, ?_⟩
  · rintro fragments picked rfl
    exact decrypt_splice symbolic s reached fragments picked
  · rintro q payload emitted rfl
    obtain ⟨text, made⟩ := sealed_of_emitted s reached q payload emitted
    refine ⟨text, made, ?_⟩
    rw [← splicedText_whole symbolic q text payload (encrypted_of_sealed s reached q text payload made),
      ← block_wholeFragments priv.size q text payload]
    refine decrypt_splice symbolic s reached _ fun f member => ?_
    obtain ⟨i, inside, rfl⟩ := List.mem_map.mp member
    exact ⟨emitted, made, List.mem_range.mp inside⟩

/-! ## A run with amounts -/

def requestPayload : Bytes :=
  (ExampleClient.encrypt largePublicKey 512 (fun _ => [])
    (asBytes "\x7b\"method\": \"get_block\"\x7d")).toOption.getD []

/-- An encrypted request is answered, up to the poll that carries the response. -/
def encryptedAnswered (walletText : String) : List (Action Unit) :=
  [.request .encryptedRequest (.ok requestPayload) [fun _ => 0],
   .send (), .accept 0 [], .drain 0,
   .deliver () [("AAAAAAAA", QueryRequest.setEncryptedRequest {} { payload := requestPayload })],
   .process () (.text walletText), .sleep (), .send ()]

/-- A list of amounts, as many as given after the first. -/
def amounts (more : Nat) : String :=
  String.ofList ("\x7b\"amounts\":[10".toList ++ (List.replicate more [',', '1', '0']).flatten ++ [']', '\x7d'])

/-- The wallet's answer in the run below. -/
def amountsText : String := amounts 399

def amountsPayload : Bytes := (Crypto.encrypt largePrivateKey (asBytes amountsText)).toOption.getD []

/-- A state of that run, in which the ciphertext is there to pick blocks from. -/
theorem exists_amounts :
    ∃ s : State Unit,
      Reachable (step parse fun _ => { mirrorKey := some largePrivateKey }) Any .start s ∧
      s.Emitted 0 amountsPayload ∧ s.Sealed 0 amountsText amountsPayload ∧
      ∀ text payload, s.Sealed 0 text payload → text = amountsText := by
  obtain ⟨s, reached, holds⟩ := exists_reachable_of_run
    (step parse fun _ => { mirrorKey := some largePrivateKey }) Any .start (encryptedAnswered amountsText)
    (fun s => decide ((s.polls 1).origin "AAAAAAAA" = 0 ∧
      (s.polls 1).responses.get "AAAAAAAA" =
        some (QueryResponse.setEncryptedResponse {} { payload := amountsPayload }) ∧
      s.computed.map (fun c => (c.query, c.exchange, c.response)) =
        [(0, .text amountsText, QueryResponse.setEncryptedResponse {} { payload := amountsPayload })]))
    (by decide +kernel)
  obtain ⟨origin, carried, computed⟩ := of_decide_eq_true holds
  refine ⟨s, reached, ⟨1, "AAAAAAAA", origin, carried⟩, ?_, fun text payload made => ?_⟩
  · have member := List.mem_singleton.mpr (Eq.refl ((0 : Query), Exchange.text amountsText,
      QueryResponse.setEncryptedResponse {} { payload := amountsPayload }))
    rw [← computed] at member
    obtain ⟨c, member, same⟩ := List.mem_map.mp member
    simp only [Prod.mk.injEq] at same
    exact ⟨c, member, same⟩
  · obtain ⟨c, member, query, exchange, response⟩ := made
    have listed := List.mem_map_of_mem (f := fun c => (c.query, c.exchange, c.response)) member
    rw [computed, List.mem_singleton, exchange] at listed
    simp only [Prod.mk.injEq, Exchange.text.injEq] at listed
    exact listed.2.1

theorem symbolic_largeKey : Symbolic largePrivateKey largePublicKey :=
  symbolic_ofRsa largeKey _ (by decide +kernel)

/-- Blocks of the ciphertext of that run, by their positions. -/
def amountsFragments (positions : List Nat) : List Fragment :=
  positions.map fun index => { query := 0, text := amountsText, payload := amountsPayload, index }

theorem picked_amountsFragments (s : State Unit) (emitted : s.Emitted 0 amountsPayload)
    (made : s.Sealed 0 amountsText amountsPayload) (positions : List Nat) (inside : ∀ i ∈ positions, i < 3) :
    ∀ f ∈ amountsFragments positions, f.Picked largePrivateKey.size s := by
  have count : (piecesOf largePrivateKey.size amountsPayload).length = 3 := by decide +kernel
  intro f member
  obtain ⟨i, position, rfl⟩ := List.mem_map.mp member
  refine ⟨?_, ?_, ?_⟩ <;> dsimp only
  · exact emitted
  · exact made
  · rw [count]
    exact inside i position

/-- A client that is given all three blocks gets the whole text, and one that is
given the last block and the first one twice gets their pieces. -/
theorem decrypt_pieces_amounts :
    ∃ s : State Unit,
      Reachable (step parse fun _ => { mirrorKey := some largePrivateKey }) Any .start s ∧
      s.Emitted 0 amountsPayload ∧
      (∃ fragments : List Fragment, (∀ f ∈ fragments, f.Picked largePrivateKey.size s) ∧
        fragments.map (Fragment.block largePrivateKey.size) = piecesOf largePrivateKey.size amountsPayload) ∧
      (∃ text, s.Sealed 0 text amountsPayload ∧
        ExampleClient.decrypt largePublicKey largePrivateKey.size
          (piecesOf largePrivateKey.size amountsPayload).flatten = .ok (asBytes text)) ∧
      ExampleClient.decrypt largePublicKey largePrivateKey.size
          ((amountsFragments [2, 0, 0]).map (Fragment.block largePrivateKey.size)).flatten =
        .ok (splicedText largePrivateKey.size (amountsFragments [2, 0, 0])) := by
  obtain ⟨s, reached, emitted, made, _⟩ := exists_amounts
  have picked := picked_amountsFragments s emitted made [2, 0, 0] (by decide)
  obtain ⟨chosen, _, whole⟩ := decrypt_pieces symbolic_largeKey s reached _
    fun b member => ⟨0, amountsPayload, emitted, member⟩
  obtain ⟨_, moved, _⟩ := decrypt_pieces symbolic_largeKey s reached
      ((amountsFragments [2, 0, 0]).map (Fragment.block largePrivateKey.size)) fun b member => by
    obtain ⟨f, among, rfl⟩ := List.mem_map.mp member
    exact ⟨f.query, f.payload, (picked f among).1, (picked f among).block_mem⟩
  exact ⟨s, reached, emitted, chosen, whole 0 amountsPayload emitted rfl, moved _ picked rfl⟩

/-- Without the second of the three blocks the client gets 167 amounts fewer. -/
theorem tampering_accepted :
    Symbolic largePrivateKey largePublicKey ∧
      ¬ ∀ s : State Unit,
        Reachable (step parse fun _ => { mirrorKey := some largePrivateKey }) Any .start s →
        ∀ (q : Query) (fragments : List Fragment), (∀ f ∈ fragments, f.Picked largePrivateKey.size s) →
          ∀ m, ExampleClient.decrypt largePublicKey largePrivateKey.size
            (splice largePrivateKey.size fragments) = .ok m → s.IsResponse q m := by
  refine ⟨symbolic_largeKey, fun evident => ?_⟩
  obtain ⟨s, reached, emitted, made, only⟩ := exists_amounts
  have picked := picked_amountsFragments s emitted made [0, 2] (by decide)
  have accepted := decrypt_splice symbolic_largeKey s reached _ picked
  obtain ⟨text, payload, sealed_text, same⟩ := evident s reached 0 _ picked _ accepted
  rw [only text payload sealed_text] at same
  -- The text without its middle piece is again a list of amounts, a shorter one.
  have tampered : splicedText largePrivateKey.size (amountsFragments [0, 2]) = asBytes (amounts 232) := by
    decide +kernel
  have shorter : (asBytes (amounts 232)).length < (asBytes amountsText).length := by decide +kernel
  rw [← tampered, same] at shorter
  exact absurd shorter (Nat.lt_irrefl _)

end FullServiceMirror
