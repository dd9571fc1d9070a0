import Mathlib.Data.FinEnum
import Mathlib.Data.Int.CardIntervalMod
import FullServiceMirror.Sampling
import FullServiceMirror.System.Step

/-!
# How query ids come out

`generate_query_id` reduces 64-bit draws modulo 62, which favours the first
sixteen characters a little, and draws again while the candidate is in use. The
results on runs take the ids to be distinct; here is how seldom they are not.
-/
namespace FullServiceMirror

open Rust Sampling Transition

/-- What one round of `generate_query_id` draws. -/
abbrev Draws := Fin QUERY_ID_LEN → UInt64

/-- How many of the draws lead to the character with an index. -/
def drawsPerChar (index : Nat) : Nat := 2 ^ 64 / 62 + if index < 2 ^ 64 % 62 then 1 else 0

theorem charset_nodup : CHARSET.Nodup := by decide

theorem charOf_eq_iff (draw draw' : UInt64) :
    charOf draw = charOf draw' ↔ (draw % 62).toNat = (draw' % 62).toNat := by
  rw [charOf, charOf, List.get_eq_getElem, List.get_eq_getElem, charset_nodup.getElem_inj_iff]

theorem candidate_eq_iff (draws draws' : Draws) : candidate draws = candidate draws' ↔
    ∀ i, (draws i % 62).toNat = (draws' i % 62).toNat := by
  simp only [candidate, String.ofList_inj, List.ofFn_inj, funext_iff, charOf_eq_iff]

/-- The residues of the 64-bit draws. -/
theorem count_draw (index : Nat) (inside : index < 62) :
    count (fun draw : UInt64 => (draw % 62).toNat = index) = drawsPerChar index := by
  -- Draws and their numbers are the same thing, and of these it is known.
  let residues := (Finset.range (2 ^ 64)).filter fun k => k ≡ index [MOD 62]
  have same : { draw : UInt64 // (draw % 62).toNat = index } ≃ residues :=
    { toFun := fun draw => ⟨draw.1.toNat, by
        have remainder := draw.2
        rw [UInt64.toNat_mod] at remainder
        refine Finset.mem_filter.mpr ⟨Finset.mem_range.mpr draw.1.toNat_lt, ?_⟩
        rw [Nat.ModEq, Nat.mod_eq_of_lt inside]
        exact remainder⟩
      invFun := fun k => ⟨UInt64.ofNat k.1, by
        obtain ⟨below, remainder⟩ := Finset.mem_filter.mp k.2
        rw [Nat.ModEq, Nat.mod_eq_of_lt inside] at remainder
        rw [UInt64.toNat_mod, UInt64.toNat_ofNat_of_lt' (Finset.mem_range.mp below)]
        exact remainder⟩
      left_inv := fun draw => Subtype.ext UInt64.ofNat_toNat
      right_inv := fun k => Subtype.ext
        (UInt64.toNat_ofNat_of_lt' (Finset.mem_range.mp (Finset.mem_filter.mp k.2).1)) }
  rw [count, Nat.card_congr same, Nat.card_eq_fintype_card, Fintype.card_coe,
    ← Nat.count_eq_card_filter_range, Nat.count_modEq_card _ (by decide), Nat.mod_eq_of_lt inside]
  rfl

/-- The draws of a candidate, character by character. -/
theorem count_candidate (draws : Draws) :
    count (fun draws' => candidate draws' = candidate draws) =
      ∏ i, drawsPerChar (draws i % 62).toNat := by
  simp only [candidate_eq_iff]
  -- The characters are drawn independently.
  have split : { draws' : Draws // ∀ i, (draws' i % 62).toNat = (draws i % 62).toNat } ≃
      ∀ i, { draw : UInt64 // (draw % 62).toNat = (draws i % 62).toNat } :=
    @Equiv.subtypePiEquivPi _ (fun _ => UInt64) fun i draw => (draw % 62).toNat = (draws i % 62).toNat
  rw [count, Nat.card_congr split, Nat.card_pi]
  refine Finset.prod_congr rfl fun i _ => count_draw _ ?_
  rw [UInt64.toNat_mod]
  exact Nat.mod_lt _ (by decide)

/-- No string is drawn more often than one of favoured characters only. -/
theorem count_candidate_le (queryId : String) :
    count (fun draws => candidate draws = queryId) ≤ (2 ^ 64 / 62 + 1) ^ 8 := by
  by_cases drawn : ∃ draws, candidate draws = queryId
  · obtain ⟨draws, rfl⟩ := drawn
    rw [count_candidate]
    refine (Finset.prod_le_pow_card _ _ (2 ^ 64 / 62 + 1) fun i _ => ?_).trans (le_of_eq rfl)
    unfold drawsPerChar
    split <;> omega
  · rw [count_eq_zero _ fun draws same => drawn ⟨draws, same⟩]
    exact Nat.zero_le _

theorem card_draws : Nat.card Draws = (2 ^ 64) ^ 8 := by
  have word : UInt64 ≃ Fin UInt64.size := ⟨UInt64.toFin, UInt64.ofFin, fun _ => rfl, fun _ => rfl⟩
  rw [Nat.card_fun, Nat.card_congr word, Nat.card_fin, Nat.card_fin]
  rfl

/-! ## One id -/

/-- Is an id in one of the two maps? -/
def QueryManagerInner.uses (inner : QueryManagerInner) (queryId : String) : Bool :=
  inner.pendingRequests.containsKey queryId || inner.pendingResponses.containsKey queryId

/-- The loop draws until a candidate is not in use. -/
theorem generateQueryId_eq_first (inner : QueryManagerInner) (rng : List Draws) :
    inner.generateQueryId rng = first candidate inner.uses rng := by
  induction rng with
  | nil => rfl
  | cons draws rng ih =>
    rw [QueryManagerInner.generateQueryId, first, ih, QueryManagerInner.uses]
    cases inner.pendingRequests.containsKey (candidate draws) <;>
      cases inner.pendingResponses.containsKey (candidate draws) <;> simp

/-- Draws of ids in use are few. -/
theorem count_uses_le (inner : QueryManagerInner) :
    count (fun draws => inner.uses (candidate draws) = true) ≤
      (inner.pendingRequests.len + inner.pendingResponses.len) * (2 ^ 64 / 62 + 1) ^ 8 := by
  let used := inner.pendingRequests.iter.map Prod.fst ++ inner.pendingResponses.iter.map Prod.fst
  have listed (queryId : String) (uses : inner.uses queryId = true) : queryId ∈ used := by
    rw [QueryManagerInner.uses, Bool.or_eq_true, HashMap.containsKey_iff, HashMap.containsKey_iff] at uses
    rcases uses with ⟨query, found⟩ | ⟨query, found⟩
    · exact List.mem_append_left _ (List.mem_map_of_mem ((HashMap.mem_iter_iff _ _ _).mpr found))
    · exact List.mem_append_right _ (List.mem_map_of_mem ((HashMap.mem_iter_iff _ _ _).mpr found))
  have length : used.length = inner.pendingRequests.len + inner.pendingResponses.len := by
    simp [used, HashMap.iter, HashMap.len]
  rw [← length]
  exact (count_mono fun draws uses => listed _ uses).trans (count_mem_le candidate _ count_candidate_le used)

/-- **The law of `generate_query_id`.** Of the sequences of `n` rounds of draws,
those that return an id are, for every id that is free, its draws in one round
times a number that is the same for all ids; so the loop favours no free id more
than the remainder modulo 62 does. It is still running after `n` rounds in the
share of the ids in use to the power of `n`. -/
theorem generateQueryId_law (inner : QueryManagerInner) (n : Nat) (draws : Draws)
    (free : inner.pendingRequests.get (candidate draws) = none ∧
      inner.pendingResponses.get (candidate draws) = none) :
    count (fun rounds : Fin n → Draws =>
        inner.generateQueryId (List.ofFn rounds) = some (candidate draws)) *
      ((2 ^ 64) ^ 8 - count fun draws' => inner.uses (candidate draws') = true) =
      (∏ i, drawsPerChar (draws i % 62).toNat) *
        (((2 ^ 64) ^ 8) ^ n - (count fun draws' => inner.uses (candidate draws') = true) ^ n) ∧
    count (fun rounds : Fin n → Draws => inner.generateQueryId (List.ofFn rounds) = none) =
      (count fun draws' => inner.uses (candidate draws') = true) ^ n ∧
    count (fun draws' => inner.uses (candidate draws') = true) ≤
      (inner.pendingRequests.len + inner.pendingResponses.len) * (2 ^ 64 / 62 + 1) ^ 8 := by
  have accepted : inner.uses (candidate draws) = false := by
    rw [QueryManagerInner.uses, Bool.or_eq_false_iff]
    exact ⟨(HashMap.not_containsKey_iff _ _).mpr free.1, (HashMap.not_containsKey_iff _ _).mpr free.2⟩
  have some := count_first_some candidate inner.uses (candidate draws) accepted n
  have none := count_first_none candidate inner.uses n
  rw [card_draws, count_candidate] at some
  simp only [generateQueryId_eq_first]
  exact ⟨some, none, count_uses_le inner⟩

/-- While one id of eight `A`s is in use, for the id of eight `B`s. -/
theorem generateQueryId_law_inUse :
    let inner : QueryManagerInner := { pendingRequests := HashMap.new.insert "AAAAAAAA" 0 }
    let inUse := count fun draws' => inner.uses (candidate draws') = true
    count (fun rounds : Fin 3 → Draws => inner.generateQueryId (List.ofFn rounds) = some "BBBBBBBB") *
        ((2 ^ 64) ^ 8 - inUse) =
      (2 ^ 64 / 62 + 1) ^ 8 * (((2 ^ 64) ^ 8) ^ 3 - inUse ^ 3) ∧
    count (fun rounds : Fin 3 → Draws => inner.generateQueryId (List.ofFn rounds) = none) = inUse ^ 3 ∧
    inUse ≤ (2 ^ 64 / 62 + 1) ^ 8 := by
  intro inner inUse
  have law := generateQueryId_law inner 3 (fun _ => 1) (by decide +kernel)
  have drawn : candidate (fun _ => 1) = "BBBBBBBB" := by decide +kernel
  have favoured : (∏ _i : Fin QUERY_ID_LEN, drawsPerChar ((1 : UInt64) % 62).toNat) =
      (2 ^ 64 / 62 + 1) ^ 8 := by decide +kernel
  have one : inner.pendingRequests.len + inner.pendingResponses.len = 1 := by decide +kernel
  rwa [drawn, favoured, one, one_mul] at law

/-! ## The ids of a run -/

/-- The rounds of draws that a client's request may use. -/
def Action.rounds {L : Type} : Action L → List Draws
  | .request endpoint data rng =>
    match endpoint.readRequest data with
    | .ok _ => rng
    -- A request that cannot be read gets no id.
    | .error _ => []
  | _ => []

/-- The id that is returned was drawn. -/
theorem mem_of_generateQueryId (inner : QueryManagerInner) (rng : List Draws) (queryId : String)
    (returned : inner.generateQueryId rng = some queryId) : queryId ∈ rng.map candidate := by
  induction rng with
  | nil => cases returned
  | cons draws rng ih =>
    rw [QueryManagerInner.generateQueryId] at returned
    split at returned
    · cases returned
      exact List.mem_cons_self
    · exact List.mem_cons_of_mem _ (ih returned)

theorem ids_modify (tickets : QueryLife) (q : Query) (f : QueryTicket → QueryTicket)
    (same : ∀ ticket, (f ticket).id = ticket.id) :
    (tickets.modify q f).map (fun ticket => ticket.id) = tickets.map fun ticket => ticket.id := by
  apply List.ext_getElem?
  intro i
  rw [List.getElem?_map, List.getElem?_map, List.getElem?_modify]
  by_cases here : q = i
  · cases tickets[i]? <;> simp [here, same]
  · cases tickets[i]? <;> simp [here]

variable {L : Type} [DecidableEq L] {fromStr : String → Except String Json.Value} {config : L → Config}

/-- A step adds an id only by drawing it. -/
theorem ids_step (s t : State L) (a : Action L) (taken : Step fromStr config s a t) :
    t.ids = s.ids ∨ ∃ queryId ∈ a.rounds.map candidate, t.ids = s.ids ++ [queryId] := by
  cases taken with
  | request endpoint data rng queryRequest read queryId generated manager query enqueued =>
    refine Or.inr ⟨queryId, ?_, ?_⟩
    · rw [Action.rounds, read]
      exact mem_of_generateQueryId _ rng queryId generated
    · simp [State.ids, Lifecycle.enqueue]
  | waitReturn query => exact Or.inl (ids_modify s.tickets query _ fun _ => rfl)
  | resolve p queryId response rest stage query => exact Or.inl (ids_modify s.tickets query _ fun _ => rfl)
  | drain => exact Or.inl (by simp [State.ids, Lifecycle.handOut])
  | _ => exact Or.inl rfl

/-- The ids of a run are among its candidates, in the order in which they were drawn. -/
theorem ids_sublist (labels : List (Action L)) (s : State L)
    (path : Path (step fromStr config) Any .start labels s) :
    s.ids.Sublist ((labels.flatMap Action.rounds).map candidate) := by
  induction path with
  | nil => exact .slnil
  | snoc a before _ taken ih =>
    rw [List.flatMap_append, List.map_append, List.flatMap_singleton]
    rcases ids_step _ _ a (step_cases _ _ a taken) with same | ⟨queryId, drawn, added⟩
    · rw [same]
      exact ih.trans (List.sublist_append_left _ _)
    · rw [added]
      exact ih.append (List.singleton_sublist.mpr drawn)

/-- The sequences of rounds in which a candidate comes up twice. -/
def Repeating (n : Nat) : Set (Fin n → Draws) := { rounds | ¬ ((List.ofFn rounds).map candidate).Nodup }

/-- **Ids are distinct but for few draws.** The sequences of `n` rounds of draws in
which two candidates agree are at most as many as there are pairs of rounds,
times about `62 ^ (-8)` of all; and with any other sequence, whatever clients,
loops and network do, also in view of the draws, every run that draws its rounds
from the sequence has distinct ids. -/
theorem ids_distinct_but_for_few (n : Nat) :
    Nat.card (Repeating n) ≤ n.choose 2 * (2 ^ 64 / 62 + 1) ^ 8 * ((2 ^ 64) ^ 8) ^ (n - 1) ∧
    ∀ (labels : List (Action L)) (s : State L), Path (step fromStr config) Any .start labels s →
      ∀ rounds, rounds ∉ Repeating n → labels.flatMap Action.rounds <+: List.ofFn rounds → s.ids.Nodup := by
  constructor
  · have repeated := count_repeated_le candidate _ count_candidate_le n
    rw [card_draws] at repeated
    exact repeated
  · intro labels s path rounds distinct drawn
    have different : ((List.ofFn rounds).map candidate).Nodup := not_not.mp distinct
    have among := (ids_sublist labels s path).trans (drawn.map candidate).sublist
    exact different.sublist among

/-- Two clients, whose ids are all `A`s and all `B`s. -/
def twoRequests : List (Action Unit) :=
  [.request .encryptedRequest (.ok []) [fun _ => 0], .request .encryptedRequest (.ok []) [fun _ => 1]]

theorem ids_distinct_but_for_few_twoRequests :
    ∃ s, Path (step (fun _ => .error "") fun _ => {}) Any .start twoRequests s ∧
      s.ids = ["AAAAAAAA", "BBBBBBBB"] ∧ s.ids.Nodup := by
  obtain ⟨s, taken, ids⟩ := (Option.any_eq_true _ _).mp (show ((run (step (fun _ => .error "") fun _ => {}) Any
    State.start twoRequests).any fun s => decide (s.ids = ["AAAAAAAA", "BBBBBBBB"])) = true by decide +kernel)
  have path := path_of_run twoRequests State.start s taken
  refine ⟨s, path, of_decide_eq_true ids, ?_⟩
  apply (ids_distinct_but_for_few 2).2 twoRequests s path fun i _ => if i = 0 then 0 else 1
  · exact fun repeats => repeats (by decide +kernel)
  · exact ⟨[], by decide +kernel⟩

end FullServiceMirror
