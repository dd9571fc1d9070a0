import Mathlib.Algebra.BigOperators.Fin
import Mathlib.Algebra.Order.BigOperators.Group.Finset
import Mathlib.Data.Nat.Choose.Basic
import Mathlib.SetTheory.Cardinal.Finite
import Mathlib.Tactic.Ring

/-!
# Drawing until a value is accepted

Draws from a finite type, each of which has a value. What comes of several
rounds of draws is told by counting the sequences of draws that lead there.
-/
namespace Sampling

variable {D X : Type}

/-- The first value that is not rejected. -/
def first (value : D → X) (rejects : X → Bool) : List D → Option X
  | [] => none
  | d :: rest => if rejects (value d) then first value rejects rest else some (value d)

/-! ## Counting -/

/-- The number of draws with a property. -/
noncomputable def count (P : D → Prop) : Nat := Nat.card { d // P d }

theorem count_mono [Finite D] {P Q : D → Prop} (implies : ∀ d, P d → Q d) : count P ≤ count Q :=
  Nat.card_le_card_of_injective (Subtype.map id implies) (Subtype.map_injective implies Function.injective_id)

theorem count_le [Finite D] (P : D → Prop) : count P ≤ Nat.card D :=
  Nat.card_le_card_of_injective Subtype.val Subtype.val_injective

theorem count_eq_zero (P : D → Prop) (never : ∀ d, ¬ P d) : count P = 0 := by
  have none : IsEmpty { d // P d } := ⟨fun d => never d d.2⟩
  exact Nat.card_of_isEmpty

theorem count_eq_card (P : D → Prop) (always : ∀ d, P d) : count P = Nat.card D :=
  Nat.card_congr (Equiv.subtypeUnivEquiv always)

theorem count_eq_sum [Fintype D] (P : D → Prop) [DecidablePred P] :
    count P = ∑ d : D, if P d then 1 else 0 := by
  rw [count, Nat.card_eq_fintype_card, Fintype.card_subtype, Finset.card_filter]

theorem count_or_le [Finite D] (P Q : D → Prop) : count (fun d => P d ∨ Q d) ≤ count P + count Q := by
  classical
  have := Fintype.ofFinite D
  rw [count_eq_sum, count_eq_sum, count_eq_sum, ← Finset.sum_add_distrib]
  apply Finset.sum_le_sum
  intro d _
  by_cases p : P d <;> by_cases q : Q d <;> simp [p, q]

theorem count_or [Finite D] (P Q : D → Prop) (disjoint : ∀ d, P d → ¬ Q d) :
    count (fun d => P d ∨ Q d) = count P + count Q := by
  classical
  have := Fintype.ofFinite D
  rw [count_eq_sum, count_eq_sum, count_eq_sum, ← Finset.sum_add_distrib]
  apply Finset.sum_congr rfl
  intro d _
  by_cases p : P d
  · simp [p, disjoint d p]
  · by_cases q : Q d <;> simp [p, q]

/-- Values of a list come out no more often than each of them together. -/
theorem count_mem_le [Finite D] (value : D → X) (most : Nat) (bound : ∀ x, count (fun d => value d = x) ≤ most)
    (l : List X) : count (fun d => value d ∈ l) ≤ l.length * most := by
  induction l with
  | nil => rw [count_eq_zero _ (by simp)]; exact Nat.zero_le _
  | cons x rest ih =>
    have split := count_or_le (fun d => value d = x) (fun d => value d ∈ rest)
    have one := bound x
    simp only [List.mem_cons, List.length_cons, Nat.add_mul]
    omega

/-- Sequences of one draw more, by what the draws after the first are. -/
theorem count_rounds {n : Nat} [Fintype D] (P : D → (Fin n → D) → Prop) :
    count (fun rounds : Fin (n + 1) → D => P (rounds 0) (Fin.tail rounds)) =
      ∑ rest : Fin n → D, count fun d => P d rest := by
  have split : { rounds : Fin (n + 1) → D // P (rounds 0) (Fin.tail rounds) } ≃
      { p : (Fin n → D) × D // P p.2 p.1 } :=
    ((Fin.consEquiv fun _ => D).symm.trans (Equiv.prodComm _ _)).subtypeEquiv fun _ => Iff.rfl
  rw [count, Nat.card_congr (split.trans (Equiv.subtypeProdEquivSigmaSubtype fun rest d => P d rest)),
    Nat.card_sigma]
  rfl

/-- What one more draw adds, where it does so whatever the others are. -/
theorem sum_rounds [Fintype D] {n : Nat} (P : (Fin n → D) → Prop) [DecidablePred P] (a b : Nat) :
    (∑ rest : Fin n → D, ((if P rest then a else 0) + b)) = a * count P + Nat.card D ^ n * b := by
  have constant : (∑ _rest : Fin n → D, b) = Nat.card D ^ n * b := by
    simp [Nat.card_eq_fintype_card]
  have scaled : (∑ rest : Fin n → D, if P rest then a else 0) = a * count P := by
    rw [count_eq_sum, Finset.mul_sum]
    exact Finset.sum_congr rfl fun rest _ => by split <;> simp
  rw [Finset.sum_add_distrib, constant, scaled]

/-! ## Rejections -/

section

variable (value : D → X) (rejects : X → Bool)

theorem first_succ {n : Nat} (rounds : Fin (n + 1) → D) :
    first value rejects (List.ofFn rounds) = if rejects (value (rounds 0))
      then first value rejects (List.ofFn (Fin.tail rounds)) else some (value (rounds 0)) := by
  rw [List.ofFn_succ]
  rfl

variable [Finite D]

/-- No value is accepted in `n` rounds only if each is rejected. -/
theorem count_first_none (n : Nat) :
    count (fun rounds : Fin n → D => first value rejects (List.ofFn rounds) = none) =
      count (fun d => rejects (value d) = true) ^ n := by
  classical
  have := Fintype.ofFinite D
  induction n with
  | zero => simp [count_eq_card, first]
  | succ n ih =>
    simp only [first_succ]
    rw [count_rounds fun d rest => (if rejects (value d) then first value rejects (List.ofFn rest)
      else some (value d)) = none]
    -- The first draw has to be rejected, and so have the others.
    calc
      _ = ∑ rest : Fin n → D, ((if first value rejects (List.ofFn rest) = none
            then count (fun d => rejects (value d) = true) else 0) + 0) := by
        refine Finset.sum_congr rfl fun rest _ => ?_
        by_cases rejected : first value rejects (List.ofFn rest) = none
        · simp [rejected]
        · rw [count_eq_zero _ fun d => by split <;> simp [rejected]]
          simp [rejected]
      _ = _ := by
        rw [sum_rounds, ih, Nat.mul_zero, Nat.add_zero, pow_succ']

/-- A free value comes out after a rejection, or is drawn at once. -/
theorem count_first_some_succ (x : X) (free : rejects x = false) (n : Nat) :
    count (fun rounds : Fin (n + 1) → D => first value rejects (List.ofFn rounds) = some x) =
      (count fun d => rejects (value d) = true) *
          count (fun rounds : Fin n → D => first value rejects (List.ofFn rounds) = some x) +
        Nat.card D ^ n * count fun d => value d = x := by
  classical
  have := Fintype.ofFinite D
  simp only [first_succ]
  rw [count_rounds fun d rest => (if rejects (value d) then first value rejects (List.ofFn rest)
    else some (value d)) = some x, ← sum_rounds]
  apply Finset.sum_congr rfl
  intro rest _
  have cases (d : D) : ((if rejects (value d) then first value rejects (List.ofFn rest)
      else some (value d)) = some x) ↔
      (rejects (value d) = true ∧ first value rejects (List.ofFn rest) = some x) ∨ value d = x := by
    cases rejected : rejects (value d) with
    | true =>
      have other : value d ≠ x := by
        rintro rfl
        rw [free] at rejected
        cases rejected
      simp [other]
    | false => simp
  simp only [cases]
  -- No draw is in both cases, since the value is free.
  rw [count_or _ _ (by rintro d ⟨rejected, _⟩ rfl; rw [free] at rejected; cases rejected)]
  by_cases found : first value rejects (List.ofFn rest) = some x
  · simp [found]
  · simp [found, count_eq_zero]

/-- Rejections favour no value: in `n` rounds a free value comes out as often as
it is drawn at once, times the same number for all. -/
theorem count_first_some (x : X) (free : rejects x = false) (n : Nat) :
    count (fun rounds : Fin n → D => first value rejects (List.ofFn rounds) = some x) *
        (Nat.card D - count fun d => rejects (value d) = true) =
      count (fun d => value d = x) *
        (Nat.card D ^ n - count (fun d => rejects (value d) = true) ^ n) := by
  induction n with
  | zero => simp [count_eq_zero, first]
  | succ n ih =>
    have fewer := count_le fun d => rejects (value d) = true
    rw [count_first_some_succ value rejects x free n, Nat.add_mul, Nat.mul_assoc, ih]
    generalize (count fun d => rejects (value d) = true) = r at *
    -- What the differences leave over, so that the rest is an identity of sums.
    obtain ⟨k, cards⟩ := Nat.exists_eq_add_of_le fewer
    obtain ⟨j, powers⟩ := Nat.exists_eq_add_of_le (Nat.pow_le_pow_left fewer n)
    rw [pow_succ', pow_succ', powers, cards]
    have differ : (r + k) * (r ^ n + j) - r * r ^ n = r * j + (r ^ n + j) * k := by
      rw [show (r + k) * (r ^ n + j) = r * r ^ n + (r * j + (r ^ n + j) * k) by ring]
      exact Nat.add_sub_cancel_left _ _
    rw [Nat.add_sub_cancel_left, Nat.add_sub_cancel_left, differ]
    ring

end

/-! ## Repetitions -/

/-- One round more repeats one of the values that were drawn, or they repeat already. -/
theorem count_repeated_succ [Finite D] (value : D → X) (most : Nat)
    (bound : ∀ x, count (fun d => value d = x) ≤ most) (n : Nat) :
    count (fun rounds : Fin (n + 1) → D => ¬ ((List.ofFn rounds).map value).Nodup) ≤
      Nat.card D * count (fun rounds : Fin n → D => ¬ ((List.ofFn rounds).map value).Nodup) +
        Nat.card D ^ n * (n * most) := by
  classical
  have := Fintype.ofFinite D
  rw [← sum_rounds]
  have split (rounds : Fin (n + 1) → D) : List.ofFn rounds = rounds 0 :: List.ofFn (Fin.tail rounds) :=
    List.ofFn_succ
  simp only [split, List.map_cons, List.nodup_cons, not_and_or, not_not]
  rw [count_rounds fun d rest => value d ∈ (List.ofFn rest).map value ∨
    ¬ ((List.ofFn rest).map value).Nodup]
  apply Finset.sum_le_sum
  intro rest _
  by_cases repeated : ((List.ofFn rest).map value).Nodup
  · simp only [repeated, not_true, or_false, if_false, Nat.zero_add]
    have few := count_mem_le value most bound ((List.ofFn rest).map value)
    rwa [List.length_map, List.length_ofFn] at few
  -- Whatever is drawn now, all sequences count.
  · rw [if_pos repeated]
    exact Nat.le_add_right_of_le (count_le _)

/-- **The birthday bound.** Among `n` rounds two values agree in at most as many
sequences as there are pairs of rounds, times the draws of one value. -/
theorem count_repeated_le [Finite D] (value : D → X) (most : Nat)
    (bound : ∀ x, count (fun d => value d = x) ≤ most) (n : Nat) :
    count (fun rounds : Fin n → D => ¬ ((List.ofFn rounds).map value).Nodup) ≤
      n.choose 2 * most * Nat.card D ^ (n - 1) := by
  induction n with
  | zero =>
    rw [count_eq_zero _ (by simp)]
    exact Nat.zero_le _
  | succ n ih =>
    -- Pascal's rule for the pairs, and one factor more for the draws.
    apply (count_repeated_succ value most bound n).trans
    rw [Nat.choose_succ_succ' n 1, Nat.choose_one_right, Nat.add_sub_cancel]
    cases n with
    | zero =>
      simp at ih ⊢
      exact Or.inr ih
    | succ n =>
      rw [Nat.add_sub_cancel] at ih
      calc
        _ ≤ Nat.card D * ((n + 1).choose 2 * most * Nat.card D ^ n) + Nat.card D ^ (n + 1) * ((n + 1) * most) :=
          Nat.add_le_add_right (Nat.mul_le_mul_left _ ih) _
        _ = _ := by ring

end Sampling
