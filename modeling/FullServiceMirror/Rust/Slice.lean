import Mathlib.Algebra.Group.Nat.Defs
import Mathlib.Data.List.Basic
import Mathlib.Data.List.Forall2
import Mathlib.Tactic.Common

/-!
# Results, panics and `slice::chunks`

A call returns, fails with an `Err`, or panics. `chunks` cuts a slice into
pieces of a given size, the last one possibly shorter; concatenating pieces of
exactly that size and cutting again gives the pieces back.
-/
namespace Rust

/-- How a call ends without its value. -/
inductive Fault where
  | err (message : String)
  | panic (message : String)
  deriving DecidableEq, Repr

/-- A computation over `Result<_, String>` that may also panic. -/
abbrev Outcome (α : Type) := Except Fault α

/-- `a - b` on `usize` (64 bits) in a release build: below zero it wraps around. -/
def usizeSub (a b : Nat) : Nat := if b ≤ a then a - b else a + 2 ^ 64 - b

variable {α β : Type}

/-- The pieces of a non-panicking `chunks`; each round takes one piece off, so
the length of the slice bounds the number of rounds. -/
def pieces (size : Nat) : Nat → List α → List (List α)
  | 0, _ => []
  | _ + 1, [] => []
  | rounds + 1, xs => xs.take size :: pieces size rounds (xs.drop size)

/-- `slice::chunks`, which panics on size zero even for the empty slice. -/
def chunks (size : Nat) (xs : List α) : Outcome (List (List α)) :=
  if size = 0 then .error (.panic "chunk size must be non-zero")
  else .ok (pieces size xs.length xs)

theorem pieces_more (size : Nat) (positive : 0 < size) (rounds more : Nat) (xs : List α)
    (enough : xs.length ≤ rounds) : pieces size (rounds + more) xs = pieces size rounds xs := by
  induction rounds generalizing xs with
  | zero =>
    have empty : xs = [] := List.length_eq_zero_iff.mp (Nat.le_zero.mp enough)
    subst empty
    cases more <;> rfl
  | succ rounds ih =>
    cases xs with
    | nil => rw [Nat.add_right_comm]; rfl
    | cons x xs =>
      have shorter : ((x :: xs).drop size).length ≤ rounds := by
        rw [List.length_drop]; omega
      rw [Nat.add_right_comm]
      simp only [pieces, ih _ shorter]

/-- The pieces of a slice. -/
def piecesOf (size : Nat) (xs : List α) : List (List α) := pieces size xs.length xs

theorem chunks_ok (size : Nat) (positive : 0 < size) (xs : List α) :
    chunks size xs = .ok (piecesOf size xs) := by
  rw [chunks, if_neg (by omega)]
  rfl

@[simp] theorem piecesOf_nil (size : Nat) : piecesOf size ([] : List α) = [] := rfl

theorem piecesOf_cons (size : Nat) (positive : 0 < size) (xs : List α) (nonempty : xs ≠ []) :
    piecesOf size xs = xs.take size :: piecesOf size (xs.drop size) := by
  cases xs with
  | nil => exact absurd rfl nonempty
  | cons x xs =>
    have shorter : ((x :: xs).drop size).length ≤ xs.length := by
      rw [List.length_drop, List.length_cons]; omega
    have fewer : pieces size xs.length ((x :: xs).drop size) = piecesOf size ((x :: xs).drop size) := by
      rw [piecesOf, ← pieces_more size positive _ (xs.length - ((x :: xs).drop size).length) _ (Nat.le_refl _),
        Nat.add_sub_cancel' shorter]
    rw [← fewer]
    rfl

/-- The recursion that `chunks` follows, as an induction principle. -/
theorem chunks_induction (size : Nat) (positive : 0 < size) {motive : List α → Prop}
    (nil : motive []) (cons : ∀ xs, xs ≠ [] → motive (xs.drop size) → motive xs)
    (xs : List α) : motive xs := by
  induction h : xs.length using Nat.strongRecOn generalizing xs with
  | _ n ih =>
    by_cases empty : xs = []
    · subst empty; exact nil
    · have shorter : (xs.drop size).length < n := by
        have := List.length_pos_of_ne_nil empty
        rw [List.length_drop]; omega
      exact cons xs empty (ih _ shorter _ rfl)

/-- Nothing is lost or reordered by cutting. -/
theorem piecesOf_flatten (size : Nat) (positive : 0 < size) (xs : List α) :
    (piecesOf size xs).flatten = xs := by
  induction xs using chunks_induction size positive with
  | nil => rfl
  | cons xs nonempty ih =>
    rw [piecesOf_cons size positive xs nonempty, List.flatten_cons, ih, List.take_append_drop]

theorem piecesOf_bounded (size : Nat) (positive : 0 < size) (xs piece : List α)
    (member : piece ∈ piecesOf size xs) : piece.length ≤ size := by
  induction xs using chunks_induction size positive with
  | nil => cases member
  | cons xs nonempty ih =>
    rw [piecesOf_cons size positive xs nonempty, List.mem_cons] at member
    rcases member with rfl | rest
    · rw [List.length_take]; omega
    · exact ih rest

/-- The number of pieces is the length over the size, rounded up. -/
theorem piecesOf_length (size : Nat) (positive : 0 < size) (xs : List α) :
    (piecesOf size xs).length = (xs.length + size - 1) / size := by
  induction xs using chunks_induction size positive with
  | nil =>
    rw [piecesOf_nil, List.length_nil, List.length_nil, Nat.zero_add]
    exact (Nat.div_eq_of_lt (by omega)).symm
  | cons xs nonempty ih =>
    rw [piecesOf_cons size positive xs nonempty, List.length_cons, ih, List.length_drop]
    have occupied := List.length_pos_of_ne_nil nonempty
    by_cases short : xs.length ≤ size
    · have none : xs.length - size = 0 := by omega
      have one : xs.length + size - 1 = (xs.length - 1) + size := by omega
      rw [none, one, Nat.add_div_right _ positive, Nat.div_eq_of_lt (by omega : xs.length - 1 < size),
        Nat.div_eq_of_lt (by omega)]
    · have shift : xs.length + size - 1 = (xs.length - size + size - 1) + size := by omega
      rw [shift, Nat.add_div_right _ positive]

/-- Blocks of exactly the chunk size are what cutting their concatenation yields. -/
theorem piecesOf_blocks (size : Nat) (positive : 0 < size) (blocks : List (List α))
    (full : ∀ b ∈ blocks, b.length = size) : piecesOf size blocks.flatten = blocks := by
  induction blocks with
  | nil => rfl
  | cons b rest ih =>
    have exact_size : b.length = size := full b List.mem_cons_self
    have nonempty : (b :: rest).flatten ≠ [] := by
      intro empty
      rw [List.flatten_cons, List.append_eq_nil_iff] at empty
      rw [empty.1, List.length_nil] at exact_size
      omega
    rw [piecesOf_cons size positive _ nonempty, List.flatten_cons,
      List.take_left' exact_size, List.drop_left' exact_size,
      ih (fun c member => full c (List.mem_cons_of_mem _ member))]

/-- What is encoded piece by piece into blocks of one size is cut into those
blocks again. -/
theorem piecesOf_encoded {γ : Type} (size : Nat) (positive : 0 < size) (encodes : γ → List β → Prop)
    (xs : List γ) (full : ∀ x ∈ xs, ∃ b, encodes x b ∧ b.length = size) :
    ∃ blocks, List.Forall₂ encodes xs blocks ∧ piecesOf size blocks.flatten = blocks ∧
      blocks.flatten.length = size * xs.length := by
  -- One block for each element, all of one size.
  have encoded : ∃ blocks, List.Forall₂ encodes xs blocks ∧ ∀ b ∈ blocks, b.length = size := by
    induction xs with
    | nil => exact ⟨[], .nil, by simp⟩
    | cons x xs ih =>
      obtain ⟨b, encodes_x, size_b⟩ := full x List.mem_cons_self
      obtain ⟨bs, encodes_xs, size_bs⟩ := ih fun y member => full y (List.mem_cons_of_mem _ member)
      exact ⟨b :: bs, .cons encodes_x encodes_xs, List.forall_mem_cons.mpr ⟨size_b, size_bs⟩⟩
  obtain ⟨blocks, encodes_xs, sizes⟩ := encoded
  refine ⟨blocks, encodes_xs, piecesOf_blocks size positive blocks sizes, ?_⟩
  have lengths : blocks.map List.length = List.replicate xs.length size := by
    rw [List.eq_replicate_iff, List.length_map, encodes_xs.length_eq]
    exact ⟨rfl, by simpa using sizes⟩
  rw [List.length_flatten, lengths, List.sum_replicate_nat, Nat.mul_comm]

/-- A sequence of two fallible steps returns exactly when both return. -/
theorem bind_ok_iff {ε : Type} (step : Except ε α) (next : α → Except ε β) (b : β) :
    (step >>= next) = .ok b ↔ ∃ a, step = .ok a ∧ next a = .ok b := by
  cases step with
  | error e => simp [bind, Except.bind]
  | ok a => simp [bind, Except.bind]

/-- `collect::<Result<Vec<_>, _>>` returns when the first call and the rest do. -/
theorem collect_cons_iff {ε : Type} (f : α → Except ε β) (x : α) (xs : List α) (zs : List β) :
    (x :: xs).mapM f = .ok zs ↔ ∃ y ys, f x = .ok y ∧ xs.mapM f = .ok ys ∧ zs = y :: ys := by
  rw [List.mapM_cons, bind_ok_iff]
  refine exists_congr fun y => ?_
  rw [bind_ok_iff]
  constructor
  · rintro ⟨called, ys, rest, equal⟩
    exact ⟨ys, called, rest, (Except.ok.inj equal).symm⟩
  · rintro ⟨ys, called, rest, rfl⟩
    exact ⟨called, ys, rest, rfl⟩

/-- What `collect` returns is, value by value, what the calls return. -/
theorem collect_iff {ε : Type} (f : α → Except ε β) (xs : List α) (ys : List β) :
    xs.mapM f = .ok ys ↔ List.Forall₂ (fun x y => f x = .ok y) xs ys := by
  induction xs generalizing ys with
  | nil =>
    rw [List.forall₂_nil_left_iff, List.mapM_nil]
    exact ⟨fun same => (Except.ok.inj same).symm, fun empty => congrArg Except.ok empty.symm⟩
  | cons x xs ih =>
    rw [collect_cons_iff, List.forall₂_cons_left_iff]
    constructor
    · rintro ⟨y, zs, called, rest, rfl⟩
      exact ⟨y, zs, called, (ih zs).mp rest, rfl⟩
    · rintro ⟨y, zs, called, rest, rfl⟩
      exact ⟨y, zs, called, (ih zs).mpr rest, rfl⟩

/-- When `collect` fails, it fails with the error of one of the calls. -/
theorem exists_of_collect_error {ε : Type} (f : α → Except ε β) (xs : List α) (e : ε)
    (failed : xs.mapM f = .error e) : ∃ x ∈ xs, f x = .error e := by
  induction xs with
  | nil => cases failed
  | cons x xs ih =>
    rw [List.mapM_cons] at failed
    cases called : f x with
    | error e' =>
      rw [called] at failed
      cases failed
      exact ⟨x, List.mem_cons_self, called⟩
    | ok y =>
      rw [called] at failed
      cases rest : xs.mapM f with
      | error e' =>
        simp only [rest, bind, Except.bind] at failed
        cases failed
        obtain ⟨z, member, called'⟩ := ih rest
        exact ⟨z, List.mem_cons_of_mem _ member, called'⟩
      | ok ys =>
        simp only [rest, bind, Except.bind, pure, Except.pure] at failed
        cases failed

/-- Whatever is on the left of a pairing has a partner. -/
theorem exists_of_forall₂ {r : α → β → Prop} {xs : List α} {ys : List β} (paired : List.Forall₂ r xs ys)
    (x : α) (member : x ∈ xs) : ∃ y ∈ ys, r x y := by
  induction paired with
  | nil => cases member
  | cons related rest ih =>
    rcases List.mem_cons.mp member with rfl | later
    · exact ⟨_, List.mem_cons_self, related⟩
    · obtain ⟨y, among, related'⟩ := ih later
      exact ⟨y, List.mem_cons_of_mem _ among, related'⟩

/-! ## Absence of panics -/

def NoPanic (o : Outcome α) : Prop := ∀ message, o ≠ .error (.panic message)

theorem noPanic_ok (a : α) : NoPanic (.ok a) := by
  intro message panicked
  cases panicked

theorem noPanic_err (message : String) : NoPanic (α := α) (.error (.err message)) := by
  intro message panicked
  cases panicked

theorem noPanic_bind (o : Outcome α) (next : α → Outcome β) (first : NoPanic o)
    (second : ∀ a, NoPanic (next a)) : NoPanic (o >>= next) := by
  cases o with
  | error fault =>
    intro message panicked
    cases panicked
    exact first message rfl
  | ok a => exact second a

theorem noPanic_collect (f : α → Outcome β) (calls : ∀ x, NoPanic (f x)) (xs : List α) :
    NoPanic (xs.mapM f) := by
  induction xs with
  | nil => exact noPanic_ok []
  | cons x xs ih =>
    rw [List.mapM_cons]
    exact noPanic_bind _ _ (calls x) fun y => noPanic_bind _ _ ih fun ys => noPanic_ok (y :: ys)

end Rust
