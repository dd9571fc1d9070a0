import Mathlib.Data.List.Forall2
import Mathlib.Tactic.Common

/-!
# Runs of a step function

A system is a partial step function on states and labels: `none` when a label
is not enabled. Safety results are proved once per label and lifted to every
state a run reaches. A run may be restricted to steps that are `allowed`; the
unrestricted system allows all of them.
-/
namespace Transition

variable {σ α : Type}

/-- No restriction on the steps of a run. -/
def Any (_ : σ) (_ : α) : Prop := True

instance (s : σ) (a : α) : Decidable (Any s a) := inferInstanceAs (Decidable True)

/-- The states that runs from `start` reach when every step taken is allowed. -/
inductive Reachable (step : σ → α → Option σ) (allowed : σ → α → Prop) (start : σ) : σ → Prop
  | start : Reachable step allowed start start
  | next {s t : σ} (a : α) : Reachable step allowed start s → allowed s a → step s a = some t →
      Reachable step allowed start t

variable {step : σ → α → Option σ} {allowed : σ → α → Prop} {start : σ}

/-- What holds at the start and is kept by every allowed step holds throughout
every run. The step lemma may assume that the state it starts from is reachable. -/
theorem Reachable.invariant (P : σ → Prop) (initial : P start)
    (preserved : ∀ s a t, Reachable step allowed start s → allowed s a → P s →
      step s a = some t → P t)
    {s : σ} (reached : Reachable step allowed start s) : P s := by
  induction reached with
  | start => exact initial
  | next a before permitted taken ih => exact preserved _ a _ before permitted ih taken

/-- Lifting a restriction loses no run. -/
theorem Reachable.any {s : σ} (reached : Reachable step allowed start s) :
    Reachable step Any start s := by
  induction reached with
  | start => exact .start
  | next a _ _ taken ih => exact .next a ih trivial taken

/-- A restriction may be replaced by one that it implies in the states reached. -/
theorem Reachable.mono {allowed' : σ → α → Prop}
    (implied : ∀ s a, Reachable step Any start s → allowed s a → allowed' s a) {s : σ}
    (reached : Reachable step allowed start s) : Reachable step allowed' start s := by
  induction reached with
  | start => exact .start
  | next a before permitted taken ih => exact .next a ih (implied _ a before.any permitted) taken

/-- The state after a list of labels, when each is allowed and enabled in turn. -/
def run (step : σ → α → Option σ) (allowed : σ → α → Prop) [∀ s a, Decidable (allowed s a)] :
    σ → List α → Option σ
  | s, [] => some s
  | s, a :: rest => if allowed s a then (step s a).bind (run step allowed · rest) else none

theorem run_cons [∀ s a, Decidable (allowed s a)] (s t u : σ) (a : α) (labels : List α)
    (permitted : allowed s a) (moved : step s a = some t) (taken : run step allowed t labels = some u) :
    run step allowed s (a :: labels) = some u := by
  rw [run, if_pos permitted, moved]
  exact taken

/-- Runs follow one another. -/
theorem run_append [∀ s a, Decidable (allowed s a)] (labels labels' : List α) (s t u : σ)
    (first : run step allowed s labels = some t) (second : run step allowed t labels' = some u) :
    run step allowed s (labels ++ labels') = some u := by
  induction labels generalizing s with
  | nil =>
    cases first
    exact second
  | cons a rest ih =>
    rw [run] at first
    split at first
    next permitted =>
      obtain ⟨v, moved, remaining⟩ := Option.bind_eq_some_iff.mp first
      exact run_cons s v u a _ permitted moved (ih v remaining)
    · cases first

theorem reachable_of_run [∀ s a, Decidable (allowed s a)] (labels : List α) (s t : σ)
    (before : Reachable step allowed start s) (taken : run step allowed s labels = some t) :
    Reachable step allowed start t := by
  induction labels generalizing s with
  | nil =>
    cases taken
    exact before
  | cons a rest ih =>
    rw [run] at taken
    split at taken
    next permitted =>
      obtain ⟨u, moved, remaining⟩ := Option.bind_eq_some_iff.mp taken
      exact ih u (.next a before permitted moved) remaining
    · cases taken

/-- A run with its labels, the last step at the end. -/
inductive Path (step : σ → α → Option σ) (allowed : σ → α → Prop) (start : σ) : List α → σ → Prop
  | nil : Path step allowed start [] start
  | snoc {labels : List α} {s t : σ} (a : α) : Path step allowed start labels s → allowed s a →
      step s a = some t → Path step allowed start (labels ++ [a]) t

theorem Path.reachable {labels : List α} {s t : σ} (reached : Reachable step allowed start s)
    (path : Path step allowed s labels t) : Reachable step allowed start t := by
  induction path with
  | nil => exact reached
  | snoc a _ permitted taken ih => exact .next a ih permitted taken

theorem Path.append {labels labels' : List α} {s t u : σ} (path : Path step allowed s labels t)
    (path' : Path step allowed t labels' u) : Path step allowed s (labels ++ labels') u := by
  induction path' with
  | nil => rwa [List.append_nil]
  | snoc a _ permitted taken ih =>
    rw [← List.append_assoc]
    exact .snoc a ih permitted taken

theorem Path.mono {allowed' : σ → α → Prop} (implied : ∀ s a, allowed s a → allowed' s a)
    {labels : List α} {s t : σ} (path : Path step allowed s labels t) :
    Path step allowed' s labels t := by
  induction path with
  | nil => exact .nil
  | snoc a _ permitted taken ih => exact .snoc a ih (implied _ a permitted) taken

theorem path_of_run [∀ s a, Decidable (allowed s a)] (labels : List α) (s t : σ)
    (taken : run step allowed s labels = some t) : Path step allowed s labels t := by
  induction labels generalizing s with
  | nil =>
    cases taken
    exact .nil
  | cons a rest ih =>
    rw [run] at taken
    split at taken
    next permitted =>
      obtain ⟨u, moved, remaining⟩ := Option.bind_eq_some_iff.mp taken
      have first : Path step allowed s [a] u := .snoc a .nil permitted moved
      exact first.append (ih u remaining)
    · cases taken

/-- **Simulation with inputs.** When every step can be followed by a step of
another system that is given another input of the environment, so can every run
be followed by a run with other inputs throughout. -/
theorem Path.simulated {σ' α' ι ι' : Type} {step' : σ' → α' → Option σ'} {R : σ → σ' → Prop}
    {A : α → α' → Prop} {I : ι → ι' → Prop} (input : α → Option ι) (input' : α' → Option ι')
    (follow : ∀ s a t s' i', step s a = some t → R s s' → Option.Rel I (input a) i' →
      ∃ a' t', step' s' a' = some t' ∧ input' a' = i' ∧ A a a' ∧ R t t')
    {labels : List α} {s t : σ} (path : Path step allowed s labels t) {s' : σ'} (alike : R s s')
    (inputs' : List ι') (others : List.Forall₂ I (labels.filterMap input) inputs') :
    ∃ labels' t', Path step' Any s' labels' t' ∧ labels'.filterMap input' = inputs' ∧
      List.Forall₂ A labels labels' ∧ R t t' := by
  induction path generalizing inputs' with
  | nil =>
    cases others
    exact ⟨[], s', .nil, rfl, .nil, alike⟩
  | @snoc labels _ _ a before permitted taken ih =>
    rw [List.filterMap_append] at others
    -- The inputs of the other run are split like those of this one.
    have earlier := (List.forall₂_take_append _ _ _ others.flip).flip
    have final := (List.forall₂_drop_append _ _ _ others.flip).flip
    have split := List.take_append_drop (labels.filterMap input).length inputs'
    generalize inputs'.take (labels.filterMap input).length = first at earlier split
    generalize inputs'.drop (labels.filterMap input).length = last at final split
    subst split
    obtain ⟨labels', u', path', rfl, labelled, alike'⟩ := ih first earlier
    -- The last step has an input or none.
    obtain ⟨i', one, rfl⟩ : ∃ i', Option.Rel I (input a) i' ∧ last = i'.toList := by
      cases asked : input a with
      | none =>
        simp only [List.filterMap_cons, asked, List.filterMap_nil] at final
        cases final
        exact ⟨none, .none, rfl⟩
      | some i =>
        simp only [List.filterMap_cons, asked, List.filterMap_nil] at final
        obtain ⟨i', rest, related, nothing, rfl⟩ := List.forall₂_cons_left_iff.mp final
        cases nothing
        exact ⟨some i', .some related, rfl⟩
    obtain ⟨a', t', taken', rfl, same, alike''⟩ := follow _ a _ u' i' taken alike' one
    refine ⟨labels' ++ [a'], t', .snoc a' path' trivial taken', ?_, ?_, alike''⟩
    · rw [List.filterMap_append]
      cases asked : input' a' <;> simp [asked]
    · exact List.rel_append labelled (.cons same .nil)

/-- **Refinement with stuttering.** Steps that do not show leave the state of the
specification as it is, the others are events of it. What is good of a state is
good of those before it, so it may be asked of the last one only. -/
theorem Path.refined {τ ε : Type} {spec : τ → ε → Option τ} {R : σ → τ → Prop} {M : α → ε → Prop}
    (shows : α → Bool) (good : σ → Prop)
    (back : ∀ s a t, step s a = some t → good t → good s)
    (hidden : ∀ s a t b, Reachable step allowed start s → good t → R s b → step s a = some t →
      shows a = false → R t b)
    (shown : ∀ s a t b, Reachable step allowed start s → good t → R s b → step s a = some t →
      shows a = true → ∃ e b', M a e ∧ spec b e = some b' ∧ R t b')
    {labels : List α} {s : σ} {b₀ : τ} (path : Path step allowed start labels s) (well : good s)
    (initial : R start b₀) :
    ∃ events b, Path spec Any b₀ events b ∧ List.Forall₂ M (labels.filter shows) events ∧ R s b := by
  induction path with
  | nil => exact ⟨[], b₀, .nil, .nil, initial⟩
  | @snoc labels s t a before permitted taken ih =>
    obtain ⟨events, b, path', matched, related⟩ := ih (back s a t taken well)
    have reached := before.reachable .start
    rw [List.filter_append]
    cases visible : shows a with
    | false =>
      refine ⟨events, b, path', ?_, hidden s a t b reached well related taken visible⟩
      simpa [visible] using matched
    | true =>
      obtain ⟨e, b', same, taken', related'⟩ := shown s a t b reached well related taken visible
      refine ⟨events ++ [e], b', .snoc e path' trivial taken', ?_, related'⟩
      rw [List.filter_cons_of_pos visible]
      exact List.rel_append matched (.cons same .nil)

/-- A run computed to a state with a decidable property exhibits a reachable one. -/
theorem exists_reachable_of_run (step : σ → α → Option σ) (allowed : σ → α → Prop) (start : σ)
    [∀ s a, Decidable (allowed s a)] (labels : List α) (p : σ → Bool)
    (computed : (run step allowed start labels).any p = true) :
    ∃ s, Reachable step allowed start s ∧ p s = true := by
  obtain ⟨s, taken, holds⟩ := (Option.any_eq_true _ _).mp computed
  exact ⟨s, reachable_of_run labels start s .start taken, holds⟩

end Transition
