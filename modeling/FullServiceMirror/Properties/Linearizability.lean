import FullServiceMirror.Public.Linearization

/-!
# The public side is linearizable

Calls overlap in any way, and a wait spans the polls that answer it. Still the
operations can be put in one order, that of the steps in which they take effect,
in which each does what it would do alone. A call returns what its operation
did, and its operation takes effect while the call runs.
-/
namespace FullServiceMirror.Threads

open Rust Rust.Sync

variable {T : Type}

/-- The operations that have taken effect, in order, read off the steps that led
to these places. -/
def operations [DecidableEq T] (place : T → Place) : History T → List (T × Operation)
  | [] => []
  | (t, before) :: history =>
    operations (Function.update place t before) history ++
      ((operation before (place t)).map fun o => (t, o)).toList

/-- The places that a thread has come through, and the one where it is. -/
def visits [DecidableEq T] (place : T → Place) (history : History T) (t : T) : List Place :=
  ((history.filter fun step => step.1 = t).map Prod.snd).reverse ++ [place t]

/-- Operations that took place one at a time, from the start. -/
inductive Sequential : List (T × Operation) → QueryLife → Prop
  | nil : Sequential [] []
  | snoc {operations : List (T × Operation)} {a a' : QueryLife} (t : T) (o : Operation) :
    Sequential operations a → OperationStep a o a' → Sequential (operations ++ [(t, o)]) a'

/-- What the operations of a thread returned, in order. -/
def outcomesOf [DecidableEq T] (operations : List (T × Operation)) (t : T) : List Outcome :=
  operations.filterMap fun e => if e.1 = t then some e.2.outcome else none

variable [DecidableEq T] {s s' : State T Lock Shared Place} {t : T} {place' : Place}

theorem operations_moved (moved : Moved s t place' s') :
    operations s'.place s'.history = operations s.place s.history ++
      ((operation (s.place t) place').map fun o => (t, o)).toList := by
  rw [moved.history, operations, moved.place, Function.update_self, Function.update_idem,
    Function.update_eq_self]

theorem visits_self (moved : Moved s t place' s') :
    visits s'.place s'.history t = visits s.place s.history t ++ [place'] := by
  rw [visits, visits, moved.history, moved.place, Function.update_self]
  simp

theorem visits_other (moved : Moved s t place' s') (u : T) (other : u ≠ t) :
    visits s'.place s'.history u = visits s.place s.history u := by
  rw [visits, visits, moved.history, moved.place, Function.update_of_ne other]
  simp [Ne.symm other]

/-- A thread has the results of its operations, each from the step on in which it took effect. -/
theorem outcomes_moved (moved : Moved s t place' s') (u : T)
    (same : outcomesOf (operations s.place s.history) u =
      (visits s.place s.history u).filterMap Place.outcome) :
    outcomesOf (operations s'.place s'.history) u =
      (visits s'.place s'.history u).filterMap Place.outcome := by
  have own := moved.outcome
  rw [operations_moved moved, outcomesOf, List.filterMap_append]
  -- What took effect is the operation of the thread that moved.
  by_cases self : u = t
  · subst self
    rw [visits_self moved, List.filterMap_append, ← same, ← outcomesOf]
    congr 1
    cases performed : operation (s.place u) place' with
    | none => simp [← own, performed]
    | some o => simp [← own, performed]
  · rw [visits_other moved u self, ← same, ← outcomesOf]
    cases operation (s.place t) place' with
    | none => simp
    | some o => simp [Ne.symm self]

theorem sequential_moved {a a' : QueryLife} (moved : Moved s t place' s')
    (move : LifeMove (s.place t) place' a a')
    (sequential : Sequential (operations s.place s.history) a) :
    Sequential (operations s'.place s'.history) a' := by
  rw [operations_moved moved]
  unfold LifeMove at move
  cases performed : operation (s.place t) place' with
  | none =>
    rw [performed] at move
    subst move
    simpa using sequential
  | some o =>
    rw [performed] at move
    exact .snoc t o sequential move

/-- **Linearizability.** In every state that the threads reach, the operations that
have taken effect are ones that took place one at a time. The manager is as they
left it, up to the operation that is under way; every thread has got the results
of its own operations, in their order; and what takes effect later comes after. -/
theorem threads_linearizable (s : State T Lock Shared Place)
    (reached : Transition.Reachable (step program) Transition.Any start s) :
    (∃ a, Sequential (operations s.place s.history) a ∧ Refines (settled s) a) ∧
      ((s.mutex .manager).holder = none → settled s = s.data.manager) ∧
      (∀ t, outcomesOf (operations s.place s.history) t =
        (visits s.place s.history t).filterMap Place.outcome) ∧
      ∀ label s', step program s label = some s' →
        operations s.place s.history <+: operations s'.place s'.history := by
  have linear : ∃ a, Linear s a ∧ Sequential (operations s.place s.history) a ∧
      ∀ t, outcomesOf (operations s.place s.history) t =
        (visits s.place s.history t).filterMap Place.outcome := by
    induction reached with
    | start => exact ⟨[], ⟨Refines.default, fun _ => trivial⟩, .nil, fun _ => rfl⟩
    | next label before _ taken ih =>
      obtain ⟨a, linear, sequential, outcomes⟩ := ih
      obtain ⟨a', linear', ⟨rfl, place, history⟩ | ⟨t, place', moved, move⟩⟩ :=
        step_linearizes before linear label taken
      -- Time passed, or a thread moved and may have had its operation take effect.
      · rw [place, history]
        exact ⟨a', linear', sequential, outcomes⟩
      · exact ⟨a', linear', sequential_moved moved move sequential,
          fun u => outcomes_moved moved u (outcomes u)⟩
  obtain ⟨a, linear, sequential, outcomes⟩ := linear
  refine ⟨⟨a, sequential, linear.refines⟩, fun free => by rw [settled, free], outcomes, ?_⟩
  intro label s' taken
  obtain ⟨_, _, ⟨_, place, history⟩ | ⟨t, place', moved, _⟩⟩ := step_linearizes reached linear label taken
  · simp only [place, history, List.prefix_refl]
  · rw [operations_moved moved]
    exact List.prefix_append _ _

/-- A client waits while one poll takes its request and the next brings the response. -/
def overlapping : List (Label Nat Choice Nat) :=
  let steps (t n : Nat) : List (Label Nat Choice Nat) := List.replicate n (.act t {} none)
  let drained : Choice := { order := [("AAAAAAAA", 0)] }
  .act 0 { job := .client {} } none :: steps 0 8 ++
    (steps 1 2 ++ .act 1 drained none :: steps 1 3 ++ .act 1 drained none :: steps 1 1) ++
    (.act 2 { job := .poll [("AAAAAAAA", {})] } none :: steps 2 4 ++ .act 2 {} (some 0) :: steps 2 2) ++
    steps 0 4

theorem threads_linearizable_overlapping :
    ∃ s : State Nat Lock Shared Place, Transition.Reachable (step program) Transition.Any start s ∧
      (operations s.place s.history).map Prod.fst = [0, 1, 2, 0] ∧
      (∃ a, Sequential (operations s.place s.history) a ∧ Refines s.data.manager a) ∧
      (∀ t, outcomesOf (operations s.place s.history) t =
        (visits s.place s.history t).filterMap Place.outcome) ∧
      ∀ label s', step program s label = some s' →
        operations s.place s.history <+: operations s'.place s'.history := by
  obtain ⟨s, reached, computed⟩ := Transition.exists_reachable_of_run (step program) Transition.Any
    (start : State Nat Lock Shared Place) overlapping
    (fun s => (operations s.place s.history).map Prod.fst = [0, 1, 2, 0] ∧
      (s.mutex .manager).holder.isNone = true)
    (by decide +kernel)
  obtain ⟨order, free⟩ := of_decide_eq_true computed
  obtain ⟨sequential, settles, outcomes, later⟩ := threads_linearizable s reached
  rw [settles (Option.isNone_iff_eq_none.mp free)] at sequential
  exact ⟨s, reached, order, sequential, outcomes, later⟩

end FullServiceMirror.Threads
