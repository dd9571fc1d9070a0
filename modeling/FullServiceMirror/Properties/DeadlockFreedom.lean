import FullServiceMirror.Public.WaitInvariant

/-!
# No deadlock and no poisoned mutex

The manager's mutex is held while a query's is taken, in `resolve_query` and in
`get_pending_requests`; the other order does not occur, and who holds a query's
mutex waits for nothing. So the chain of threads that wait for each other ends.
-/
namespace FullServiceMirror.Threads

open Rust Rust.Sync Transition

variable {T : Type}

/-- The thread is neither asleep in the wait on a condition variable nor finished. -/
def Busy (s : State T Lock Shared Place) (t : T) : Prop := s.mode t = .running ∧ s.place t ≠ .done

/-- **No deadlock and no poisoned mutex**, for any threads, jobs and schedule. -/
theorem locks_never_stuck_nor_poisoned [DecidableEq T] (s : State T Lock Shared Place)
    (reached : Reachable (step program) Any start s) :
    (∀ t, Busy s t → ∃ u, Busy s u ∧ Enabled program s u) ∧
    (∀ t k, s.mode t = .asleep k → (s.mutex .manager).holder ≠ some t) ∧
    (∀ t, s.mode t ≠ .panicked ∧ ∀ choice, program.next s.data choice (s.place t) ≠ some .panic) ∧
    (∀ k, (s.mutex k).poisoned = false) := by
  obtain ⟨safe, waiting⟩ := reachable_waiting reached
  refine ⟨?_, ?_, fun t => ⟨safe.unpanicked t, waiting.no_panic t⟩, safe.unpoisoned⟩
  · rintro t ⟨running, unfinished⟩
    have released (place : Place) (done : place = .done) : holds place = [] := by rw [done]; rfl
    obtain ⟨u, running', unfinished', enabled⟩ := exists_enabled respects safe 1 Lock.rank_le (· = .done)
      (fun u _ => available s.data (s.place u)) released running unfinished
    exact ⟨u, ⟨running', unfinished'⟩, enabled⟩
  · intro t k asleep held
    have inside := (safe.holder_iff .manager t).mp held
    rw [safe.asleep_holds k t asleep] at inside
    cases inside

/-- A poll waits under the manager's mutex for the mutex of a query, which its
waiter holds; another client waits for the manager's. -/
def contended : List (Label Nat Choice Nat) :=
  [.act 0 { job := .client {} } none, .act 0 {} none, .act 0 {} none, .act 0 {} none, .act 0 {} none,
   .act 0 {} none,
   .act 1 {} none, .act 1 {} none, .act 1 { order := [("AAAAAAAA", 0)] } none,
   .act 2 { job := .client {} } none]

theorem locks_never_stuck_nor_poisoned_contended :
    ∃ s : State Nat Lock Shared Place, Reachable (step program) Any start s ∧
      (s.mutex .manager).holder = some 1 ∧ (s.mutex (.query 0)).holder = some 0 ∧
      (step program s (.act 1 {} none)).isNone = true ∧
      (step program s (.act 2 {} none)).isNone = true ∧
      Busy s 1 ∧ ∃ u, Busy s u ∧ Enabled program s u := by
  obtain ⟨s, reached, computed⟩ := exists_reachable_of_run (step program) Any
    (start : State Nat Lock Shared Place) contended
    (fun s => (s.mutex .manager).holder = some 1 && (s.mutex (.query 0)).holder = some 0 &&
      (step program s (.act 1 {} none)).isNone && (step program s (.act 2 {} none)).isNone &&
      s.mode 1 = .running && (holds (s.place 1)).length = 1)
    (by decide +kernel)
  simp only [Bool.and_eq_true, decide_eq_true_eq, and_assoc] at computed
  obtain ⟨manager, query, stuck, stuck', running, inside⟩ := computed
  have busy : Busy s 1 := by
    refine ⟨running, fun done => ?_⟩
    rw [done] at inside
    cases inside
  exact ⟨s, reached, manager, query, stuck, stuck', busy,
    (locks_never_stuck_nor_poisoned s reached).1 1 busy⟩

end FullServiceMirror.Threads
