import FullServiceMirror.System.Invariant

/-!
# At most one execution

A drain takes a request away from the manager, the reply carries it to one loop
at most, and the loop processes it once. No request that failed on the way is
ever put back.
-/
namespace FullServiceMirror

open Rust Json Transition

variable {L : Type} [DecidableEq L]
variable {fromStr : String → Except String Value} {config : L → Config}

/-- **At-most-once execution.** In every run, no query is POSTed twice. -/
theorem posted_at_most_once (s : State L) (reached : Reachable (step fromStr config) Any .start s) :
    (s.posts.map (·.query)).Nodup :=
  (reachable_invariant reached).placed.once

theorem posted_at_most_once_roundTrip :
    ∃ s : State Unit, Reachable (step parse fun _ => {}) Any .start s ∧ s.posts.length = 1 ∧
      (s.posts.map (·.query)).Nodup := by
  obtain ⟨s, reached, holds⟩ := exists_reachable_of_run (step parse fun _ => {}) Any .start roundTrip
    (fun s => decide (s.posts.length = 1)) (by decide +kernel)
  exact ⟨s, reached, of_decide_eq_true holds, posted_at_most_once s reached⟩

end FullServiceMirror
