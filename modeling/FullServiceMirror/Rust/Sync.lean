import Mathlib.Data.List.Nodup
import Mathlib.Logic.Function.Basic
import FullServiceMirror.Transition

/-!
# Threads, mutexes and condition variables

Threads run one program over shared data and interleave at any point between
two instructions. Every mutex has a condition variable of its own. A mutex is
free or held by a thread, and it is poisoned once a thread panicked while it
held it. A thread that sleeps on a condition variable is woken by a
notification, by its timer or for no reason at all, and then locks again.
-/
namespace Rust.Sync

/-- `Mutex`, without the data that it guards. -/
structure Mutex (τ : Type) where
  holder : Option τ := none
  poisoned : Bool := false

/-- One step of a thread, after which it goes on at `next`. -/
inductive Instruction (κ δ π : Type) where
  /-- `lock().expect(..)`, which blocks while the mutex is held and panics if it is poisoned. -/
  | lock (mutex : κ) (next : π)
  /-- A guard is dropped. -/
  | unlock (mutex : κ) (next : π)
  /-- `wait_timeout` up to the wakeup: the guard is given up and the thread falls asleep at once. -/
  | sleep (mutex : κ) (next : π)
  | notifyOne (mutex : κ) (next : π)
  /-- Anything else, with its effect on the shared data. -/
  | run (data : δ) (next : π)
  | panic

/-- What the threads run: the next instruction at a place of the program, for
each choice that is left open there. Meanwhile the data may change with what
happens outside. -/
structure Program (κ δ π χ ε : Type) where
  next : δ → χ → π → Option (Instruction κ δ π)
  outside : ε → δ → δ

inductive Mode (κ : Type) where
  | running
  | asleep (mutex : κ)
  | panicked
  deriving DecidableEq

structure State (τ κ δ π : Type) where
  data : δ
  place : τ → π
  mode : τ → Mode κ := fun _ => .running
  mutex : κ → Mutex τ := fun _ => {}
  /-- The threads that are asleep on the condition variable. -/
  sleepers : κ → List τ := fun _ => []
  /-- The steps taken, the last one first: which thread, from which place. -/
  history : List (τ × π) := []

/-- A thread takes a step, and says which sleeper it wakes if it notifies one;
or a sleeper wakes up unnotified; or something happens outside. -/
inductive Label (τ χ ε : Type) where
  | act (thread : τ) (choice : χ) (woken : Option τ)
  | wake (thread : τ)
  | outside (event : ε)

variable {τ κ δ π χ ε : Type} [DecidableEq τ] [DecidableEq κ]

namespace State

def advance (s : State τ κ δ π) (t : τ) (next : π) : State τ κ δ π :=
  { s with place := Function.update s.place t next, history := (t, s.place t) :: s.history }

def acquire (s : State τ κ δ π) (t : τ) (k : κ) : State τ κ δ π :=
  { s with mutex := Function.update s.mutex k { s.mutex k with holder := some t } }

def release (s : State τ κ δ π) (k : κ) : State τ κ δ π :=
  { s with mutex := Function.update s.mutex k { s.mutex k with holder := none } }

def fallAsleep (s : State τ κ δ π) (t : τ) (k : κ) : State τ κ δ π :=
  { s with
    mode := Function.update s.mode t (.asleep k)
    sleepers := Function.update s.sleepers k (t :: s.sleepers k) }

def wakeUp (s : State τ κ δ π) (t : τ) (k : κ) : State τ κ δ π :=
  { s with
    mode := Function.update s.mode t .running
    sleepers := Function.update s.sleepers k ((s.sleepers k).erase t) }

/-- A panic unwinds the thread: the guards it holds are dropped and poison their mutexes. -/
def unwind (s : State τ κ δ π) (t : τ) : State τ κ δ π :=
  { s with
    mode := Function.update s.mode t .panicked
    mutex := fun k =>
      if (s.mutex k).holder = some t then { holder := none, poisoned := true } else s.mutex k
    history := (t, s.place t) :: s.history }

def perform (s : State τ κ δ π) (t : τ) (woken : Option τ) :
    Instruction κ δ π → Option (State τ κ δ π)
  | .lock k next =>
    match (s.mutex k).holder with
    | some _ => none
    | none => some (if (s.mutex k).poisoned then s.unwind t else (s.acquire t k).advance t next)
  | .unlock k next => some ((s.release k).advance t next)
  | .sleep k next => some (((s.release k).fallAsleep t k).advance t next)
  | .notifyOne k next =>
    match woken with
    -- A notification is lost only when nobody is there to hear it.
    | none => if s.sleepers k = [] then some (s.advance t next) else none
    | some u => if u ∈ s.sleepers k then some ((s.wakeUp u k).advance t next) else none
  | .run data next => some { s.advance t next with data }
  | .panic => some (s.unwind t)

end State

def step (program : Program κ δ π χ ε) (s : State τ κ δ π) :
    Label τ χ ε → Option (State τ κ δ π)
  | .act t choice woken =>
    match s.mode t with
    | .running => (program.next s.data choice (s.place t)).bind (s.perform t woken)
    | _ => none
  | .wake t =>
    match s.mode t with
    | .asleep k => some (s.wakeUp t k)
    | _ => none
  | .outside event => some { s with data := program.outside event s.data }

/-! ## The discipline of a program -/

/-- Where a thread goes on. -/
def Instruction.target : Instruction κ δ π → Option π
  | .lock _ next | .unlock _ next | .sleep _ next | .notifyOne _ next | .run _ next => some next
  | .panic => none

/-- The shared data after an instruction. -/
def Instruction.effect (data : δ) : Instruction κ δ π → δ
  | .run data' _ => data'
  | _ => data

/-- The mutexes held at each place, the last one taken first: a mutex is taken
only above all that are held, and a thread that falls asleep holds none. -/
def Instruction.Respects (holds : π → List κ) (rank : κ → Nat) (place : π) :
    Instruction κ δ π → Prop
  | .lock k next => (∀ j ∈ holds place, rank j < rank k) ∧ holds next = k :: holds place
  | .unlock k next => k ∉ holds next ∧ holds place = k :: holds next
  | .sleep k next => holds place = [k] ∧ holds next = []
  | .notifyOne _ next => holds next = holds place
  | .run _ next => holds next = holds place
  | .panic => True

omit [DecidableEq κ] in
/-- A mutex that comes to be held is taken. -/
theorem Instruction.Respects.eq_lock {holds : π → List κ} {rank : κ → Nat} {place next : π}
    {i : Instruction κ δ π} (respects : i.Respects holds rank place) (target : i.target = some next)
    {k : κ} (unheld : k ∉ holds place) (held : k ∈ holds next) : i = .lock k next := by
  cases i with
  | lock j next' =>
    cases target
    rw [respects.2, List.mem_cons] at held
    rw [held.resolve_right unheld]
  | unlock j next' =>
    cases target
    exact absurd (by rw [respects.2]; exact List.mem_cons_of_mem _ held) unheld
  | sleep j next' =>
    cases target
    rw [respects.2] at held
    cases held
  | notifyOne | run =>
    cases target
    have same : holds _ = holds place := respects
    rw [same] at held
    exact absurd held unheld
  | panic => cases target

def Program.Respects (program : Program κ δ π χ ε) (holds : π → List κ) (rank : κ → Nat) : Prop :=
  ∀ data choice place i, program.next data choice place = some i → i.Respects holds rank place

/-- Mutexes are held by the threads at the places that hold them. -/
def Tied (holds : π → List κ) (mutex : κ → Mutex τ) (place : τ → π) : Prop :=
  ∀ k t, (mutex k).holder = some t ↔ k ∈ holds (place t)

/-- Mutexes are held where the program says so, and nothing has panicked. -/
structure Safe (holds : π → List κ) (s : State τ κ δ π) : Prop where
  holder_iff : Tied holds s.mutex s.place
  unpoisoned : ∀ k, (s.mutex k).poisoned = false
  unpanicked : ∀ t, s.mode t ≠ .panicked
  sleepers_iff : ∀ k t, t ∈ s.sleepers k ↔ s.mode t = .asleep k
  sleepers_nodup : ∀ k, (s.sleepers k).Nodup
  asleep_holds : ∀ k t, s.mode t = .asleep k → holds (s.place t) = []

/-- What an instruction does that is performed and is no panic. -/
structure Advances (s : State τ κ δ π) (t : τ) (i : Instruction κ δ π) (s' : State τ κ δ π)
    (next : π) : Prop where
  target : i.target = some next
  data : s'.data = i.effect s.data
  place : s'.place = Function.update s.place t next
  history : s'.history = (t, s.place t) :: s.history
  was_free : ∀ k, i = .lock k next → (s.mutex k).holder = none
  asleep : ∀ k u, s'.mode u = .asleep k → s.mode u = .asleep k ∨ (u = t ∧ i = .sleep k next)
  /-- Who sleeps on was passed over for another sleeper. -/
  notified : ∀ k u, i = .notifyOne k next → s'.mode u = .asleep k →
    ∃ v, v ≠ u ∧ s.mode v = .asleep k

variable {holds : π → List κ} {rank : κ → Nat} {program : Program κ δ π χ ε}
  {s s' : State τ κ δ π} {t : τ} {choice : χ} {woken : Option τ} {i : Instruction κ δ π}

namespace Tied

variable {mutex : κ → Mutex τ} {place : τ → π} {next : π}

omit [DecidableEq κ] in
theorem keep (tied : Tied holds mutex place) (held : holds next = holds (place t)) :
    Tied holds mutex (Function.update place t next) := by
  intro k u
  by_cases same : u = t
  · subst same
    rw [Function.update_self, held]
    exact tied k u
  · rw [Function.update_of_ne same]
    exact tied k u

/-- A mutex that no other thread holds is taken or released, and the place says so. -/
theorem change (tied : Tied holds mutex place) (k : κ) (holder : Option τ)
    (unshared : ∀ u, u ≠ t → (mutex k).holder ≠ some u)
    (here : ∀ u, holder = some u ↔ u = t ∧ k ∈ holds next)
    (elsewhere : ∀ j, j ≠ k → (j ∈ holds next ↔ j ∈ holds (place t))) :
    Tied holds (Function.update mutex k { mutex k with holder }) (Function.update place t next) := by
  intro j u
  by_cases same : j = k
  · subst same
    rw [Function.update_self, here u]
    by_cases self : u = t
    · subst self
      simp
    · rw [Function.update_of_ne self, ← tied j u]
      simp [self, unshared u self]
  · rw [Function.update_of_ne same, tied j u]
    by_cases self : u = t
    · subst self
      rw [Function.update_self, elsewhere j same]
    · rw [Function.update_of_ne self]

theorem acquire (tied : Tied holds mutex place) {k : κ} (free : (mutex k).holder = none)
    (held : holds next = k :: holds (place t)) :
    Tied holds (Function.update mutex k { mutex k with holder := some t })
      (Function.update place t next) := by
  apply tied.change
  · intro u _ holder
    rw [free] at holder
    cases holder
  · intro u
    simp [held, eq_comm]
  · intro j different
    simp [held, different]

theorem release (tied : Tied holds mutex place) {k : κ} (unheld : k ∉ holds next)
    (held : holds (place t) = k :: holds next) :
    Tied holds (Function.update mutex k { mutex k with holder := none })
      (Function.update place t next) := by
  have holder : (mutex k).holder = some t := (tied k t).mpr (by rw [held]; exact List.mem_cons_self)
  apply tied.change
  · intro u other holder'
    rw [holder] at holder'
    exact other (Option.some.inj holder').symm
  · intro u
    simp [unheld]
  · intro j different
    simp [held, different]

end Tied

namespace Safe

omit [DecidableEq τ] [DecidableEq κ] in
theorem start (data : δ) (place : τ → π) (free : ∀ t, holds (place t) = []) :
    Safe holds ({ data, place } : State τ κ δ π) where
  holder_iff := by
    intro k t
    simp [free t]
  unpoisoned := fun _ => rfl
  unpanicked := by
    intro t panicked
    cases panicked
  sleepers_iff := by simp
  sleepers_nodup := fun _ => List.nodup_nil
  asleep_holds := by
    intro k t asleep
    cases asleep

theorem wakeUp (safe : Safe holds s) {k : κ} (asleep : s.mode t = .asleep k) :
    Safe holds (s.wakeUp t k) where
  holder_iff := safe.holder_iff
  unpoisoned := safe.unpoisoned
  unpanicked := by
    intro u
    by_cases same : u = t
    · subst same
      simp [State.wakeUp]
    · simp only [State.wakeUp, Function.update_of_ne same]
      exact safe.unpanicked u
  sleepers_iff := by
    intro j u
    by_cases same : u = t
    · subst same
      by_cases here : j = k
      · subst here
        simp [State.wakeUp, (safe.sleepers_nodup j).mem_erase_iff]
      · simp [State.wakeUp, Function.update_of_ne here, safe.sleepers_iff, asleep, Ne.symm here]
    · by_cases here : j = k
      · subst here
        simp [State.wakeUp, same, safe.sleepers_iff, List.mem_erase_of_ne same]
      · simp [State.wakeUp, same, here, safe.sleepers_iff]
  sleepers_nodup := by
    intro j
    by_cases here : j = k
    · subst here
      simpa [State.wakeUp] using (safe.sleepers_nodup j).erase t
    · simpa [State.wakeUp, here] using safe.sleepers_nodup j
  asleep_holds := by
    intro j u asleep'
    by_cases same : u = t
    · subst same
      simp [State.wakeUp] at asleep'
    · simp only [State.wakeUp, Function.update_of_ne same] at asleep'
      exact safe.asleep_holds j u asleep'

omit [DecidableEq κ] in
/-- A running thread may go anywhere as far as the sleepers are concerned. -/
theorem asleep_update (safe : Safe holds s) (running : s.mode t = .running) (next : π) (k : κ)
    (u : τ) (asleep : s.mode u = .asleep k) : holds (Function.update s.place t next u) = [] := by
  have other : u ≠ t := by
    rintro rfl
    rw [running] at asleep
    cases asleep
  rw [Function.update_of_ne other]
  exact safe.asleep_holds k u asleep

omit [DecidableEq κ] in
theorem advance (safe : Safe holds s) {next : π} (running : s.mode t = .running)
    (held : holds next = holds (s.place t)) : Safe holds (s.advance t next) where
  holder_iff := safe.holder_iff.keep held
  unpoisoned := safe.unpoisoned
  unpanicked := safe.unpanicked
  sleepers_iff := safe.sleepers_iff
  sleepers_nodup := safe.sleepers_nodup
  asleep_holds := safe.asleep_update running next

omit [DecidableEq τ] in
theorem poisoned_update (mutex : κ → Mutex τ) (k j : κ) (holder : Option τ) :
    (Function.update mutex k { mutex k with holder } j).poisoned = (mutex j).poisoned := by
  by_cases here : j = k
  · rw [here, Function.update_self]
  · rw [Function.update_of_ne here]

theorem acquire (safe : Safe holds s) {next : π} {k : κ} (running : s.mode t = .running)
    (free : (s.mutex k).holder = none) (held : holds next = k :: holds (s.place t)) :
    Safe holds ((s.acquire t k).advance t next) where
  holder_iff := safe.holder_iff.acquire free held
  unpoisoned := fun j => (poisoned_update s.mutex k j (some t)).trans (safe.unpoisoned j)
  unpanicked := safe.unpanicked
  sleepers_iff := safe.sleepers_iff
  sleepers_nodup := safe.sleepers_nodup
  asleep_holds := safe.asleep_update running next

theorem release (safe : Safe holds s) {next : π} {k : κ} (running : s.mode t = .running)
    (unheld : k ∉ holds next) (held : holds (s.place t) = k :: holds next) :
    Safe holds ((s.release k).advance t next) where
  holder_iff := safe.holder_iff.release unheld held
  unpoisoned := fun j => (poisoned_update s.mutex k j none).trans (safe.unpoisoned j)
  unpanicked := safe.unpanicked
  sleepers_iff := safe.sleepers_iff
  sleepers_nodup := safe.sleepers_nodup
  asleep_holds := safe.asleep_update running next

theorem fallAsleep (safe : Safe holds s) (k : κ) (running : s.mode t = .running)
    (held : holds (s.place t) = []) : Safe holds (s.fallAsleep t k) where
  holder_iff := safe.holder_iff
  unpoisoned := safe.unpoisoned
  unpanicked := by
    intro u
    by_cases same : u = t
    · subst same
      simp [State.fallAsleep]
    · simp only [State.fallAsleep, Function.update_of_ne same]
      exact safe.unpanicked u
  sleepers_iff := by
    intro j u
    have awake : t ∉ s.sleepers j := by simp [safe.sleepers_iff, running]
    by_cases same : u = t
    · subst same
      by_cases here : j = k
      · subst here
        simp [State.fallAsleep]
      · simp [State.fallAsleep, here, awake, Ne.symm here]
    · by_cases here : j = k
      · subst here
        simp [State.fallAsleep, same, safe.sleepers_iff]
      · simp [State.fallAsleep, same, here, safe.sleepers_iff]
  sleepers_nodup := by
    intro j
    have awake : t ∉ s.sleepers j := by simp [safe.sleepers_iff, running]
    by_cases here : j = k
    · subst here
      simpa [State.fallAsleep] using ⟨awake, safe.sleepers_nodup j⟩
    · simpa [State.fallAsleep, here] using safe.sleepers_nodup j
  asleep_holds := by
    intro j u asleep
    by_cases same : u = t
    · subst same
      exact held
    · simp only [State.fallAsleep, Function.update_of_ne same] at asleep
      exact safe.asleep_holds j u asleep

/-- An instruction that keeps to the discipline and is no panic keeps the state safe. -/
theorem perform (safe : Safe holds s) (running : s.mode t = .running)
    (respects : i.Respects holds rank (s.place t)) (noPanic : i ≠ .panic)
    (performed : s.perform t woken i = some s') : Safe holds s' := by
  cases i with
  | lock k next =>
    simp only [State.perform, safe.unpoisoned k] at performed
    split at performed
    · cases performed
    next free =>
      cases performed
      exact safe.acquire running free respects.2
  | unlock k next =>
    cases performed
    exact safe.release running respects.1 respects.2
  | sleep k next =>
    cases performed
    have unheld : k ∉ holds next := by rw [respects.2]; exact List.not_mem_nil
    -- A thread that goes to sleep gives its mutex back first.
    have released : Safe holds ((s.release k).advance t next) :=
      safe.release running unheld (by rw [respects.1, respects.2])
    exact released.fallAsleep k running (by simpa [State.advance] using respects.2)
  | notifyOne k next =>
    cases woken with
    | none =>
      simp only [State.perform] at performed
      split at performed
      · cases performed
        exact safe.advance running respects
      · cases performed
    | some u =>
      simp only [State.perform] at performed
      split at performed
      next listed =>
        cases performed
        -- The woken thread is another one, since the notifier is running.
        have asleep := (safe.sleepers_iff k u).mp listed
        have other : t ≠ u := by
          rintro rfl
          rw [running] at asleep
          cases asleep
        exact (safe.wakeUp asleep).advance (by simpa [State.wakeUp, other] using running) respects
      · cases performed
  | run data next =>
    cases performed
    exact { safe.advance running respects with }
  | panic => exact absurd rfl noPanic

omit [DecidableEq τ] [DecidableEq κ] in
/-- Two threads never hold one mutex. -/
theorem exclusive (safe : Safe holds s) {k : κ} {t u : τ} (held : k ∈ holds (s.place t))
    (held' : k ∈ holds (s.place u)) : t = u := by
  have first := (safe.holder_iff k t).mpr held
  have second := (safe.holder_iff k u).mpr held'
  exact Option.some.inj (first.symm.trans second)

omit [DecidableEq τ] [DecidableEq κ] in
/-- Nobody holds a mutex that is free. -/
theorem not_held (safe : Safe holds s) {k : κ} (free : (s.mutex k).holder = none) (t : τ) :
    k ∉ holds (s.place t) := by
  intro held
  rw [(safe.holder_iff k t).mpr held] at free
  cases free

theorem advances (safe : Safe holds s) (noPanic : i ≠ .panic)
    (performed : s.perform t woken i = some s') : ∃ next, Advances s t i s' next := by
  cases i with
  | lock k next =>
    simp only [State.perform, safe.unpoisoned k] at performed
    split at performed
    · cases performed
    next free =>
      cases performed
      refine ⟨next, rfl, rfl, rfl, rfl, ?_, fun j u asleep => Or.inl asleep, by rintro j u ⟨⟩⟩
      rintro j ⟨⟩
      exact free
  | unlock k next =>
    cases performed
    exact ⟨next, rfl, rfl, rfl, rfl, (by rintro j ⟨⟩), fun j u asleep => Or.inl asleep,
      by rintro j u ⟨⟩⟩
  | sleep k next =>
    cases performed
    refine ⟨next, rfl, rfl, rfl, rfl, (by rintro j ⟨⟩), ?_, by rintro j u ⟨⟩⟩
    intro j u asleep
    by_cases same : u = t
    · subst same
      simp only [State.advance, State.fallAsleep, Function.update_self, Mode.asleep.injEq] at asleep
      exact Or.inr ⟨rfl, by rw [asleep]⟩
    · simp only [State.advance, State.fallAsleep, Function.update_of_ne same] at asleep
      exact Or.inl asleep
  | notifyOne k next =>
    cases woken with
    | none =>
      simp only [State.perform] at performed
      split at performed
      next nobody =>
        cases performed
        refine ⟨next, rfl, rfl, rfl, rfl, (by rintro j ⟨⟩), fun j u asleep => Or.inl asleep, ?_⟩
        rintro j u ⟨⟩ asleep
        -- Without sleepers the notification is lost.
        have listed : u ∈ s.sleepers k := (safe.sleepers_iff k u).mpr asleep
        rw [nobody] at listed
        cases listed
      · cases performed
    | some v =>
      simp only [State.perform] at performed
      split at performed
      next listed =>
        cases performed
        have awake (j : κ) (u : τ) (asleep : ((s.wakeUp v k).advance t next).mode u = .asleep j) :
            u ≠ v := by
          rintro rfl
          simp [State.advance, State.wakeUp] at asleep
        refine ⟨next, rfl, rfl, rfl, rfl, (by rintro j ⟨⟩), ?_, ?_⟩
        · intro j u asleep
          have other := awake j u asleep
          simp only [State.advance, State.wakeUp, Function.update_of_ne other] at asleep
          exact Or.inl asleep
        · rintro j u ⟨⟩ asleep
          exact ⟨v, (awake k u asleep).symm, (safe.sleepers_iff k v).mp listed⟩
      · cases performed
  | run data next =>
    cases performed
    exact ⟨next, rfl, rfl, rfl, rfl, (by rintro j ⟨⟩), fun j u asleep => Or.inl asleep,
      by rintro j u ⟨⟩⟩
  | panic => exact absurd rfl noPanic

end Safe

/-! ## Rules for runs -/

/-- An invariant that rules panics out holds in every state reached, along with
the discipline. The step of a thread may be taken to have advanced it. -/
theorem invariant (respects : program.Respects holds rank) (I : State τ κ δ π → Prop)
    (noPanic : ∀ s t choice, Safe holds s → I s →
      program.next s.data choice (s.place t) ≠ some .panic)
    (act : ∀ s s' t choice i next, Safe holds s → I s → s.mode t = .running →
      program.next s.data choice (s.place t) = some i → Advances s t i s' next → I s')
    (wake : ∀ s t k, Safe holds s → I s → s.mode t = .asleep k → I (s.wakeUp t k))
    (outside : ∀ s event, I s → I { s with data := program.outside event s.data })
    {start : State τ κ δ π} (safe : Safe holds start) (initial : I start)
    (reached : Transition.Reachable (step program) Transition.Any start s) : Safe holds s ∧ I s := by
  refine reached.invariant (fun s => Safe holds s ∧ I s) ⟨safe, initial⟩ ?_
  rintro s label s' - - ⟨safe, holds_here⟩ taken
  cases label with
  | act t choice woken =>
    simp only [step] at taken
    split at taken
    next running =>
      obtain ⟨i, upcoming, performed⟩ := Option.bind_eq_some_iff.mp taken
      -- The invariant rules out that the next instruction panics.
      have proper : i ≠ .panic := by
        rintro rfl
        exact noPanic s t choice safe holds_here upcoming
      obtain ⟨next, advances⟩ := safe.advances proper performed
      exact ⟨safe.perform running (respects _ _ _ i upcoming) proper performed,
        act s s' t choice i next safe holds_here running upcoming advances⟩
    · cases taken
  | wake t =>
    simp only [step] at taken
    split at taken
    next k asleep =>
      cases taken
      exact ⟨safe.wakeUp asleep, wake s t k safe holds_here asleep⟩
    · cases taken
  | outside event =>
    cases taken
    exact ⟨{ safe with }, outside s event holds_here⟩

/-- A thread can take a step of its own. -/
def Enabled (program : Program κ δ π χ ε) (s : State τ κ δ π) (t : τ) : Prop :=
  ∃ choice woken s', step program s (.act t choice woken) = some s'

/-- An instruction is performed unless it waits for a mutex. -/
theorem Enabled.of_next (running : s.mode t = .running)
    (upcoming : program.next s.data choice (s.place t) = some i)
    (free : ∀ k next, i = .lock k next → (s.mutex k).holder = none) : Enabled program s t := by
  have performed : ∃ woken s', s.perform t woken i = some s' := by
    cases i with
    | lock k next =>
      simp only [State.perform, free k next rfl]
      exact ⟨none, _, rfl⟩
    | unlock k next => exact ⟨none, _, rfl⟩
    | sleep k next => exact ⟨none, _, rfl⟩
    | notifyOne k next =>
      -- A notification goes through with or without a sleeper.
      cases sleepers : s.sleepers k with
      | nil => exact ⟨none, _, if_pos sleepers⟩
      | cons u rest => exact ⟨some u, _, if_pos (by rw [sleepers]; exact List.mem_cons_self)⟩
    | run data next => exact ⟨none, _, rfl⟩
    | panic => exact ⟨none, _, rfl⟩
  obtain ⟨woken, s', performed⟩ := performed
  refine ⟨choice, woken, s', ?_⟩
  simp only [step, running, upcoming, Option.bind_some]
  exact performed

/-- **Deadlock freedom.** When mutexes are taken in the order of their ranks,
the program has an instruction at every place that is not `done`, and nothing is
held at those that are, some thread can always go on as long as one is neither
done nor asleep. -/
theorem exists_enabled (respects : program.Respects holds rank) (safe : Safe holds s) (top : Nat)
    (bounded : ∀ k, rank k ≤ top) (done : π → Prop)
    (available : ∀ t, ¬done (s.place t) →
      ∃ choice i, program.next s.data choice (s.place t) = some i)
    (released : ∀ place, done place → holds place = [])
    (running : s.mode t = .running) (unfinished : ¬done (s.place t)) :
    ∃ u, s.mode u = .running ∧ ¬done (s.place u) ∧ Enabled program s u := by
  -- Along the chain of threads that wait for each other, the ranks waited for grow.
  have chain (n : Nat) : ∀ t, s.mode t = .running → ¬done (s.place t) →
      (∀ choice k next, program.next s.data choice (s.place t) = some (.lock k next) →
        top < rank k + n) →
      ∃ u, s.mode u = .running ∧ ¬done (s.place u) ∧ Enabled program s u := by
    induction n with
    | zero =>
      intro t running unfinished above
      obtain ⟨choice, i, upcoming⟩ := available t unfinished
      refine ⟨t, running, unfinished, .of_next running upcoming ?_⟩
      rintro k next rfl
      exact absurd (above choice k next upcoming) (Nat.not_lt.mpr (bounded k))
    | succ n ih =>
      intro t running unfinished above
      obtain ⟨choice, i, upcoming⟩ := available t unfinished
      by_cases blocked : ∃ k next u, i = .lock k next ∧ (s.mutex k).holder = some u
      · obtain ⟨k, next, u, rfl, holder⟩ := blocked
        have held : k ∈ holds (s.place u) := (safe.holder_iff k u).mp holder
        have awake : s.mode u = .running := by
          cases mode : s.mode u with
          | running => rfl
          | asleep j => rw [safe.asleep_holds j u mode] at held; cases held
          | panicked => exact absurd mode (safe.unpanicked u)
        have busy : ¬done (s.place u) := by
          intro finished
          rw [released _ finished] at held
          cases held
        refine ih u awake busy fun choice' j next' waits => ?_
        have higher := (respects _ _ _ _ waits).1 k held
        have reach := above choice k next upcoming
        omega
      · refine ⟨t, running, unfinished, .of_next running upcoming fun k next same => ?_⟩
        cases holder : (s.mutex k).holder with
        | none => rfl
        | some u => exact absurd ⟨k, next, u, same, holder⟩ blocked
  exact chain (top + 1) t running unfinished fun _ k _ _ => by omega

end Rust.Sync
