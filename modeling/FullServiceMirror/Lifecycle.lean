import Mathlib.Data.List.Basic
import Mathlib.Tactic.Common

/-!
# The life of a request at a broker

A broker takes requests in, hands each of them out to a worker and resolves it
with the worker's response. A `Ticket` is one request's record, numbered by its
position; `ids` label the requests that are not resolved yet. The laws here are
about tickets alone: stages only advance, what a ticket was issued with stays,
and an id names at most one live ticket.
-/

inductive Stage where
  | queued
  | handedOut
  | resolved
  deriving DecidableEq, Repr

/-- The order in which a ticket passes through its stages. -/
def Stage.rank : Stage → Nat
  | .queued => 0
  | .handedOut => 1
  | .resolved => 2

/-- Queued, then handed out, then resolved. -/
def Stage.Moves (s s' : Stage) : Prop :=
  s' = s ∨ (s = .queued ∧ s' = .handedOut) ∨ (s = .handedOut ∧ s' = .resolved)

theorem Stage.Moves.rank_le {s s' : Stage} (moves : s.Moves s') : s.rank ≤ s'.rank := by
  rcases moves with rfl | ⟨rfl, rfl⟩ | ⟨rfl, rfl⟩ <;> simp [Stage.rank]

structure Ticket (ι ρ σ : Type) where
  id : ι
  request : ρ
  stage : Stage := .queued
  response : Option σ := none

abbrev Lifecycle (ι ρ σ : Type) := List (Ticket ι ρ σ)

variable {ι ρ σ : Type}

def Ticket.live (t : Ticket ι ρ σ) : Prop := t.stage ≠ .resolved

instance (t : Ticket ι ρ σ) : Decidable t.live := inferInstanceAs (Decidable (t.stage ≠ .resolved))

def Ticket.handOut (t : Ticket ι ρ σ) : Ticket ι ρ σ :=
  match t.stage with
  | .queued => { t with stage := .handedOut }
  | _ => t

def Ticket.resolve (response : σ) (t : Ticket ι ρ σ) : Ticket ι ρ σ :=
  { t with stage := .resolved, response := some response }

/-- The requester collects the response. -/
def Ticket.take (t : Ticket ι ρ σ) : Ticket ι ρ σ := { t with response := none }

@[simp] theorem Ticket.handOut_id (t : Ticket ι ρ σ) : t.handOut.id = t.id := by
  unfold Ticket.handOut; split <;> rfl

@[simp] theorem Ticket.handOut_request (t : Ticket ι ρ σ) : t.handOut.request = t.request := by
  unfold Ticket.handOut; split <;> rfl

@[simp] theorem Ticket.handOut_response (t : Ticket ι ρ σ) : t.handOut.response = t.response := by
  unfold Ticket.handOut; split <;> rfl

theorem Ticket.handOut_queued (t : Ticket ι ρ σ) : t.handOut.stage ≠ .queued := by
  unfold Ticket.handOut
  split
  · intro same; cases same
  next other => exact other

@[simp] theorem Ticket.handOut_resolved_iff (t : Ticket ι ρ σ) :
    t.handOut.stage = .resolved ↔ t.stage = .resolved := by
  cases stage : t.stage <;> simp [Ticket.handOut, stage]

theorem Ticket.handOut_handedOut_iff (t : Ticket ι ρ σ) :
    t.handOut.stage = .handedOut ↔ t.stage = .queued ∨ t.stage = .handedOut := by
  cases stage : t.stage <;> simp [Ticket.handOut, stage]

namespace Lifecycle

def enqueue (a : Lifecycle ι ρ σ) (id : ι) (request : ρ) : Lifecycle ι ρ σ := a ++ [{ id := id, request := request }]

def handOut (a : Lifecycle ι ρ σ) : Lifecycle ι ρ σ := a.map Ticket.handOut

def resolve (a : Lifecycle ι ρ σ) (n : Nat) (response : σ) : Lifecycle ι ρ σ :=
  a.modify n (Ticket.resolve response)

def take (a : Lifecycle ι ρ σ) (n : Nat) : Lifecycle ι ρ σ := a.modify n Ticket.take

theorem get_enqueue_iff (a : Lifecycle ι ρ σ) (id : ι) (request : ρ) (n : Nat)
    (t : Ticket ι ρ σ) : (a.enqueue id request)[n]? = some t ↔
      a[n]? = some t ∨ (n = a.length ∧ t = { id := id, request := request }) := by
  unfold enqueue
  rcases Nat.lt_trichotomy n a.length with below | rfl | above
  · simp [List.getElem?_append_left below, Nat.ne_of_lt below]
  · simp [eq_comm]
  · have missing : a[n]? = none := List.getElem?_eq_none (Nat.le_of_lt above)
    have outside : (a ++ [({ id := id, request := request } : Ticket ι ρ σ)])[n]? = none :=
      List.getElem?_eq_none (by simp; omega)
    simp [missing, outside, Nat.ne_of_gt above]

theorem get_handOut_iff (a : Lifecycle ι ρ σ) (n : Nat) (t : Ticket ι ρ σ) :
    a.handOut[n]? = some t ↔ ∃ t₀, a[n]? = some t₀ ∧ t₀.handOut = t := by
  simp [handOut]

theorem get_modify_iff (a : Lifecycle ι ρ σ) (f : Ticket ι ρ σ → Ticket ι ρ σ) (n k : Nat)
    (t : Ticket ι ρ σ) : (a.modify k f)[n]? = some t ↔
      ∃ t₀, a[n]? = some t₀ ∧ (if k = n then f t₀ else t₀) = t := by
  rw [List.getElem?_modify]
  by_cases same : k = n <;> simp [same]

/-- What every operation does to the tickets there are: an id and a request are
kept for good, and stages advance. -/
def Extends (a b : Lifecycle ι ρ σ) : Prop :=
  ∀ (n : Nat) (t : Ticket ι ρ σ), a[n]? = some t →
    ∃ t', b[n]? = some t' ∧ t'.id = t.id ∧ t'.request = t.request ∧ t.stage.rank ≤ t'.stage.rank

theorem Extends.refl (a : Lifecycle ι ρ σ) : Extends a a :=
  fun _ t found => ⟨t, found, rfl, rfl, Nat.le_refl _⟩

theorem Extends.trans {a b c : Lifecycle ι ρ σ} (ab : Extends a b) (bc : Extends b c) :
    Extends a c := by
  intro n t found
  obtain ⟨t', found', id', request', stage'⟩ := ab n t found
  obtain ⟨t'', found'', id'', request'', stage''⟩ := bc n t' found'
  exact ⟨t'', found'', id''.trans id', request''.trans request', Nat.le_trans stage' stage''⟩

/-- What is resolved stays resolved, under its id. -/
theorem Extends.resolved {a b : Lifecycle ι ρ σ} (extended : Extends a b) {n : Nat} {id : ι}
    (resolved : ∃ t : Ticket ι ρ σ, a[n]? = some t ∧ t.id = id ∧ t.stage = .resolved) :
    ∃ t : Ticket ι ρ σ, b[n]? = some t ∧ t.id = id ∧ t.stage = .resolved := by
  obtain ⟨t, found, rfl, stage⟩ := resolved
  obtain ⟨t', found', same, _, rank⟩ := extended n t found
  refine ⟨t', found', same, ?_⟩
  -- Stages only advance, and no stage comes after this one.
  rw [stage] at rank
  cases stage' : t'.stage with
  | resolved => rfl
  | queued => rw [stage'] at rank; exact absurd rank (by decide)
  | handedOut => rw [stage'] at rank; exact absurd rank (by decide)

/-- What is still queued was queued before. -/
theorem Extends.queued {a b : Lifecycle ι ρ σ} (extended : Extends a b) {n : Nat}
    (queued : ∀ t : Ticket ι ρ σ, b[n]? = some t → t.stage = .queued) :
    ∀ t : Ticket ι ρ σ, a[n]? = some t → t.stage = .queued := by
  intro t found
  obtain ⟨t', found', _, _, rank⟩ := extended n t found
  rw [queued t' found'] at rank
  cases stage : t.stage with
  | queued => rfl
  | handedOut => rw [stage] at rank; exact absurd rank (by decide)
  | resolved => rw [stage] at rank; exact absurd rank (by decide)

theorem extends_enqueue (a : Lifecycle ι ρ σ) (id : ι) (request : ρ) :
    Extends a (a.enqueue id request) :=
  fun n t found => ⟨t, (get_enqueue_iff a id request n t).mpr (Or.inl found), rfl, rfl, Nat.le_refl _⟩

theorem extends_handOut (a : Lifecycle ι ρ σ) : Extends a a.handOut := by
  intro n t found
  refine ⟨t.handOut, (get_handOut_iff a n _).mpr ⟨t, found, rfl⟩, by simp, by simp, ?_⟩
  cases stage : t.stage <;> simp [Ticket.handOut, stage, Stage.rank]

theorem extends_resolve (a : Lifecycle ι ρ σ) (k : Nat) (response : σ) :
    Extends a (a.resolve k response) := by
  intro n t found
  refine ⟨_, (get_modify_iff a _ n k _).mpr ⟨t, found, rfl⟩, ?_⟩
  split
  · refine ⟨rfl, rfl, ?_⟩
    cases stage : t.stage <;> simp [Ticket.resolve, Stage.rank]
  · exact ⟨rfl, rfl, Nat.le_refl _⟩

theorem extends_take (a : Lifecycle ι ρ σ) (k : Nat) : Extends a (a.take k) := by
  intro n t found
  refine ⟨_, (get_modify_iff a _ n k _).mpr ⟨t, found, rfl⟩, ?_⟩
  split <;> exact ⟨rfl, rfl, Nat.le_refl _⟩

/-- An id names at most one ticket that is not resolved, and nothing is stored
for a ticket before it is resolved. -/
structure Valid (a : Lifecycle ι ρ σ) : Prop where
  unique : ∀ (n n' : Nat) (t t' : Ticket ι ρ σ), a[n]? = some t → a[n']? = some t' →
    t.live → t'.live → t.id = t'.id → n = n'
  unanswered : ∀ (n : Nat) (t : Ticket ι ρ σ), a[n]? = some t → t.live → t.response = none

theorem Valid.nil : Valid ([] : Lifecycle ι ρ σ) where
  unique := by intro n n' t t' found; cases found
  unanswered := by intro n t found; cases found

theorem Valid.enqueue {a : Lifecycle ι ρ σ} (h : Valid a) (id : ι) (request : ρ)
    (fresh : ∀ (n : Nat) (t : Ticket ι ρ σ), a[n]? = some t → t.live → t.id ≠ id) : Valid (a.enqueue id request) where
  unique := by
    intro n n' t t' found found' live live' same
    rw [get_enqueue_iff] at found found'
    rcases found with old | ⟨here, rfl⟩ <;> rcases found' with old' | ⟨here', rfl⟩
    · exact h.unique n n' t t' old old' live live' same
    · exact absurd same (fresh n t old live)
    · exact absurd same.symm (fresh n' t' old' live')
    · rw [here, here']
  unanswered := by
    intro n t found live
    rw [get_enqueue_iff] at found
    rcases found with old | ⟨_, rfl⟩
    · exact h.unanswered n t old live
    · rfl

/-- Replacing tickets by ones with the same id, live only if they were, and
unanswered when live keeps a lifecycle valid. -/
theorem Valid.of_origin {a b : Lifecycle ι ρ σ} (h : Valid a)
    (origin : ∀ (n : Nat) (t : Ticket ι ρ σ), b[n]? = some t → ∃ t₀, a[n]? = some t₀ ∧ t.id = t₀.id ∧
      (t.live → t₀.live ∧ (t₀.response = none → t.response = none))) : Valid b where
  unique := by
    intro n n' t t' found found' live live' same
    obtain ⟨t₀, found₀, id₀, keeps⟩ := origin n t found
    obtain ⟨t₀', found₀', id₀', keeps'⟩ := origin n' t' found'
    exact h.unique n n' t₀ t₀' found₀ found₀' (keeps live).1 (keeps' live').1
      (id₀.symm.trans (same.trans id₀'))
  unanswered := by
    intro n t found live
    obtain ⟨t₀, found₀, _, keeps⟩ := origin n t found
    exact (keeps live).2 (h.unanswered n t₀ found₀ (keeps live).1)

theorem Valid.handOut {a : Lifecycle ι ρ σ} (h : Valid a) : Valid a.handOut := by
  apply h.of_origin
  intro n t found
  obtain ⟨t₀, found₀, rfl⟩ := (get_handOut_iff a n t).mp found
  refine ⟨t₀, found₀, by simp, fun live => ⟨?_, by simp⟩⟩
  simpa [Ticket.live] using live

theorem Valid.resolve {a : Lifecycle ι ρ σ} (h : Valid a) (k : Nat) (response : σ) :
    Valid (a.resolve k response) := by
  apply h.of_origin
  intro n t found
  obtain ⟨t₀, found₀, rfl⟩ := (get_modify_iff a _ n k t).mp found
  refine ⟨t₀, found₀, by split <;> rfl, fun live => ?_⟩
  split at live
  · exact absurd rfl live
  next different => rw [if_neg different]; exact ⟨live, id⟩

theorem Valid.take {a : Lifecycle ι ρ σ} (h : Valid a) (k : Nat) : Valid (a.take k) := by
  apply h.of_origin
  intro n t found
  obtain ⟨t₀, found₀, rfl⟩ := (get_modify_iff a _ n k t).mp found
  refine ⟨t₀, found₀, by split <;> rfl, fun live => ?_⟩
  split at live
  next same => rw [if_pos same]; exact ⟨live, fun _ => rfl⟩
  next different => rw [if_neg different]; exact ⟨live, id⟩

end Lifecycle
