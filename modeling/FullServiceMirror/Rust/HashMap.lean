import Mathlib.Data.List.AList
import Mathlib.Data.List.Count
import Mathlib.Data.List.Perm.Basic

/-!
# `HashMap`

The standard library's map, as far as its documentation fixes it: every key is
bound at most once, and iteration visits every entry once in an unspecified
order. The order in which the table lists its entries stands for that order.
-/
namespace Rust

/-- A map from `κ` to `ν`; key uniqueness is carried by the association list. -/
structure HashMap (κ ν : Type) where
  table : AList fun _ : κ => ν

namespace HashMap

variable {κ ν μ : Type}

/-- `HashMap::new`. -/
def new : HashMap κ ν := ⟨∅⟩

/-- The entries, in the order an iteration or a drain visits them. -/
def iter (m : HashMap κ ν) : List (κ × ν) := m.table.entries.map fun e => (e.1, e.2)

/-- `HashMap::len`. -/
def len (m : HashMap κ ν) : Nat := m.table.entries.length

@[simp] theorem iter_new : (new : HashMap κ ν).iter = [] := rfl

theorem iter_keys_nodup (m : HashMap κ ν) : (m.iter.map Prod.fst).Nodup := by
  have keys : m.iter.map Prod.fst = m.table.keys := by
    simp [iter, AList.keys, List.keys, Function.comp_def]
  rw [keys]
  exact m.table.keys_nodup

variable [DecidableEq κ]

/-- `HashMap::get`. -/
def get (m : HashMap κ ν) (key : κ) : Option ν := m.table.lookup key

/-- `HashMap::contains_key`. -/
def containsKey (m : HashMap κ ν) (key : κ) : Bool := (m.get key).isSome

/-- `HashMap::insert`, which replaces the value of a key that is present. -/
def insert (m : HashMap κ ν) (key : κ) (value : ν) : HashMap κ ν := ⟨m.table.insert key value⟩

/-- The map that `HashMap::remove` leaves behind. -/
def remove (m : HashMap κ ν) (key : κ) : HashMap κ ν := ⟨m.table.erase key⟩

@[simp] theorem get_new (key : κ) : (new : HashMap κ ν).get key = none :=
  AList.lookup_empty key

@[simp] theorem get_insert (m : HashMap κ ν) (key other : κ) (value : ν) :
    (m.insert key value).get other = if other = key then some value else m.get other := by
  split
  next same => subst other; exact AList.lookup_insert m.table
  next different => exact AList.lookup_insert_ne different

@[simp] theorem get_remove (m : HashMap κ ν) (key other : κ) :
    (m.remove key).get other = if other = key then none else m.get other := by
  split
  next same => subst other; exact AList.lookup_erase key m.table
  next different => exact AList.lookup_erase_ne different

theorem containsKey_iff (m : HashMap κ ν) (key : κ) :
    m.containsKey key = true ↔ ∃ value, m.get key = some value :=
  Option.isSome_iff_exists

theorem not_containsKey_iff (m : HashMap κ ν) (key : κ) :
    m.containsKey key = false ↔ m.get key = none := by
  simp [containsKey]

theorem mem_iter_iff (m : HashMap κ ν) (key : κ) (value : ν) :
    (key, value) ∈ m.iter ↔ m.get key = some value := by
  have lookup : m.get key = some value ↔ Sigma.mk key value ∈ m.table.entries :=
    AList.mem_lookup_iff
  rw [lookup, iter, List.mem_map]
  constructor
  · rintro ⟨⟨k, v⟩, member, equal⟩
    cases equal
    exact member
  · intro member
    exact ⟨_, member, rfl⟩

/-- A key that the entries of an iteration carry once is looked up among them. -/
theorem get_foldl_insert (f : κ × ν → μ) (entries : List (κ × ν))
    (unique : (entries.map Prod.fst).Nodup) (start : HashMap κ μ) (key : κ) :
    (entries.foldl (fun acc e => acc.insert e.1 (f e)) start).get key =
      ((entries.find? (fun e => e.1 = key)).map f).or (start.get key) := by
  induction entries generalizing start with
  | nil => simp
  | cons entry rest ih =>
    simp only [List.map_cons, List.nodup_cons] at unique
    rw [List.foldl_cons, ih unique.2, List.find?_cons]
    by_cases same : entry.1 = key
    · have absent : rest.find? (fun e => e.1 = key) = none := by
        rw [List.find?_eq_none]
        intro e member equal
        exact unique.1 (List.mem_map.mpr ⟨e, member, by simpa [same] using equal⟩)
      simp [same, absent]
    · simp [same, Ne.symm same]

/-- An order in which an iteration or a drain may visit the entries. -/
def Visits (m : HashMap κ ν) (order : List (κ × ν)) : Prop := order.Perm m.iter

instance [DecidableEq ν] (m : HashMap κ ν) (order : List (κ × ν)) : Decidable (m.Visits order) :=
  List.decidablePerm order m.iter

omit [DecidableEq κ] in
theorem visits_iter (m : HashMap κ ν) : m.Visits m.iter := List.Perm.refl _

omit [DecidableEq κ] in
theorem Visits.keys_nodup {m : HashMap κ ν} {order : List (κ × ν)} (visits : m.Visits order) :
    (order.map Prod.fst).Nodup :=
  (visits.map Prod.fst).nodup_iff.mpr m.iter_keys_nodup

theorem Visits.mem_iff {m : HashMap κ ν} {order : List (κ × ν)} (visits : m.Visits order) (key : κ)
    (value : ν) : (key, value) ∈ order ↔ m.get key = some value :=
  (List.Perm.mem_iff visits).trans (m.mem_iter_iff key value)

theorem Visits.find? {m : HashMap κ ν} {order : List (κ × ν)} (visits : m.Visits order) (key : κ) :
    order.find? (fun e => e.1 = key) = (m.get key).map fun value => (key, value) := by
  cases found : order.find? (fun e => e.1 = key) with
  | none =>
    cases bound : m.get key with
    | none => rfl
    | some value =>
      rw [List.find?_eq_none] at found
      exact absurd (found _ ((visits.mem_iff key value).mpr bound)) (by simp)
  | some entry =>
    -- The entry found is the binding, as every key occurs once.
    have member := List.mem_of_find?_eq_some found
    have same : entry.1 = key := by simpa using List.find?_some found
    obtain ⟨k, v⟩ := entry
    subst same
    simp [(visits.mem_iff k v).mp member]

/-- An order of visits is the order of a map with the same bindings. -/
theorem Visits.relist {m : HashMap κ ν} {order : List (κ × ν)} (visits : m.Visits order) :
    ∃ m' : HashMap κ ν, m'.iter = order ∧ ∀ key, m'.get key = m.get key := by
  -- The keys of an order are distinct, so it is itself the list of a map.
  have keys : (order.map fun e => (⟨e.1, e.2⟩ : Sigma fun _ : κ => ν)).NodupKeys := by
    simpa [List.NodupKeys, List.keys, Function.comp_def] using visits.keys_nodup
  have listed : (⟨⟨_, keys⟩⟩ : HashMap κ ν).iter = order := by
    rw [iter, List.map_map]
    exact List.map_id order
  refine ⟨⟨⟨_, keys⟩⟩, listed, fun key => ?_⟩
  apply Option.ext
  intro value
  rw [← mem_iter_iff, listed, visits.mem_iff]

/-- Inserting what an iteration of `m` visits, in any order, leaves `m`'s
bindings over those that were there before. -/
theorem Visits.get_insert {m : HashMap κ ν} {order : List (κ × ν)} (visits : m.Visits order)
    (f : κ × ν → μ) (start : HashMap κ μ) (key : κ) :
    (order.foldl (fun acc e => acc.insert e.1 (f e)) start).get key =
      ((m.get key).map fun value => f (key, value)).or (start.get key) := by
  rw [get_foldl_insert f order visits.keys_nodup, visits.find?, Option.map_map]
  rfl

/-- `HashMap::is_empty`. -/
def isEmpty (m : HashMap κ ν) : Bool := m.iter.isEmpty

theorem isEmpty_iff (m : HashMap κ ν) : m.isEmpty = true ↔ ∀ key, m.get key = none := by
  rw [isEmpty, List.isEmpty_iff, List.eq_nil_iff_forall_not_mem]
  constructor
  · intro empty key
    cases bound : m.get key with
    | none => rfl
    | some value => exact absurd ((m.mem_iter_iff key value).mpr bound) (empty _)
  · rintro empty ⟨key, value⟩ member
    rw [mem_iter_iff, empty] at member
    cases member

/-! ## Maps that differ in their values -/

section

variable {R : ν → μ → Prop} {m : HashMap κ ν} {m' : HashMap κ μ}

omit [DecidableEq κ]

/-- The same keys, one after another, with values that are related. -/
def Entries (R : ν → μ → Prop) : List (κ × ν) → List (κ × μ) → Prop :=
  List.Forall₂ fun e e' => e.1 = e'.1 ∧ R e.2 e'.2

def Related (R : ν → μ → Prop) (m : HashMap κ ν) (m' : HashMap κ μ) : Prop := Entries R m.iter m'.iter

theorem related_new : Related R (new : HashMap κ ν) (new : HashMap κ μ) := .nil

theorem Entries.refl {S : ν → ν → Prop} (reflexive : ∀ value, S value value) (entries : List (κ × ν)) :
    Entries S entries entries :=
  List.forall₂_same.mpr fun e _ => ⟨rfl, reflexive e.2⟩

/-- An order in which one map is visited is matched by one of the other. -/
theorem Related.visits (related : Related R m m') (order : List (κ × ν)) (visits : order.Perm m.iter) :
    ∃ order' : List (κ × μ), order'.Perm m'.iter ∧ Entries R order order' := by
  obtain ⟨order', entries, same⟩ := List.perm_comp_forall₂ visits related
  exact ⟨order', same, entries⟩

variable [DecidableEq κ]

theorem iter_insert (m : HashMap κ ν) (key : κ) (value : ν) :
    (m.insert key value).iter = (key, value) :: m.iter.eraseP fun e => key = e.1 := by
  have inserted : (m.insert key value).table.entries = ⟨key, value⟩ :: m.table.entries.kerase key :=
    AList.entries_insert
  rw [iter, inserted, List.map_cons, iter, List.eraseP_map]
  rfl

theorem Related.insert (related : Related R m m') (key : κ) {value : ν} {value' : μ}
    (alike : R value value') : Related R (m.insert key value) (m'.insert key value') := by
  -- An insertion puts the new binding first and erases the old one, which both maps have or neither has.
  have erased : Entries R (m.iter.eraseP fun e => key = e.1) (m'.iter.eraseP fun e => key = e.1) := by
    have entries : Entries R m.iter m'.iter := related
    generalize m.iter = l at entries
    generalize m'.iter = l' at entries
    induction entries with
    | nil => exact .nil
    | cons first rest ih =>
      rename_i e e' l l'
      by_cases here : key = e.1
      · rw [List.eraseP_cons_of_pos (by simpa using here),
          List.eraseP_cons_of_pos (by simpa [← first.1] using here)]
        exact rest
      · rw [List.eraseP_cons_of_neg (by simpa using here),
          List.eraseP_cons_of_neg (by simpa [← first.1] using here)]
        exact .cons first ih
  rw [Related, iter_insert, iter_insert]
  exact .cons ⟨rfl, alike⟩ erased

/-- Inserting what is computed from the same entries. -/
theorem Related.foldl_insert {α : Type} (f : κ × α → ν) (f' : κ × α → μ) (entries : List (κ × α))
    (alike : ∀ e ∈ entries, R (f e) (f' e)) (related : Related R m m') :
    Related R (entries.foldl (fun acc e => acc.insert e.1 (f e)) m)
      (entries.foldl (fun acc e => acc.insert e.1 (f' e)) m') := by
  induction entries generalizing m m' with
  | nil => exact related
  | cons e rest ih =>
    rw [List.forall_mem_cons] at alike
    exact ih alike.2 (related.insert e.1 alike.1)

end

/-! ## Values -/

/-- `HashMap::values`, in the order of an iteration. -/
def values (m : HashMap κ ν) : List ν := m.iter.map Prod.snd

omit [DecidableEq κ] in
@[simp] theorem values_new : (new : HashMap κ ν).values = [] := rfl

omit [DecidableEq κ] in
theorem values_eq (m : HashMap κ ν) : m.values = m.table.entries.map Sigma.snd := by
  rw [values, iter, List.map_map]
  rfl

omit [DecidableEq κ] in
theorem Visits.count_values [DecidableEq ν] {m : HashMap κ ν} {order : List (κ × ν)}
    (visits : m.Visits order) (value : ν) : (order.map Prod.snd).count value = m.values.count value :=
  (List.Perm.map Prod.snd visits).count_eq value

variable [DecidableEq ν]

/-- The value that a key is bound to is listed once less without the key. -/
theorem count_values_remove (m : HashMap κ ν) (key : κ) (value other : ν)
    (bound : m.get key = some value) :
    m.values.count other = (m.remove key).values.count other + [value].count other := by
  have found : ⟨key, value⟩ ∈ m.table.entries := AList.mem_lookup_iff.mp bound
  obtain ⟨value', before, after, _, entries, erased⟩ :=
    List.exists_of_kerase (List.mem_keys_of_mem found)
  have same : value' = value := by
    have found' : ⟨key, value'⟩ ∈ m.table.entries := by rw [entries]; simp
    have bound' : m.get key = some value' := AList.mem_lookup_iff.mpr found'
    exact Option.some.inj (bound'.symm.trans bound)
  subst same
  have removed : (m.remove key).table.entries = before ++ after := erased
  rw [values_eq, values_eq, entries, removed]
  simp only [List.map_append, List.map_cons, List.count_append, List.count_cons, List.count_nil]
  omega

/-- An insertion adds one value and may replace another. -/
theorem count_values_insert_le (m : HashMap κ ν) (key : κ) (value other : ν) :
    (m.insert key value).values.count other ≤ m.values.count other + [value].count other := by
  have inserted : (m.insert key value).table.entries = ⟨key, value⟩ :: m.table.entries.kerase key :=
    AList.entries_insert
  have fewer := ((List.kerase_sublist key m.table.entries).map Sigma.snd).count_le other
  rw [values_eq, values_eq, inserted]
  simp only [List.map_cons, List.count_cons, List.count_nil]
  omega

theorem count_values_foldl_le (entries : List (κ × ν)) (start : HashMap κ ν) (value : ν) :
    (entries.foldl (fun acc e => acc.insert e.1 e.2) start).values.count value ≤
      start.values.count value + (entries.map Prod.snd).count value := by
  induction entries generalizing start with
  | nil => exact Nat.le_add_right _ _
  | cons entry rest ih =>
    have first := count_values_insert_le start entry.1 entry.2 value
    have others := ih (start.insert entry.1 entry.2)
    simp only [List.foldl_cons, List.map_cons, List.count_cons, List.count_nil] at *
    omega

end HashMap

end Rust
