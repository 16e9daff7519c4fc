import Mathlib.Algebra.BigOperators.Group.Finset.Basic
import Mathlib.Algebra.BigOperators.Ring.Finset
import Mathlib.Algebra.Order.BigOperators.Group.Finset

/-!
# Finite maps

A storage map is a partial function together with the finite set of its keys.
Two maps with the same entries are equal, so reasoning happens entry by entry;
the key set is what makes totals over all entries meaningful.
-/

namespace Foundation

/-- A partial function with a finite domain. -/
structure StorageMap (κ ν : Type) where
  get : κ → Option ν
  keys : Finset κ
  mem_keys : ∀ key, key ∈ keys ↔ (get key).isSome = true

namespace StorageMap

variable {κ ν : Type}

@[ext] theorem ext {left right : StorageMap κ ν}
    (same : ∀ key, left.get key = right.get key) : left = right := by
  have gets : left.get = right.get := funext same
  have keySets : left.keys = right.keys := by
    ext key
    rw [left.mem_keys, right.mem_keys, gets]
  cases left
  cases right
  cases gets
  cases keySets
  rfl

/-- The map without entries. -/
def empty : StorageMap κ ν where
  get _ := none
  keys := ∅
  mem_keys := by simp

@[simp] theorem get_empty (key : κ) : (empty : StorageMap κ ν).get key = none := rfl

/-! ## Totals over all entries -/

/-- The weight of one entry, zero when it is absent. -/
def weight (map : StorageMap κ ν) (measure : κ → ν → Nat) (key : κ) : Nat :=
  ((map.get key).map (measure key)).getD 0

/-- The sum of a measure over all entries. -/
def sum (map : StorageMap κ ν) (measure : κ → ν → Nat) : Nat :=
  ∑ key ∈ map.keys, map.weight measure key

theorem weight_of_get {map : StorageMap κ ν} {measure : κ → ν → Nat} {key : κ} {value : ν}
    (stored : map.get key = some value) : map.weight measure key = measure key value := by
  simp [weight, stored]

@[simp] theorem weight_of_none {map : StorageMap κ ν} {measure : κ → ν → Nat} {key : κ}
    (absent : map.get key = none) : map.weight measure key = 0 := by
  simp [weight, absent]

@[simp] theorem sum_empty (measure : κ → ν → Nat) :
    (empty : StorageMap κ ν).sum measure = 0 := by
  simp [sum, empty]

theorem sum_eq_of_subset (map : StorageMap κ ν) (measure : κ → ν → Nat) {larger : Finset κ}
    (subset : map.keys ⊆ larger) : ∑ key ∈ larger, map.weight measure key = map.sum measure := by
  symm
  apply Finset.sum_subset subset
  intro key _ absent
  apply weight_of_none
  simpa [map.mem_keys] using absent

theorem sum_congr {map : StorageMap κ ν} {left right : κ → ν → Nat}
    (same : ∀ key value, map.get key = some value → left key value = right key value) :
    map.sum left = map.sum right := by
  apply Finset.sum_congr rfl
  intro key _
  cases stored : map.get key with
  | none => simp [weight, stored]
  | some value => simp [weight, stored, same key value stored]

/-! ## Updates -/

variable [DecidableEq κ]

/-- Store a value under a key. -/
def insert (map : StorageMap κ ν) (key : κ) (value : ν) : StorageMap κ ν where
  get query := if query = key then some value else map.get query
  keys := Insert.insert key map.keys
  mem_keys query := by
    by_cases equal : query = key <;> simp [equal, map.mem_keys]

/-- Delete the entry of a key. -/
def remove (map : StorageMap κ ν) (key : κ) : StorageMap κ ν where
  get query := if query = key then none else map.get query
  keys := map.keys.erase key
  mem_keys query := by
    by_cases equal : query = key <;> simp [equal, map.mem_keys]

/-- Store or delete the entry of a key. -/
def put (map : StorageMap κ ν) (key : κ) : Option ν → StorageMap κ ν
  | some value => map.insert key value
  | none => map.remove key

/-- Add every entry of another map, replacing entries under the same key. -/
def overlay (map other : StorageMap κ ν) : StorageMap κ ν where
  get query := (other.get query).or (map.get query)
  keys := map.keys ∪ other.keys
  mem_keys query := by
    simp [map.mem_keys, other.mem_keys, or_comm]

@[simp] theorem get_insert_self (map : StorageMap κ ν) (key : κ) (value : ν) :
    (map.insert key value).get key = some value := by
  simp [insert]

theorem get_insert (map : StorageMap κ ν) (key : κ) (value : ν) (query : κ) :
    (map.insert key value).get query = if query = key then some value else map.get query := rfl

@[simp] theorem get_insert_of_ne (map : StorageMap κ ν) {key query : κ} (value : ν)
    (different : query ≠ key) : (map.insert key value).get query = map.get query := by
  simp [insert, different]

@[simp] theorem get_remove_self (map : StorageMap κ ν) (key : κ) :
    (map.remove key).get key = none := by
  simp [remove]

theorem get_remove (map : StorageMap κ ν) (key query : κ) :
    (map.remove key).get query = if query = key then none else map.get query := rfl

@[simp] theorem get_remove_of_ne (map : StorageMap κ ν) {key query : κ}
    (different : query ≠ key) : (map.remove key).get query = map.get query := by
  simp [remove, different]

@[simp] theorem put_some (map : StorageMap κ ν) (key : κ) (value : ν) :
    map.put key (some value) = map.insert key value := rfl

@[simp] theorem put_none (map : StorageMap κ ν) (key : κ) :
    map.put key none = map.remove key := rfl

theorem get_put (map : StorageMap κ ν) (key : κ) (entry : Option ν) (query : κ) :
    (map.put key entry).get query = if query = key then entry else map.get query := by
  cases entry <;> rfl

@[simp] theorem get_put_self (map : StorageMap κ ν) (key : κ) (entry : Option ν) :
    (map.put key entry).get key = entry := by
  simp [get_put]

@[simp] theorem get_put_of_ne (map : StorageMap κ ν) {key query : κ} (entry : Option ν)
    (different : query ≠ key) : (map.put key entry).get query = map.get query := by
  simp [get_put, different]

@[simp] theorem put_put_self (map : StorageMap κ ν) (key : κ) (first second : Option ν) :
    (map.put key first).put key second = map.put key second := by
  ext query : 1
  by_cases equal : query = key <;> simp [equal]

@[simp] theorem put_insert_self (map : StorageMap κ ν) (key : κ) (value : ν)
    (entry : Option ν) : (map.insert key value).put key entry = map.put key entry :=
  map.put_put_self key (some value) entry

@[simp] theorem insert_insert_self (map : StorageMap κ ν) (key : κ) (first second : ν) :
    (map.insert key first).insert key second = map.insert key second :=
  map.put_put_self key (some first) (some second)

@[simp] theorem remove_remove_self (map : StorageMap κ ν) (key : κ) :
    (map.remove key).remove key = map.remove key :=
  map.put_put_self key none none

theorem forall_put {map : StorageMap κ ν} {key : κ} {entry : Option ν} {holds : κ → ν → Prop}
    (others : ∀ query value, query ≠ key → map.get query = some value → holds query value)
    (updated : ∀ value, entry = some value → holds key value) :
    ∀ query value, (map.put key entry).get query = some value → holds query value := by
  intro query value stored
  rw [get_put] at stored
  split at stored
  next equal =>
    subst equal
    exact updated value stored
  next different => exact others query value different stored

theorem forall_insert {map : StorageMap κ ν} {key : κ} {value : ν} {holds : κ → ν → Prop}
    (others : ∀ query old, map.get query = some old → holds query old)
    (updated : holds key value) :
    ∀ query new, (map.insert key value).get query = some new → holds query new := by
  rw [← put_some]
  refine forall_put (fun query old _ => others query old) ?_
  rintro _ ⟨⟩
  exact updated

theorem forall_remove {map : StorageMap κ ν} {holds : κ → ν → Prop}
    (others : ∀ query old, map.get query = some old → holds query old) (key : κ) :
    ∀ query old, (map.remove key).get query = some old → holds query old := by
  rw [← put_none]
  refine forall_put (fun query old _ => others query old) ?_
  rintro _ ⟨⟩

/-- Two maps have entries under the same keys. -/
def SameKeys {μ : Type} (left : StorageMap κ ν) (right : StorageMap κ μ) : Prop :=
  ∀ key, (left.get key).isSome = (right.get key).isSome

namespace SameKeys

variable {μ : Type} {left : StorageMap κ ν} {right : StorageMap κ μ}

theorem insert (same : SameKeys left right) (key : κ) (value : ν) (other : μ) :
    SameKeys (left.insert key value) (right.insert key other) := by
  intro query
  rw [get_insert, get_insert]
  split
  next => rfl
  next => exact same query

theorem remove (same : SameKeys left right) (key : κ) :
    SameKeys (left.remove key) (right.remove key) := by
  intro query
  rw [get_remove, get_remove]
  split
  next => rfl
  next => exact same query

theorem rewrite (same : SameKeys left right) {key : κ} {old : μ}
    (stored : right.get key = some old) (value : μ) : SameKeys left (right.insert key value) := by
  intro query
  rw [get_insert]
  split
  next equal => rw [equal, same, stored, Option.isSome_some, Option.isSome_some]
  next => exact same query

end SameKeys

theorem get_overlay (map other : StorageMap κ ν) (query : κ) :
    (map.overlay other).get query = (other.get query).or (map.get query) := rfl

theorem insert_eq_self {map : StorageMap κ ν} {key : κ} {value : ν}
    (stored : map.get key = some value) : map.insert key value = map := by
  ext query : 1
  by_cases equal : query = key
  · subst query
    simp [stored]
  · simp [equal]

/-! ## Totals after an update -/

/-- A change of one entry's weight changes the sum by that weight. -/
theorem sum_update {before after : StorageMap κ ν} (measure : κ → ν → Nat) (key : κ)
    (frame : ∀ query, query ≠ key → after.weight measure query = before.weight measure query) :
    after.sum measure + before.weight measure key =
      before.sum measure + after.weight measure key := by
  let domain := Insert.insert key (before.keys ∪ after.keys)
  have keyMem : key ∈ domain := Finset.mem_insert_self _ _
  have beforeSubset : before.keys ⊆ domain := by
    intro query member
    simp [domain, member]
  have afterSubset : after.keys ⊆ domain := by
    intro query member
    simp [domain, member]
  have others : ∑ query ∈ domain.erase key, after.weight measure query =
      ∑ query ∈ domain.erase key, before.weight measure query :=
    Finset.sum_congr rfl fun query member => frame query (Finset.ne_of_mem_erase member)
  rw [← before.sum_eq_of_subset measure beforeSubset,
    ← after.sum_eq_of_subset measure afterSubset,
    ← Finset.add_sum_erase domain _ keyMem, ← Finset.add_sum_erase domain _ keyMem, others]
  omega

theorem sum_eq_of_weight {before after : StorageMap κ ν} {measure : κ → ν → Nat}
    (same : ∀ key, after.weight measure key = before.weight measure key) :
    after.sum measure = before.sum measure := by
  have beforeSubset : before.keys ⊆ before.keys ∪ after.keys := Finset.subset_union_left
  have afterSubset : after.keys ⊆ before.keys ∪ after.keys := Finset.subset_union_right
  rw [← before.sum_eq_of_subset measure beforeSubset,
    ← after.sum_eq_of_subset measure afterSubset]
  exact Finset.sum_congr rfl fun key _ => same key

theorem weight_put_of_ne (map : StorageMap κ ν) (measure : κ → ν → Nat) {key query : κ}
    (entry : Option ν) (different : query ≠ key) :
    (map.put key entry).weight measure query = map.weight measure query := by
  simp [weight, different]

theorem sum_put (map : StorageMap κ ν) (measure : κ → ν → Nat) (key : κ) (entry : Option ν) :
    (map.put key entry).sum measure + map.weight measure key =
      map.sum measure + (map.put key entry).weight measure key :=
  sum_update measure key fun _ different => map.weight_put_of_ne measure entry different

theorem sum_insert (map : StorageMap κ ν) (measure : κ → ν → Nat) (key : κ) (value : ν) :
    (map.insert key value).sum measure + map.weight measure key =
      map.sum measure + measure key value := by
  have change := map.sum_put measure key (some value)
  rwa [put_some, weight_of_get (map.get_insert_self key value)] at change

theorem sum_remove (map : StorageMap κ ν) (measure : κ → ν → Nat) (key : κ) :
    (map.remove key).sum measure + map.weight measure key = map.sum measure := by
  have change := map.sum_put measure key none
  rwa [put_none, weight_of_none (map.get_remove_self key), Nat.add_zero] at change

theorem weight_le_sum (map : StorageMap κ ν) (measure : κ → ν → Nat) (key : κ) :
    map.weight measure key ≤ map.sum measure := by
  have removed := map.sum_remove measure key
  omega

end StorageMap

end Foundation
