import Mathlib.Data.Int.CardIntervalMod
import Mathlib.Data.List.Range

/-!
# Dealing in turn

The numbers below a count are dealt in turn to `size` receivers.  What each of them gets
is known exactly, and no one gets more than one number more than another.
-/

namespace Foundation.RoundRobin

/-- What the receiver at `index` gets of the numbers below `count`, in order. -/
def dealt (size count index : Nat) : List Nat :=
  (List.range count).filter fun number => number % size = index

variable {size count index number : Nat}

theorem dealt_succ :
    dealt size (count + 1) index =
      if count % size = index then dealt size count index ++ [count]
      else dealt size count index := by
  rw [dealt, List.range_succ, List.filter_append]
  split
  next isNext => simp [dealt, isNext]
  next other => simp [dealt, other]

theorem mem_dealt : number ∈ dealt size count index ↔ number < count ∧ number % size = index := by
  simp [dealt]

/-- Every receiver gets its full turns, and one number more if the last turn reaches it. -/
theorem length_dealt (inside : index < size) :
    (dealt size count index).length = count / size + if index < count % size then 1 else 0 := by
  have positive : 0 < size := Nat.zero_lt_of_lt inside
  have isModEq (number : Nat) : number ≡ index [MOD size] ↔ number % size = index := by
    unfold Nat.ModEq
    rw [Nat.mod_eq_of_lt inside]
  have counted : (dealt size count index).length = count.count (· ≡ index [MOD size]) := by
    induction count with
    | zero => rfl
    | succ count ih =>
        rw [dealt_succ, Nat.count_succ, ← ih]
        by_cases isNext : count % size = index
        · simp [isNext, isModEq]
        · simp [isNext, isModEq]
  rw [counted, Nat.count_modEq_card _ positive, Nat.mod_eq_of_lt inside]

/-- The receiver that is next has as many numbers as there are full turns. -/
theorem length_dealt_next (positive : 0 < size) :
    (dealt size count (count % size)).length = count / size := by
  rw [length_dealt (Nat.mod_lt count positive)]
  simp

theorem length_dealt_le {other : Nat} (inside : index < size) (otherInside : other < size) :
    (dealt size count index).length ≤ (dealt size count other).length + 1 := by
  rw [length_dealt inside, length_dealt otherInside]
  split
  · split <;> omega
  · omega

end Foundation.RoundRobin
