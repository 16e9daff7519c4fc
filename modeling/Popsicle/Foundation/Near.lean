import Mathlib.Algebra.Order.Ring.Abs
import Mathlib.Algebra.Order.Group.MinMax
import Mathlib.Algebra.Order.BigOperators.Group.List
import Mathlib.Algebra.BigOperators.Ring.List
import Mathlib.Algebra.BigOperators.Group.List.Lemmas
import Mathlib.Tactic.Linarith
import Mathlib.Tactic.Ring

/-!
# Values that agree up to an error

A computation that rounds stays near the exact one.  The rules say how errors add up in
the operations of a linearly ordered ring, so that a bound on a whole computation follows
its steps.
-/

namespace Foundation

variable {α : Type} [CommRing α] [LinearOrder α] [IsStrictOrderedRing α]

/-- Two values differ by at most an error. -/
def Near (error left right : α) : Prop := |left - right| ≤ error

namespace Near

variable {error error' left middle right left' right' factor : α}

theorem iff_le : Near error left right ↔ left ≤ right + error ∧ right ≤ left + error := by
  rw [Near, abs_sub_le_iff, sub_le_iff_le_add', sub_le_iff_le_add']

omit [IsStrictOrderedRing α] in
theorem weaken (near : Near error left right) (more : error ≤ error') :
    Near error' left right :=
  near.trans more

omit [IsStrictOrderedRing α] in
theorem shift (near : Near error left right) (same : left' - right' = left - right) :
    Near error left' right' := by
  rw [Near, same]
  exact near

theorem trans (first : Near error left middle) (second : Near error' middle right) :
    Near (error + error') left right :=
  (abs_sub_le left middle right).trans (add_le_add first second)

theorem add (near : Near error left right) (near' : Near error' left' right') :
    Near (error + error') (left + left') (right + right') := by
  have sum : |left - right + (left' - right')| ≤ error + error' :=
    (abs_add_le _ _).trans (add_le_add near near')
  rwa [sub_add_sub_comm] at sum

omit [IsStrictOrderedRing α] in
theorem neg (near : Near error left right) : Near error (-left) (-right) := by
  rw [Near, neg_sub_neg, abs_sub_comm]
  exact near

theorem sub (near : Near error left right) (near' : Near error' left' right') :
    Near (error + error') (left - left') (right - right') := by
  simpa only [sub_eq_add_neg] using near.add near'.neg

theorem scale (near : Near error left right) (nonneg : 0 ≤ factor) :
    Near (factor * error) (factor * left) (factor * right) := by
  rw [Near, ← mul_sub, abs_mul, abs_of_nonneg nonneg]
  exact mul_le_mul_of_nonneg_left near nonneg

theorem of_scale (near : Near (factor * error) (factor * left) (factor * right))
    (positive : 0 < factor) : Near error left right := by
  rw [Near, ← mul_sub, abs_mul, abs_of_pos positive] at near
  exact le_of_mul_le_mul_left near positive

theorem cut (near : Near error left right) : Near error (max left 0) (max right 0) :=
  (abs_max_sub_max_le_abs left right 0).trans near

theorem sum {ι : Type} {entries : List ι} {computed exact : ι → α}
    (each : ∀ entry ∈ entries, Near error (computed entry) (exact entry)) :
    Near (entries.length * error) (entries.map computed).sum (entries.map exact).sum := by
  induction entries with
  | nil => simp [Near]
  | cons entry rest ih =>
      have first := each entry List.mem_cons_self
      have others := ih fun other member => each other (List.mem_cons_of_mem _ member)
      rw [List.map_cons, List.map_cons, List.sum_cons, List.sum_cons]
      refine (first.add others).weaken (le_of_eq ?_)
      rw [List.length_cons, Nat.cast_add, Nat.cast_one]
      ring

end Near

end Foundation
