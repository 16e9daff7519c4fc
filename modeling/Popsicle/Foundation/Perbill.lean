import Popsicle.Foundation.Near
import Mathlib.Tactic.Common
import Mathlib.Tactic.Linarith
import Mathlib.Tactic.Ring
import Mathlib.Algebra.Order.Group.Nat

/-!
# Parts per billion

A fraction between zero and one, stored as a whole number of parts per 10^9.
`fromRational` rounds down and answers one for a quotient that is not below one,
a zero denominator included; multiplication rounds to the nearest integer, ties
downwards.
-/

namespace Foundation

/-- A number of parts per billion, at most one billion. -/
structure Perbill where
  parts : Nat
  le_one : parts ≤ 1000000000
  deriving DecidableEq

namespace Perbill

/-- One billion parts. -/
abbrev accuracy : Nat := 1000000000

def one : Perbill := ⟨accuracy, le_refl _⟩

def zero : Perbill := ⟨0, Nat.zero_le _⟩

/-- The fraction `p / q`, rounded down. -/
def fromRational (p q : Nat) : Perbill :=
  if h : q = 0 ∨ q < p then one
  else ⟨p * accuracy / q, by
    apply Nat.div_le_of_le_mul
    rw [Nat.mul_comm q]
    have : p ≤ q := by omega
    rw [Nat.mul_comm p]
    exact Nat.mul_le_mul_left _ this⟩

/-- The share of an amount, rounded to the nearest integer, ties downwards. -/
def mul (share : Perbill) (amount : Nat) : Nat :=
  let product := share.parts * amount
  if accuracy < 2 * (product % accuracy) then product / accuracy + 1 else product / accuracy

theorem one_mul (amount : Nat) : one.mul amount = amount := by
  simp [mul, one, accuracy]

theorem zero_mul (amount : Nat) : zero.mul amount = 0 := by
  simp [mul, zero, accuracy]

/-- Nothing out of nothing counts as everything. -/
theorem fromRational_zero (q : Nat) : fromRational 0 q = if q = 0 then one else zero := by
  by_cases isZero : q = 0
  · simp [fromRational, isZero]
  · simp [fromRational, isZero, zero]

theorem two_mul_mul_le (share : Perbill) (amount : Nat) :
    2 * accuracy * share.mul amount ≤ 2 * (share.parts * amount) + accuracy := by
  have split := Nat.div_add_mod (share.parts * amount) accuracy
  simp only [mul, accuracy] at split ⊢
  split <;> omega

/-- The exact share is at most half a unit above the rounded one. -/
theorem le_two_mul_mul (share : Perbill) (amount : Nat) :
    2 * (share.parts * amount) ≤ 2 * accuracy * share.mul amount + accuracy := by
  have split := Nat.div_add_mod (share.parts * amount) accuracy
  have below := Nat.mod_lt (share.parts * amount) (show 0 < accuracy by decide)
  simp only [mul, accuracy] at split below ⊢
  split <;> omega

theorem near_mul (share : Perbill) (amount : Nat) :
    Near (accuracy : ℤ) (2 * accuracy * share.mul amount) (2 * (share.parts * amount)) := by
  have upper := share.two_mul_mul_le amount
  have lower := share.le_two_mul_mul amount
  rw [Near.iff_le]
  exact_mod_cast And.intro upper lower

theorem mul_le (share : Perbill) (amount : Nat) : share.mul amount ≤ amount := by
  have bound : share.parts * amount ≤ accuracy * amount :=
    Nat.mul_le_mul_right _ share.le_one
  have rounded := share.two_mul_mul_le amount
  by_contra above
  have next : amount + 1 ≤ share.mul amount := by omega
  have scaled : 2 * accuracy * (amount + 1) ≤ 2 * accuracy * share.mul amount :=
    Nat.mul_le_mul_left _ next
  simp only [accuracy] at *
  omega

/-- Rounding down: the stored parts never exceed the exact fraction. -/
theorem parts_mul_le {p q : Nat} (positive : 0 < q) (atMost : p ≤ q) :
    (fromRational p q).parts * q ≤ p * accuracy := by
  have regular : ¬(q = 0 ∨ q < p) := by omega
  simp only [fromRational, regular, dite_false]
  exact Nat.div_mul_le_self _ _

/-- A rounded fraction of an amount is at most half a unit above the exact one. -/
theorem two_mul_fromRational_mul_le {p q : Nat} (positive : 0 < q) (atMost : p ≤ q)
    (amount : Nat) : 2 * (q * (fromRational p q).mul amount) ≤ 2 * (p * amount) + q := by
  have rounded := Nat.mul_le_mul_left q ((fromRational p q).two_mul_mul_le amount)
  have parts := Nat.mul_le_mul_right amount (parts_mul_le positive atMost)
  have scaled : accuracy * (2 * (q * (fromRational p q).mul amount)) ≤
      accuracy * (2 * (p * amount) + q) := by
    calc accuracy * (2 * (q * (fromRational p q).mul amount))
        = q * (2 * accuracy * (fromRational p q).mul amount) := by ring
      _ ≤ q * (2 * ((fromRational p q).parts * amount) + accuracy) := rounded
      _ = 2 * ((fromRational p q).parts * q * amount) + accuracy * q := by ring
      _ ≤ 2 * (p * accuracy * amount) + accuracy * q := by omega
      _ = accuracy * (2 * (p * amount) + q) := by ring
  exact Nat.le_of_mul_le_mul_left scaled (by decide)

section Split

variable {total : Nat}

/-- Fractions of amounts that together do not exceed the total are at most one. -/
theorem sum_parts_le (positive : 0 < total) {amounts : List Nat} (atMost : amounts.sum ≤ total) :
    (amounts.map fun amount => (fromRational amount total).parts).sum ≤ accuracy := by
  have scaled : (amounts.map fun amount => (fromRational amount total).parts).sum * total ≤
      amounts.sum * accuracy := by
    induction amounts with
    | nil => simp
    | cons amount rest ih =>
        simp only [List.map_cons, List.sum_cons] at atMost ⊢
        have first := parts_mul_le positive (show amount ≤ total by omega)
        have others := ih (by omega)
        rw [Nat.add_mul, Nat.add_mul]
        exact Nat.add_le_add first others
  have bound : amounts.sum * accuracy ≤ accuracy * total := by
    rw [Nat.mul_comm accuracy]
    exact Nat.mul_le_mul_right _ atMost
  exact Nat.le_of_mul_le_mul_right (scaled.trans bound) positive

/-- Splitting an amount in proportion hands out at most the amount and half a unit for
each part. -/
theorem two_mul_sum_split_le (positive : 0 < total) {amounts : List Nat}
    (atMost : amounts.sum ≤ total) (whole : Nat) :
    2 * (amounts.map fun amount => (fromRational amount total).mul whole).sum ≤
      2 * whole + amounts.length := by
  have rounded : ∀ amounts : List Nat,
      2 * accuracy * (amounts.map fun amount => (fromRational amount total).mul whole).sum ≤
        2 * ((amounts.map fun amount => (fromRational amount total).parts).sum * whole) +
          accuracy * amounts.length := by
    intro amounts
    induction amounts with
    | nil => simp
    | cons amount rest ih =>
        have first := (fromRational amount total).two_mul_mul_le whole
        simp only [List.map_cons, List.sum_cons, List.length_cons, Nat.mul_add, Nat.add_mul,
          Nat.mul_one] at ih ⊢
        omega
  have scaled := rounded amounts
  have bound := Nat.mul_le_mul_right whole (sum_parts_le positive atMost)
  simp only [accuracy] at scaled bound
  omega

end Split

end Perbill

end Foundation
