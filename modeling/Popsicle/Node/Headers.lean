import Mathlib.Data.List.TakeWhile
import Popsicle.Node.Fetch

/-!
# Headers of a download

The length of a file comes as a header of decimal digits, and a range is asked for with a
header that names its first and its last byte.  Both can be read back.
-/

namespace Popsicle.Node

open Foundation

/-! ## Numbers -/

/-- The bytes of the decimal digits of a number. -/
def decimal (number : Nat) : Bytes :=
  (Nat.toDigits 10 number).map fun digit => UInt8.ofNat digit.toNat

theorem toNat_of_isDigit {digit : Char} (isDigit : digit.isDigit = true) :
    48 ≤ digit.toNat ∧ digit.toNat ≤ 57 := by
  simpa [Char.isDigit, UInt32.le_iff_toNat_le] using isDigit

theorem headerText_decimal (number : Nat) :
    headerText (decimal number) = some (Nat.toDigits 10 number) := by
  have digits : ∀ digit ∈ Nat.toDigits 10 number, 48 ≤ digit.toNat ∧ digit.toNat ≤ 57 :=
    fun digit member =>
      toNat_of_isDigit (Nat.isDigit_of_mem_toDigits (by decide) (by decide) member)
  have visible : (decimal number).all
      (fun byte => decide (32 ≤ byte ∧ byte < 127 ∨ byte = 9)) = true := by
    refine List.all_eq_true.mpr fun byte member => decide_eq_true ?_
    obtain ⟨digit, isDigit, rfl⟩ := List.mem_map.mp member
    obtain ⟨low, high⟩ := digits digit isDigit
    left
    rw [UInt8.le_iff_toNat_le, UInt8.lt_iff_toNat_lt, UInt8.toNat_ofNat']
    have small : digit.toNat % 2 ^ 8 = digit.toNat := Nat.mod_eq_of_lt (by omega)
    rw [small]
    exact ⟨by simp; omega, by simp; omega⟩
  rw [headerText, if_pos visible, decimal, List.map_map]
  congr 1
  refine List.map_congr_left (fun digit member => ?_) |>.trans (List.map_id _)
  obtain ⟨low, high⟩ := digits digit member
  have small : digit.toNat % 2 ^ 8 = digit.toNat := Nat.mod_eq_of_lt (by omega)
  rw [Function.comp, UInt8.toNat_ofNat', small]
  exact Char.ofNat_toNat digit

/-- Digits are read from the left as long as the number stays a `u64`. -/
theorem foldlM_pushDigit {digits : List Char} (isDigit : ∀ digit ∈ digits, digit.isDigit = true)
    (value : Nat) (fits : Nat.ofDigitChars 10 digits value ≤ u64Max) :
    digits.foldlM pushDigit value = some (Nat.ofDigitChars 10 digits value) := by
  induction digits generalizing value with
  | nil => simp
  | cons digit rest ih =>
      rw [Nat.ofDigitChars_cons] at fits ⊢
      have grows : 10 * value + (digit.toNat - 48) ≤
          Nat.ofDigitChars 10 rest (10 * value + (digit.toNat - 48)) := by
        rw [Nat.ofDigitChars_eq_ofDigitChars_zero]
        have positive : 1 ≤ 10 ^ rest.length := Nat.one_le_pow _ _ (by decide)
        calc 10 * value + (digit.toNat - 48)
            _ ≤ 10 ^ rest.length * (10 * value + (digit.toNat - 48)) :=
              Nat.le_mul_of_pos_left _ positive
            _ ≤ _ := Nat.le_add_right _ _
      have pushed : pushDigit value digit = some (10 * value + (digit.toNat - 48)) :=
        if_pos ⟨isDigit digit List.mem_cons_self, grows.trans fits⟩
      rw [List.foldlM_cons, pushed]
      exact ih (fun digit member => isDigit digit (List.mem_cons_of_mem _ member)) _ fits

theorem u64FromStr_toDigits {number : Nat} (fits : number ≤ u64Max) :
    u64FromStr (Nat.toDigits 10 number) = some number := by
  have isDigit : ∀ digit ∈ Nat.toDigits 10 number, digit.isDigit = true :=
    fun digit member => Nat.isDigit_of_mem_toDigits (by decide) (by decide) member
  have noPlus : (Nat.toDigits 10 number).head? ≠ some '+' := by
    intro isPlus
    have plus := isDigit '+' (List.mem_of_head? isPlus)
    cases plus
  have value : Nat.ofDigitChars 10 (Nat.toDigits 10 number) 0 = number :=
    Nat.ofDigitChars_ten_toDigits
  rw [u64FromStr]
  simp only [noPlus, if_false, Nat.toDigits_ne_nil]
  rw [foldlM_pushDigit isDigit 0 (value.trans_le fits), value]

/-! ## Ranges -/

/-- How a server reads the header of a range. -/
def readRange (header : String) : Option Span := do
  let text ← header.toList.dropPrefix? "bytes=".toList
  let first ← u64FromStr (text.takeWhile (· ≠ '-'))
  let last ← u64FromStr (text.dropWhile (· ≠ '-')).tail
  return { first, last }

theorem readRange_headerValue {range : Span} (nonempty : range.first ≤ range.last)
    (fits : range.last ≤ u64Max) : readRange (headerValue range) = some range := by
  have noDash : ∀ digit ∈ Nat.toDigits 10 range.first, decide (digit ≠ '-') = true := by
    intro digit member
    have isDigit := Nat.isDigit_of_mem_toDigits (by decide) (by decide) member
    rw [decide_eq_true_iff]
    rintro rfl
    cases isDigit
  have text : (headerValue range).toList = "bytes=".toList ++
      (Nat.toDigits 10 range.first ++ '-' :: Nat.toDigits 10 range.last) := by
    simp [headerValue, toString]
  rw [readRange, text, List.dropPrefix?_append_of_beq _ (beq_self_eq_true _)]
  simp only [Option.bind_eq_bind, Option.bind_some]
  rw [List.takeWhile_append_of_pos noDash, List.dropWhile_append_of_pos noDash]
  simp [u64FromStr_toDigits (nonempty.trans fits), u64FromStr_toDigits fits]

end Popsicle.Node
