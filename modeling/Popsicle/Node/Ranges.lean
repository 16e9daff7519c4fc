import Popsicle.Node.Tasks
import Popsicle.Foundation.Tiling

/-!
# Ranges of a download

`download_sdk` asks the server for a file in ranges of bytes, which an iterator works out from
the length that the server has announced.
-/

namespace Popsicle.Node

open Foundation

/-! ## Arithmetic of `u64` -/

def u64Max : Nat := 18446744073709551615

/-- A result of `u64` arithmetic: kept when it fits, otherwise a panic or the wrapped number,
depending on the build. -/
def u64Result (overflowChecks : Bool) (exact : Int) : Except Stop Nat :=
  if 0 ≤ exact ∧ exact ≤ u64Max then .ok exact.toNat
  else if overflowChecks then .error .panic
  else .ok (exact % (u64Max + 1)).toNat

theorem u64Result_of_fits {exact : Int} {value : Nat} (overflowChecks : Bool)
    (isValue : exact = value) (fits : value ≤ u64Max) :
    u64Result overflowChecks exact = pure value := by
  subst isValue
  rw [u64Result, if_pos ⟨Int.natCast_nonneg value, Int.ofNat_le.mpr fits⟩, Int.toNat_natCast]
  rfl

theorem u64Result_of_outside (exact : Int) (outside : ¬(0 ≤ exact ∧ exact ≤ u64Max)) :
    u64Result true exact = .error .panic ∧
      u64Result false exact = pure (exact % (u64Max + 1)).toNat := by
  constructor
  · rw [u64Result, if_neg outside, if_pos rfl]
  · rw [u64Result, if_neg outside, if_neg Bool.false_ne_true]
    rfl

/-- Zero has no predecessor, and the wrapped one is the largest `u64`. -/
theorem u64Result_pred_zero :
    u64Result true ((0 : Nat) - 1) = .error .panic ∧
      u64Result false ((0 : Nat) - 1) = pure u64Max := by
  have outside := u64Result_of_outside (((0 : Nat) : Int) - 1) (by decide)
  exact outside

/-! ## The iterator -/

/-- The iterator over the ranges of a file: what is left of it begins at `start` and ends with
the byte `last`, the `end` of the source. -/
structure PartialRangeIter where
  start : Nat
  last : Nat
  bufferSize : Nat
  deriving DecidableEq

/-- The header that asks for a range. -/
def headerValue (range : Span) : String := s!"bytes={range.first}-{range.last}"

namespace PartialRangeIter

def new (start last bufferSize : Nat) : Except Stop PartialRangeIter :=
  if bufferSize = 0 then .error .error else .ok { start, last, bufferSize }

/-- The next range, unless all of the file has been asked for, and the iterator after it. -/
def next (overflowChecks : Bool) (self : PartialRangeIter) :
    Except Stop (Option Span × PartialRangeIter) :=
  if self.start > self.last then return (none, self)
  else do
    let prevStart := self.start
    let difference ← u64Result overflowChecks ((self.last : Nat) - (self.start : Nat))
    let remaining ← u64Result overflowChecks (difference + 1 : Nat)
    let start ← u64Result overflowChecks (self.start + min self.bufferSize remaining : Nat)
    let last ← u64Result overflowChecks ((start : Nat) - 1)
    return (some { first := prevStart, last }, { self with start })

/-- The ranges that the iterator has left, if there are fewer than the fuel. -/
def collect (overflowChecks : Bool) : Nat → PartialRangeIter → Except Stop (Option (List Span))
  | 0, _ => return none
  | fuel + 1, self => do
      match ← self.next overflowChecks with
      | (none, _) => return some []
      | (some range, after) => return (← collect overflowChecks fuel after).map (range :: ·)

variable (overflowChecks : Bool) (self : PartialRangeIter)

/-- What is left begins within the file, which ends at a `u64`. -/
theorem next_eq (isLeft : self.start ≤ self.last) (fits : self.last < u64Max)
    (positive : 0 < self.bufferSize) :
    self.next overflowChecks = pure
      (some ⟨self.start, self.start + min self.bufferSize (self.last + 1 - self.start) - 1⟩,
        { self with start := self.start + min self.bufferSize (self.last + 1 - self.start) }) := by
  have difference := u64Result_of_fits overflowChecks
    (show ((self.last : Nat) : Int) - (self.start : Nat) = (self.last - self.start : Nat) by omega)
    (by omega)
  have remaining := u64Result_of_fits overflowChecks
    (show ((self.last - self.start + 1 : Nat) : Int) = (self.last + 1 - self.start : Nat) by omega)
    (by omega)
  have start := u64Result_of_fits overflowChecks
    (rfl : ((self.start + min self.bufferSize (self.last + 1 - self.start) : Nat) : Int) = _)
    (by omega)
  have last := u64Result_of_fits overflowChecks
    (show ((self.start + min self.bufferSize (self.last + 1 - self.start) : Nat) : Int) - 1 =
      (self.start + min self.bufferSize (self.last + 1 - self.start) - 1 : Nat) by omega)
    (by omega)
  rw [next, if_neg (Nat.not_lt.mpr isLeft)]
  simp only [difference, remaining, start, last, pure_bind]

theorem exists_collect (started : self.start ≤ self.last + 1) (fits : self.last < u64Max)
    (positive : 0 < self.bufferSize) {fuel : Nat} (enough : self.last + 1 - self.start < fuel) :
    ∃ ranges, self.collect overflowChecks fuel = .ok (some ranges) ∧
      Tiles self.bufferSize self.start (self.last + 1) ranges := by
  induction fuel generalizing self with
  | zero => exact absurd enough (Nat.not_lt_zero _)
  | succ fuel ih =>
      by_cases isLeft : self.start ≤ self.last
      · obtain ⟨ranges, isCollected, tiles⟩ :=
          ih { self with start := self.start + min self.bufferSize (self.last + 1 - self.start) }
            (by dsimp only; omega) fits positive (by dsimp only; omega)
        refine ⟨⟨self.start, self.start + min self.bufferSize (self.last + 1 - self.start) - 1⟩ ::
          ranges, ?_, .next rfl ?_ ?_ ?_⟩
        · simp only [collect, next_eq overflowChecks self isLeft fits positive, pure_bind,
            isCollected]
          rfl
        · dsimp only
          omega
        · dsimp only
          omega
        · dsimp only at tiles ⊢
          convert tiles using 1
          omega
      · have isDone : self.start = self.last + 1 := by omega
        refine ⟨[], ?_, isDone ▸ .done _⟩
        rw [collect, next, if_pos (Nat.not_le.mp isLeft)]
        rfl

/-- Over all of the `u64` the iterator does not get on. -/
theorem collect_stuck (bufferSize fuel : Nat) :
    collect false fuel ⟨0, u64Max, bufferSize⟩ = .ok none := by
  have difference := u64Result_of_fits false
    (show ((u64Max : Nat) : Int) - (0 : Nat) = (u64Max : Nat) by omega) (Nat.le_refl _)
  have remaining : u64Result false (u64Max + 1 : Nat) = pure 0 := by
    have outside : ¬((0 : Int) ≤ (u64Max + 1 : Nat) ∧ ((u64Max + 1 : Nat) : Int) ≤ u64Max) := by
      omega
    rw [(u64Result_of_outside _ outside).2]
    simp
  have start := u64Result_of_fits false
    (show ((0 + min bufferSize 0 : Nat) : Int) = (0 : Nat) by omega) (Nat.zero_le _)
  have isNext : next false ⟨0, u64Max, bufferSize⟩ =
      pure (some ⟨0, u64Max⟩, ⟨0, u64Max, bufferSize⟩) := by
    rw [next, if_neg (Nat.not_lt.mpr (Nat.zero_le _))]
    simp only [difference, remaining, start, u64Result_pred_zero.2, pure_bind]
  induction fuel with
  | zero => rfl
  | succ fuel ih =>
      simp only [collect, isNext, pure_bind, ih]
      rfl

end PartialRangeIter

/-- The size of the ranges that are asked for. -/
def chunkSize : Nat := 1024000

/-- The ranges that `download_sdk` asks for, of a file of the given length. -/
def downloadRanges (overflowChecks : Bool) (length bufferSize fuel : Nat) :
    Except Stop (Option (List Span)) := do
  let last ← u64Result overflowChecks ((length : Nat) - 1)
  match PartialRangeIter.new 0 last bufferSize with
  | .ok iter => iter.collect overflowChecks fuel
  | .error _ => .error .panic

/-- A finite number of ranges is asked for, and they cover the bytes of the file once. -/
def RequestsOnce (overflowChecks : Bool) (length bufferSize : Nat) : Prop :=
  ∃ fuel ranges, downloadRanges overflowChecks length bufferSize fuel = .ok (some ranges) ∧
    CoversOnce bufferSize 0 length ranges

/-- Every byte of a file is requested exactly once, in either build, unless the file is empty. -/
theorem requests_once_iff {length bufferSize : Nat} (fits : length ≤ u64Max)
    (positive : 0 < bufferSize) (overflowChecks : Bool) :
    RequestsOnce overflowChecks length bufferSize ↔ 0 < length := by
  constructor
  · rintro ⟨fuel, ranges, isRequested, _⟩
    by_contra isEmpty
    obtain rfl : length = 0 := by omega
    cases overflowChecks with
    | true =>
        rw [downloadRanges, u64Result_pred_zero.1] at isRequested
        cases isRequested
    | false =>
        rw [downloadRanges, u64Result_pred_zero.2, pure_bind, PartialRangeIter.new,
          if_neg positive.ne'] at isRequested
        dsimp only at isRequested
        rw [PartialRangeIter.collect_stuck] at isRequested
        cases isRequested
  · intro nonempty
    have last := u64Result_of_fits overflowChecks
      (show ((length : Nat) : Int) - 1 = (length - 1 : Nat) by omega) (by omega)
    obtain ⟨ranges, isCollected, tiles⟩ :=
      PartialRangeIter.exists_collect overflowChecks ⟨0, length - 1, bufferSize⟩ (Nat.zero_le _)
        (by dsimp only; omega) positive (show _ < length + 1 by dsimp only; omega)
    refine ⟨length + 1, ranges, ?_, ?_⟩
    · rw [downloadRanges, last, pure_bind, PartialRangeIter.new, if_neg positive.ne']
      exact isCollected
    · have covers := tiles.coversOnce
      rwa [Nat.sub_add_cancel nonempty] at covers

/-- A file that takes one range more than a full one. -/
theorem requests_once_iff_two : RequestsOnce true (chunkSize + 1) chunkSize :=
  (requests_once_iff (by decide) (by decide) true).mpr (Nat.succ_pos _)

/-- An empty file ends the download in a panic. -/
theorem not_requests_once :
    ¬∀ length ≤ u64Max, RequestsOnce true length chunkSize := by
  intro once
  obtain ⟨fuel, ranges, isRequested, _⟩ := once 0 (Nat.zero_le _)
  cases isRequested

end Popsicle.Node
