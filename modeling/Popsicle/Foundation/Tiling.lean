import Mathlib.Data.List.Chain
import Mathlib.Data.List.Pairwise
import Mathlib.Tactic.Common

/-!
# Tilings of an interval

Spans with inclusive ends tile an interval of natural numbers if each of them begins where
the one before has ended.  Then every number of the interval is in one span only.
-/

namespace Foundation

/-- The numbers from `first` to `last`, both included. -/
structure Span where
  first : Nat
  last : Nat
  deriving DecidableEq

/-- Whether a number is in a span. -/
def Span.holds (span : Span) (number : Nat) : Bool := span.first ≤ number && number ≤ span.last

@[simp] theorem Span.holds_iff {span : Span} {number : Nat} :
    span.holds number = true ↔ span.first ≤ number ∧ number ≤ span.last := by
  simp [holds]

/-- `Tiles size start stop spans`: the spans lead from `start` to the number before `stop`, and
none of them has more than `size` numbers. -/
inductive Tiles (size : Nat) : Nat → Nat → List Span → Prop where
  | done (stop : Nat) : Tiles size stop stop []
  | next {start stop : Nat} {span : Span} {rest : List Span} (begins : span.first = start)
      (nonempty : span.first ≤ span.last) (isShort : span.last + 1 - span.first ≤ size)
      (tiles : Tiles size (span.last + 1) stop rest) : Tiles size start stop (span :: rest)

/-- What a tiling is good for. -/
structure CoversOnce (size start stop : Nat) (spans : List Span) : Prop where
  nonempty : ∀ span ∈ spans, span.first ≤ span.last
  isShort : ∀ span ∈ spans, span.last + 1 - span.first ≤ size
  adjacent : spans.IsChain fun left right => left.last + 1 = right.first
  apart : spans.Pairwise fun left right => left.last < right.first
  once : ∀ number, spans.countP (Span.holds · number) =
    if start ≤ number ∧ number < stop then 1 else 0

namespace Tiles

variable {size start stop : Nat} {spans : List Span}

theorem start_le (tiles : Tiles size start stop spans) : start ≤ stop := by
  induction tiles with
  | done => exact Nat.le_refl _
  | next begins nonempty _ _ ih => omega

theorem start_le_first (tiles : Tiles size start stop spans) :
    ∀ span ∈ spans, start ≤ span.first := by
  induction tiles with
  | done => exact fun span member => absurd member List.not_mem_nil
  | next begins nonempty _ _ ih =>
      intro span member
      rcases List.mem_cons.mp member with rfl | inRest
      · exact begins.ge
      · have later := ih span inRest
        omega

theorem countP_holds (tiles : Tiles size start stop spans) (number : Nat) :
    spans.countP (Span.holds · number) = if start ≤ number ∧ number < stop then 1 else 0 := by
  induction tiles with
  | done stop =>
      have outside : ¬(stop ≤ number ∧ number < stop) := by omega
      rw [if_neg outside, List.countP_nil]
  | @next start stop span rest begins nonempty _ tiles ih =>
      subst begins
      have after := tiles.start_le
      rw [List.countP_cons, ih]
      by_cases inSpan : span.first ≤ number ∧ number ≤ span.last
      · have notAfter : ¬(span.last + 1 ≤ number ∧ number < stop) := by omega
        have inside : span.first ≤ number ∧ number < stop := by omega
        rw [if_neg notAfter, if_pos inside, if_pos (Span.holds_iff.mpr inSpan)]
      · have same : (span.last + 1 ≤ number ∧ number < stop) ↔
            (span.first ≤ number ∧ number < stop) := by
          omega
        rw [if_neg (mt Span.holds_iff.mp inSpan), Nat.add_zero]
        simp only [same]

theorem coversOnce (tiles : Tiles size start stop spans) : CoversOnce size start stop spans where
  nonempty := by
    induction tiles with
    | done => simp
    | next _ nonempty _ _ ih => exact List.forall_mem_cons.mpr ⟨nonempty, ih⟩
  isShort := by
    induction tiles with
    | done => simp
    | next _ _ isShort _ ih => exact List.forall_mem_cons.mpr ⟨isShort, ih⟩
  adjacent := by
    induction tiles with
    | done => exact List.isChain_nil
    | next _ _ _ tiles ih =>
        cases tiles with
        | done => exact List.isChain_singleton _
        | next begins => exact List.isChain_cons_cons.mpr ⟨begins.symm, ih⟩
  apart := by
    induction tiles with
    | done => exact List.Pairwise.nil
    | next _ _ _ tiles ih => exact List.pairwise_cons.mpr ⟨tiles.start_le_first, ih⟩
  once := tiles.countP_holds

end Tiles

end Foundation
