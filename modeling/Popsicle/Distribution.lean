import Popsicle.Stores

/-!
# How much of a reward is distributed

The commission is taken out of the reward before the share of the points is, and once more
from what the stakers get.  A sequencer without delegations never gets it back, and one with
delegations does not if both parts are positive.  The payments add up to the share of the
reward, up to rounding, exactly if that loss is within what rounding may cost.
-/

namespace Popsicle

open Foundation Exec Keyed

variable {AccountId : Type}

/-- The payees of a snapshot and the multiplications made for them. -/
def roundings (snapshot : SequencerSnapshot AccountId) : Nat :=
  if snapshot.delegations.isEmpty then 1 + 2
  else (snapshot.delegations.length + 1) + (snapshot.delegations.length + 4)

/-- The payments add up to the share of the points in the reward, up to one unit and one part
per billion of the reward for each payee and each multiplication. -/
def Distributed (payoutInfo : DelayedPayout) (totalPoints pts : Nat) (sequencer : AccountId)
    (snapshot : SequencerSnapshot AccountId) : Prop :=
  let reward := payoutInfo.totalStakingReward
  let share := (Perbill.fromRational pts totalPoints).mul reward
  let paid := Delegations.sumAmounts
    (orderedPayments payoutInfo totalPoints pts sequencer snapshot)
  Near (roundings snapshot * (Perbill.accuracy + reward) : ℤ) (Perbill.accuracy * paid)
    (Perbill.accuracy * share)

/-- The parts per billion that the stakers of a snapshot get of what is split. -/
def splitParts (snapshot : SequencerSnapshot AccountId) : Nat :=
  (Perbill.fromRational snapshot.bond snapshot.total).parts +
    (snapshot.delegations.map fun bond =>
      (Perbill.fromRational bond.amount snapshot.total).parts).sum

/-- The part of the reward that is lost, in parts of 10^27: the commission of a sequencer
without delegations; otherwise the smaller one of commission and rest, and what the rounded
parts leave of their difference. -/
def lostParts (commission share : Perbill) (snapshot : SequencerSnapshot AccountId) : Nat :=
  if snapshot.delegations.isEmpty then
    share.parts * commission.parts * Perbill.accuracy
  else
    share.parts *
      (min commission.parts (Perbill.accuracy - commission.parts) * Perbill.accuracy +
        (Perbill.accuracy - 2 * commission.parts) * (Perbill.accuracy - splitParts snapshot))

/-! ## Rounding -/

section Rounding

variable {unit fee share parts reward issuance commission staking whole due split : ℤ}

theorem near_commission (nonneg : 0 ≤ share) (atMost : share ≤ unit)
    (issued : Near unit (2 * unit * issuance) (2 * (fee * reward)))
    (isDue : Near unit (2 * unit * commission) (2 * (share * issuance))) :
    Near (2 * unit ^ 2) (2 * unit ^ 2 * commission) (2 * (share * fee * reward)) := by
  have first := (isDue.scale (nonneg.trans atMost)).shift
    (show 2 * unit ^ 2 * commission - 2 * share * unit * issuance = _ by ring)
  have second := (issued.scale nonneg).shift
    (show 2 * share * unit * issuance - 2 * (share * fee * reward) = _ by ring)
  have below := mul_le_mul_of_nonneg_right atMost (nonneg.trans atMost)
  refine (first.trans second).weaken ?_
  linarith

/-- The share of what is left of the reward without the commission. -/
theorem near_staking (nonneg : 0 ≤ share) (atMost : share ≤ unit)
    (issued : Near unit (2 * unit * issuance) (2 * (fee * reward)))
    (isDue : Near unit (2 * unit * staking) (2 * (share * (reward - issuance)))) :
    Near (2 * unit ^ 2) (2 * unit ^ 2 * staking) (2 * (share * (unit - fee) * reward)) := by
  have first := (isDue.scale (nonneg.trans atMost)).shift
    (show 2 * unit ^ 2 * staking - 2 * share * unit * (reward - issuance) = _ by ring)
  have second := (issued.scale nonneg).neg.shift
    (show 2 * share * unit * (reward - issuance) - 2 * (share * (unit - fee) * reward) = _ by
      ring)
  have below := mul_le_mul_of_nonneg_right atMost (nonneg.trans atMost)
  refine (first.trans second).weaken ?_
  linarith

/-- What is split once the commission has been subtracted again. -/
theorem near_due (nonneg : 0 ≤ share) (rewarded : 0 ≤ reward)
    (commissionNear : Near (2 * unit ^ 2) (2 * unit ^ 2 * commission) (2 * (share * fee * reward)))
    (stakingNear : Near (2 * unit ^ 2) (2 * unit ^ 2 * staking)
      (2 * (share * (unit - fee) * reward))) :
    Near (4 * unit ^ 2) (2 * unit ^ 2 * max (staking - commission) 0)
      (2 * (share * max (unit - 2 * fee) 0 * reward)) := by
  have difference := (stakingNear.sub commissionNear).cut
  have left : max (2 * unit ^ 2 * staking - 2 * unit ^ 2 * commission) 0 =
      2 * unit ^ 2 * max (staking - commission) 0 := by
    rw [mul_max_of_nonneg _ _ (by positivity), mul_zero, mul_sub]
  have right : max (2 * (share * (unit - fee) * reward) - 2 * (share * fee * reward)) 0 =
      2 * (share * max (unit - 2 * fee) 0 * reward) := by
    have product : 2 * (share * max (unit - 2 * fee) 0 * reward) =
        2 * share * reward * max (unit - 2 * fee) 0 := by ring
    rw [product, mul_max_of_nonneg _ _ (by positivity), mul_zero]
    congr 1
    ring
  rw [left, right] at difference
  refine difference.weaken (le_of_eq ?_)
  ring

/-- A sequencer without delegations loses its commission. -/
theorem near_solo (positive : 0 < unit)
    (wholeNear : Near unit (2 * unit * whole) (2 * (share * reward)))
    (stakingNear : Near (2 * unit ^ 2) (2 * unit ^ 2 * staking)
      (2 * (share * (unit - fee) * reward))) :
    Near (3 * unit ^ 3) (unit ^ 3 * (whole - staking)) (share * fee * unit * reward) := by
  have difference := ((wholeNear.scale positive.le).sub stakingNear).scale positive.le
  have doubled := difference.shift (show 2 * (unit ^ 3 * (whole - staking)) -
    2 * (share * fee * unit * reward) = _ by ring)
  refine (doubled.weaken ?_).of_scale zero_lt_two
  have cube := pow_pos positive 3
  linarith

/-- Stakers lose the smaller one of commission and rest, and what is not split. -/
theorem near_staked {count : ℤ} (positive : 0 < unit) (nonneg : 0 ≤ parts)
    (atMost : parts ≤ unit)
    (wholeNear : Near unit (2 * unit * whole) (2 * (share * reward)))
    (commissionNear : Near (2 * unit ^ 2) (2 * unit ^ 2 * commission)
      (2 * (share * fee * reward)))
    (dueNear : Near (4 * unit ^ 2) (2 * unit ^ 2 * due)
      (2 * (share * max (unit - 2 * fee) 0 * reward)))
    (splitNear : Near (count * unit) (2 * unit * split) (2 * (parts * due))) :
    Near ((count + 7) * unit ^ 3) (2 * (unit ^ 3 * (whole - (split + commission))))
      (2 * (share * (unit ^ 2 - unit * fee - parts * max (unit - 2 * fee) 0) * reward)) := by
  have square : 0 ≤ unit ^ 2 := by positivity
  have splitExact := (splitNear.scale square).shift
    (show 2 * unit ^ 3 * split - parts * (2 * unit ^ 2 * due) = _ by ring)
  have stakers := splitExact.trans (dueNear.scale nonneg)
  have kept := (wholeNear.scale square).sub (commissionNear.scale positive.le)
  have difference := (kept.sub stakers).shift
    (show 2 * (unit ^ 3 * (whole - (split + commission))) -
      2 * (share * (unit ^ 2 - unit * fee - parts * max (unit - 2 * fee) 0) * reward) = _ by ring)
  refine difference.weaken ?_
  have below := mul_le_mul_of_nonneg_right atMost square
  linarith

variable {count lost paid : ℤ}

theorem near_of_lost_le (positive : 0 < unit) (nonneg : 0 ≤ lost) (rewarded : 0 ≤ reward)
    (small : lost ≤ count * unit ^ 2)
    (missed : Near (count * unit ^ 3) (unit ^ 3 * (whole - paid)) (lost * reward)) :
    Near (count * (unit + reward)) (unit * paid) (unit * whole) := by
  have square := pow_pos positive 2
  have lossLe := mul_le_mul_of_nonneg_right small rewarded
  have lossNonneg := mul_nonneg nonneg rewarded
  obtain ⟨upper, lower⟩ := Near.iff_le.mp missed
  apply Near.of_scale _ square
  rw [Near.iff_le]
  constructor
  · linarith
  · linarith

theorem lost_le_of_near (positive : 0 < unit)
    (missed : Near (count * unit ^ 3) (unit ^ 3 * (whole - paid)) (lost * reward))
    (near : Near (count * (unit + reward)) (unit * paid) (unit * whole)) :
    lost * reward ≤ count * unit ^ 2 * (reward + 2 * unit) := by
  have square := pow_pos positive 2
  have above := (Near.iff_le.mp missed).2
  have below := (Near.iff_le.mp (near.scale square.le)).2
  linarith

end Rounding

/-! ## The payments for a snapshot -/

section Payments

variable {payoutInfo : DelayedPayout} {totalPoints pts : Nat} {sequencer : AccountId}
  {snapshot : SequencerSnapshot AccountId}

theorem sumAmounts_filter_ne_zero (payments : List (Bond AccountId)) :
    Delegations.sumAmounts (payments.filter fun due => due.amount ≠ 0) =
      Delegations.sumAmounts payments := by
  induction payments with
  | nil => rfl
  | cons due rest ih =>
      by_cases isZero : due.amount = 0
      · simpa [Delegations.sumAmounts_cons, isZero] using ih
      · simpa [Delegations.sumAmounts_cons, isZero] using ih

/-- What the stakers of a snapshot get of an amount together. -/
def splitAmong (snapshot : SequencerSnapshot AccountId) (due : Nat) : Nat :=
  (Perbill.fromRational snapshot.bond snapshot.total).mul due +
    (snapshot.delegations.map fun bond =>
      (Perbill.fromRational bond.amount snapshot.total).mul due).sum

theorem sumAmounts_orderedPayments :
    Delegations.sumAmounts (orderedPayments payoutInfo totalPoints pts sequencer snapshot) =
      if snapshot.delegations.isEmpty then stakingDue payoutInfo totalPoints pts
      else splitAmong snapshot (stakersDue payoutInfo totalPoints pts) +
        commissionDue payoutInfo totalPoints pts := by
  rw [orderedPayments_eq]
  split
  next => rfl
  next =>
    rw [Delegations.sumAmounts_cons, sumAmounts_filter_ne_zero, Delegations.sumAmounts,
      List.map_map, splitAmong, Nat.add_right_comm]
    rfl

theorem near_splitAmong (snapshot : SequencerSnapshot AccountId) (due : Nat) :
    Near ((snapshot.delegations.length + 1 : ℤ) * Perbill.accuracy)
      (2 * Perbill.accuracy * splitAmong snapshot due) (2 * (splitParts snapshot * due)) := by
  have own := (Perbill.fromRational snapshot.bond snapshot.total).near_mul due
  have others : Near (snapshot.delegations.length * (Perbill.accuracy : ℤ))
      (snapshot.delegations.map fun bond => (2 * Perbill.accuracy *
        (Perbill.fromRational bond.amount snapshot.total).mul due : ℤ)).sum
      (snapshot.delegations.map fun bond =>
        (2 * ((Perbill.fromRational bond.amount snapshot.total).parts * due) : ℤ)).sum :=
    Near.sum fun bond _ => (Perbill.fromRational bond.amount snapshot.total).near_mul due
  rw [List.sum_map_mul_left, List.sum_map_mul_left, List.sum_map_mul_right] at others
  refine ((own.add others).shift ?_).weaken (le_of_eq (by ring))
  simp only [splitAmong, splitParts, Nat.cast_add, Nat.cast_list_sum, List.map_map,
    Function.comp_def]
  ring

theorem splitParts_le (counted : 0 < snapshot.total)
    (covers : snapshot.total = snapshot.bond + Delegations.sumAmounts snapshot.delegations) :
    splitParts snapshot ≤ Perbill.accuracy := by
  have atMost : (snapshot.bond :: snapshot.delegations.map Bond.amount).sum ≤ snapshot.total :=
    covers.ge
  simpa [splitParts, List.map_map, Function.comp_def] using Perbill.sum_parts_le counted atMost

theorem lost_eq {unit fee parts : Nat} (feeLe : fee ≤ unit) (partsLe : parts ≤ unit) :
    ((min fee (unit - fee) * unit + (unit - 2 * fee) * (unit - parts) : Nat) : ℤ) =
      (unit : ℤ) ^ 2 - unit * fee - parts * max ((unit : ℤ) - 2 * fee) 0 := by
  rcases le_total (2 * fee) unit with isLess | isMore
  · have isMin : min fee (unit - fee) = fee := min_eq_left (by omega)
    have isMax : max ((unit : ℤ) - 2 * fee) 0 = unit - 2 * fee := max_eq_left (by omega)
    rw [isMin, isMax]
    push_cast [Nat.cast_sub isLess, Nat.cast_sub partsLe]
    ring
  · have isMin : min fee (unit - fee) = unit - fee := min_eq_right (by omega)
    have isMax : max ((unit : ℤ) - 2 * fee) 0 = 0 := max_eq_right (by omega)
    have nothing : unit - 2 * fee = 0 := Nat.sub_eq_zero_of_le isMore
    rw [isMin, isMax, nothing]
    push_cast [Nat.cast_sub feeLe]
    ring

theorem near_lostParts (payoutInfo : DelayedPayout) (totalPoints pts : Nat)
    (sequencer : AccountId) (counted : 0 < snapshot.total)
    (covers : snapshot.total = snapshot.bond + Delegations.sumAmounts snapshot.delegations) :
    Near (roundings snapshot * Perbill.accuracy ^ 3 : ℤ)
      (Perbill.accuracy ^ 3 *
        ((Perbill.fromRational pts totalPoints).mul payoutInfo.totalStakingReward -
          Delegations.sumAmounts
            (orderedPayments payoutInfo totalPoints pts sequencer snapshot)))
      (lostParts payoutInfo.sequencerCommission (Perbill.fromRational pts totalPoints) snapshot *
        payoutInfo.totalStakingReward) := by
  have positive : (0 : ℤ) < Perbill.accuracy := by decide
  have nonneg : (0 : ℤ) ≤ (Perbill.fromRational pts totalPoints).parts := Int.natCast_nonneg _
  have atMost : ((Perbill.fromRational pts totalPoints).parts : ℤ) ≤ Perbill.accuracy :=
    Int.ofNat_le.mpr (Perbill.fromRational pts totalPoints).le_one
  have wholeNear := (Perbill.fromRational pts totalPoints).near_mul payoutInfo.totalStakingReward
  have issued := payoutInfo.sequencerCommission.near_mul payoutInfo.totalStakingReward
  have isLess := payoutInfo.sequencerCommission.mul_le payoutInfo.totalStakingReward
  have isStaking := (Perbill.fromRational pts totalPoints).near_mul
    (payoutInfo.totalStakingReward -
      payoutInfo.sequencerCommission.mul payoutInfo.totalStakingReward)
  rw [Nat.cast_sub isLess] at isStaking
  have stakingNear := near_staking nonneg atMost issued isStaking
  have commissionNear := near_commission nonneg atMost issued
    ((Perbill.fromRational pts totalPoints).near_mul _)
  rw [sumAmounts_orderedPayments, roundings, lostParts]
  split
  next =>
    have solo := near_solo positive wholeNear stakingNear
    exact_mod_cast solo
  next =>
    have partsLe := splitParts_le counted covers
    have dueNear := near_due nonneg (Int.natCast_nonneg payoutInfo.totalStakingReward)
      commissionNear stakingNear
    have isDue : max ((stakingDue payoutInfo totalPoints pts : ℤ) -
        commissionDue payoutInfo totalPoints pts) 0 = stakersDue payoutInfo totalPoints pts := by
      unfold stakersDue
      omega
    have missed := near_staked positive (Int.natCast_nonneg _) (Int.ofNat_le.mpr partsLe)
      wholeNear commissionNear (isDue ▸ dueNear) (near_splitAmong snapshot _)
    have feeLe : payoutInfo.sequencerCommission.parts ≤ Perbill.accuracy :=
      payoutInfo.sequencerCommission.le_one
    rw [← lost_eq feeLe partsLe] at missed
    have half : ((snapshot.delegations.length + 1 + 7 : ℤ)) * Perbill.accuracy ^ 3 ≤
        2 * ((snapshot.delegations.length + 1 + (snapshot.delegations.length + 4) : ℕ) *
          Perbill.accuracy ^ 3) := by
      have cube := pow_pos positive 3
      push_cast
      nlinarith
    have result := (missed.weaken half).of_scale zero_lt_two
    exact_mod_cast result

/-- Where the loss is within what rounding may cost, the share of the reward is distributed. -/
theorem distributed_of_lostParts_le (counted : 0 < snapshot.total)
    (covers : snapshot.total = snapshot.bond + Delegations.sumAmounts snapshot.delegations)
    (small : lostParts payoutInfo.sequencerCommission (Perbill.fromRational pts totalPoints)
      snapshot ≤ roundings snapshot * Perbill.accuracy ^ 2) :
    Distributed payoutInfo totalPoints pts sequencer snapshot := by
  have missed := near_lostParts payoutInfo totalPoints pts sequencer counted covers
  have positive : (0 : ℤ) < Perbill.accuracy := by decide
  refine near_of_lost_le positive (Int.natCast_nonneg _) (Int.natCast_nonneg _) ?_ missed
  exact_mod_cast small

/-- Where the share of the reward is distributed, the loss is within twice what rounding may
cost. -/
theorem lostParts_mul_le_of_distributed (counted : 0 < snapshot.total)
    (covers : snapshot.total = snapshot.bond + Delegations.sumAmounts snapshot.delegations)
    (distributed : Distributed payoutInfo totalPoints pts sequencer snapshot) :
    lostParts payoutInfo.sequencerCommission (Perbill.fromRational pts totalPoints) snapshot *
        payoutInfo.totalStakingReward ≤
      roundings snapshot * Perbill.accuracy ^ 2 *
        (payoutInfo.totalStakingReward + 2 * Perbill.accuracy) := by
  have missed := near_lostParts payoutInfo totalPoints pts sequencer counted covers
  have positive : (0 : ℤ) < Perbill.accuracy := by decide
  exact_mod_cast lost_le_of_near positive missed distributed

end Payments

/-- The payments for a sequencer add up to its share of every reward if and only if the part of
the commission that is lost is within what rounding may cost.  Otherwise only rewards up to
some size are distributed. -/
theorem distributed_iff {snapshot : SequencerSnapshot AccountId} (counted : 0 < snapshot.total)
    (covers : snapshot.total = snapshot.bond + Delegations.sumAmounts snapshot.delegations)
    (commission : Perbill) (totalPoints pts : Nat) (sequencer : AccountId) :
    ((∀ reward, Distributed { totalStakingReward := reward, sequencerCommission := commission }
        totalPoints pts sequencer snapshot) ↔
      lostParts commission (Perbill.fromRational pts totalPoints) snapshot ≤
        roundings snapshot * Perbill.accuracy ^ 2) ∧
      ∀ reward, Distributed { totalStakingReward := reward, sequencerCommission := commission }
          totalPoints pts sequencer snapshot →
        lostParts commission (Perbill.fromRational pts totalPoints) snapshot * reward ≤
          roundings snapshot * Perbill.accuracy ^ 2 * (reward + 2 * Perbill.accuracy) := by
  have bounded : ∀ reward, Distributed
      { totalStakingReward := reward, sequencerCommission := commission } totalPoints pts
        sequencer snapshot → _ :=
    fun reward distributed => lostParts_mul_le_of_distributed counted covers distributed
  refine ⟨⟨fun always => ?_, fun small reward => ?_⟩, bounded⟩
  · by_contra large
    have isMore := Nat.succ_le_of_lt (not_le.mp large)
    have most := bounded (2 * roundings snapshot * Perbill.accuracy ^ 3 + 1) (always _)
    have more := Nat.mul_le_mul_right (2 * roundings snapshot * Perbill.accuracy ^ 3 + 1) isMore
    have apart : roundings snapshot * Perbill.accuracy ^ 2 *
        (2 * roundings snapshot * Perbill.accuracy ^ 3 + 1 + 2 * Perbill.accuracy) + 1 =
        (roundings snapshot * Perbill.accuracy ^ 2 + 1) *
          (2 * roundings snapshot * Perbill.accuracy ^ 3 + 1) := by ring
    exact absurd (apart.trans_le (more.trans most)) (Nat.not_succ_le_self _)
  · exact distributed_of_lostParts_le counted covers small

/-- A sequencer with a bond of ten and no delegations. -/
def soloSnapshot : SequencerSnapshot Nat := { bond := 10, delegations := [], total := 10 }

/-- A sequencer with a bond of ten and a delegation of thirty. -/
def pairSnapshot : SequencerSnapshot Nat :=
  { bond := 10, delegations := [{ owner := 3, amount := 30 }], total := 40 }

/-- Without a commission everything is distributed. -/
theorem distributed_iff_pair :
    Distributed { totalStakingReward := 10 ^ 12, sequencerCommission := .zero } 40 20 1
      pairSnapshot :=
  (distributed_iff (by decide) (by decide) .zero 40 20 1).1.mpr (by decide) (10 ^ 12)

/-- A fifth of the reward of a sequencer without delegations is not distributed. -/
theorem not_distributed :
    ¬Distributed { totalStakingReward := 10 ^ 12, sequencerCommission := ⟨200000000, by decide⟩ }
      40 40 1 soloSnapshot := by
  rw [Distributed, Near.iff_le]
  decide

end Popsicle
