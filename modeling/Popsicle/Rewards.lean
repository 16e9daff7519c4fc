import Popsicle.Backing
import Popsicle.Stores

/-!
# What a round pays in all

The reward of a round is split by points, and the part of each sequencer by stake.  Where
the snapshots that are paid have no delegations, or a positive total that covers their
bond and delegations, rounding is all that a round pays in excess of its reward.
-/

namespace Popsicle

open Foundation Exec Keyed

variable {AccountId Native : Type} [LinearOrder AccountId] {config : Config AccountId Native}
  {spec : ChainSpec AccountId Native} {before after state : State AccountId Native}

/-! ## One order -/

/-- The total of a snapshot with delegations is positive, and covers all that it counts. -/
def Fair (snapshot : SequencerSnapshot AccountId) : Prop :=
  snapshot.delegations = [] ∨ 0 < snapshot.total ∧
    snapshot.bond + Delegations.sumAmounts snapshot.delegations ≤ snapshot.total

section Order

variable {payoutInfo : DelayedPayout} {totalPoints pts : Nat} {sequencer : AccountId}
  {snapshot : SequencerSnapshot AccountId}

theorem pointsShare_le (positive : 0 < totalPoints) (atMost : pts ≤ totalPoints) {part : Nat}
    (isPart : part ≤ payoutInfo.totalStakingReward) :
    2 * (totalPoints * (Perbill.fromRational pts totalPoints).mul part) ≤
      2 * (pts * payoutInfo.totalStakingReward) + totalPoints := by
  have share := Perbill.two_mul_fromRational_mul_le positive atMost part
  have bound := Nat.mul_le_mul_left pts isPart
  omega

/-- What a sequencer and its delegators get together, its commission included. -/
theorem stakersDue_add_commissionDue_le (positive : 0 < totalPoints) (atMost : pts ≤ totalPoints) :
    2 * (totalPoints * (stakersDue payoutInfo totalPoints pts +
      commissionDue payoutInfo totalPoints pts)) ≤
      2 * (pts * payoutInfo.totalStakingReward) + totalPoints := by
  have staking : 2 * (totalPoints * stakingDue payoutInfo totalPoints pts) ≤
      2 * (pts * payoutInfo.totalStakingReward) + totalPoints :=
    pointsShare_le positive atMost (Nat.sub_le _ _)
  have commission : 2 * (totalPoints * commissionDue payoutInfo totalPoints pts) ≤
      2 * (pts * payoutInfo.totalStakingReward) + totalPoints :=
    pointsShare_le positive atMost (Perbill.mul_le _ _)
  unfold stakersDue
  rcases Nat.le_total (commissionDue payoutInfo totalPoints pts)
    (stakingDue payoutInfo totalPoints pts) with isLess | isMore
  · rw [Nat.sub_add_cancel isLess]
    exact staking
  · rw [Nat.sub_eq_zero_of_le isMore, Nat.zero_add]
    exact commission

omit [LinearOrder AccountId] in
/-- The stakers of a snapshot get at most what is due and half a unit each. -/
theorem split_le (due : Nat) (positive : 0 < snapshot.total)
    (covers : snapshot.bond + Delegations.sumAmounts snapshot.delegations ≤ snapshot.total)
    {kept : List (Bond AccountId)} (sublist : kept.Sublist snapshot.delegations) :
    2 * ((Perbill.fromRational snapshot.bond snapshot.total).mul due +
      (kept.map fun bond => (Perbill.fromRational bond.amount snapshot.total).mul due).sum) ≤
      2 * due + (kept.length + 1) := by
  have fewer : (kept.map Bond.amount).sum ≤ Delegations.sumAmounts snapshot.delegations :=
    (sublist.map Bond.amount).sum_le_sum fun _ _ => Nat.zero_le _
  have atMost : (snapshot.bond :: kept.map Bond.amount).sum ≤ snapshot.total := by
    rw [List.sum_cons]
    omega
  have bound := Perbill.two_mul_sum_split_le positive atMost due
  simpa [List.map_map, Function.comp_def] using bound

omit [LinearOrder AccountId] in
/-- The payments for a sequencer exceed its part of the reward by rounding only. -/
theorem orderedPayments_le (fair : Fair snapshot) (positive : 0 < totalPoints)
    (atMost : pts ≤ totalPoints) :
    totalPoints * Delegations.sumAmounts
        (orderedPayments payoutInfo totalPoints pts sequencer snapshot) ≤
      pts * payoutInfo.totalStakingReward + totalPoints *
        (orderedPayments payoutInfo totalPoints pts sequencer snapshot).length := by
  rw [orderedPayments_eq]
  split
  next =>
    have staking : 2 * (totalPoints * stakingDue payoutInfo totalPoints pts) ≤
        2 * (pts * payoutInfo.totalStakingReward) + totalPoints :=
      pointsShare_le positive atMost (Nat.sub_le _ _)
    simp only [Delegations.sumAmounts_cons, Delegations.sumAmounts_nil, List.length_singleton,
      Nat.add_zero, Nat.mul_one]
    omega
  next nonempty =>
    obtain ⟨counted, covers⟩ := fair.resolve_left fun isNil => by simp [isNil] at nonempty
    have due : 2 * (totalPoints * (stakersDue payoutInfo totalPoints pts +
        commissionDue payoutInfo totalPoints pts)) ≤
        2 * (pts * payoutInfo.totalStakingReward) + totalPoints :=
      stakersDue_add_commissionDue_le positive atMost
    generalize stakersDue payoutInfo totalPoints pts = stakers at due ⊢
    generalize commissionDue payoutInfo totalPoints pts = commission at due ⊢
    rw [List.filter_map]
    generalize isKept : snapshot.delegations.filter _ = kept
    have sublist : kept.Sublist snapshot.delegations := isKept ▸ List.filter_sublist
    have shares := Nat.mul_le_mul_left totalPoints (split_le stakers counted covers sublist)
    rw [Delegations.sumAmounts_cons, Delegations.sumAmounts, List.map_map, List.length_cons,
      List.length_map]
    simp only [Function.comp_def]
    generalize (Perbill.fromRational snapshot.bond snapshot.total).mul stakers = own at shares ⊢
    generalize (kept.map fun bond =>
      (Perbill.fromRational bond.amount snapshot.total).mul stakers).sum = others at shares ⊢
    simp only [Nat.mul_add, Nat.mul_one, Nat.mul_left_comm totalPoints 2] at shares due ⊢
    omega

end Order

/-! ## The orders for a round -/

/-- An order pays for points out of the reward of a round, and its snapshot is fair. -/
structure Reckoned (config : Config AccountId Native) (totalPoints : Nat)
    (order : RewardOrder AccountId) : Prop where
  totalPoints : order.totalPoints = totalPoints
  reward : order.payoutInfo.totalStakingReward = config.roundReward
  points : order.points ≠ 0
  fair : Fair order.snapshot

/-- The points that are still stored for a round. -/
def RoundStore.unspent (store : RoundStore AccountId) : Nat :=
  store.awardedPts.sum fun _ points => points

/-- The points that have been paid for in a round. -/
def RoundStore.spent (store : RoundStore AccountId) : Nat :=
  (store.orders.map RewardOrder.points).sum

/-- No more points are paid for than have been awarded. -/
inductive Balanced (config : Config AccountId Native) (store : RoundStore AccountId) : Prop where
  | waiting (noOrders : store.orders = []) (noPayout : store.payout = none)
      (counted : store.unspent ≤ store.points)
  | running (payoutInfo : DelayedPayout) (isPayout : store.payout = some payoutInfo)
      (reward : payoutInfo.totalStakingReward = config.roundReward)
      (orders : ∀ order ∈ store.orders, Reckoned config store.points order)
      (counted : store.spent + store.unspent ≤ store.points)
  | finished (totalPoints : Nat) (noPayout : store.payout = none)
      (orders : ∀ order ∈ store.orders, Reckoned config totalPoints order)
      (counted : store.spent ≤ totalPoints)

section Stores

variable {store : RoundStore AccountId} {round : Nat}

/-- Paying for the points of a sequencer takes them out of the store. -/
theorem spent_taken (store : RoundStore AccountId) (round : Nat) (payoutInfo : DelayedPayout)
    (sequencer : AccountId) (snapshot : SequencerSnapshot AccountId) :
    (store.taken round payoutInfo sequencer snapshot).spent +
      (store.taken round payoutInfo sequencer snapshot).unspent = store.spent + store.unspent := by
  have ordered : ((store.order round payoutInfo sequencer snapshot).map RewardOrder.points).sum =
      store.awarded sequencer := by
    unfold RoundStore.order
    split
    next noPoints => simp [noPoints]
    next => simp
  have isWeight : store.awardedPts.weight (fun _ points => points) sequencer =
      store.awarded sequencer := by
    unfold StorageMap.weight RoundStore.awarded
    rw [Option.map_id']
  have removed := StorageMap.sum_remove store.awardedPts (fun _ points => points) sequencer
  simp only [RoundStore.spent, RoundStore.unspent, RoundStore.taken, List.map_append,
    List.sum_append]
  omega

/-- A block of a payout keeps the balance, if the snapshot that it pays for is fair. -/
theorem Balanced.paid (balanced : Balanced config store)
    (fairly : ∀ payoutInfo sequencer snapshot, store.payout = some payoutInfo →
      store.points ≠ 0 → config.keyOrder.first store.atStake.keys = some sequencer →
      store.atStake.get sequencer = some snapshot → store.awarded sequencer ≠ 0 → Fair snapshot) :
    Balanced config (store.paid config round) := by
  have unchanged : store.payout = none → store.paid config round = store := by
    intro noPayout
    unfold RoundStore.paid
    rw [noPayout]
  cases balanced with
  | waiting noOrders noPayout counted =>
      rw [unchanged noPayout]
      exact .waiting noOrders noPayout counted
  | finished totalPoints noPayout orders counted =>
      rw [unchanged noPayout]
      exact .finished totalPoints noPayout orders counted
  | running payoutInfo isPayout reward orders counted =>
      refine RoundStore.paid_kept (.running payoutInfo isPayout reward orders counted)
        (fun _ => .finished store.points rfl orders ((Nat.le_add_right _ _).trans counted)) ?_
      intro info sequencer snapshot isInfo counts isFirst stored
      obtain rfl : payoutInfo = info := Option.some.inj (isPayout.symm.trans isInfo)
      refine .running payoutInfo isPayout reward ?_
        ((spent_taken store round payoutInfo sequencer snapshot).le.trans counted)
      intro order member
      rcases List.mem_append.mp member with isOld | isLast
      · exact orders order isOld
      · obtain ⟨hasPoints, rfl⟩ := RoundStore.mem_order.mp isLast
        exact ⟨rfl, reward, hasPoints,
          fairly payoutInfo sequencer snapshot isInfo counts isFirst stored hasPoints⟩

omit [LinearOrder AccountId] in
/-- Reckoned orders for at most all points pay at most the reward, but for rounding. -/
theorem sum_payments_le {totalPoints : Nat} {orders : List (RewardOrder AccountId)}
    (reckoned : ∀ order ∈ orders, Reckoned config totalPoints order)
    (payments : ∀ order ∈ orders, order.payments = orderedPayments order.payoutInfo
      order.totalPoints order.points order.sequencer order.snapshot)
    (counted : (orders.map RewardOrder.points).sum ≤ totalPoints) :
    totalPoints * (orders.map fun order => Delegations.sumAmounts order.payments).sum ≤
      (orders.map RewardOrder.points).sum * config.roundReward +
        totalPoints * (orders.map fun order => order.payments.length).sum := by
  induction orders with
  | nil => simp
  | cons order rest ih =>
      simp only [List.map_cons, List.sum_cons] at counted ⊢
      have others := ih (fun other member => reckoned other (by simp [member]))
        (fun other member => payments other (by simp [member])) (by omega)
      obtain ⟨isTotal, reward, hasPoints, fair⟩ := reckoned order (by simp)
      have first : totalPoints * Delegations.sumAmounts order.payments ≤
          order.points * config.roundReward + totalPoints * order.payments.length := by
        rw [payments order (by simp), isTotal, ← reward]
        exact orderedPayments_le fair (by omega) (by omega)
      rw [Nat.mul_add, Nat.mul_add, Nat.add_mul]
      omega

omit [LinearOrder AccountId] in
/-- A balanced round pays at most its reward, but for rounding. -/
theorem Balanced.payments_le (balanced : Balanced config store) (proper : store.Proper) :
    (store.orders.map fun order => Delegations.sumAmounts order.payments).sum ≤
      config.roundReward + (store.orders.map fun order => order.payments.length).sum := by
  have bounded : ∀ totalPoints, (∀ order ∈ store.orders, Reckoned config totalPoints order) →
      store.spent ≤ totalPoints →
      (store.orders.map fun order => Delegations.sumAmounts order.payments).sum ≤
        config.roundReward + (store.orders.map fun order => order.payments.length).sum := by
    intro totalPoints reckoned counted
    rcases List.eq_nil_or_concat store.orders with isNil | ⟨_, last, isConcat⟩
    · simp [isNil]
    · have scaled := sum_payments_le reckoned proper.payments counted
      have reward := Nat.mul_le_mul_right config.roundReward counted
      have positive : 0 < totalPoints := by
        have member : last ∈ store.orders := by simp [isConcat]
        have hasPoints := (reckoned last member).points
        have isIn : last.points ∈ store.orders.map RewardOrder.points := List.mem_map_of_mem member
        have atMost := List.single_le_sum (fun _ _ => Nat.zero_le _) last.points isIn
        have counted' : (store.orders.map RewardOrder.points).sum ≤ totalPoints := counted
        omega
      refine Nat.le_of_mul_le_mul_left ?_ positive
      rw [Nat.mul_add]
      exact scaled.trans (Nat.add_le_add_right reward _)
  cases balanced with
  | waiting noOrders => simp [noOrders]
  | running payoutInfo _ _ orders counted =>
      exact bounded store.points orders ((Nat.le_add_right _ _).trans counted)
  | finished totalPoints _ orders counted => exact bounded totalPoints orders counted

end Stores

/-! ## Snapshots that add up -/

/-- The total of every stored snapshot is that of its bond and its delegations. -/
def RoundStore.AddsUp (store : RoundStore AccountId) : Prop :=
  ∀ account snapshot, store.atStake.get account = some snapshot →
    snapshot.total = snapshot.bond + Delegations.sumAmounts snapshot.delegations

theorem RoundStore.AddsUp.paid {store : RoundStore AccountId} {round : Nat}
    (addsUp : store.AddsUp) :
    (store.paid config round).AddsUp := by
  refine paid_kept addsUp (fun _ => addsUp) ?_
  intro _ sequencer _ _ _ _ _ account snapshot stored
  dsimp only [RoundStore.taken] at stored
  rw [StorageMap.get_remove] at stored
  split at stored
  next => cases stored
  next => exact addsUp account snapshot stored

theorem Opens.addsUp {n : Nat} (opens : Opens config n before after)
    (addsUp : ∀ round, (before.rounds.store round).AddsUp) (round : Nat) :
    (after.rounds.store round).AddsUp := by
  rw [opens.store round]
  refine Rounds.opened_kept (addsUp round) (fun _ => ?_) fun _ => (addsUp round).paid
  unfold RoundStore.ended
  split
  next => exact addsUp round
  next => exact addsUp round

/-- Where everything agrees, a selection keeps that snapshots add up. -/
theorem Selection.addsUp {next : Nat} {rounds : Rounds AccountId}
    (selection : Selection config next before rounds)
    (addsUp : ∀ round, (before.rounds.store round).AddsUp) (sound : Sound config before.stakes)
    (agrees : Agrees config before.stakes) (round : Nat) : (rounds.store round).AddsUp := by
  intro account snapshot stored
  cases selection with
  | repeats =>
      dsimp only [Rounds.store] at stored
      rw [Function.update_apply] at stored
      split at stored
      next =>
        rw [StorageMap.get_overlay, Option.or_eq_some_iff] at stored
        rcases stored with isOld | ⟨_, isNew⟩
        · exact addsUp _ account snapshot isOld
        · exact addsUp _ account snapshot isNew
      next => exact addsUp round account snapshot stored
  | selects sequencers snapshots _ _ _ _ taken =>
      dsimp only [Rounds.store] at stored
      rw [Function.update_apply] at stored
      split at stored
      next =>
        by_cases selected : account ∈ sequencers
        · obtain ⟨info, top, isInfo, isTop, isSnapshot⟩ := taken.1 account selected
          rw [isSnapshot, Option.some.injEq] at stored
          rw [← stored]
          exact (agrees.exact sound isInfo isTop).total
        · rw [taken.2 account selected] at stored
          exact addsUp next account snapshot stored
      next => exact addsUp round account snapshot stored

/-- Where everything agrees, every snapshot adds up. -/
def SumsUp (config : Config AccountId Native) (state : State AccountId Native) : Prop :=
  Sound config state.stakes → Agrees config state.stakes →
    ∀ round, (state.rounds.store round).AddsUp

theorem Started.sumsUp {stakes : Stakes AccountId Native} {start : State AccountId Native}
    (started : Started config spec stakes start) : SumsUp config start := by
  intro sound agrees
  obtain ⟨rounds, selection, rfl⟩ := started
  have selected := selection.addsUp (fun round account snapshot stored => by cases stored)
    sound agrees
  exact selected

/-- Snapshots add up in every run whose candidates leave cleanly. -/
theorem Reached.addsUp {admits : State AccountId Native → Action AccountId Native → Prop}
    (reached : Reached config spec admits state)
    (clean : ∀ state action, admits state action → LeavesCleanly state action) (round : Nat) :
    (state.rounds.store round).AddsUp := by
  have holds : SumsUp config state := by
    refine reached.chain (fun state action _ => allows_any state action)
      (fun _ _ started => started.sumsUp) ?_
    intro before action after reachedBefore sumsUp _ transition _ _
    have sound := reachedBefore.sound
    have agrees := reachedBefore.agrees clean
    have addsUp := sumsUp sound agrees
    cases transition with
    | update update => cases update <;> exact addsUp
    | awards => exact addsUp
    | block parentHash block =>
        have entered : ∀ round, ((enterBlock before parentHash).rounds.store round).AddsUp := addsUp
        cases block with
        | plain opens noSnapshot => exact opens.addsUp entered
        | @snapshots middle rounds opens snapshot selection =>
            have opened := opens.addsUp entered
            obtain ⟨native, openedRounds, isMiddle⟩ := opens.frame
            have soundMiddle : Sound config middle.stakes := opens.sound sound
            have agreesMiddle : Agrees config middle.stakes := by
              rw [isMiddle]
              exact ⟨agrees.records, agrees.lists⟩
            have selected := selection.addsUp opened soundMiddle agreesMiddle
            exact selected
  exact holds reached.sound (reached.agrees clean) round

/-! ## Runs -/

/-- The next block pays for a snapshot. -/
def PaysNext (config : Config AccountId Native) (state : State AccountId Native)
    (snapshot : SequencerSnapshot AccountId) : Prop :=
  state.rounds.round.shouldUpdate (state.blockNumber + 1) = false ∧
    ∃ round payoutInfo sequencer, PayoutDue config state.rounds round payoutInfo ∧
    state.rounds.points round ≠ 0 ∧
    config.keyOrder.first (state.rounds.atStake round).keys = some sequencer ∧
    (state.rounds.atStake round).get sequencer = some snapshot ∧
    state.rounds.awarded round sequencer ≠ 0

/-- The snapshot that a block pays for is fair. -/
def PaysFairly (config : Config AccountId Native) (state : State AccountId Native) :
    Action AccountId Native → Prop
  | .nextBlock _ => ∀ snapshot, PaysNext config state snapshot → Fair snapshot
  | _ => True

/-- An award does not saturate the counter of all points of the round. -/
def Unsaturated (state : State AccountId Native) : Action AccountId Native → Prop
  | .awardPoints _ points => state.rounds.points state.rounds.round.current + points ≤ u32Max
  | _ => True

instance (state : State AccountId Native) (action : Action AccountId Native) :
    Decidable (Unsaturated state action) :=
  match action with
  | .awardPoints _ points =>
      inferInstanceAs
        (Decidable (state.rounds.points state.rounds.round.current + points ≤ u32Max))
  | .extrinsic _ _ | .moveBtc _ _ _ | .changeNative _ | .nextBlock _ =>
      inferInstanceAs (Decidable True)

/-- What is asked of the actions of a run. -/
structure Orderly (config : Config AccountId Native) (state : State AccountId Native)
    (action : Action AccountId Native) : Prop where
  fairly : PaysFairly config state action
  unsaturated : Unsaturated state action

/-- No more points are stored for a round than have been awarded until it is over, and
then it is balanced. -/
structure Accounted (config : Config AccountId Native) (rounds : Rounds AccountId)
    (round : Nat) : Prop where
  counted : rounds.round.current ≤ round →
    (rounds.store round).unspent ≤ (rounds.store round).points
  balanced : round < rounds.round.current → Balanced config (rounds.store round)

theorem Started.accounted {stakes : Stakes AccountId Native} {start : State AccountId Native}
    (started : Started config spec stakes start) (round : Nat) :
    Accounted config start.rounds round := by
  have filed := started.filed round
  obtain ⟨rounds, selection, rfl⟩ := started
  obtain ⟨snapshots, selectedCandidates, rfl⟩ := selection.frame
  have noPoints : (StorageMap.empty : StorageMap AccountId Nat).sum (fun _ points => points) ≤ 0 :=
    (StorageMap.sum_empty _).le
  refine ⟨fun _ => noPoints, fun past => ?_⟩
  exact .waiting rfl rfl noPoints

theorem RoundStore.unspent_award {store : RoundStore AccountId} {sequencer : AccountId}
    {points : Nat} (counted : store.unspent ≤ store.points)
    (unsaturated : store.points + points ≤ u32Max) :
    (store.award sequencer points).unspent ≤ (store.award sequencer points).points := by
  have isWeight : store.awardedPts.weight (fun _ points => points) sequencer =
      store.awarded sequencer := by
    unfold StorageMap.weight RoundStore.awarded
    rw [Option.map_id']
  have single := store.awardedPts.weight_le_sum (fun _ points => points) sequencer
  have total := store.awardedPts.sum_insert (fun _ points => points) sequencer
    (min u32Max (store.awarded sequencer + points))
  unfold RoundStore.unspent at counted ⊢
  dsimp only [RoundStore.award]
  omega

/-- An orderly step keeps rounds accounted. -/
theorem Accounted.advance {round : Nat} {action : Action AccountId Native}
    (accounted : Accounted config before.rounds round) (filed : Filed before.rounds round)
    (fairly : PaysFairly config before action) (unsaturated : Unsaturated before action)
    (advance : Advance config before action after round) : Accounted config after.rounds round := by
  cases advance with
  | keeps clock store =>
      refine ⟨?_, ?_⟩
      · rw [clock.current, store]
        exact accounted.counted
      · rw [clock.current, store]
        exact accounted.balanced
  | awards sequencer points isAward clock isCurrent store =>
      subst isAward isCurrent
      refine ⟨fun _ => ?_, fun past => ?_⟩
      · rw [store]
        exact RoundStore.unspent_award (accounted.counted (le_refl _)) unsaturated
      · rw [clock.current] at past
        exact absurd past (lt_irrefl _)
  | opens parentHash isBlock clock store settled =>
      subst isBlock
      have isCurrent := before.openedRound_current
      rw [← clock.isRound] at isCurrent
      refine ⟨fun late => ?_, fun past => ?_⟩
      · have unchanged : before.rounds.opened config (before.blockNumber + 1) round =
            before.rounds.store round := by
          refine filed.opened_of_late _ (by omega) fun isOld => ?_
          rw [Bool.eq_false_iff]
          intro due
          rw [if_pos due] at isCurrent
          omega
        rw [store, unchanged]
        exact accounted.counted (by omega)
      · have late : round ≤ before.rounds.round.current := by
          split at isCurrent <;> omega
        rw [settled (.inl late), Rounds.opened]
        split
        next due =>
          split
          next isEnd =>
            have counted := accounted.counted isEnd.ge
            obtain ⟨noPayout, noOrders⟩ := filed.unpaid isEnd.ge
            unfold RoundStore.ended
            split
            next => exact .waiting noOrders noPayout counted
            next =>
              refine .running _ rfl rfl ?_ ?_
              · simp [noOrders]
              · have noneSpent : (before.rounds.store round).spent = 0 := by
                  simp [RoundStore.spent, noOrders]
                change (before.rounds.store round).spent + (before.rounds.store round).unspent ≤ _
                rw [noneSpent, Nat.zero_add]
                exact counted
          next isOld => exact accounted.balanced (by omega)
        next waits =>
          rw [if_neg waits] at isCurrent
          have balanced := accounted.balanced (by omega)
          split
          next isDue =>
            refine balanced.paid ?_
            intro payoutInfo sequencer snapshot isPayout counts isFirst stored hasPoints
            exact fairly snapshot ⟨Bool.eq_false_iff.mpr waits, round, payoutInfo, sequencer,
              ⟨isDue, isPayout⟩, counts, isFirst, stored, hasPoints⟩
          next => exact balanced

/-- Rounds are accounted in every state an orderly run reaches. -/
theorem Reached.accounted (reached : Reached config spec (Orderly config) state) (round : Nat) :
    Accounted config state.rounds round := by
  refine reached.chain (fun state action _ => allows_any state action)
    (fun _ _ started => started.accounted round) ?_
  intro before action after reachedBefore accounted orderly transition
  exact accounted.advance (reachedBefore.filed round) orderly.fairly orderly.unsaturated
    (transition.advance reachedBefore.onTime_any round)

/-! ## The reward of a round -/

/-- What has been ordered to be paid for a round. -/
def Rounds.paidFor (rounds : Rounds AccountId) (round : Nat) : Nat :=
  ((rounds.orders.filter fun order => order.round = round).map fun order =>
    Delegations.sumAmounts order.payments).sum

/-- How many payments have been ordered for a round. -/
def Rounds.payees (rounds : Rounds AccountId) (round : Nat) : Nat :=
  ((rounds.orders.filter fun order => order.round = round).map fun order =>
    order.payments.length).sum

/-- The payout of a round waits, or has been continued. -/
def Rounds.HasPayout (rounds : Rounds AccountId) (round : Nat) (payoutInfo : DelayedPayout) :
    Prop :=
  rounds.delayedPayouts.get round = some payoutInfo ∨
    ∃ order ∈ rounds.orders, order.round = round ∧ order.payoutInfo = payoutInfo

omit [LinearOrder AccountId] in
theorem Balanced.reward {rounds : Rounds AccountId} {round : Nat} {payoutInfo : DelayedPayout}
    (balanced : Balanced config (rounds.store round)) (payout : rounds.HasPayout round payoutInfo) :
    payoutInfo.totalStakingReward = config.roundReward := by
  have ordered : ∀ totalPoints,
      (∀ order ∈ (rounds.store round).orders, Reckoned config totalPoints order) →
      (∃ order ∈ rounds.orders, order.round = round ∧ order.payoutInfo = payoutInfo) →
      payoutInfo.totalStakingReward = config.roundReward := by
    rintro totalPoints reckoned ⟨order, member, isRound, rfl⟩
    exact (reckoned order (List.mem_filter.mpr ⟨member, decide_eq_true isRound⟩)).reward
  cases balanced with
  | waiting noOrders noPayout =>
      rcases payout with stored | isOrdered
      · rw [show rounds.delayedPayouts.get round = none from noPayout] at stored
        cases stored
      · refine ordered 0 ?_ isOrdered
        simp [noOrders]
  | running info isPayout reward orders =>
      rcases payout with stored | isOrdered
      · rw [show rounds.delayedPayouts.get round = some info from isPayout,
          Option.some.injEq] at stored
        rw [← stored]
        exact reward
      · exact ordered _ orders isOrdered
  | finished totalPoints noPayout orders =>
      rcases payout with stored | isOrdered
      · rw [show rounds.delayedPayouts.get round = none from noPayout] at stored
        cases stored
      · exact ordered totalPoints orders isOrdered

/-- In a run whose blocks only pay for fair snapshots, what a round pays exceeds its reward
by rounding only; where candidates leave cleanly, all snapshots add up, and so those are
fair that have no delegations or count some stake. -/
theorem rewards_bounded (config : Config AccountId Native) (spec : ChainSpec AccountId Native) :
    (∀ state, Reached config spec (Orderly config) state → ∀ round payoutInfo,
      state.rounds.HasPayout round payoutInfo →
      state.rounds.paidFor round ≤ payoutInfo.totalStakingReward + state.rounds.payees round) ∧
    ∀ state, Reached config spec LeavesCleanly state → ∀ round,
      (state.rounds.store round).AddsUp := by
  constructor
  · intro state reached round payoutInfo payout
    have accounted := reached.accounted round
    have filed := reached.filed round
    rcases Nat.lt_or_ge round state.rounds.round.current with past | late
    · have balanced := accounted.balanced past
      rw [balanced.reward payout]
      exact balanced.payments_le filed.proper
    · have noOrders : state.rounds.orders.filter (fun order => order.round = round) = [] :=
        (filed.unpaid late).2
      simp [Rounds.paidFor, noOrders]
  · intro state reached round
    exact reached.addsUp (fun _ _ => id) round

/-- Whether an award does not saturate, and a block only pays for fair snapshots. -/
def countsNext (state : State Nat (Nat → Nat)) : Action Nat (Nat → Nat) → Bool
  | .nextBlock _ =>
      let atStake := state.rounds.atStake (state.rounds.round.current - 2)
      ((increasingKeys.first atStake.keys).bind atStake.get).all fun snapshot =>
        0 < snapshot.total &&
          snapshot.bond + Delegations.sumAmounts snapshot.delegations ≤ snapshot.total
  | .awardPoints sequencer points => Unsaturated state (.awardPoints sequencer points)
  | _ => false

theorem orderly_of_countsNext (state : State Nat (Nat → Nat)) (action : Action Nat (Nat → Nat))
    (counts : countsNext state action = true) : Orderly mockRuntime state action := by
  cases action with
  | nextBlock parentHash =>
      refine ⟨?_, trivial⟩
      rintro snapshot ⟨_, round, payoutInfo, sequencer, ⟨isDue, _⟩, _, isFirst, stored, _⟩
      have isRound : state.rounds.round.current - 2 = round := by
        have isCurrent : round + 2 = state.rounds.round.current := isDue
        omega
      have first : increasingKeys.first (state.rounds.atStake round).keys = some sequencer :=
        isFirst
      rw [countsNext, isRound] at counts
      simp only [first, Option.bind_some, stored, Option.all_some, Bool.and_eq_true,
        decide_eq_true_eq] at counts
      exact .inr counts
  | awardPoints sequencer points => exact ⟨trivial, of_decide_eq_true counts⟩
  | extrinsic | moveBtc | changeNative => cases counts

/-- The blocks until points are awarded in the second round, and until they are paid. -/
def paidRun : List (Action Nat (Nat → Nat)) :=
  List.replicate 5 (.nextBlock 0) ++ [.awardPoints 1 20] ++ List.replicate 11 (.nextBlock 0)

theorem rewards_bounded_single :
    ∃ state payoutInfo,
      Reached mockRuntime (mockGenesis [1] [(3, 1, 10)]) (Orderly mockRuntime) state ∧
      state.rounds.HasPayout 2 payoutInfo ∧ 0 < state.rounds.paidFor 2 ∧
      state.rounds.paidFor 2 ≤ payoutInfo.totalStakingReward + state.rounds.payees 2 := by
  obtain ⟨state, isTaken, shown⟩ := Option.map_eq_some_iff.mp
    (show ((genesis mockRuntime (mockGenesis [1] [(3, 1, 10)])).bind fun start =>
        checkedRun (step mockRuntime) countsNext start paidRun).map
      (fun state => ((state.rounds.delayedPayouts.get 2).isSome, state.rounds.paidFor 2)) =
      some (true, 800000000000) by decide +kernel)
  obtain ⟨isSome, paid⟩ := Prod.mk.inj shown
  obtain ⟨payoutInfo, stored⟩ := Option.isSome_iff_exists.mp isSome
  have reached : Reached mockRuntime (mockGenesis [1] [(3, 1, 10)]) (Orderly mockRuntime) state :=
    Reached.of_checked orderly_of_countsNext isTaken
  have bounded := (rewards_bounded mockRuntime (mockGenesis [1] [(3, 1, 10)])).1
  exact ⟨state, payoutInfo, reached, .inl stored, by omega,
    bounded state reached 2 payoutInfo (.inl stored)⟩

/-- The only delegator of a candidate without a bond of its own revokes, and is paid. -/
def overpaidRun : List (Action Nat (Nat → Nat)) :=
  [.nextBlock 0, .extrinsic (.signed 3) (.scheduleRevokeDelegation 1)] ++
    List.replicate 4 (.nextBlock 0) ++ [.awardPoints 1 20] ++ List.replicate 11 (.nextBlock 0)

/-- A round can pay more than its reward. -/
theorem rewards_not_bounded :
    ¬∀ state round payoutInfo,
      Reached mockRuntime (mockGenesis [1] [(3, 1, 10)]) Unsaturated state →
      state.rounds.HasPayout round payoutInfo →
      state.rounds.paidFor round ≤ payoutInfo.totalStakingReward + state.rounds.payees round := by
  intro bounded
  obtain ⟨state, isTaken, shown⟩ := Option.map_eq_some_iff.mp
    (show ((genesis mockRuntime (mockGenesis [1] [(3, 1, 10)])).bind fun start =>
        checkedRun (step mockRuntime) (fun state action => Unsaturated state action) start
          overpaidRun).map
      (fun state => ((state.rounds.delayedPayouts.get 2).map DelayedPayout.totalStakingReward,
        state.rounds.paidFor 2, state.rounds.payees 2)) =
      some (some 1000000000000, 1400000000000, 2) by decide +kernel)
  simp only [Prod.mk.injEq, Option.map_eq_some_iff] at shown
  obtain ⟨⟨payoutInfo, stored, reward⟩, paid, payees⟩ := shown
  have reached : Reached mockRuntime (mockGenesis [1] [(3, 1, 10)]) Unsaturated state :=
    Reached.of_checked (fun _ _ => of_decide_eq_true) isTaken
  have atMost := bounded state 2 payoutInfo reached (.inl stored)
  omega

end Popsicle
