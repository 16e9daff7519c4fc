import Popsicle.Agreement

/-!
# Leaving the set of candidates

A candidate that leaves returns the stake of every delegation in its lists.  A
delegator whose remaining total is zero is removed; the exit is clean if that
never drops a delegation towards another candidate.
-/

namespace Popsicle

open Foundation Exec Keyed

variable {AccountId Native : Type} [LinearOrder AccountId] {config : Config AccountId Native}

/-- A delegator with nothing staked but its delegation to the candidate has no
other delegation. -/
def CleanExit (delegatorState : StorageMap AccountId (Delegator AccountId))
    (candidate : AccountId) : Prop :=
  ∀ delegator state amount, delegatorState.get delegator = some state →
    state.getBondAmount candidate = some amount → state.total = amount →
      state.delegations.entries.length = 1

/-- Storage after the stakes of a list of delegations have been returned. -/
inductive Returns (config : Config AccountId Native) (candidate : AccountId) :
    List (Bond AccountId) → Stakes AccountId Native → Stakes AccountId Native → Prop where
  | done (stakes : Stakes AccountId Native) : Returns config candidate [] stakes stakes
  | skip {bond : Bond AccountId} {rest : List (Bond AccountId)}
      {stakes after : Stakes AccountId Native} {state : Delegator AccountId}
      (stored : stakes.delegatorState.get bond.owner = some state)
      (absent : state.getBondAmount candidate = none)
      (others : Returns config candidate rest stakes after) :
      Returns config candidate (bond :: rest) stakes after
  | give {bond : Bond AccountId} {rest : List (Bond AccountId)}
      {stakes after : Stakes AccountId Native} {state : Delegator AccountId} {amount : Nat}
      (stored : stakes.delegatorState.get bond.owner = some state)
      (recorded : state.getBondAmount candidate = some amount)
      (refundable : Refundable config stakes.btc.balance bond.owner amount)
      (others : Returns config candidate rest
        (dropped config candidate bond.owner state (state.total - amount = 0) stakes) after) :
      Returns config candidate (bond :: rest) stakes after

section Dropped

variable {stakes : Stakes AccountId Native} {candidate delegator account : AccountId}
  {state : Delegator AccountId}

theorem dropped_consistent
    (consistent : ∀ account state, stakes.delegatorState.get account = some state →
      Delegator.Consistent account state)
    (stored : stakes.delegatorState.get delegator = some state) (leaving : Bool) :
    ∀ account state', (dropped config candidate delegator state leaving
        stakes).delegatorState.get account = some state' →
      Delegator.Consistent account state' := by
  refine StorageMap.forall_put (fun account state _ => consistent account state) ?_
  intro state' isEntry
  split at isEntry
  next => cases isEntry
  next =>
    cases isEntry
    exact ((consistent delegator state stored).without candidate).forget _

theorem dropped_absent (stored : stakes.delegatorState.get delegator = some state)
    (leaving : Bool) (isNone : stakes.delegatorState.get account = none) :
    (dropped config candidate delegator state leaving stakes).delegatorState.get account =
      none := by
  have different : account ≠ delegator := by
    rintro rfl
    rw [stored] at isNone
    cases isNone
  rw [← isNone]
  exact StorageMap.get_put_of_ne _ _ different

end Dropped

namespace Returns

variable {candidate : AccountId} {bonds : List (Bond AccountId)}
  {before after : Stakes AccountId Native}

theorem append {others : List (Bond AccountId)} {middle : Stakes AccountId Native}
    (first : Returns config candidate bonds before middle)
    (second : Returns config candidate others middle after) :
    Returns config candidate (bonds ++ others) before after := by
  induction first with
  | done => exact second
  | skip stored absent _ ih => exact .skip stored absent (ih second)
  | give stored recorded refundable _ ih => exact .give stored recorded refundable (ih second)

/-- Nothing but the records, the requests and the BTC changes. -/
theorem frame (returns : Returns config candidate bonds before after) :
    after = { before with
      delegatorState := after.delegatorState
      delegationScheduledRequests := after.delegationScheduledRequests
      btc := after.btc } := by
  induction returns with
  | done => rfl
  | skip _ _ _ ih => exact ih
  | give _ _ _ _ ih => exact ih

theorem with_lists (returns : Returns config candidate bonds before after)
    (topDelegations bottomDelegations : StorageMap AccountId (Delegations AccountId)) :
    Returns config candidate bonds { before with topDelegations, bottomDelegations }
      { after with topDelegations, bottomDelegations } := by
  induction returns with
  | done => exact .done _
  | skip stored absent _ ih => exact .skip stored absent ih
  | give stored recorded refundable _ ih => exact .give stored recorded refundable ih

theorem records (returns : Returns config candidate bonds before after)
    (consistent : ∀ account state, before.delegatorState.get account = some state →
      Delegator.Consistent account state) :
    (∀ account state, after.delegatorState.get account = some state →
      Delegator.Consistent account state) ∧
    ∀ account, before.delegatorState.get account = none →
      after.delegatorState.get account = none := by
  induction returns with
  | done => exact ⟨consistent, fun _ => id⟩
  | skip _ _ _ ih => exact ih consistent
  | give stored _ _ _ ih =>
      obtain ⟨records, absent⟩ := ih (dropped_consistent consistent stored _)
      exact ⟨records, fun account isNone => absent account (dropped_absent stored _ isNone)⟩

theorem covered (returns : Returns config candidate bonds before after)
    (consistent : ∀ account state, before.delegatorState.get account = some state →
      Delegator.Consistent account state)
    (covered : Covered config before) : Covered config after := by
  induction returns with
  | done => exact covered
  | skip _ _ _ ih => exact ih consistent covered
  | give stored _ _ _ ih =>
      exact ih (dropped_consistent consistent stored _)
        (covered.drop (consistent _ _ stored) stored _)

theorem burnt (returns : Returns config candidate bonds before after)
    (exact : config.asset.Exact) : after.btc.burnt = before.btc.burnt := by
  induction returns with
  | done => rfl
  | skip _ _ _ ih => exact ih
  | give _ _ _ _ ih => exact ih.trans (burnt_dropped exact _)

theorem funded (returns : Returns config candidate bonds before after)
    (consistent : ∀ account state, before.delegatorState.get account = some state →
      Delegator.Consistent account state)
    (funded : Funded config before) : Funded config after where
  plain := funded.plain
  covered := returns.covered consistent funded.covered
  unburnt := (returns.burnt funded.plain.exact).trans funded.unburnt

end Returns

/-! ## Returning what is booked -/

/-- The delegations of a list are booked, and the exit is clean. -/
structure Returnable (config : Config AccountId Native) (candidate : AccountId)
    (bonds : List (Bond AccountId)) (stakes : Stakes AccountId Native) : Prop where
  records : RecordsHold config stakes.delegatorState stakes.delegationScheduledRequests
  clean : CleanExit stakes.delegatorState candidate
  distinct : Distinct Bond.owner bonds
  amounts : ∀ bond ∈ bonds,
    booked stakes.delegatorState bond.owner candidate = some bond.amount

section Return

variable {info : CandidateMetadata} {top bottom : Delegations AccountId} {candidate : AccountId}
  {bonds : List (Bond AccountId)} {bond : Bond AccountId}
  {stakes after : Stakes AccountId Native} {state : Delegator AccountId} {amount : Nat}

/-- In a clean exit a delegator is removed with its only delegation. -/
theorem CleanExit.alone (clean : CleanExit stakes.delegatorState candidate)
    {delegator : AccountId} (consistent : Delegator.Consistent delegator state)
    (stored : stakes.delegatorState.get delegator = some state)
    (recorded : state.getBondAmount candidate = some amount) :
    decide (state.total - amount = 0) = true ↔ state.delegations.entries.length = 1 := by
  have held := consistent.le_total recorded
  rw [decide_eq_true_iff]
  constructor
  · intro isZero
    exact clean delegator state amount stored recorded (by omega)
  · intro single
    have isTotal := consistent.total_of_single single recorded
    omega

theorem RecordsHold.cleanExit {delegatorState : StorageMap AccountId (Delegator AccountId)}
    {scheduled : StorageMap AccountId (List (ScheduledRequest AccountId))}
    (holds : RecordsHold config delegatorState scheduled) (positive : 1 ≤ config.minDelegation)
    (candidate : AccountId) : CleanExit delegatorState candidate := by
  intro delegator state amount stored recorded isTotal
  have kept := holds.kept delegator state stored
  have split := kept.toConsistent.total_eq recorded
  have length := kept.sorted.distinct.length_erase
    (Delegator.getBondAmount_eq_some.mp recorded)
  cases rest : erase Bond.owner state.delegations.entries candidate with
  | nil =>
      rw [rest, List.length_nil] at length
      exact length.symm
  | cons bond others =>
      have member : bond ∈ erase Bond.owner state.delegations.entries candidate := by
        simp [rest]
      have least := kept.atLeast bond (mem_erase.mp member).1
      rw [rest, Delegations.sumAmounts_cons] at split
      omega

theorem booked_dropped (stored : stakes.delegatorState.get bond.owner = some state)
    {leaving : Bool} (alone : leaving = true → state.delegations.entries.length = 1)
    (consistent : Delegator.Consistent bond.owner state)
    (recorded : state.getBondAmount candidate = some amount) (account other : AccountId) :
    booked (dropped config candidate bond.owner state leaving stakes).delegatorState account
        other =
      if account = bond.owner ∧ other = candidate then none
      else booked stakes.delegatorState account other := by
  simp only [dropped, booked_put]
  by_cases equal : account = bond.owner
  · subst equal
    rw [booked_of_stored stored, if_pos rfl]
    split
    next leaves =>
      have length := consistent.sorted.distinct.length_erase
        (Delegator.getBondAmount_eq_some.mp recorded)
      have isNil : erase Bond.owner state.delegations.entries candidate = [] := by
        rw [← List.length_eq_zero_iff]
        have single := alone leaves
        omega
      have gone := state.getBondAmount_without candidate other
      simp only [Delegator.getBondAmount, Delegator.without, isNil, lookup_nil,
        Option.map_none] at gone
      simpa [Delegator.getBondAmount] using gone
    next =>
      have rest := state.getBondAmount_without candidate other
      simp only [true_and]
      exact rest
  · simp [equal]

/-- The table of a candidate that leaves is what can be returned. -/
theorem Agrees.returnable (agrees : Agrees config stakes)
    (clean : CleanExit stakes.delegatorState candidate)
    (stored : stakes.candidateInfo.get candidate = some info)
    (storedTop : stakes.topDelegations.get candidate = some top)
    (storedBottom : stakes.bottomDelegations.get candidate = some bottom) :
    Returnable config candidate (table top bottom) stakes where
  records := agrees.records
  clean := clean
  distinct := (agrees.listed stored storedTop storedBottom).1.distinct
  amounts _ member := agrees.booked_of_mem stored storedTop storedBottom member

/-- After one delegation has been returned, the others still can be. -/
theorem Returnable.next (returnable : Returnable config candidate (bond :: bonds) stakes)
    (stored : stakes.delegatorState.get bond.owner = some state)
    (recorded : state.getBondAmount candidate = some amount) :
    Returnable config candidate bonds
      (dropped config candidate bond.owner state (state.total - amount = 0) stakes) := by
  have consistent := (returnable.records.kept bond.owner state stored).toConsistent
  have alone := returnable.clean.alone consistent stored recorded
  obtain ⟨fresh, restDistinct⟩ := List.nodup_cons.mp returnable.distinct
  refine ⟨returnable.records.dropped stored recorded alone, ?_, restDistinct, ?_⟩
  · intro delegator state' amount' stored' recorded' isTotal
    by_cases equal : delegator = bond.owner
    · subst equal
      have still : booked _ bond.owner candidate = some amount' :=
        (booked_of_stored stored' candidate).trans recorded'
      rw [booked_dropped stored alone.mp consistent recorded, if_pos ⟨rfl, rfl⟩] at still
      cases still
    · have same : stakes.delegatorState.get delegator = some state' := by
        rw [← stored']
        exact (StorageMap.get_put_of_ne _ _ equal).symm
      exact returnable.clean delegator state' amount' same recorded' isTotal
  · intro other member
    rw [booked_dropped stored alone.mp consistent recorded, if_neg]
    · exact returnable.amounts other (List.mem_cons_of_mem _ member)
    · rintro ⟨same, _⟩
      exact fresh (List.mem_map.mpr ⟨other, member, same⟩)

/-- After some delegations have been returned, the rest still can be. -/
theorem Returnable.rest {others : List (Bond AccountId)}
    (returnable : Returnable config candidate (bonds ++ others) stakes)
    (returns : Returns config candidate bonds stakes after) :
    Returnable config candidate others after := by
  induction returns with
  | done => exact returnable
  | skip stored absent _ _ =>
      have isBooked := returnable.amounts _ List.mem_cons_self
      rw [booked_of_stored stored, absent] at isBooked
      cases isBooked
  | give stored recorded _ _ ih => exact ih (returnable.next stored recorded)

/-- Returning booked stakes takes exactly these delegations off the records. -/
theorem Returns.booked (returns : Returns config candidate bonds stakes after)
    (returnable : Returnable config candidate bonds stakes) :
    RecordsHold config after.delegatorState after.delegationScheduledRequests ∧
    staked after + Delegations.sumAmounts bonds = staked stakes ∧
    ∀ account other, booked after.delegatorState account other =
      if other = candidate ∧ account ∈ bonds.map Bond.owner then none
      else booked stakes.delegatorState account other := by
  induction returns with
  | done => exact ⟨returnable.records, rfl, by simp⟩
  | skip stored absent _ _ =>
      have isBooked := returnable.amounts _ List.mem_cons_self
      rw [booked_of_stored stored, absent] at isBooked
      cases isBooked
  | @give bond rest stakes after state amount stored recorded refundable _ ih =>
      have consistent := (returnable.records.kept bond.owner state stored).toConsistent
      have alone := returnable.clean.alone consistent stored recorded
      have isBooked := returnable.amounts _ List.mem_cons_self
      rw [booked_of_stored stored, recorded] at isBooked
      have amountEq : amount = bond.amount := Option.some.inj isBooked
      obtain ⟨records, sum, amounts⟩ := ih (returnable.next stored recorded)
      refine ⟨records, ?_, ?_⟩
      · have change : staked (dropped config candidate bond.owner state
            (decide (state.total - amount = 0)) stakes) + state.total = _ :=
          staked_dropped stored _
        have held := consistent.le_total recorded
        rw [recorded, Option.getD_some] at change
        rw [Delegations.sumAmounts_cons]
        split at change
        next isZero =>
          rw [decide_eq_true_iff] at isZero
          omega
        next => omega
      · intro account other
        rw [amounts, booked_dropped stored alone.mp consistent recorded]
        by_cases sameCandidate : other = candidate
        · by_cases inRest : account ∈ rest.map Bond.owner
          · simp [sameCandidate, inRest]
          · by_cases isOwner : account = bond.owner <;> simp [sameCandidate, inRest, isOwner]
        · simp [sameCandidate]

/-- Returning one stake, in terms of the record of the delegator. -/
theorem ends_returnStake
    (consistent : ∀ state, stakes.delegatorState.get bond.owner = some state →
      Delegator.Consistent bond.owner state)
    {post : Unit → Stakes AccountId Native → Prop}
    {excuse : Fault → Stakes AccountId Native → Prop} :
    (returnStake config candidate bond).Ends stakes post excuse ↔
      (∀ state, stakes.delegatorState.get bond.owner = some state →
        (∀ amount, state.getBondAmount candidate = some amount →
          (Refundable config stakes.btc.balance bond.owner amount →
            post () (dropped config candidate bond.owner state (state.total - amount = 0)
              stakes)) ∧
          (¬Refundable config stakes.btc.balance bond.owner amount →
            excuse (.panic .decreasingLockCannotFail) stakes)) ∧
        (state.getBondAmount candidate = none → post () stakes)) ∧
      (stakes.delegatorState.get bond.owner = none →
        excuse (.panic .sequencerAndDelegatorStateConsistent) stakes) := by
  simp only [returnStake, ends_bind, ends_read, ends_require]
  refine and_congr_left fun _ => forall_congr' fun state => forall_congr' fun stored => ?_
  rw [ends_rmDelegation (consistent state stored)]
  refine and_congr (forall_congr' fun amount => forall_congr' fun recorded =>
    and_congr_left fun _ => imp_congr_right fun _ => ?_) Iff.rfl
  simp only [ends_bind, ends_delegationRemoveRequestWithState]
  have effect : ∀ leaving, dropped config candidate bond.owner state leaving stakes =
      { stakes with
        delegatorState := stakes.delegatorState.put bond.owner
          (if leaving then none else some ((state.without candidate).forget
            (pendingAmount (stakes.requests candidate) bond.owner)))
        delegationScheduledRequests := forgetRequest stakes candidate bond.owner
        btc := stakes.btc.pay config config.palletAccount bond.owner amount } := by
    intro leaving
    simp [dropped, Ledger.refund, recorded, Delegator.droppedRecord]
  rw [effect]
  split
  next isZero => simp [isZero, removeDelegator]; rfl
  next positive => simp [positive, storeDelegator]; rfl

/-- Returning booked stakes from a funded escrow cannot fail. -/
theorem ends_returnStakes
    (consistent : ∀ account state, stakes.delegatorState.get account = some state →
      Delegator.Consistent account state) :
    (returnStakes config candidate bonds).Ends stakes
      (fun _ after => Returns config candidate bonds stakes after)
      (fun _ _ => Returnable config candidate bonds stakes → Funded config stakes → False) := by
  induction bonds generalizing stakes with
  | nil => exact .done stakes
  | cons bond rest ih =>
      simp only [returnStakes, ends_bind, ends_returnStake (consistent bond.owner)]
      refine ⟨fun state stored => ⟨fun amount recorded => ⟨fun refundable => ?_, ?_⟩, ?_⟩, ?_⟩
      · refine (ih (dropped_consistent consistent stored _)).mono ?_ ?_
        · exact fun _ after others => .give stored recorded refundable others
        · intro _ _ fails returnable funded
          exact fails (returnable.next stored recorded)
            (funded.drop (consistent _ _ stored) stored _)
      · exact fun refused _ funded =>
          refused (funded.refundable (consistent _ _ stored) stored recorded)
      · intro absent
        refine (ih consistent).mono (fun _ after others => .skip stored absent others) ?_
        intro _ _ _ returnable _
        have isBooked := returnable.amounts _ List.mem_cons_self
        rw [booked_of_stored stored, absent] at isBooked
        cases isBooked
      · intro missing returnable _
        have isBooked := returnable.amounts _ List.mem_cons_self
        rw [booked_of_none missing] at isBooked
        cases isBooked

end Return

end Popsicle
