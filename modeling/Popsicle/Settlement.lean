import Popsicle.Consistency

/-!
# What an exit settles

A candidate that leaves pays every delegator back and takes the delegation off its record,
and touches nothing else.  A record is removed when nothing remains staked by it; that is
the same as having no other delegation exactly if the exit is clean.
-/

namespace Popsicle

open Foundation Exec Keyed

variable {AccountId Native : Type} [LinearOrder AccountId] {config : Config AccountId Native}

/-! ## Returning a list of stakes -/

/-- The transfer that pays a delegation back. -/
def refundOf (config : Config AccountId Native) (bond : Bond AccountId) : Transfer AccountId where
  source := config.palletAccount
  dest := bond.owner
  amount := bond.amount

/-- The record a delegator is left with when its delegation to a candidate is returned. -/
def settledRecord (candidate : AccountId) (before : Stakes AccountId Native)
    (bond : Bond AccountId) (state : Delegator AccountId) : Option (Delegator AccountId) :=
  if state.total - bond.amount = 0 then none
  else some (state.droppedRecord (before.requests candidate) candidate bond.owner)

/-- The delegations of a list are returned, and nothing else changes. -/
structure Returned (config : Config AccountId Native) (candidate : AccountId)
    (bonds : List (Bond AccountId)) (before after : Stakes AccountId Native) : Prop where
  transfers : after.btc.transfers = before.btc.transfers ++ bonds.map (refundOf config)
  balances : config.asset.Credits → ∀ account, account ≠ config.palletAccount →
    after.btc.balance account = before.btc.balance account +
      ((lookup Bond.owner bonds account).map Bond.amount).getD 0
  listed : ∀ bond ∈ bonds, ∀ state, before.delegatorState.get bond.owner = some state →
    after.delegatorState.get bond.owner = settledRecord candidate before bond state
  unlisted : ∀ account, lookup Bond.owner bonds account = none →
    after.delegatorState.get account = before.delegatorState.get account
  requests : ∀ other, other ≠ candidate →
    after.delegationScheduledRequests.get other = before.delegationScheduledRequests.get other

section Returned

variable {candidate : AccountId} {bond : Bond AccountId} {bonds : List (Bond AccountId)}
  {stakes before after : Stakes AccountId Native} {state : Delegator AccountId}

/-- Dropping a delegation forgets one request towards the candidate. -/
theorem requests_dropped
    (single : Distinct ScheduledRequest.delegator (stakes.requests candidate))
    (delegator : AccountId) (leaving : Bool) :
    (dropped config candidate delegator state leaving stakes).requests candidate =
      erase ScheduledRequest.delegator (stakes.requests candidate) delegator := by
  have forgotten := requestsOf_forgetRequest single delegator candidate
  rwa [if_pos rfl] at forgotten

theorem requests_dropped_of_ne (delegator : AccountId) (leaving : Bool) {other : AccountId}
    (different : other ≠ candidate) :
    (dropped config candidate delegator state leaving stakes).delegationScheduledRequests.get
      other = stakes.delegationScheduledRequests.get other := by
  simp only [dropped, forgetRequest]
  split
  · exact StorageMap.get_insert_of_ne _ _ different
  · rfl

/-- What other delegators keep does not depend on the request that is forgotten. -/
theorem settledRecord_dropped
    (single : Distinct ScheduledRequest.delegator (stakes.requests candidate))
    (delegator : AccountId) (leaving : Bool) (different : bond.owner ≠ delegator)
    (record : Delegator AccountId) :
    settledRecord candidate (dropped config candidate delegator state leaving stakes) bond
        record = settledRecord candidate stakes bond record := by
  have same : pendingAmount ((dropped config candidate delegator state leaving stakes).requests
      candidate) bond.owner = pendingAmount (stakes.requests candidate) bond.owner := by
    rw [requests_dropped single, pendingAmount_erase, if_neg different]
  simp only [settledRecord, Delegator.droppedRecord, same]

theorem Returned.cons (stored : stakes.delegatorState.get bond.owner = some state)
    (recorded : state.getBondAmount candidate = some bond.amount)
    (single : Distinct ScheduledRequest.delegator (stakes.requests candidate))
    (fresh : lookup Bond.owner bonds bond.owner = none)
    (rest : Returned config candidate bonds
      (dropped config candidate bond.owner state (state.total - bond.amount = 0) stakes) after) :
    Returned config candidate (bond :: bonds) stakes after where
  transfers := by
    rw [rest.transfers]
    simp [dropped, recorded, Ledger.refund, refundOf]
  balances credits account outside := by
    rw [rest.balances credits account outside, lookup_cons]
    by_cases isOwner : bond.owner = account
    · subst isOwner
      simp [dropped, recorded, Ledger.refund, Ledger.pay_dest credits outside.symm, fresh]
    · have isOther : account ≠ bond.owner := fun same => isOwner same.symm
      simp [dropped, recorded, Ledger.refund, Ledger.balance_pay_of_ne credits outside, isOther,
        isOwner]
  listed other member record isStored := by
    rcases List.mem_cons.mp member with rfl | inRest
    · rw [stored] at isStored
      cases isStored
      rw [rest.unlisted _ fresh]
      simp [dropped, settledRecord]
    · have different : other.owner ≠ bond.owner :=
        fun same => lookup_eq_none.mp fresh other inRest same
      have kept : (dropped config candidate bond.owner state
          (decide (state.total - bond.amount = 0)) stakes).delegatorState.get other.owner =
            some record := by
        rw [← isStored]
        exact StorageMap.get_put_of_ne _ _ different
      rw [rest.listed other inRest record kept, settledRecord_dropped single _ _ different]
  unlisted account absent := by
    rw [lookup_cons] at absent
    split at absent
    next => cases absent
    next isOther =>
      rw [rest.unlisted account absent]
      exact StorageMap.get_put_of_ne _ _ fun same => isOther same.symm
  requests other different := by
    rw [rest.requests other different, requests_dropped_of_ne _ _ different]

/-- Returning recorded stakes settles each of the delegators, and nothing else. -/
theorem returned_of_returns (returns : Returns config candidate bonds before after)
    (distinct : Distinct Bond.owner bonds)
    (recorded : ∀ bond ∈ bonds,
      booked before.delegatorState bond.owner candidate = some bond.amount)
    (single : Distinct ScheduledRequest.delegator (before.requests candidate)) :
    Returned config candidate bonds before after := by
  induction returns with
  | done =>
      constructor
      case transfers => exact (List.append_nil _).symm
      case listed => exact fun _ member => absurd member List.not_mem_nil
      case balances => exact fun _ _ _ => rfl
      all_goals exact fun _ _ => rfl
  | skip stored absent _ _ =>
      have isBooked := recorded _ List.mem_cons_self
      rw [booked_of_stored stored, absent] at isBooked
      cases isBooked
  | @give bond rest stakes after state amount stored isRecorded _ _ ih =>
      have isBooked := recorded _ List.mem_cons_self
      rw [booked_of_stored stored, isRecorded] at isBooked
      cases isBooked
      obtain ⟨fresh, restDistinct⟩ := List.nodup_cons.mp distinct
      have notListed : lookup Bond.owner rest bond.owner = none := by
        rw [lookup_eq_none]
        intro other member same
        exact fresh (List.mem_map.mpr ⟨other, member, same⟩)
      apply Returned.cons stored isRecorded single notListed
      apply ih restDistinct
      · intro other member
        have different : other.owner ≠ bond.owner :=
          fun same => lookup_eq_none.mp notListed other member same
        simp only [dropped, booked_put, if_neg different]
        exact recorded other (List.mem_cons_of_mem _ member)
      · rw [requests_dropped single]
        exact single.erase _

end Returned

/-! ## The exit -/

/-- An exit settles all delegators of the candidate and touches nothing else. -/
structure ExitSettled (config : Config AccountId Native) (candidate : AccountId)
    (before after : Stakes AccountId Native) : Prop where
  gone : after.candidateInfo.get candidate = none ∧ after.topDelegations.get candidate = none ∧
    after.bottomDelegations.get candidate = none ∧
    after.delegationScheduledRequests.get candidate = none
  paid : ∃ returned : List (Bond AccountId),
    after.btc.transfers = before.btc.transfers ++ returned.map (refundOf config) ∧
      (returned.map Bond.owner).Nodup ∧
      ∀ delegator amount, { owner := delegator, amount } ∈ returned ↔
        booked before.delegatorState delegator candidate = some amount
  received : ∀ account, account ≠ config.palletAccount →
    after.btc.balance account = before.btc.balance account +
      (booked before.delegatorState account candidate).getD 0
  removed : ∀ delegator state amount, before.delegatorState.get delegator = some state →
    state.getBondAmount candidate = some amount →
      (after.delegatorState.get delegator = none ↔ state.delegations.entries.length = 1)
  reduced : ∀ delegator state amount state', before.delegatorState.get delegator = some state →
    state.getBondAmount candidate = some amount →
      after.delegatorState.get delegator = some state' →
        state'.id = state.id ∧
          state'.delegations.entries =
            state.delegations.entries.filter (fun bond => bond.owner ≠ candidate) ∧
          state'.total + amount = state.total ∧
          state'.lessTotal + pendingAmount (before.requests candidate) delegator =
            state.lessTotal
  others : ∀ account, booked before.delegatorState account candidate = none →
    after.delegatorState.get account = before.delegatorState.get account
  apart : ∀ other, other ≠ candidate →
    after.candidateInfo.get other = before.candidateInfo.get other ∧
      after.topDelegations.get other = before.topDelegations.get other ∧
      after.bottomDelegations.get other = before.bottomDelegations.get other ∧
      after.delegationScheduledRequests.get other = before.delegationScheduledRequests.get other
  pool : after.candidatePool = before.candidatePool

section Exit

variable {round : RoundInfo} {candidate delegator : AccountId} {candidateDelegationCount : Nat}
  {before after : Stakes AccountId Native} {state : Delegator AccountId} {amount : Nat}

/-- What a delegator has pending towards one candidate is part of its pending total. -/
theorem RecordsHold.pendingAmount_le
    (holds : RecordsHold config before.delegatorState before.delegationScheduledRequests)
    (stored : before.delegatorState.get delegator = some state) (candidate : AccountId) :
    pendingAmount (before.requests candidate) delegator ≤ state.lessTotal := by
  rw [holds.lessTotal delegator state stored]
  refine le_of_eq_of_le ?_ (StorageMap.weight_le_sum before.delegationScheduledRequests
    (fun _ requests => pendingAmount requests delegator) candidate)
  exact (weight_pending before.delegationScheduledRequests candidate delegator).symm

/-- The record of every delegator of a candidate that has left. -/
theorem Exited.record (exited : Exited config round candidate candidateDelegationCount before
      after)
    (agrees : Agrees config before) (stored : before.delegatorState.get delegator = some state)
    (recorded : state.getBondAmount candidate = some amount) :
    after.delegatorState.get delegator =
      settledRecord candidate before { owner := delegator, amount } state := by
  cases exited with
  | left info when top bottom returned native isInfo leaving due enough storedTop storedBottom
      returns =>
      obtain ⟨listed, _⟩ := agrees.listed isInfo storedTop storedBottom
      have settled := returned_of_returns returns listed.distinct
        (fun _ => agrees.booked_of_mem isInfo storedTop storedBottom)
        (agrees.records.distinct candidate)
      have isBooked := (booked_of_stored stored candidate).trans recorded
      have found := agrees.lookup_table isInfo storedTop storedBottom isBooked
      exact settled.listed _ (mem_of_lookup found) state stored

/-- A record is removed with the only delegation in it exactly if the exit is clean. -/
theorem Exited.removed_iff
    (exited : Exited config round candidate candidateDelegationCount before after)
    (agrees : Agrees config before) :
    (∀ delegator state amount, before.delegatorState.get delegator = some state →
      state.getBondAmount candidate = some amount →
        (after.delegatorState.get delegator = none ↔ state.delegations.entries.length = 1)) ↔
      CleanExit before.delegatorState candidate := by
  have isNone : ∀ delegator state amount, before.delegatorState.get delegator = some state →
      state.getBondAmount candidate = some amount →
        (after.delegatorState.get delegator = none ↔ state.total - amount = 0) := by
    intro delegator state amount stored recorded
    rw [exited.record agrees stored recorded, settledRecord]
    split
    next isZero => exact iff_of_true rfl isZero
    next positive => exact iff_of_false (by rintro ⟨⟩) positive
  constructor
  · intro removed delegator state amount stored recorded isTotal
    rw [← removed delegator state amount stored recorded,
      isNone delegator state amount stored recorded, isTotal, Nat.sub_self]
  · intro clean delegator state amount stored recorded
    have consistent := (agrees.records.kept delegator state stored).toConsistent
    rw [isNone delegator state amount stored recorded,
      ← clean.alone consistent stored recorded, decide_eq_true_iff]

theorem Exited.exitSettled
    (exited : Exited config round candidate candidateDelegationCount before after)
    (credits : config.asset.Credits) (agrees : Agrees config before)
    (clean : CleanExit before.delegatorState candidate) :
    ExitSettled config candidate before after := by
  have removed := (exited.removed_iff agrees).mpr clean
  have kept : ∀ delegator state amount, before.delegatorState.get delegator = some state →
      state.getBondAmount candidate = some amount → ∀ state',
        after.delegatorState.get delegator = some state' →
          state' = state.droppedRecord (before.requests candidate) candidate delegator := by
    intro delegator state amount stored recorded state' isStored
    rw [exited.record agrees stored recorded, settledRecord] at isStored
    split at isStored
    next => cases isStored
    next => exact (Option.some.inj isStored).symm
  cases exited with
  | left info when top bottom returned native isInfo leaving due enough storedTop storedBottom
      returns =>
      obtain ⟨listed, amounts⟩ := agrees.listed isInfo storedTop storedBottom
      have settled := returned_of_returns returns listed.distinct
        (fun _ => agrees.booked_of_mem isInfo storedTop storedBottom)
        (agrees.records.distinct candidate)
      constructor
      case gone => exact ⟨by simp, by simp, by simp, by simp⟩
      case paid =>
        refine ⟨table top bottom, settled.transfers, listed.distinct, fun delegator amount => ?_⟩
        constructor
        · exact agrees.booked_of_mem isInfo storedTop storedBottom
        · intro isBooked
          exact mem_of_lookup (agrees.lookup_table isInfo storedTop storedBottom isBooked)
      case received =>
        intro account outside
        rw [← amounts account]
        exact settled.balances credits account outside
      case removed => exact removed
      case reduced =>
        intro delegator state amount state' stored recorded isStored
        have held := (agrees.records.kept delegator state stored).le_total recorded
        have pending := agrees.records.pendingAmount_le stored candidate
        obtain rfl := kept delegator state amount stored recorded state' isStored
        refine ⟨rfl, rfl, ?_, ?_⟩
        · simp only [Delegator.droppedRecord, Delegator.forget, Delegator.total_without, recorded,
            Option.getD_some]
          omega
        · simp only [Delegator.droppedRecord, Delegator.forget, Delegator.without]
          omega
      case others =>
        intro account absent
        apply settled.unlisted account
        rw [← amounts account, Option.map_eq_none_iff] at absent
        exact absent
      case apart =>
        intro other different
        simp only [StorageMap.get_remove_of_ne _ different, true_and]
        exact settled.requests other different
      case pool => rfl

end Exit

section Runs

variable {spec : ChainSpec AccountId Native} {state after : State AccountId Native}
  {origin : Origin AccountId} {candidate : AccountId} {candidateDelegationCount : Nat}

theorem exited_of_dispatch (sound : Sound config state.stakes)
    (left : dispatch config origin
      (.executeLeaveCandidates candidate candidateDelegationCount) state = (.ok (), after)) :
    Exited config state.rounds.round candidate candidateDelegationCount state.stakes
      after.stakes := by
  have ends : (dispatch config origin
      (.executeLeaveCandidates candidate candidateDelegationCount)).Ends state
        (fun _ after => Exited config state.rounds.round candidate candidateDelegationCount
          state.stakes after.stakes) fun _ _ => True := by
    simp only [dispatch, chainCall, stakesCall, onStakes, ends_transactional, ends_bind,
      ends_ensureSigned, ends_read, ends_zoom]
    refine ⟨fun who _ => ?_, fun _ => trivial⟩
    exact (exited_executeLeaveCandidates sound state.rounds.round candidate
      candidateDelegationCount).mono (fun _ _ => id) fun _ _ _ => trivial
  exact ends.of_ok left

/-- In a run in which candidates have left by clean exits, an exit settles its delegators and
nothing else if and only if it is clean. -/
theorem exit_settles_iff (credits : config.asset.Credits)
    (reached : Reached config spec LeavesCleanly state)
    (left : dispatch config origin
      (.executeLeaveCandidates candidate candidateDelegationCount) state = (.ok (), after)) :
    ExitSettled config candidate state.stakes after.stakes ↔
      CleanExit state.stakes.delegatorState candidate := by
  have agrees := reached.agrees fun _ _ => id
  have exited := exited_of_dispatch reached.sound left
  constructor
  · intro settled
    exact (exited.removed_iff agrees).mp settled.removed
  · exact exited.exitSettled credits agrees

end Runs

/-- A crowded candidate schedules its exit, and waits. -/
def crowdedLeave : List (Action Nat (Nat → Nat)) :=
  crowdedRun ++ [.extrinsic (.signed 1) (.scheduleLeaveCandidates 1)] ++
  List.replicate 9 (.nextBlock 0)

theorem allows_crowdedLeave (state : State Nat (Nat → Nat)) :
    ∀ action ∈ crowdedLeave, LeavesCleanly state action := by
  intro action member
  simp only [crowdedLeave, List.mem_append, List.mem_singleton, List.mem_replicate] at member
  rcases member with (inCrowded | rfl) | ⟨_, rfl⟩
  · exact allows_crowdedRun (fun _ => trivial) state action inCrowded
  · trivial
  · trivial

theorem exists_dispatched {state : State Nat (Nat → Nat)} {config : Config Nat (Nat → Nat)}
    {origin : Origin Nat} {call : Call Nat}
    (succeeds : (dispatch config origin call state).1.isOk = true) :
    ∃ after, dispatch config origin call state = (.ok (), after) := by
  rcases run : dispatch config origin call state with ⟨fault | value, after⟩
  · rw [run] at succeeds
    cases succeeds
  · exact ⟨after, rfl⟩

/-- The exit of a crowded candidate with pending requests settles. -/
theorem exit_settles_iff_crowded :
    ∃ state after, Reached mockRuntime crowdedGenesis LeavesCleanly state ∧
      dispatch mockRuntime (.signed 6) (.executeLeaveCandidates 1 8) state = (.ok (), after) ∧
      ExitSettled mockRuntime 1 state.stakes after.stakes := by
  obtain ⟨state, isPlayed, observed⟩ := Option.map_eq_some_iff.mp
    (show (played mockRuntime crowdedGenesis crowdedLeave).map (fun state =>
      (dispatch mockRuntime (.signed 6) (.executeLeaveCandidates 1 8) state).1.isOk) =
        some true by decide +kernel)
  obtain ⟨after, left⟩ := exists_dispatched observed
  have reached : Reached mockRuntime crowdedGenesis LeavesCleanly state :=
    Reached.of_played isPlayed (admitted_of_forall allows_crowdedLeave)
  have agrees := reached.agrees fun _ _ => id
  have clean := agrees.records.cleanExit (by decide) 1
  have credits := mock_hasMinimum.moves.credits
  exact ⟨state, after, reached, left, (exit_settles_iff credits reached left).mpr clean⟩

/-- The steps before an exit that is not clean. -/
def beforeUncleanExit : List (Action Nat (Nat → Nat)) := uncleanRun.take 14

/-- A delegator of nothing loses its record although it has another delegation. -/
theorem exit_not_settled :
    ∃ state after, Reachable zeroMinimum (mockGenesis [1, 2] []) state ∧
      dispatch zeroMinimum (.signed 4) (.executeLeaveCandidates 1 1) state = (.ok (), after) ∧
      ¬ExitSettled zeroMinimum 1 state.stakes after.stakes := by
  obtain ⟨state, reachable, observed⟩ := Reached.exists_of_played
    (show (played zeroMinimum (mockGenesis [1, 2] []) beforeUncleanExit).map (fun state =>
      ((dispatch zeroMinimum (.signed 4) (.executeLeaveCandidates 1 1) state).1.isOk,
        (state.stakes.delegatorState.get 3).map fun record =>
          (record.getBondAmount 1, record.delegations.entries.length),
        (dispatch zeroMinimum (.signed 4) (.executeLeaveCandidates 1 1)
          state).2.stakes.delegatorState.get 3)) =
      some (true, some (some 0, 2), none) by decide +kernel)
  simp only [Prod.mk.injEq, Option.map_eq_some_iff] at observed
  obtain ⟨succeeds, ⟨record, stored, recorded, length⟩, removed⟩ := observed
  obtain ⟨after, left⟩ := exists_dispatched succeeds
  rw [left] at removed
  refine ⟨state, after, reachable, left, fun settled => ?_⟩
  have single := (settled.removed 3 record 0 stored recorded).mp removed
  rw [length] at single
  cases single

end Popsicle
