import Popsicle.Snapshots

/-!
# What a snapshot counts

The snapshot of a sequencer holds its bond, its top delegations as their owners
intend them to be after the pending requests, and the sum of these.
-/

namespace Popsicle

open Foundation Exec Keyed

variable {AccountId Native : Type} [LinearOrder AccountId] {config : Config AccountId Native}
  {spec : ChainSpec AccountId Native} {before after state : State AccountId Native}

/-! ## Intended amounts -/

/-- What a delegation amounts to once the pending request of its owner is executed. -/
def intended (requests : List (ScheduledRequest AccountId)) (bond : Bond AccountId) : Nat :=
  match (findRequest requests bond.owner).map ScheduledRequest.action with
  | none => bond.amount
  | some (.revoke _) => 0
  | some (.decrease less) => bond.amount - less

section Intended

variable {requests : List (ScheduledRequest AccountId)} {bond : Bond AccountId}

theorem rewardableOf_eq (distinct : Distinct ScheduledRequest.delegator requests)
    (bond : Bond AccountId) :
    rewardableOf requests bond = { bond with amount := intended requests bond } := by
  unfold rewardableOf intended findRequest
  rw [distinct.lookupLast]
  cases (lookup ScheduledRequest.delegator requests bond.owner).map ScheduledRequest.action with
  | none => rfl
  | some action => cases action <;> rfl

/-- No pending decrease is of more than the delegation. -/
def Affordable (requests : List (ScheduledRequest AccountId)) (bond : Bond AccountId) : Prop :=
  ∀ request less, findRequest requests bond.owner = some request →
    request.action = .decrease less → less ≤ bond.amount

theorem uncountedOf_add_intended (distinct : Distinct ScheduledRequest.delegator requests)
    (affordable : Affordable requests bond) :
    uncountedOf requests bond + intended requests bond = bond.amount := by
  unfold uncountedOf intended
  rw [distinct.lookupLast, ← findRequest]
  cases found : findRequest requests bond.owner with
  | none => simp
  | some request =>
      cases action : request.action with
      | revoke => simp [action]
      | decrease less =>
          have atMost := affordable request less found action
          simp only [Option.map_some, action]
          omega

theorem sum_uncountedOf_add (distinct : Distinct ScheduledRequest.delegator requests)
    {bonds : List (Bond AccountId)} (affordable : ∀ bond ∈ bonds, Affordable requests bond) :
    (bonds.map (uncountedOf requests)).sum + (bonds.map (intended requests)).sum =
      Delegations.sumAmounts bonds := by
  induction bonds with
  | nil => rfl
  | cons bond rest ih =>
      have first := uncountedOf_add_intended distinct (affordable bond (by simp))
      have others := ih fun other member => affordable other (by simp [member])
      simp only [List.map_cons, List.sum_cons, Delegations.sumAmounts_cons]
      omega

end Intended

/-! ## Exact snapshots -/

/-- The snapshot of a candidate is exact, and nothing saturated when it was taken. -/
structure Exact (stakes : Stakes AccountId Native) (candidate : AccountId)
    (snapshot : SequencerSnapshot AccountId) (info : CandidateMetadata)
    (top : Delegations AccountId) : Prop where
  bond : snapshot.bond = info.bond
  delegations : snapshot.delegations = top.delegations.map fun bond =>
    { bond with amount := intended (stakes.requests candidate) bond }
  total : snapshot.total = snapshot.bond + Delegations.sumAmounts snapshot.delegations
  affordable : ∀ bond ∈ top.delegations, Affordable (stakes.requests candidate) bond
  uncounted : (top.delegations.map (uncountedOf (stakes.requests candidate))).sum ≤
    info.totalCounted

/-- Where everything agrees, the snapshot of a stored candidate is exact. -/
theorem Agrees.exact {stakes : Stakes AccountId Native} (agrees : Agrees config stakes)
    (sound : Sound config stakes) {candidate : AccountId} {info : CandidateMetadata}
    {top : Delegations AccountId} (stored : stakes.candidateInfo.get candidate = some info)
    (storedTop : stakes.topDelegations.get candidate = some top) :
    Exact stakes candidate (snapshotOf stakes candidate info top) info top := by
  obtain ⟨_, bottom, _, storedBottom⟩ := sound.exists_lists stored
  obtain ⟨listed, _⟩ := agrees.listed stored storedTop storedBottom
  have distinct : Distinct ScheduledRequest.delegator (stakes.requests candidate) :=
    agrees.records.distinct candidate
  have affordable : ∀ bond ∈ top.delegations, Affordable (stakes.requests candidate) bond := by
    intro bond member request less found action
    have recorded := agrees.booked_of_mem stored storedTop storedBottom
      (List.mem_append_left _ member)
    obtain ⟨bonded, isBooked, fits⟩ := agrees.records.fits candidate bond.owner request found
    rw [recorded] at isBooked
    cases isBooked
    rw [action] at fits
    exact fits.1.le
  have sums := sum_uncountedOf_add distinct affordable
  have counted := listed.cachedTop.2.2
  have topTotal := listed.topTotal
  have delegations : top.delegations.map (rewardableOf (stakes.requests candidate)) =
      top.delegations.map fun bond =>
        { bond with amount := intended (stakes.requests candidate) bond } :=
    List.map_congr_left fun bond _ => rewardableOf_eq distinct bond
  refine ⟨rfl, delegations, ?_, affordable, by omega⟩
  dsimp only [snapshotOf]
  rw [delegations, Delegations.sumAmounts, List.map_map]
  change _ = info.bond + (top.delegations.map (intended (stakes.requests candidate))).sum
  omega

/-- The next block takes a snapshot of some sequencers for the round after its own. -/
def TakesSnapshot (config : Config AccountId Native) (state : State AccountId Native)
    (parentHash : Nat) (after : State AccountId Native) : Prop :=
  onInitialize config (state.blockNumber + 1) (enterBlock state parentHash) = (.ok (), after) ∧
    state.openedRound.shouldSnapshot (state.blockNumber + 1) = true ∧
    ¬NothingToSelect config state

/-- The selected sequencers are those with a snapshot for the next round, and their
snapshots are exact. -/
structure SnapshotsExact (stakes : Stakes AccountId Native) (next : Nat)
    (rounds : Rounds AccountId) : Prop where
  nonempty : rounds.selectedCandidates ≠ []
  exact : ∀ sequencer ∈ rounds.selectedCandidates, ∃ snapshot info top,
    (rounds.atStake next).get sequencer = some snapshot ∧
      stakes.candidateInfo.get sequencer = some info ∧
      stakes.topDelegations.get sequencer = some top ∧
      Exact stakes sequencer snapshot info top
  selected : ∀ account, account ∈ rounds.selectedCandidates ↔
    ((rounds.atStake next).get account).isSome = true

theorem TakesSnapshot.selects {parentHash : Nat}
    (takes : TakesSnapshot config before parentHash after)
    (reachable : Reachable config spec before) :
    ∃ middle sequencers snapshots,
      Opens config (before.blockNumber + 1) (enterBlock before parentHash) middle ∧
      middle.rounds.round = before.openedRound ∧
      ¬Snapped middle.rounds.events (before.openedRound.current + 1) ∧
      sequencers ≠ [] ∧
      sequencers.Subperm (before.stakes.candidatePool.entries.map Bond.owner) ∧
      sequencers.length ≤ before.groups.toSelect ∧
      Snapshots before.stakes sequencers
        (middle.rounds.atStake (before.openedRound.current + 1)) snapshots ∧
      after = { middle with
        rounds := { middle.rounds with
          atStake := Function.update middle.rounds.atStake (before.openedRound.current + 1)
            snapshots
          selectedCandidates := sequencers
          events := middle.rounds.events ++ [.candidatesSelected (before.openedRound.current + 1)] }
        groups := (grouping config middle sequencers).2 } := by
  obtain ⟨isOk, isDue, something⟩ := takes
  have soundEntry : Sound config (enterBlock before parentHash).stakes := reachable.sound
  have block := (ends_onInitialize soundEntry (before.blockNumber + 1)).of_ok isOk
  have onTime := reachable.onTime_any
  cases block with
  | plain opens noSnapshot =>
      rw [opens.reads.1, isDue] at noSnapshot
      cases noSnapshot
  | @snapshots middle rounds opens snapshot selection =>
      obtain ⟨isRound, _, _, samePool, sameGroups⟩ := opens.reads
      obtain ⟨native, openedRounds, isMiddle⟩ := opens.frame
      have notYet := (onTime.opens opens fun _ => trivial).notYet snapshot
      rw [isRound] at selection notYet
      rw [isRound]
      cases selection with
      | repeats nothing =>
          refine absurd ?_ something
          unfold NothingToSelect at nothing ⊢
          rwa [samePool, sameGroups] at nothing
      | selects sequencers snapshots _ nonempty members atMost taken =>
          rw [samePool] at members
          rw [sameGroups] at atMost
          have isTaken : Snapshots before.stakes sequencers
              (middle.rounds.atStake (before.openedRound.current + 1)) snapshots := by
            rw [isMiddle] at taken ⊢
            exact taken
          exact ⟨middle, sequencers, snapshots, opens, isRound, notYet, nonempty, members, atMost,
            isTaken, rfl⟩

/-- Where everything agrees, a block that takes a snapshot takes exact ones of exactly
the sequencers it selects. -/
theorem TakesSnapshot.exact {parentHash : Nat}
    (takes : TakesSnapshot config before parentHash after)
    (reachable : Reachable config spec before) (agrees : Agrees config before.stakes) :
    SnapshotsExact before.stakes (before.openedRound.current + 1) after.rounds := by
  obtain ⟨middle, sequencers, snapshots, opens, isRound, notYet, nonempty, _, _, taken, rfl⟩ :=
    takes.selects reachable
  have entered : Staged (enterBlock before parentHash).rounds := reachable.staged
  have staged := entered.opens reachable.onTime_any.logged.mem_candidatesSelected.2 opens
  refine ⟨nonempty, fun sequencer member => ?_, fun account => ?_⟩
  · obtain ⟨info, top, stored, storedTop, isSnapshot⟩ := taken.1 sequencer member
    refine ⟨_, info, top, ?_, stored, storedTop, agrees.exact reachable.sound stored storedTop⟩
    dsimp only
    rw [Function.update_self, isSnapshot]
  · dsimp only
    rw [Function.update_self]
    constructor
    · intro member
      obtain ⟨info, top, _, _, isSnapshot⟩ := taken.1 account member
      simp [isSnapshot]
    · intro isSome
      by_contra absent
      rw [taken.2 account absent, staged.absent _ notYet account] at isSome
      cases isSome

/-- Snapshots are exact in every run whose candidates leave cleanly. -/
theorem snapshots_exact {parentHash : Nat} (reached : Reached config spec LeavesCleanly state)
    (takes : TakesSnapshot config state parentHash after) :
    SnapshotsExact state.stakes (state.openedRound.current + 1) after.rounds :=
  takes.exact reached.reachable (reached.agrees fun _ _ => id)

theorem takesSnapshot_of_shown {state : State Nat (Nat → Nat)} {config : Config Nat (Nat → Nat)}
    {α : Type} {observe : State Nat (Nat → Nat) → α} {value : α}
    (shown : (match onInitialize config (state.blockNumber + 1) (enterBlock state 0) with
      | (.ok _, after) => some (observe after)
      | (.error _, _) => none) = some value)
    (isDue : state.openedRound.shouldSnapshot (state.blockNumber + 1) = true)
    (pool : state.stakes.candidatePool.entries.isEmpty = false)
    (some : state.groups.toSelect ≠ 0) :
    ∃ after, TakesSnapshot config state 0 after ∧ observe after = value := by
  split at shown
  next after equation =>
    refine ⟨after, ⟨equation, isDue, ?_⟩, Option.some.inj shown⟩
    rintro ⟨_, noPool | isZero⟩
    · simp [noPool] at pool
    · exact some isZero
  next => cases shown

theorem snapshots_exact_crowded :
    ∃ state after, Reached mockRuntime crowdedGenesis LeavesCleanly state ∧
      TakesSnapshot mockRuntime state 0 after ∧
      SnapshotsExact state.stakes (state.openedRound.current + 1) after.rounds := by
  obtain ⟨state, isPlayed, shown⟩ := Option.map_eq_some_iff.mp
    (show (played mockRuntime crowdedGenesis (crowdedRun ++ [.nextBlock 0])).map
      (fun state =>
        (match onInitialize mockRuntime (state.blockNumber + 1) (enterBlock state 0) with
          | (.ok _, after) => some after.rounds.selectedCandidates
          | (.error _, _) => none, state.openedRound.shouldSnapshot (state.blockNumber + 1),
        state.stakes.candidatePool.entries.isEmpty, state.groups.toSelect)) =
      some (some [1], true, false, 5) by decide +kernel)
  simp only [Prod.mk.injEq] at shown
  obtain ⟨isOk, isDue, pool, asked⟩ := shown
  obtain ⟨after, takes, _⟩ := takesSnapshot_of_shown isOk isDue pool (by omega)
  have reached : Reached mockRuntime crowdedGenesis LeavesCleanly state := by
    refine Reached.of_played isPlayed (admitted_of_forall fun state action member => ?_)
    rcases List.mem_append.mp member with inRun | isBlock
    · exact allows_crowdedRun (fun _ => trivial) state action inRun
    · rw [List.mem_singleton.mp isBlock]
      trivial
  exact ⟨state, after, reached, takes, snapshots_exact reached takes⟩

/-- After an unclean exit a snapshot counts a delegation that nobody has. -/
theorem snapshots_not_exact :
    ∃ state after, Reachable zeroMinimum (mockGenesis [1, 2] []) state ∧
      TakesSnapshot zeroMinimum state 0 after ∧
      ¬SnapshotsExact state.stakes (state.openedRound.current + 1) after.rounds := by
  obtain ⟨state, reachable, shown⟩ := Reached.exists_of_played
    (show (played zeroMinimum (mockGenesis [1, 2] [])
        (revokedRun ++ [.nextBlock 0, .nextBlock 0])).map
      (fun state =>
        (match onInitialize zeroMinimum (state.blockNumber + 1) (enterBlock state 0) with
          | (.ok _, after) => some ((after.rounds.atStake (state.openedRound.current + 1)).get 2)
          | (.error _, _) => none, state.openedRound.shouldSnapshot (state.blockNumber + 1),
        state.stakes.candidatePool.entries.isEmpty, state.groups.toSelect)) =
      some (some (some { bond := 0, delegations := [], total := 5 }), true, false, 5)
      by decide +kernel)
  simp only [Prod.mk.injEq] at shown
  obtain ⟨isOk, isDue, pool, asked⟩ := shown
  obtain ⟨after, takes, isSnapshot⟩ := takesSnapshot_of_shown isOk isDue pool (by omega)
  refine ⟨state, after, reachable, takes, fun exact => ?_⟩
  obtain ⟨snapshot, info, top, stored, _, _, isExact⟩ :=
    exact.exact 2 ((exact.selected 2).mpr (by simp [isSnapshot]))
  rw [isSnapshot, Option.some.injEq] at stored
  have total := isExact.total
  rw [← stored] at total
  cases total

end Popsicle
