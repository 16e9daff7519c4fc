import Popsicle.Backing

/-!
# Groups of selected sequencers

Where `trigger_group` succeeds, every candidate is in one group at most and is found
there.  The selection asks for as many sequencers as the groups have room for, so the
groups that a block forms are made of exactly the sequencers it selects.
-/

namespace Popsicle

open Foundation Exec

variable {AccountId Native : Type} [LinearOrder AccountId] {config : Config AccountId Native}
  {spec : ChainSpec AccountId Native} {before after state : State AccountId Native}

/-- What the call of `trigger_group` does that the next block makes, and the groups it
leaves behind. -/
def triggered (config : Config AccountId Native) (state : State AccountId Native)
    (parentHash : Nat) (after : State AccountId Native) : Except Fault Unit × Groups AccountId :=
  triggerGroup config parentHash after.rounds.selectedCandidates
    (state.openedRound.first + state.openedRound.length) (state.openedRound.current + 1)
    state.groups

theorem Reached.block (reachable : Reachable config spec before) {parentHash : Nat}
    (isOk : onInitialize config (before.blockNumber + 1) (enterBlock before parentHash) =
      (.ok (), after)) :
    Block config (before.blockNumber + 1) (enterBlock before parentHash) after := by
  have soundEntry : Sound config (enterBlock before parentHash).stakes := reachable.sound
  exact (ends_onInitialize soundEntry (before.blockNumber + 1)).of_ok isOk

/-- The next block calls `trigger_group`, and the call returns `Ok`. -/
def Regroups (config : Config AccountId Native) (state : State AccountId Native)
    (parentHash : Nat) (after : State AccountId Native) : Prop :=
  onInitialize config (state.blockNumber + 1) (enterBlock state parentHash) = (.ok (), after) ∧
    state.openedRound.shouldSnapshot (state.blockNumber + 1) = true ∧
    (triggered config state parentHash after).1 = .ok ()

/-- The groups after a block are those its call of `trigger_group` leaves behind, if it
makes one. -/
theorem Block.groups {parentHash : Nat}
    (block : Block config (before.blockNumber + 1) (enterBlock before parentHash) after) :
    after.groups =
      if before.openedRound.shouldSnapshot (before.blockNumber + 1) then
        (triggered config before parentHash after).2
      else before.groups := by
  cases block with
  | plain opens noSnapshot =>
      obtain ⟨isRound, _, _, _, sameGroups⟩ := opens.reads
      rw [← isRound, noSnapshot, sameGroups]
      rfl
  | @snapshots middle rounds opens snapshot selection =>
      obtain ⟨isRound, _, _, _, sameGroups⟩ := opens.reads
      obtain ⟨native, openedRounds, isMiddle⟩ := opens.frame
      have sameHash : middle.parentHash = parentHash := by
        rw [isMiddle]
        rfl
      rw [← isRound, snapshot, if_pos rfl, triggered, ← isRound, ← sameGroups, ← sameHash]
      rfl

/-- The groups after `trigger_group` has succeeded. -/
structure Partitions (groups : Groups AccountId) (candidates : List AccountId)
    (after : Groups AccountId) : Prop where
  number : after.groupMembers.length = groups.groupNumber
  size : ∀ group ∈ after.groupMembers, group.length = groups.groupSize
  drawn : ∀ group ∈ after.groupMembers, group.Nodup ∧ group ⊆ candidates
  disjoint : after.groupMembers.Pairwise List.Disjoint
  found : ∀ account index, accountInGroup account after = (.ok index, after) ↔
    ∃ group, after.groupMembers[index]? = some group ∧ account ∈ group

/-- Groups that are formed of distinct candidates partition them. -/
theorem Formed.partitions {groups after : Groups AccountId} {candidates : List AccountId}
    (formed : Formed groups.groupSize groups.groupNumber candidates after.groupMembers)
    (distinct : candidates.Nodup) : Partitions groups candidates after := by
  obtain ⟨eachNodup, disjoint⟩ := List.nodup_flatten.mp (formed.nodup distinct)
  refine ⟨formed.number, formed.size, fun group member => ⟨eachNodup group member, ?_⟩, disjoint,
    accountInGroup_iff disjoint⟩
  intro account inGroup
  exact formed.drawn.subset (List.mem_flatten_of_mem member inGroup)

/-- A successful call of `trigger_group` partitions its candidates, and the one that a
block makes puts every selected sequencer into a group. -/
theorem groups_partition (config : Config AccountId Native) (spec : ChainSpec AccountId Native) :
    (∀ (parentHash : Nat) (candidates : List AccountId) (startingBlock roundIndex : Nat)
        (groups after : Groups AccountId), candidates.Nodup →
      triggerGroup config parentHash candidates startingBlock roundIndex groups = (.ok (), after) →
      Partitions groups candidates after) ∧
    ∀ (state after : State AccountId Native) (parentHash : Nat), Reachable config spec state →
      state.stakes.candidatePool.entries ≠ [] → 0 < state.groups.toSelect →
      Regroups config state parentHash after →
      after.groups.groupMembers.flatten.Perm after.rounds.selectedCandidates := by
  constructor
  · intro parentHash candidates startingBlock roundIndex groups after distinct isOk
    obtain ⟨groupMembers, processorInfo, formed, rfl⟩ := (ends_triggerGroup _ _ _ _).of_ok isOk
    exact formed.partitions distinct
  · rintro state after parentHash reachable pool asked ⟨isOk, isDue, isFormed⟩
    have something : ¬NothingToSelect config state := by
      rintro ⟨_, noPool | isZero⟩
      · exact pool noPool
      · omega
    have takes : TakesSnapshot config state parentHash after := ⟨isOk, isDue, something⟩
    have isGroups := (reachable.block isOk).groups
    rw [if_pos isDue] at isGroups
    obtain ⟨middle, sequencers, snapshots, _, _, _, _, _, atMost, _, isAfter⟩ :=
      takes.selects reachable
    have selected : after.rounds.selectedCandidates = sequencers := by rw [isAfter]
    have run : triggered config state parentHash after = (.ok (), after.groups) :=
      Prod.ext isFormed isGroups.symm
    obtain ⟨groupMembers, processorInfo, formed, isAfterGroups⟩ :=
      (ends_triggerGroup _ _ _ _).of_ok run
    rw [isAfterGroups]
    refine formed.perm ?_
    rw [selected]
    exact atMost.trans (Nat.mod_le _ _)

/-- Five candidates and a processor for their group, before the first snapshot. -/
def groupedRun : List (Action Nat (Nat → Nat)) :=
  [.nextBlock 7, .extrinsic (.signed 9) (.registerProcessor [1]), .nextBlock 8]

theorem groups_partition_five :
    ∃ state after, Reachable mockRuntime (mockGenesis [1, 2, 3, 4, 5] []) state ∧
      Regroups mockRuntime state 9 after ∧
      Partitions state.groups after.rounds.selectedCandidates after.groups ∧
      after.groups.groupMembers.flatten.Perm after.rounds.selectedCandidates := by
  obtain ⟨state, reachable, shown⟩ := Reached.exists_of_played
    (show (played mockRuntime (mockGenesis [1, 2, 3, 4, 5] []) groupedRun).map
      (fun state => ((step mockRuntime state (.nextBlock 9)).map fun after =>
          (after.rounds.selectedCandidates,
            (triggered mockRuntime state 9 after).1.isOk),
        state.openedRound.shouldSnapshot (state.blockNumber + 1),
        state.stakes.candidatePool.entries.isEmpty, state.groups.toSelect)) =
      some (some ([1, 2, 3, 4, 5], true), true, false, 5) by decide +kernel)
  simp only [Prod.mk.injEq] at shown
  obtain ⟨isTaken, isDue, pool, asked⟩ := shown
  obtain ⟨after, taken, observed⟩ := Option.map_eq_some_iff.mp isTaken
  simp only [Prod.mk.injEq] at observed
  obtain ⟨selected, isOk⟩ := observed
  have isFormed : (triggered mockRuntime state 9 after).1 = .ok () := by
    cases equation : (triggered mockRuntime state 9 after).1 with
    | ok => rfl
    | error =>
        rw [equation] at isOk
        cases isOk
  have regroups : Regroups mockRuntime state 9 after :=
    ⟨step_nextBlock_iff.mp taken, isDue, isFormed⟩
  have distinct : after.rounds.selectedCandidates.Nodup := by
    rw [selected]
    decide
  have partition := groups_partition mockRuntime (mockGenesis [1, 2, 3, 4, 5] [])
  refine ⟨state, after, reachable, regroups, ?_, ?_⟩
  · have isGroups := (reachable.block regroups.1).groups
    rw [if_pos isDue] at isGroups
    have isTriggered : triggered mockRuntime state 9 after = (.ok (), after.groups) :=
      Prod.ext isFormed isGroups.symm
    exact partition.1 _ _ _ _ _ _ distinct isTriggered
  · refine partition.2 state after 9 reachable ?_ (by omega) regroups
    intro isEmpty
    simp [isEmpty] at pool

end Popsicle
