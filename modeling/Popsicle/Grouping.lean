import Popsicle.State

/-!
# Sequencer groups

`pallet-sequencer-grouping`: the selected sequencers are shuffled and split into
groups, and the groups are handed out to the registered processors.
-/

namespace Popsicle

open Foundation Exec

variable {AccountId Native : Type} [DecidableEq AccountId]

/-- Pallet code over the storage of groups. -/
abbrev GroupsM (AccountId : Type) := Exec (Groups AccountId) Fault

/-- The number of sequencers to select, a product of two `u32`. -/
def totalSelected {σ : Type} (config : Config AccountId Native) (groups : Groups AccountId) :
    Exec σ Fault Nat :=
  u32Result config.overflowChecks (groups.groupSize * groups.groupNumber : Nat)

def setGroupMetric (config : Config AccountId Native) (groupSize groupNumber : Nat) :
    GroupsM AccountId Unit := do
  ensure (groupSize ≤ config.maxGroupSize) (.error (.grouping .groupSizeTooLarge))
  ensure (groupNumber ≤ config.maxGroupNumber) (.error (.grouping .groupNumberTooLarge))
  write fun groups => { groups with groupSize, groupNumber }

/-- Swap two entries of a list, which has to have them. -/
def swap (accounts : List AccountId) (i j : Nat) : Option (List AccountId) := do
  let left ← accounts[i]?
  let right ← accounts[j]?
  return (accounts.set i right).set j left

/-- The swaps of the shuffle, from the last index down to the first. -/
def shuffleFrom (randomValue : Nat) (accounts : List AccountId) : Nat → Option (List AccountId)
  | 0 => some accounts
  | i + 1 => do
      let accounts ← swap accounts (i + 1) (randomValue % (i + 2))
      shuffleFrom randomValue accounts i

/-- Shuffle accounts by one byte of the parent hash. -/
def shuffleAccounts (parentHash : Nat) (accounts : List AccountId) : Option (List AccountId) :=
  shuffleFrom parentHash accounts (accounts.length - 1)

/-- Take one group off the end of the candidates. -/
def takeGroup (config : Config AccountId Native) (candidates : List AccountId)
    (group : List AccountId) : Nat → GroupsM AccountId (List AccountId × List AccountId)
  | 0 => pure (candidates, group)
  | count + 1 => do
      let candidate ← require candidates.getLast? (.panic .groupCandidatesPop)
      ensure (group.length < config.maxGroupSize) (.panic .groupTryPush)
      takeGroup config candidates.dropLast (group ++ [candidate]) count

/-- Take groups off the end of the candidates. -/
def takeGroups (config : Config AccountId Native) (groupSize : Nat)
    (candidates : List AccountId) (groups : List (List AccountId)) :
    Nat → GroupsM AccountId (List (List AccountId))
  | 0 => pure groups
  | count + 1 => do
      let (candidates, group) ← takeGroup config candidates [] groupSize
      ensure (groups.length < config.maxGroupNumber) (.panic .groupTryPush)
      takeGroups config groupSize candidates (groups ++ [group]) count

/-- Hand the groups from `groupId` on to the processors, round robin. -/
def assignFrom (config : Config AccountId Native) (groupId : Nat)
    (processorInfo : List (ProcessorInfo AccountId)) :
    Nat → GroupsM AccountId (List (ProcessorInfo AccountId))
  | 0 => pure processorInfo
  | count + 1 => do
      let processorIndex := groupId % processorInfo.length
      match processorInfo[processorIndex]? with
      | none => fail (.panic .processorIndex)
      | some processor =>
          if groupId ∈ processor.groups then
            assignFrom config (groupId + 1) processorInfo count
          else do
            ensure (processor.groups.length < config.maxRunningApp)
              (.error (.grouping .tooManyProcessors))
            let processor := { processor with groups := processor.groups ++ [groupId] }
            assignFrom config (groupId + 1) (processorInfo.set processorIndex processor) count

def assignProcessorsToGroups (config : Config AccountId Native) (groupNumber : Nat) :
    GroupsM AccountId Unit := do
  let processorInfo := (← read).processorInfo
  ensure (processorInfo ≠ []) (.error (.grouping .noProcessors))
  let processorInfo := processorInfo.map fun processor => { processor with groups := [] }
  let lastGroup ← u32Result config.overflowChecks ((groupNumber : Int) - 1)
  let processorInfo ← assignFrom config 0 processorInfo (lastGroup + 1)
  write fun groups => { groups with processorInfo }

/-- Form the groups of the next round. -/
def triggerGroup (config : Config AccountId Native) (parentHash : Nat)
    (candidates : List AccountId) (startingBlock : Nat) (roundIndex : Nat) :
    GroupsM AccountId Unit := do
  let groups ← read
  let required ← totalSelected config groups
  ensure (candidates.length ≥ required) (.error (.grouping .candidatesNotEnough))
  let candidates ← require (shuffleAccounts parentHash candidates) (.panic .shuffleSwap)
  let groupMembers ← takeGroups config groups.groupSize candidates [] groups.groupNumber
  write fun groups => { groups with groupMembers }
  assignProcessorsToGroups config groups.groupNumber
  write fun groups => { groups with nextRound := (startingBlock, roundIndex) }

/-- The group of the sequencers that an account is in. -/
def accountInGroup (account : AccountId) : GroupsM AccountId Nat := do
  let groups := (← read).groupMembers
  require (groups.findIdx? fun group => account ∈ group) (.error (.grouping .accountNotInGroup))

/-- The groups that an account runs. -/
def getGroupIds (groups : Groups AccountId) (account : AccountId) : List Nat :=
  match groups.processorInfo.find? fun processor => processor.account = account with
  | some processor => processor.groups
  | none => []

/-- The groups are numbered from zero on. -/
def allGroupIds (groups : Groups AccountId) : List Nat :=
  List.range groups.groupMembers.length

def registerProcessor (config : Config AccountId Native) (who : AccountId)
    (ipAddress : List Nat) : GroupsM AccountId Unit := do
  let processorInfo := (← read).processorInfo
  if processorInfo.any fun processor => processor.account = who then
    write fun groups => { groups with
      processorInfo := groups.processorInfo.map fun processor =>
        if processor.account = who then { processor with ipAddress } else processor }
  else do
    ensure (processorInfo.length < config.maxRunningApp)
      (.error (.grouping .tooManyProcessors))
    write fun groups => { groups with
      processorInfo := groups.processorInfo ++ [{ account := who, ipAddress, groups := [] }] }

end Popsicle
