import Popsicle.Grouping
import Popsicle.Runtime

/-!
# Applications

`pallet-container`: applications are registered one after the other, and when a
block is finalized every group without an application is given the first one that
is not in use.
-/

namespace Popsicle

open Foundation Exec

variable {AccountId Native : Type}

/-- The bytes of a name, an argument, a hash or an address. -/
abbrev Bytes := List UInt8

/-- The constants of `pallet-container`. -/
structure ContainerConfig where
  maxRuningApp : Nat
  maxRuningApp_le : maxRuningApp ≤ u32Max
  overflowChecks : Bool

/-- What is known about a registered application. -/
structure AppInfo (AccountId : Type) where
  appHash : Bytes
  creator : AccountId
  projectName : Bytes
  fileName : Bytes
  uploaded : Bool
  size : Nat
  args : Option Bytes
  log : Option Bytes
  isDockerImage : Option Bool
  dockerImage : Option Bytes

/-- The storage items of `pallet-container`. -/
structure Container (AccountId : Type) where
  nextApplicationId : Nat
  defaultUrl : Option Bytes
  appInfoMap : StorageMap Nat (AppInfo AccountId)
  inuseMap : List Bool
  groupAppMap : StorageMap Nat Nat

/-- Nothing is stored before the first application is registered. -/
def Container.default : Container AccountId where
  nextApplicationId := 1
  defaultUrl := none
  appInfoMap := .empty
  inuseMap := []
  groupAppMap := .empty

/-- Pallet code over the storage of applications. -/
abbrev ContainerM (AccountId : Type) := Exec (Container AccountId) Fault

/-! ## Finalization -/

/-- Give a group the first application that is not in use, from `index` on, and
return the local copy of what is in use. -/
def allocApp (group : Nat) (inuseApps : List Bool) (index : Nat) :
    Nat → ContainerM AccountId (List Bool)
  | 0 => pure inuseApps
  | remaining + 1 =>
      if inuseApps[index]? = some false then do
        ensure (index < (← read).inuseMap.length) (.panic .inuseMapIndex)
        write fun container => { container with
          inuseMap := container.inuseMap.set index true
          groupAppMap := container.groupAppMap.insert group ((index + 1) % (u32Max + 1)) }
        return inuseApps.set index true
      else allocApp group inuseApps (index + 1) remaining

/-- Go through the groups, and leave those alone that have an application. -/
def allocApps : List Nat → List Bool → ContainerM AccountId Unit
  | [], _ => pure ()
  | group :: rest, inuseApps => do
      match (← read).groupAppMap.get group with
      | some _ => allocApps rest inuseApps
      | none => do
          let inuseApps ← allocApp group inuseApps 0 inuseApps.length
          allocApps rest inuseApps

/-- What happens at the end of a block. -/
def onFinalize (groups : Groups AccountId) : ContainerM AccountId Unit := do
  let inuseApps := (← read).inuseMap
  allocApps (allGroupIds groups) inuseApps

/-! ## Extrinsics -/

/-- The extrinsics of `pallet-container`. -/
inductive ContainerCall where
  | registerApp (appHash projectName fileName : Bytes) (size : Nat) (args log : Option Bytes)
      (isDockerImage : Option Bool) (dockerImage : Option Bytes)
  | setDefaultUrl (url : Bytes)

def registerApp (config : ContainerConfig) (who : AccountId) (appHash projectName fileName : Bytes)
    (size : Nat) (args log : Option Bytes) (isDockerImage : Option Bool)
    (dockerImage : Option Bytes) : ContainerM AccountId Unit := do
  let oldApplicationId := (← read).nextApplicationId
  write fun container => { container with
    appInfoMap := container.appInfoMap.insert oldApplicationId
      { appHash, creator := who, projectName, fileName, uploaded := false, size, args, log
        isDockerImage, dockerImage } }
  let nextApplicationId ← u32Result config.overflowChecks (oldApplicationId + 1 : Nat)
  write fun container => { container with nextApplicationId }
  let inuseApps := (← read).inuseMap
  ensure (inuseApps.length < config.maxRuningApp) (.error (.container .appNotExist))
  write fun container => { container with inuseMap := inuseApps ++ [false] }

def setDefaultUrl (url : Bytes) : ContainerM AccountId Unit :=
  write fun container => { container with defaultUrl := some url }

/-- Dispatch an extrinsic in its own storage layer. -/
def containerDispatch (config : ContainerConfig) (origin : Origin AccountId)
    (call : ContainerCall) : ContainerM AccountId Unit :=
  transactional <|
    match call with
    | .registerApp appHash projectName fileName size args log isDockerImage dockerImage => do
        let who ← ensureSigned origin
        registerApp config who appHash projectName fileName size args log isDockerImage dockerImage
    | .setDefaultUrl url => do
        ensureRoot origin
        setDefaultUrl url

/-! ## What the node asks for -/

/-- What the node is told to download. -/
structure DownloadInfo where
  appId : Nat
  appHash : Bytes
  fileName : Bytes
  size : Nat
  group : Nat
  url : Bytes
  args : Option Bytes
  log : Option Bytes
  isDockerImage : Bool
  dockerImage : Option Bytes
  deriving DecidableEq

/-- Whether the announced round starts at the current block. -/
def shouldRun (state : State AccountId Native) : Bool :=
  state.groups.nextRound.1 = state.blockNumber

/-! ## Steps -/

/-- The groups and the applications they are given. -/
structure Hosting (AccountId : Type) where
  groups : Groups AccountId
  container : Container AccountId

/-- The group of an author, or a number that stands for none. -/
def getGroupId [DecidableEq AccountId] (groups : Groups AccountId) (author : AccountId) : Nat :=
  match (accountInGroup author groups).1 with
  | .ok groupId => groupId
  | .error _ => 0xFFFFFFFF

/-- The application that the group of an author runs. -/
def shuldLoad [DecidableEq AccountId] (hosting : Hosting AccountId) (author : AccountId) :
    Option DownloadInfo := do
  let groupId := getGroupId hosting.groups author
  let appId ← hosting.container.groupAppMap.get groupId
  let appInfo ← hosting.container.appInfoMap.get appId
  let url ← hosting.container.defaultUrl
  return {
    appId
    appHash := appInfo.appHash
    fileName := appInfo.fileName
    size := appInfo.size
    group := groupId
    url
    args := appInfo.args
    log := appInfo.log
    isDockerImage := appInfo.isDockerImage.getD false
    dockerImage := appInfo.dockerImage }

/-- What can happen to the applications and the groups. -/
inductive HostingAction (AccountId : Type) where
  | extrinsic (origin : Origin AccountId) (call : ContainerCall)
  /-- Other groups are formed. -/
  | regroup (groups : Groups AccountId)
  | finalize

/-- One step: an extrinsic, other groups, or the end of a block.  A panic at the end of
a block leaves no next state. -/
def hostingStep (config : ContainerConfig) (hosting : Hosting AccountId) :
    HostingAction AccountId → Option (Hosting AccountId)
  | .extrinsic origin call =>
      some { hosting with container := (containerDispatch config origin call hosting.container).2 }
  | .regroup groups => some { hosting with groups }
  | .finalize =>
      match onFinalize hosting.groups hosting.container with
      | (.ok _, container) => some { hosting with container }
      | (.error _, _) => none

end Popsicle
