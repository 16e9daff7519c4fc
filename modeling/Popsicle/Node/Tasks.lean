import Popsicle.Container

/-!
# Tasks of the node

`container_task`: a node downloads the application of its group and starts it, first next
to the application that runs and then in its place.  The tasks share one record behind a
lock.  They call the operating system and docker; an answer says how such a call ends.  A
panic ends the task it happens in and frees the lock.
-/

namespace Popsicle.Node

open Foundation Exec

/-! ## State -/

/-- How a task ends before its time. -/
inductive Stop where
  | error
  | panic
  deriving DecidableEq

/-- A child process, by its number. -/
abbrev Child := Nat

inductive StartType where
  | sync
  | run
  deriving DecidableEq

inductive InstanceIndex where
  | instance1
  | instance2
  deriving DecidableEq

/-- The instance that is not the given one. -/
def InstanceIndex.other : InstanceIndex → InstanceIndex
  | instance1 => instance2
  | instance2 => instance1

inductive RunStatus where
  | pending
  | downloading
  | downloaded
  | running
  deriving DecidableEq

/-- What is known of one of the two instances. -/
structure Slot where
  process : Option Child
  docker : Bool
  dockerName : Option Bytes
  deriving DecidableEq

/-- The record that the tasks share. -/
structure RunningApp where
  groupId : Nat
  appId : Nat
  running : RunStatus
  appInfo : Option DownloadInfo
  instance1 : Slot
  instance2 : Slot
  curIns : InstanceIndex
  deriving DecidableEq

/-- The record before the first block. -/
def RunningApp.default : RunningApp where
  groupId := 0xFFFFFFFF
  appId := 0xFFFFFFFF
  running := .pending
  appInfo := none
  instance1 := { process := none, docker := false, dockerName := none }
  instance2 := { process := none, docker := false, dockerName := none }
  curIns := .instance1

def RunningApp.slot (app : RunningApp) : InstanceIndex → Slot
  | .instance1 => app.instance1
  | .instance2 => app.instance2

def RunningApp.withSlot (app : RunningApp) (index : InstanceIndex) (slot : Slot) : RunningApp :=
  match index with
  | .instance1 => { app with instance1 := slot }
  | .instance2 => { app with instance2 := slot }

/-- Make the other instance the current one. -/
def RunningApp.turn (app : RunningApp) : RunningApp :=
  { app with curIns := app.curIns.other }

/-- The machine a node runs on: how many children were spawned, which of them were not
killed, and the names of the docker containers that were started and not removed. -/
structure Machine where
  spawned : Nat
  children : List Child
  containers : List String
  deriving DecidableEq

namespace Machine

def spawn (machine : Machine) : Machine :=
  { machine with
    spawned := machine.spawned + 1
    children := machine.spawned :: machine.children }

def kill (machine : Machine) (child : Child) : Machine :=
  { machine with children := machine.children.filter (· ≠ child) }

/-- Start a container.  A name that is in use stays in use. -/
def start (machine : Machine) (container : String) : Machine :=
  { machine with containers := machine.containers.insert container }

def remove (machine : Machine) (container : String) : Machine :=
  { machine with containers := machine.containers.filter (· ≠ container) }

end Machine

/-- A call to what is outside of the node. -/
inductive Call where
  | create (file : String)
  | read (file : String)
  | download (address file : String)
  | spawn (program : String) (arguments : List String)

/-- The shared record, the machine, and the calls made so far. -/
structure Host where
  app : RunningApp
  machine : Machine
  calls : List Call

/-- Code of a task. -/
abbrev NodeM := Exec Host Stop

def onApp (update : RunningApp → RunningApp) : NodeM Unit :=
  write fun host => { host with app := update host.app }

def onMachine (update : Machine → Machine) : NodeM Unit :=
  write fun host => { host with machine := update host.machine }

/-- Make a call. -/
def call (made : Call) : NodeM Unit :=
  write fun host => { host with calls := made :: host.calls }

/-- The value of a body that ends with one, and nothing if it ends with an error. -/
def attempt {α : Type} (body : NodeM α) : NodeM (Option α) :=
  handle (do return some (← body)) fun
    | .error => pure none
    | .panic => fail .panic

/-- The text that bytes encode. -/
def fromUtf8 (bytes : Bytes) : Option String :=
  String.fromUTF8? ⟨bytes.toArray⟩

def splitArgs (line : String) : List String :=
  line.splitOn " "

/-! ## Answers -/

/-- How a command ends that is waited for. -/
structure CommandAnswer where
  spawned : Bool
  waited : Bool

def CommandAnswer.success : CommandAnswer := { spawned := true, waited := true }

/-- How the removal of a container ends. -/
structure RemovalAnswers where
  stop : CommandAnswer
  remove : CommandAnswer
  removed : Bool

def RemovalAnswers.success : RemovalAnswers :=
  { stop := .success, remove := .success, removed := true }

/-- How the start of a container ends. -/
structure ContainerAnswers where
  run : CommandAnswer
  started : Bool

def ContainerAnswers.success : ContainerAnswers := { run := .success, started := true }

/-- How it ends to stop an instance. -/
structure StopAnswers where
  removal : RemovalAnswers
  killed : Bool
  waited : Bool

def StopAnswers.success : StopAnswers := { removal := .success, killed := true, waited := true }

/-- How the calls of `process_run_task` end. -/
structure RunAnswers where
  logCreated : Bool
  logCloned : Bool
  oldStopped : StopAnswers
  logClonedAgain : Bool
  container : ContainerAnswers
  spawned : Bool
  otherStopped : StopAnswers

/-- All calls succeed. -/
def RunAnswers.success : RunAnswers where
  logCreated := true
  logCloned := true
  oldStopped := .success
  logClonedAgain := true
  container := .success
  spawned := true
  otherStopped := .success

/-- How the search for a docker image ends, and what it prints. -/
structure ImageAnswers where
  listed : Bool
  filtered : Bool
  filterEnded : Bool
  listEnded : Bool
  output : Bytes

/-- How the calls of `process_download_task` end that come before the start. -/
structure DownloadAnswers where
  image : ImageAnswers
  pull : CommandAnswer
  imageAgain : ImageAnswers
  opened : Bool
  digest : Option Bytes
  fetched : Except Stop Unit

/-! ## Docker -/

/-- Spawn a docker command and wait for its end. -/
def dockerCommand (line : String) (answer : CommandAnswer) : NodeM Unit := do
  call (.spawn "docker" (splitArgs line))
  ensure answer.spawned .error
  ensure answer.waited .error

def checkDockerImageExist (dockerImage : String) (answers : ImageAnswers) : NodeM Bool := do
  call (.spawn "docker" (splitArgs s!"image ls {dockerImage}"))
  ensure answers.listed .error
  call (.spawn "grep" [dockerImage])
  ensure answers.filtered .error
  ensure answers.filterEnded .error
  ensure answers.listEnded .error
  let grepOut ← require (fromUtf8 answers.output) .error
  return 0 < grepOut.utf8ByteSize

def downloadDockerImage (dockerImage : String) (answer : CommandAnswer) : NodeM Unit :=
  dockerCommand s!"pull {dockerImage}" answer

def removeDockerContainer (containerName : String) (answers : RemovalAnswers) : NodeM Unit := do
  dockerCommand s!"container stop {containerName}" answers.stop
  call (.spawn "docker" (splitArgs s!"container remove {containerName}"))
  ensure answers.remove.spawned .error
  if answers.removed then onMachine (·.remove containerName) else pure ()
  ensure answers.remove.waited .error

def startDockerContainer (containerName dockerImage : String) (inArgs : List String)
    (optionArgs : Option Bytes) (answers : ContainerAnswers) : NodeM Unit := do
  let dockerCmd ← match optionArgs with
    | some optionArg => do
        let option ← require (fromUtf8 optionArg) .error
        pure s!"run -itd --name {containerName} {option} {dockerImage}"
    | none => pure s!"run -itd --name {containerName} {dockerImage}"
  call (.spawn "docker" (splitArgs dockerCmd ++ inArgs))
  ensure answers.run.spawned .error
  if answers.started then onMachine (·.start containerName) else pure ()
  ensure answers.run.waited .error

/-! ## `process_run_task` -/

/-- The words of a line of arguments. -/
def argsOf : Option Bytes → NodeM (List String)
  | some args => do return splitArgs (← require (fromUtf8 args) .error)
  | none => pure []

/-- Stop an instance: remove its container, or kill its process. -/
def stopInstance (index : InstanceIndex) (answers : StopAnswers) : NodeM Unit := do
  let slot := (← read).app.slot index
  if slot.docker then
    match slot.dockerName with
    | some dockerName => do
        let containerName ← require (fromUtf8 dockerName) .error
        let _ ← attempt (removeDockerContainer containerName answers.removal)
        pure ()
    | none => pure ()
  else
    match slot.process with
    | some child => do
        ensure answers.killed .error
        onMachine (·.kill child)
        ensure answers.waited .error
    | none => pure ()

/-- Start an application; a native one is a new child. -/
def startInstance (dataPath : Bytes) (appInfo : DownloadInfo) (args : List String)
    (optionArgs : Option Bytes) (answers : RunAnswers) : NodeM (Option Child) := do
  if appInfo.isDockerImage then
    let imageName ← require appInfo.dockerImage .error
    let dockerImage ← require (fromUtf8 imageName) .error
    let containerName ← require (fromUtf8 appInfo.fileName) .error
    ensure answers.logClonedAgain .error
    let _ ← attempt (startDockerContainer containerName dockerImage args optionArgs
      answers.container)
    return none
  else
    let directory ← require (fromUtf8 dataPath) .panic
    let fileName ← require (fromUtf8 appInfo.fileName) .error
    call (.spawn s!"{directory}/sdk/{fileName}" args)
    ensure answers.spawned .panic
    let child := (← read).machine.spawned
    onMachine (·.spawn)
    return some child

/-- Put the new application in the place of the other instance, which is stopped. -/
def replaceInstance (process : Option Child) (answers : RunAnswers) : NodeM Unit := do
  let app := (← read).app
  let current := app.slot app.curIns
  let other := app.slot app.curIns.other
  stopInstance app.curIns.other answers.otherStopped
  if other.docker then
    onApp (·.withSlot app.curIns.other { other with docker := false, dockerName := none })
  else
    onApp (·.withSlot app.curIns { current with process })
    onApp (·.withSlot app.curIns.other { other with process := none })
  onApp (·.turn)

/-- What an instance is once an application is started in it. -/
def filledSlot (appInfo : DownloadInfo) (process : Option Child) : Slot where
  process := process
  docker := appInfo.isDockerImage
  dockerName := if appInfo.isDockerImage then some appInfo.fileName else none

/-- Keep the new application next to the other instance. -/
def fillInstance (appInfo : DownloadInfo) (process : Option Child) : NodeM Unit :=
  onApp fun app => app.withSlot app.curIns (filledSlot appInfo process)

/-- What happens under the lock. -/
def runSection (dataPath : Bytes) (appInfo : DownloadInfo) (args : List String)
    (optionArgs : Option Bytes) (startType : StartType) (answers : RunAnswers) : NodeM Unit := do
  stopInstance (← read).app.curIns answers.oldStopped
  let process ← startInstance dataPath appInfo args optionArgs answers
  match startType with
  | .run => replaceInstance process answers
  | .sync => fillInstance appInfo process

/-- The arguments of the application, once its log file is open. -/
def prepareRun (appInfo : DownloadInfo) (runArgs : Option Bytes) (answers : RunAnswers) :
    NodeM (List String) := do
  let extensionArgs ← argsOf runArgs
  let args ← argsOf appInfo.args
  let logFileName ← require (fromUtf8 (appInfo.log.getD appInfo.fileName)) .error
  call (.create logFileName)
  ensure answers.logCreated .error
  ensure answers.logCloned .error
  return args ++ extensionArgs

def processRunTask (dataPath : Bytes) (appInfo : DownloadInfo) (runArgs optionArgs : Option Bytes)
    (startType : StartType) (answers : RunAnswers) : NodeM Unit := do
  let args ← prepareRun appInfo runArgs answers
  runSection dataPath appInfo args optionArgs startType answers

/-! ## `process_download_task` -/

/-- Whether an application is to be downloaded; an error if it cannot be read. -/
def needDownload (path : String) (appHash : Bytes) (answers : DownloadAnswers) : NodeM Bool := do
  call (.read path)
  if answers.opened then
    let digest ← require answers.digest .error
    return digest ≠ appHash
  else
    return true

/-- Whether the docker image is there, once it is pulled where it is not. -/
def prepareImage (appInfo : DownloadInfo) (answers : DownloadAnswers) : NodeM Bool := do
  match appInfo.dockerImage with
  | some image => do
      let dockerImage ← require (fromUtf8 image) .error
      if ← checkDockerImageExist dockerImage answers.image then
        return true
      else
        downloadDockerImage dockerImage answers.pull
        checkDockerImageExist dockerImage answers.imageAgain
  | none => return false

/-- Whether the application is there, once it is downloaded where it is not. -/
def prepareFile (dataPath : Bytes) (appInfo : DownloadInfo) (answers : DownloadAnswers) :
    NodeM Bool := do
  let url ← require (fromUtf8 appInfo.url) .error
  let directory ← require (fromUtf8 dataPath) .error
  let fileName ← require (fromUtf8 appInfo.fileName) .error
  let path := s!"{directory}/sdk/{fileName}"
  match ← attempt (needDownload path appInfo.appHash answers) with
  | some true => do
      call (.download s!"{url}/{fileName}" path)
      match answers.fetched with
      | .ok () => return true
      | .error .error => return false
      | .error .panic => fail .panic
  | some false => return true
  | none => return false

/-- Whether the application can be started. -/
def prepareDownload (dataPath : Bytes) (appInfo : DownloadInfo) (answers : DownloadAnswers) :
    NodeM Bool :=
  if appInfo.isDockerImage then prepareImage appInfo answers
  else prepareFile dataPath appInfo answers

/-- Take note of how a download ends. -/
def settleDownload (appInfo : DownloadInfo) (newGroup : Nat) (startFlag : Bool) : NodeM Unit :=
  if startFlag then
    onApp fun app => { app with
      appInfo := some appInfo
      groupId := newGroup
      running := .downloaded }
  else
    onApp fun app => { app with running := .pending }

/-- Start what is downloaded next to the other instance, and go on if this ends with an
error. -/
def syncDownloaded (dataPath : Bytes) (appInfo : DownloadInfo) (syncArgs optionArgs : Option Bytes)
    (answers : RunAnswers) : NodeM (Option Unit) :=
  attempt (processRunTask dataPath appInfo syncArgs optionArgs .sync answers)

def processDownloadTask (dataPath : Bytes) (appInfo : DownloadInfo) (newGroup : Nat)
    (syncArgs optionArgs : Option Bytes) (answers : DownloadAnswers) (startAnswers : RunAnswers) :
    NodeM Unit := do
  let startFlag ← prepareDownload dataPath appInfo answers
  if startFlag then
    let _ ← syncDownloaded dataPath appInfo syncArgs optionArgs startAnswers
    settleDownload appInfo newGroup startFlag
  else
    settleDownload appInfo newGroup startFlag

/-- An application without arguments. -/
def plainApp (appId : Nat) (isDockerImage : Bool) : DownloadInfo where
  appId := appId
  appHash := []
  fileName := [97]
  size := 0
  group := appId
  url := [98]
  args := none
  log := none
  isDockerImage := isDockerImage
  dockerImage := some [99]

end Popsicle.Node
