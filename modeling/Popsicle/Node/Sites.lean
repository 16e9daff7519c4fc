import Popsicle.Node.Fetching
import Popsicle.Node.Worker

/-!
# A node with its disk

The tasks of a node meet on its disk: downloads write the files of applications, runs start
them and open their logs.  With the disk, the answers that the tasks get are no longer free: a
file is there if it was written, and has the hash of what was written to it.
-/

namespace Popsicle.Node

open Foundation Exec

variable {Context File : Type}

/-- A start of a native application, with what its file held. -/
structure Launched where
  appInfo : DownloadInfo
  program : Option Bytes

/-- The node with its disk, and the native applications that it has started so far. -/
structure Site (File : Type) where
  worker : Worker
  disk : Disk File
  launched : List Launched

def Site.start (machine : Machine) (disk : Disk File) : Site File where
  worker := .start machine
  disk := disk
  launched := []

/-- How the calls of a download end: those to docker, to the server and to the operating
system, and how many ranges it is given time for. -/
structure PrepareAnswers where
  docker : DownloadAnswers
  server : Server
  files : FileAnswers
  fuel : Nat

/-- A step of a task, or something else that writes to the disk. -/
inductive SiteAction (File : Type) where
  | work (action : Action)
  | prepare (index : Nat) (answers : PrepareAnswers)
  | writes (disk : Disk File)

/-! ## Answers of the disk -/

/-- The path of the file of an application, where its name can be read. -/
def appPath (dataPath : Bytes) (appInfo : DownloadInfo) : Option String := do
  let directory ← fromUtf8 dataPath
  let fileName ← fromUtf8 appInfo.fileName
  return programPath directory fileName

/-- How the calls of a download end on a disk. -/
def answersOn [DecidableEq File] (sha256 : Sha256 Context) (overflowChecks : Bool)
    (dataPath : Bytes) (appInfo : DownloadInfo) (answers : PrepareAnswers) (disk : Disk File) :
    DownloadAnswers :=
  let path := (appPath dataPath appInfo).getD ""
  let url := (fromUtf8 appInfo.url).getD ""
  { answers.docker with
    opened := answers.files.opened && (disk.content path).isSome
    digest := (fileDigest sha256 path answers.files.reads disk).1.toOption
    fetched := (downloadSdk sha256 overflowChecks dataPath appInfo url answers.server
      answers.files answers.fuel disk).1.map fun _ => () }

/-- Open the log file of a run, if it gets there. -/
def openLog [DecidableEq File] (appInfo : DownloadInfo) (runArgs : Option Bytes)
    (answers : RunAnswers) (disk : Disk File) : Disk File :=
  match fromUtf8 (appInfo.log.getD appInfo.fileName) with
  | some logFileName =>
      if ReadableArgs runArgs ∧ ReadableArgs appInfo.args ∧ answers.logCreated then
        disk.create logFileName
      else disk
  | none => disk

/-! ## Steps -/

section Steps

variable [DecidableEq File] (sha256 : Sha256 Context) (overflowChecks : Bool) (dataPath : Bytes)

/-- A download works on the disk. -/
def Site.prepare (site : Site File) (index : Nat) (appInfo : DownloadInfo)
    (answers : PrepareAnswers) : Option (Site File) :=
  if appInfo.isDockerImage then
    (workerStep dataPath site.worker (.prepare index answers.docker)).map fun worker =>
      { site with worker }
  else
    match fetchFile sha256 overflowChecks dataPath appInfo answers.server answers.files
        answers.fuel site.disk with
    | (.ok none, _) => none
    | (_, disk) =>
        (workerStep dataPath site.worker (.prepare index (answersOn sha256 overflowChecks dataPath
          appInfo answers site.disk))).map fun worker => { site with worker, disk }

/-- Take note of the application that a run has started, if it is a new child. -/
def Site.note (site : Site File) (worker : Worker) (disk : Disk File) (appInfo : DownloadInfo) :
    Site File where
  worker := worker
  disk := disk
  launched :=
    if worker.host.machine.spawned = site.worker.host.machine.spawned then site.launched
    else
      { appInfo, program := (appPath dataPath appInfo).bind disk.content } :: site.launched

/-- A run opens its log and starts the application. -/
def Site.launch (site : Site File) (action : Action) (appInfo : DownloadInfo)
    (runArgs : Option Bytes) (answers : RunAnswers) : Option (Site File) :=
  (workerStep dataPath site.worker action).map fun worker =>
    site.note dataPath worker (openLog appInfo runArgs answers site.disk) appInfo

def siteStep (site : Site File) : SiteAction File → Option (Site File)
  | .writes disk => some { site with disk }
  | .prepare index answers =>
      site.worker.downloads[index]?.bind fun task =>
        site.prepare sha256 overflowChecks dataPath index task.download.appInfo answers
  | .work (.prepare ..) => none
  | .work (.sync index answers) =>
      site.worker.downloads[index]?.bind fun task =>
        site.launch dataPath (.sync index answers) task.download.appInfo task.download.syncArgs
          answers
  | .work (.run index answers) =>
      site.worker.runs[index]?.bind fun task =>
        site.launch dataPath (.run index answers) task.appInfo task.runArgs answers
  | .work action =>
      (workerStep dataPath site.worker action).map fun worker => { site with worker }

end Steps

/-! ## Sites are workers -/

section Refinement

variable [DecidableEq File] {sha256 : Sha256 Context} {overflowChecks : Bool} {dataPath : Bytes}
  {appInfo : DownloadInfo} {answers : PrepareAnswers} {disk : Disk File}

section Attempt

variable {α : Type} {body : NodeM α} {host after : Host}

theorem attempt_of_ok {value : α} (ended : body host = (.ok value, after)) :
    attempt body host = (.ok (some value), after) := by
  rw [attempt, handle, bind_of_ok ended]
  rfl

theorem attempt_of_error (ended : body host = (.error .error, after)) :
    attempt body host = (.ok none, after) := by
  rw [attempt, handle, bind_of_error ended]
  rfl

end Attempt

theorem needDownload_answersOn (sha256 : Sha256 Context) (overflowChecks : Bool)
    (answers : PrepareAnswers) (disk : Disk File) {path : String}
    (isPath : appPath dataPath appInfo = some path) (host : Host) :
    (needDownload path appInfo.appHash
        (answersOn sha256 overflowChecks dataPath appInfo answers disk) host).1 =
      (fileNeeded sha256 path appInfo.appHash answers.files disk).1 := by
  have isOpened : (answersOn sha256 overflowChecks dataPath appInfo answers disk).opened =
      (answers.files.opened && (disk.content path).isSome) := by
    simp [answersOn, isPath]
  have isDigest : (answersOn sha256 overflowChecks dataPath appInfo answers disk).digest =
      (fileDigest sha256 path answers.files.reads disk).1.toOption := by
    simp [answersOn, isPath]
  rw [needDownload, fileNeeded]
  refine (congrArg Prod.fst (bind_of_ok rfl)).trans ?_
  refine Eq.trans ?_ (congrArg Prod.fst (bind_of_ok rfl)).symm
  by_cases isThere : answers.files.opened ∧ (disk.content path).isSome
  · rw [if_pos isThere, isOpened, if_pos (Bool.and_eq_true_iff.mpr isThere), isDigest]
    have ends := ends_fileDigest sha256 disk path answers.files.reads
    rcases ended : fileDigest sha256 path answers.files.reads disk with ⟨stop | digest, after⟩
    · obtain ⟨rfl, _, _⟩ := ends.of_error ended
      exact (congrArg Prod.fst (bind_of_error ended)).symm
    · refine Eq.trans ?_ (congrArg Prod.fst (bind_of_ok ended)).symm
      rfl
  · rw [if_neg isThere, isOpened, if_neg (mt Bool.and_eq_true_iff.mp isThere)]
    rfl

/-- With the answers of the disk, the task ends as the download on the disk does. -/
theorem prepareFile_answersOn (host : Host)
    (ended : (fetchFile sha256 overflowChecks dataPath appInfo answers.server answers.files
      answers.fuel disk).1 ≠ .ok none) :
    (prepareFile dataPath appInfo
        (answersOn sha256 overflowChecks dataPath appInfo answers disk) host).1.map some =
      (fetchFile sha256 overflowChecks dataPath appInfo answers.server answers.files
        answers.fuel disk).1 := by
  rw [prepareFile]
  rw [fetchFile] at ended ⊢
  cases isUrl : fromUtf8 appInfo.url with
  | none => rfl
  | some url =>
  cases isDirectory : fromUtf8 dataPath with
  | none => rfl
  | some directory =>
  cases isFileName : fromUtf8 appInfo.fileName with
  | none => rfl
  | some fileName =>
  rw [isUrl, isDirectory, isFileName] at ended
  have isPath : appPath dataPath appInfo = some (programPath directory fileName) := by
    simp [appPath, isDirectory, isFileName]
  have isFetched : (answersOn sha256 overflowChecks dataPath appInfo answers disk).fetched =
      (downloadSdk sha256 overflowChecks dataPath appInfo url answers.server answers.files
        answers.fuel disk).1.map fun _ => () := by
    simp [answersOn, isUrl]
  have same := needDownload_answersOn sha256 overflowChecks answers disk isPath host
  have needs := ends_fileNeeded sha256 disk (programPath directory fileName) appInfo.appHash
    answers.files
  rcases isAsked : needDownload (programPath directory fileName) appInfo.appHash
    (answersOn sha256 overflowChecks dataPath appInfo answers disk) host with ⟨asked, asking⟩
  rcases isNeeded : fileNeeded sha256 (programPath directory fileName) appInfo.appHash
    answers.files disk with ⟨result, after⟩
  rw [isAsked, isNeeded] at same
  subst same
  change (Exec.bind (attemptFile (fileNeeded _ _ _ _)) _ disk).1 ≠ _ at ended
  change (Exec.bind (attempt (needDownload (programPath directory fileName) _ _)) _ host).1.map
    some = (Exec.bind (attemptFile (fileNeeded _ _ _ _)) _ disk).1
  rw [Exec.bind] at ended
  rw [Exec.bind, Exec.bind]
  rcases asked with stop | _ | _
  · obtain ⟨rfl, rfl, _⟩ := needs.of_error isNeeded
    rw [attempt_of_error isAsked, attemptFile_of_error isNeeded]
    rfl
  · rw [attempt_of_ok isAsked, attemptFile_of_ok isNeeded]
    rfl
  · obtain ⟨rfl, _, _⟩ := needs.of_ok isNeeded
    rw [attemptFile_of_ok isNeeded] at ended
    rw [attempt_of_ok isAsked, attemptFile_of_ok isNeeded]
    generalize (downloadSdk sha256 overflowChecks dataPath appInfo url answers.server answers.files
      answers.fuel : FileM File (Option Unit)) = download at ended isFetched ⊢
    change (Exec.bind (attemptFile download) _ after).1 ≠ _ at ended
    change _ = (Exec.bind (attemptFile download) _ after).1
    refine (congrArg (Except.map some) (congrArg Prod.fst (bind_of_ok rfl))).trans ?_
    rw [Exec.bind] at ended ⊢
    rw [isFetched]
    rcases isDownloaded : download after with ⟨(_ | _) | _ | _, last⟩
    · rw [attemptFile_of_error isDownloaded]
      rfl
    · rw [attemptFile, handle, bind_of_error isDownloaded]
      rfl
    · rw [attemptFile_of_ok isDownloaded] at ended
      exact absurd rfl ended
    · rw [attemptFile_of_ok isDownloaded]
      rfl

/-- A step of a site is a step of its worker, or writes to the disk only. -/
theorem worker_siteStep {site after : Site File} {action : SiteAction File}
    (taken : siteStep sha256 overflowChecks dataPath site action = some after) :
    after.worker = site.worker ∨
      ∃ worked, workerStep dataPath site.worker worked = some after.worker := by
  cases action with
  | writes disk =>
      cases taken
      exact .inl rfl
  | prepare index answers =>
      obtain ⟨task, _, prepared⟩ := Option.bind_eq_some_iff.mp taken
      unfold Site.prepare at prepared
      split at prepared
      · obtain ⟨worker, worked, rfl⟩ := Option.map_eq_some_iff.mp prepared
        exact .inr ⟨_, worked⟩
      · split at prepared
        · cases prepared
        · obtain ⟨worker, worked, rfl⟩ := Option.map_eq_some_iff.mp prepared
          exact .inr ⟨_, worked⟩
  | work action =>
      cases action with
      | prepare => cases taken
      | sync | run =>
          obtain ⟨task, _, launched⟩ := Option.bind_eq_some_iff.mp taken
          obtain ⟨worker, worked, rfl⟩ := Option.map_eq_some_iff.mp launched
          exact .inr ⟨_, worked⟩
      | load | launch | abandon | settle =>
          obtain ⟨worker, worked, rfl⟩ := Option.map_eq_some_iff.mp taken
          exact .inr ⟨_, worked⟩

/-- Whatever holds of all runs of the worker holds of the worker of a site. -/
theorem reaches_worker {admits : Site File → SiteAction File → Prop} {start site : Site File}
    (reaches : Reaches (siteStep sha256 overflowChecks dataPath) admits start site) :
    Reaches (workerStep dataPath) (fun _ _ => True) start.worker site.worker := by
  induction reaches with
  | start => exact .start
  | next action _ _ taken ih =>
      rcases worker_siteStep taken with same | ⟨worked, isWorked⟩
      · rw [same]
        exact ih
      · exact .next worked ih trivial isWorked

end Refinement

end Popsicle.Node
