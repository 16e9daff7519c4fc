import Popsicle.Node.Sites

/-!
# Only verified programs are started

A file has the registered hash when its download ends, and it is started later, by tasks
that other downloads and runs may come in between of.  Where no two hashes are registered for
one file, and no log is one of these files, every program that is started still has the hash.
-/

namespace Popsicle.Node

open Foundation Exec

variable {Context File : Type} {sha256 : Sha256 Context} {overflowChecks : Bool}
  {dataPath : Bytes}

/-! ## Spawning -/

/-- A child is spawned only for a native application whose path can be read. -/
def SpawnsNative (dataPath : Bytes) (appInfo : DownloadInfo) (host after : Host) : Prop :=
  after.machine.spawned = host.machine.spawned ∨
    appInfo.isDockerImage = false ∧ (appPath dataPath appInfo).isSome

section Spawning

variable {host : Host} {appInfo : DownloadInfo} {runArgs optionArgs : Option Bytes}

theorem ends_stopInstance_spawned {index : InstanceIndex} {answers : StopAnswers} :
    (stopInstance index answers).Ends host
      (fun _ after => after.machine.spawned = host.machine.spawned)
      fun _ after => after.machine.spawned = host.machine.spawned := by
  simp only [stopInstance, ends_bind, ends_read, ends_ite]
  constructor
  · intro _
    split
    · simp only [ends_bind, ends_require, ends_attempt, ends_pure]
      refine ⟨fun container _ => ?_, fun _ => trivial⟩
      refine ends_removeDockerContainer.mono ?_ ?_
      · rintro _ after ⟨_, removed⟩
        rw [removed]
        split <;> rfl
      · rintro stop after ⟨rfl, _, removed⟩
        dsimp only
        rw [removed]
        split <;> rfl
    · exact rfl
  · intro _
    split
    · simp only [ends_bind, ends_ensure, ends_onMachine]
      exact ⟨fun _ => ⟨fun _ => rfl, fun _ => rfl⟩, fun _ => trivial⟩
    · exact rfl

theorem appPath_isSome (directory : Readable dataPath) (fileName : Readable appInfo.fileName) :
    (appPath dataPath appInfo).isSome := by
  obtain ⟨directory, isDirectory⟩ := Option.isSome_iff_exists.mp directory
  obtain ⟨fileName, isFileName⟩ := Option.isSome_iff_exists.mp fileName
  simp [appPath, isDirectory, isFileName]

theorem started_spawnsNative {machine : Machine} {answers : RunAnswers}
    (startable : Startable dataPath appInfo answers) :
    (machine.started appInfo optionArgs answers).spawned = machine.spawned ∨
      appInfo.isDockerImage = false ∧ (appPath dataPath appInfo).isSome := by
  unfold Startable at startable
  split at startable
  · rename_i isDocker
    left
    rw [Machine.started, if_pos isDocker]
    split
    · split <;> rfl
    · rfl
  · rename_i notDocker
    exact .inr ⟨Bool.eq_false_iff.mpr notDocker, appPath_isSome startable.1 startable.2.1⟩

theorem ends_processRunTask_spawned {startType : StartType} {answers : RunAnswers} :
    (processRunTask dataPath appInfo runArgs optionArgs startType answers).Ends host
      (fun _ after => SpawnsNative dataPath appInfo host after)
      fun _ after => SpawnsNative dataPath appInfo host after := by
  simp only [processRunTask, runSection, ends_bind, ends_read]
  refine ends_prepareRun.mono ?_ ?_
  · rintro args prepared ⟨_, _, sameMachine⟩
    have before : prepared.machine.spawned = host.machine.spawned := by rw [sameMachine]
    refine ends_stopInstance_spawned.mono ?_ fun _ after same => .inl (same.trans before)
    rintro _ stopped same
    have before := same.trans before
    refine ends_startInstance.mono ?_ ?_
    · rintro process started ⟨startable, _, _, isStarted⟩
      have spawns : SpawnsNative dataPath appInfo host started := by
        rw [SpawnsNative, isStarted, ← before]
        exact started_spawnsNative startable
      cases startType with
      | sync => exact spawns
      | run =>
          simp only [replaceInstance, ends_bind, ends_read, ends_ite, ends_onApp]
          have still : ∀ after : Host, after.machine.spawned = started.machine.spawned →
              SpawnsNative dataPath appInfo host after := by
            intro after same
            rwa [SpawnsNative, same]
          refine ends_stopInstance_spawned.mono ?_ fun _ after same => still after same
          intro _ after same
          exact ⟨fun _ => still _ same, fun _ => still _ same⟩
    · rintro stop after ⟨_, _, untouched⟩
      exact .inl ((congrArg Machine.spawned untouched.machine).trans before)
  · rintro stop after ⟨_, _, untouched⟩
    exact .inl (congrArg Machine.spawned untouched.machine)

variable {worker after : Worker} {index : Nat} {answers : RunAnswers}

/-- A start next to the other instance spawns native applications only. -/
theorem sync_spawnsNative (worked : workerStep dataPath worker (.sync index answers) = some after) :
    ∃ download, worker.downloads[index]? = some ⟨download, .sync⟩ ∧
      SpawnsNative dataPath download.appInfo worker.host after.host := by
  simp only [workerStep] at worked
  split at worked
  · rename_i download found
    cases worked
    refine ⟨download, found, ?_⟩
    have spawns : SpawnsNative dataPath download.appInfo worker.host
        (syncDownloaded dataPath download.appInfo download.syncArgs download.optionArgs answers
          worker.host).2 := by
      apply Ends.last
      rw [syncDownloaded, ends_attempt]
      refine ends_processRunTask_spawned.mono (fun _ _ => id) fun stop after spawns => ?_
      cases stop <;> exact spawns
    unfold Worker.sync
    split <;> rename_i ended <;> rw [ended] at spawns
    · simpa [Worker.goOn] using spawns
    · simpa [Worker.goOn] using spawns
  · cases worked

theorem run_spawnsNative {task : RunTask} (found : worker.runs[index]? = some task)
    (worked : workerStep dataPath worker (.run index answers) = some after) :
    SpawnsNative dataPath task.appInfo worker.host after.host := by
  simp only [workerStep, found, Option.map_some, Option.some.injEq] at worked
  subst worked
  exact Ends.last ends_processRunTask_spawned

end Spawning

/-! ## Programs -/

/-- The hashes that are registered for the files of applications. -/
abbrev Catalogue (File : Type) := File → Option Bytes

/-- The hash of an application is the one of its file, and its log is the file of none. -/
structure Listed (dataPath : Bytes) (catalogue : Catalogue File) (locate : String → File)
    (appInfo : DownloadInfo) : Prop where
  program : appInfo.isDockerImage = false → ∀ path, appPath dataPath appInfo = some path →
    catalogue (locate path) = some appInfo.appHash
  log : ∀ logFileName, fromUtf8 (appInfo.log.getD appInfo.fileName) = some logFileName →
    catalogue (locate logFileName) = none

/-- A native application is there with its hash. -/
def Kept (sha256 : Sha256 Context) (dataPath : Bytes) (disk : Disk File) (appInfo : DownloadInfo) :
    Prop :=
  appInfo.isDockerImage = false → ∀ path, appPath dataPath appInfo = some path →
    Hashed sha256 disk path appInfo.appHash

/-- Files that have their registered hashes are not written. -/
structure Keeps (sha256 : Sha256 Context) (catalogue : Catalogue File) (disk after : Disk File) :
    Prop where
  locate : after.locate = disk.locate
  holds : ∀ file hash content, catalogue file = some hash → disk.holds file = some content →
    sha256.value content = hash → after.holds file = some content

section Keeping

variable {catalogue : Catalogue File} {disk after : Disk File} {appInfo : DownloadInfo}

theorem Keeps.refl (disk : Disk File) : Keeps sha256 catalogue disk disk :=
  ⟨rfl, fun _ _ _ _ isContent _ => isContent⟩

/-- An application stays there as long as such files are kept. -/
theorem Kept.keeps (kept : Kept sha256 dataPath disk appInfo)
    (listed : Listed dataPath catalogue disk.locate appInfo)
    (keeps : Keeps sha256 catalogue disk after) : Kept sha256 dataPath after appInfo := by
  intro native path isPath
  obtain ⟨content, isContent, isHash⟩ := kept native path isPath
  refine ⟨content, ?_, isHash⟩
  rw [Disk.content, keeps.locate]
  exact keeps.holds _ _ content (listed.program native path isPath) isContent isHash

variable [DecidableEq File]

theorem openLog_keeps {runArgs : Option Bytes} {answers : RunAnswers}
    (listed : Listed dataPath catalogue disk.locate appInfo) :
    Keeps sha256 catalogue disk (openLog appInfo runArgs answers disk) := by
  unfold openLog
  split
  · rename_i logFileName isLog
    split
    · refine ⟨rfl, fun file hash content isListed isContent _ => ?_⟩
      have other : file ≠ disk.locate logFileName := by
        rintro rfl
        rw [listed.log logFileName isLog] at isListed
        cases isListed
      exact (Function.update_of_ne other _ _).trans isContent
    · exact .refl disk
  · exact .refl disk

/-- A download writes to its own file only, and not if this has the hash. -/
theorem fetchFile_keeps {server : Server} {answers : FileAnswers} {fuel : Nat}
    (native : appInfo.isDockerImage = false)
    (listed : Listed dataPath catalogue disk.locate appInfo) (opened : answers.opened) :
    Keeps sha256 catalogue disk (fetchFile sha256 overflowChecks dataPath appInfo server answers
      fuel disk).2 := by
  apply Ends.last
  cases isPath : appPath dataPath appInfo with
  | none =>
      have same : Keeps sha256 catalogue disk disk := .refl disk
      simp only [fetchFile, ends_bind, ends_require]
      refine ⟨fun url _ => ⟨fun directory isDirectory => ⟨fun fileName isFileName => ?_,
        fun _ => same⟩, fun _ => same⟩, fun _ => same⟩
      simp [appPath, isDirectory, isFileName] at isPath
  | some path =>
      obtain ⟨directory, isDirectory, fileName, isFileName, rfl⟩ : ∃ directory,
          fromUtf8 dataPath = some directory ∧ ∃ fileName,
            fromUtf8 appInfo.fileName = some fileName ∧ programPath directory fileName = path := by
        simpa [appPath, Option.bind_eq_some_iff] using isPath
      have isListed := listed.program native _ isPath
      have keeps : ∀ after, OnlyAt (programPath directory fileName) disk after →
          (Hashed sha256 disk (programPath directory fileName) appInfo.appHash →
            answers.opened → after = disk) → Keeps sha256 catalogue disk after := by
        intro after only spares
        refine ⟨only.locate, fun file hash content isHash isContent isValue => ?_⟩
        by_cases isFile : file = disk.locate (programPath directory fileName)
        · subst isFile
          cases isHash.symm.trans isListed
          rw [spares ⟨content, isContent, isValue⟩ opened]
          exact isContent
        · rw [only.holds file isFile]
          exact isContent
      refine (ends_fetchFile isDirectory isFileName).mono ?_ ?_
      · rintro done after ⟨only, _, spares⟩
        exact keeps after only spares
      · rintro stop after ⟨only, spares⟩
        exact keeps after only spares

end Keeping

/-! ## Sites -/

/-- An application is listed, and is there with its hash. -/
structure Trusted (sha256 : Sha256 Context) (dataPath : Bytes) (catalogue : Catalogue File)
    (disk : Disk File) (appInfo : DownloadInfo) : Prop where
  listed : Listed dataPath catalogue disk.locate appInfo
  kept : Kept sha256 dataPath disk appInfo

/-- Only listed applications are loaded, files that are there can be opened, and nothing else
writes to the files of applications. -/
def Careful (dataPath : Bytes) (catalogue : Catalogue File) (site : Site File) :
    SiteAction File → Prop
  | .work (.load _ shouldLoad) =>
      ∀ appInfo ∈ shouldLoad, Listed dataPath catalogue site.disk.locate appInfo
  | .prepare _ answers => answers.files.opened
  | .writes disk =>
      disk.locate = site.disk.locate ∧
        ∀ file, (catalogue file).isSome → disk.holds file = site.disk.holds file
  | _ => True

/-- What was started had the hash of the application. -/
def Launched.Genuine (sha256 : Sha256 Context) (launched : Launched) : Prop :=
  ∃ content, launched.program = some content ∧
    sha256.value content = launched.appInfo.appHash

/-- Applications that are downloaded, ready or about to run are there with their hashes. -/
structure Verified (sha256 : Sha256 Context) (dataPath : Bytes) (catalogue : Catalogue File)
    (site : Site File) : Prop where
  listed : ∀ task ∈ site.worker.downloads,
    Listed dataPath catalogue site.disk.locate task.download.appInfo
  downloaded : ∀ task ∈ site.worker.downloads, task.phase = .sync ∨ task.phase = .settle true →
    Kept sha256 dataPath site.disk task.download.appInfo
  ready : site.worker.host.app.running = .downloaded → ∀ appInfo ∈ site.worker.host.app.appInfo,
    Trusted sha256 dataPath catalogue site.disk appInfo
  runs : ∀ task ∈ site.worker.runs, Trusted sha256 dataPath catalogue site.disk task.appInfo
  launched : ∀ launched ∈ site.launched, launched.Genuine sha256

section Steps

variable {catalogue : Catalogue File} {site : Site File} {worker : Worker} {disk : Disk File}

theorem Trusted.keeps {appInfo : DownloadInfo} {after : Disk File}
    (trusted : Trusted sha256 dataPath catalogue disk appInfo)
    (keeps : Keeps sha256 catalogue disk after) :
    Trusted sha256 dataPath catalogue after appInfo := by
  refine ⟨?_, trusted.kept.keeps trusted.listed keeps⟩
  rw [keeps.locate]
  exact trusted.listed

theorem Verified.keeps (verified : Verified sha256 dataPath catalogue site)
    (keeps : Keeps sha256 catalogue site.disk disk) :
    Verified sha256 dataPath catalogue { site with disk } where
  listed task member := by
    dsimp only
    rw [keeps.locate]
    exact verified.listed task member
  downloaded task member isDone :=
    (verified.downloaded task member isDone).keeps (verified.listed task member) keeps
  ready isReady appInfo isInfo := (verified.ready isReady appInfo isInfo).keeps keeps
  runs task member := (verified.runs task member).keeps keeps
  launched := verified.launched

/-- The tasks go on with applications that are there. -/
theorem Verified.transition {action : Action} (verified : Verified sha256 dataPath catalogue site)
    (transition : Transition dataPath site.worker action worker)
    (loaded : ∀ storage appInfo, action = .load storage (some appInfo) →
      Listed dataPath catalogue site.disk.locate appInfo)
    (prepared : ∀ index answers download, action = .prepare index answers →
      site.worker.downloads[index]? = some ⟨download, .prepare⟩ →
      worker.downloads = site.worker.downloads.set index ⟨download, .sync⟩ →
        Kept sha256 dataPath site.disk download.appInfo) :
    Verified sha256 dataPath catalogue { site with worker } := by
  cases transition with
  | waits | rests =>
      exact ⟨verified.listed, verified.downloaded, verified.ready, verified.runs,
        verified.launched⟩
  | loads storage appInfo syncArgs optionArgs args loads =>
      refine ⟨fun task member => ?_, fun task member isDone => ?_, by rintro ⟨⟩, verified.runs,
        verified.launched⟩
      · rcases List.mem_append.mp member with earlier | isNew
        · exact verified.listed task earlier
        · rw [List.mem_singleton.mp isNew]
          exact loaded storage appInfo rfl
      · rcases List.mem_append.mp member with earlier | isNew
        · exact verified.downloaded task earlier isDone
        · rw [List.mem_singleton.mp isNew] at isDone
          rcases isDone with isOther | isOther <;> cases isOther
  | launches storage appInfo runArgs optionArgs downloaded isInfo =>
      refine ⟨verified.listed, verified.downloaded, by rintro ⟨⟩, fun task member => ?_,
        verified.launched⟩
      rcases List.mem_append.mp member with earlier | isNew
      · exact verified.runs task earlier
      · rw [List.mem_singleton.mp isNew]
        exact verified.ready downloaded appInfo isInfo
  | prepares index answers download host phase found uninterrupted same isPhase =>
      have ofTask := verified.listed _ (List.mem_of_getElem? found)
      refine ⟨fun task member => ?_, fun task member isDone => ?_, ?_, verified.runs,
        verified.launched⟩
      · rcases List.mem_or_eq_of_mem_set member with earlier | rfl
        · exact verified.listed task earlier
        · exact ofTask
      · rcases List.mem_or_eq_of_mem_set member with earlier | rfl
        · exact verified.downloaded task earlier isDone
        · rcases isPhase with rfl | rfl
          · exact prepared index answers download rfl found rfl
          · rcases isDone with isOther | isOther <;> cases isOther
      · simp only [Worker.goOn, same]
        exact verified.ready
  | interrupts index answers download host found interrupted same =>
      refine ⟨fun task member => verified.listed task (List.mem_of_mem_eraseIdx member),
        fun task member => verified.downloaded task (List.mem_of_mem_eraseIdx member), ?_,
        verified.runs, verified.launched⟩
      simp only [Worker.goOn, same]
      exact verified.ready
  | syncs index answers download filled host found calm isFilled same sameIndex =>
      have listed := verified.listed _ (List.mem_of_getElem? found)
      have kept := verified.downloaded _ (List.mem_of_getElem? found) (.inl rfl)
      refine ⟨fun task member => ?_, fun task member isDone => ?_, ?_, ?_, verified.launched⟩
      · simp only [Worker.goOn, note_downloads] at member
        rcases List.mem_or_eq_of_mem_set member with earlier | rfl
        · exact verified.listed task earlier
        · exact listed
      · simp only [Worker.goOn, note_downloads] at member
        rcases List.mem_or_eq_of_mem_set member with earlier | rfl
        · exact verified.downloaded task earlier isDone
        · exact kept
      · simp only [Worker.goOn, note_host, same.running, same.appInfo]
        exact verified.ready
      · simp only [Worker.goOn, note_runs]
        exact verified.runs
  | panics index answers download host found panics same =>
      refine ⟨fun task member => ?_, fun task member => ?_, ?_, ?_, verified.launched⟩
      · simp only [Worker.goOn, note_downloads] at member
        exact verified.listed task (List.mem_of_mem_eraseIdx member)
      · simp only [Worker.goOn, note_downloads] at member
        exact verified.downloaded task (List.mem_of_mem_eraseIdx member)
      · simp only [Worker.goOn, note_host, same]
        exact verified.ready
      · simp only [Worker.goOn, note_runs]
        exact verified.runs
  | settles index download startFlag found =>
      have ofTask := List.mem_of_getElem? found
      refine ⟨fun task member => verified.listed task (List.mem_of_mem_eraseIdx member),
        fun task member => verified.downloaded task (List.mem_of_mem_eraseIdx member), ?_,
        verified.runs, verified.launched⟩
      cases startFlag with
      | false => rintro ⟨⟩
      | true =>
          rintro _ appInfo ⟨⟩
          exact ⟨verified.listed _ ofTask, verified.downloaded _ ofTask (.inr rfl)⟩
  | runs index answers task host found same kept =>
      refine ⟨verified.listed, verified.downloaded, ?_,
        fun task member => verified.runs task (List.mem_of_mem_eraseIdx member), verified.launched⟩
      simp only [same.running, same.appInfo]
      exact verified.ready

variable [DecidableEq File]

/-- A download goes on to its start only if the file has the hash. -/
theorem kept_of_prepare {answers : PrepareAnswers} {index : Nat} {download : Download}
    (found : site.worker.downloads[index]? = some ⟨download, .prepare⟩)
    (native : download.appInfo.isDockerImage = false)
    (ended : (fetchFile sha256 overflowChecks dataPath download.appInfo answers.server
      answers.files answers.fuel site.disk).1 ≠ .ok none)
    (worked : workerStep dataPath site.worker (.prepare index (answersOn sha256 overflowChecks
      dataPath download.appInfo answers site.disk)) = some worker)
    (goesOn : worker.downloads = site.worker.downloads.set index ⟨download, .sync⟩) :
    Kept sha256 dataPath (fetchFile sha256 overflowChecks dataPath download.appInfo
      answers.server answers.files answers.fuel site.disk).2 download.appInfo := by
  have agrees := prepareFile_answersOn site.worker.host ended
  have inside := (List.getElem?_eq_some_iff.mp found).1
  have isWorker : worker = site.worker.prepare dataPath index download
      (answersOn sha256 overflowChecks dataPath download.appInfo answers site.disk) := by
    simp only [workerStep, found, Option.some.injEq] at worked
    exact worked.symm
  rw [isWorker, Worker.prepare, prepareDownload, if_neg (Bool.eq_false_iff.mp native)] at goesOn
  rcases isPrepared : prepareFile dataPath download.appInfo (answersOn sha256 overflowChecks
    dataPath download.appInfo answers site.disk) site.worker.host with ⟨stop | _ | _, host⟩
  · rw [isPrepared] at goesOn
    have lengths := congrArg List.length goesOn
    simp only [Worker.goOn, List.length_eraseIdx_of_lt inside, List.length_set] at lengths
    omega
  · rw [isPrepared] at goesOn
    have atIndex := congrArg (·[index]?) goesOn
    simp only [Worker.goOn, List.getElem?_set_self inside] at atIndex
    cases atIndex
  · rw [isPrepared] at agrees
    intro _ path isPath
    obtain ⟨directory, isDirectory, fileName, isFileName, rfl⟩ : ∃ directory,
        fromUtf8 dataPath = some directory ∧ ∃ fileName,
          fromUtf8 download.appInfo.fileName = some fileName ∧
            programPath directory fileName = path := by
      simpa [appPath, Option.bind_eq_some_iff] using isPath
    rcases fetched : fetchFile sha256 overflowChecks dataPath download.appInfo answers.server
      answers.files answers.fuel site.disk with ⟨result, after⟩
    rw [fetched] at agrees
    have isTrue : result = .ok (some true) := agrees.symm
    subst isTrue
    exact ((ends_fetchFile isDirectory isFileName).of_ok fetched).2.1 rfl

/-- A native application that was there when it was started is genuine. -/
theorem Verified.launch {action : Action} {appInfo : DownloadInfo} {runArgs : Option Bytes}
    {answers : RunAnswers} {after : Site File}
    (verified : Verified sha256 dataPath catalogue site)
    (trusted : Trusted sha256 dataPath catalogue site.disk appInfo)
    (spawns : ∀ worker, workerStep dataPath site.worker action = some worker →
      SpawnsNative dataPath appInfo site.worker.host worker.host)
    (notHandler : ∀ storage shouldLoad, action ≠ .load storage shouldLoad)
    (notPrepare : ∀ index answers, action ≠ .prepare index answers)
    (taken : site.launch dataPath action appInfo runArgs answers = some after) :
    Verified sha256 dataPath catalogue after := by
  obtain ⟨worker, worked, rfl⟩ := Option.map_eq_some_iff.mp taken
  have keeps : Keeps sha256 catalogue site.disk (openLog appInfo runArgs answers site.disk) :=
    openLog_keeps trusted.listed
  have goesOn := (verified.keeps keeps).transition (transition_of_step worked)
    (fun storage appInfo isLoad => absurd isLoad (notHandler storage _))
    (fun index answers download isPrepare => absurd isPrepare (notPrepare index answers))
  refine ⟨goesOn.listed, goesOn.downloaded, goesOn.ready, goesOn.runs, ?_⟩
  unfold Site.note
  dsimp only
  split
  · exact verified.launched
  · rename_i spawned
    obtain ⟨native, isPath⟩ := (spawns worker worked).resolve_left spawned
    obtain ⟨path, isPath⟩ := Option.isSome_iff_exists.mp isPath
    refine List.forall_mem_cons.mpr ⟨?_, verified.launched⟩
    obtain ⟨content, isContent, isHash⟩ := (trusted.keeps keeps).kept native path isPath
    exact ⟨content, by simpa [isPath] using isContent, isHash⟩

/-- A download keeps what was verified, and is verified when it ends. -/
theorem Verified.prepare {answers : PrepareAnswers} {index : Nat} {task : DownloadTask}
    {after : Site File} (verified : Verified sha256 dataPath catalogue site)
    (found : site.worker.downloads[index]? = some task) (opened : answers.files.opened)
    (taken : site.prepare sha256 overflowChecks dataPath index task.download.appInfo answers =
      some after) : Verified sha256 dataPath catalogue after := by
  unfold Site.prepare at taken
  split at taken
  · rename_i isDocker
    obtain ⟨worker, worked, rfl⟩ := Option.map_eq_some_iff.mp taken
    refine verified.transition (transition_of_step worked) (by rintro _ _ ⟨⟩) ?_
    rintro _ _ download ⟨⟩ alsoFound _ native
    cases found.symm.trans alsoFound
    exact absurd isDocker (Bool.eq_false_iff.mp native)
  · rename_i notDocker
    have native := Bool.eq_false_iff.mpr notDocker
    split at taken
    · cases taken
    · rename_i result disk ended fetched
      obtain ⟨worker, worked, rfl⟩ := Option.map_eq_some_iff.mp taken
      have keeps : Keeps sha256 catalogue site.disk (fetchFile sha256 overflowChecks dataPath
          task.download.appInfo answers.server answers.files answers.fuel site.disk).2 :=
        fetchFile_keeps native (verified.listed task (List.mem_of_getElem? found)) opened
      rw [fetched] at keeps
      refine (verified.keeps keeps).transition (transition_of_step worked) (by rintro _ _ ⟨⟩) ?_
      rintro _ _ download ⟨⟩ alsoFound goesOn
      cases found.symm.trans alsoFound
      have kept := kept_of_prepare found native (by rw [fetched]; exact ended) worked goesOn
      rwa [fetched] at kept

/-- Every step keeps what was verified. -/
theorem Verified.step {action : SiteAction File} {after : Site File}
    (verified : Verified sha256 dataPath catalogue site)
    (careful : Careful dataPath catalogue site action)
    (taken : siteStep sha256 overflowChecks dataPath site action = some after) :
    Verified sha256 dataPath catalogue after := by
  cases action with
  | writes disk =>
      cases taken
      refine verified.keeps ⟨careful.1, fun file hash content isHash isContent _ => ?_⟩
      rw [careful.2 file (by simp [isHash])]
      exact isContent
  | prepare index answers =>
      obtain ⟨task, found, prepared⟩ := Option.bind_eq_some_iff.mp taken
      exact verified.prepare found careful prepared
  | work action =>
      cases action with
      | prepare => cases taken
      | sync index answers =>
          obtain ⟨task, found, launched⟩ := Option.bind_eq_some_iff.mp taken
          obtain ⟨worker, worked, _⟩ := Option.map_eq_some_iff.mp launched
          obtain ⟨download, alsoFound, _⟩ := sync_spawnsNative worked
          cases found.symm.trans alsoFound
          have member := List.mem_of_getElem? found
          refine verified.launch ⟨verified.listed _ member, verified.downloaded _ member (.inl rfl)⟩
            (fun worker worked => ?_) (by rintro _ _ ⟨⟩) (by rintro _ _ ⟨⟩) launched
          obtain ⟨other, isOther, spawns⟩ := sync_spawnsNative worked
          cases found.symm.trans isOther
          exact spawns
      | run index answers =>
          obtain ⟨task, found, launched⟩ := Option.bind_eq_some_iff.mp taken
          exact verified.launch (verified.runs task (List.mem_of_getElem? found))
            (fun worker worked => run_spawnsNative found worked) (by rintro _ _ ⟨⟩)
            (by rintro _ _ ⟨⟩) launched
      | load storage shouldLoad =>
          obtain ⟨worker, worked, rfl⟩ := Option.map_eq_some_iff.mp taken
          refine verified.transition (transition_of_step worked) ?_ (by rintro _ _ _ ⟨⟩)
          rintro _ appInfo ⟨⟩
          exact careful appInfo rfl
      | launch | abandon | settle =>
          obtain ⟨worker, worked, rfl⟩ := Option.map_eq_some_iff.mp taken
          exact verified.transition (transition_of_step worked) (by rintro _ _ ⟨⟩)
            (by rintro _ _ _ ⟨⟩)

end Steps

theorem verified_start {catalogue : Catalogue File} (machine : Machine) (disk : Disk File) :
    Verified sha256 dataPath catalogue (.start machine disk) := by
  constructor <;> simp [Site.start, Worker.start, RunningApp.default]

/-- Every native program that is started has the hash of its application, whatever the server
sends, in whatever order the tasks take their steps. -/
theorem launched_genuine [DecidableEq File] (sha256 : Sha256 Context) (overflowChecks : Bool)
    (dataPath : Bytes) (catalogue : Catalogue File) (machine : Machine) (disk : Disk File)
    {site : Site File}
    (reaches : Reaches (siteStep sha256 overflowChecks dataPath) (Careful dataPath catalogue)
      (.start machine disk) site) :
    ∀ launched ∈ site.launched, launched.Genuine sha256 := by
  suffices verified : Verified sha256 dataPath catalogue site from verified.launched
  exact reaches.invariant (verified_start machine disk)
    fun _ _ _ verified careful taken => verified.step careful taken

/-- The steps that load the file `abc` and start it. -/
def abcActions : List (SiteAction String) :=
  [.work (.load none (some abcInfo)),
    .prepare 0
      { docker :=
          { image := ⟨false, false, false, false, []⟩, pull := .success
            imageAgain := ⟨false, false, false, false, []⟩, opened := false, digest := none
            fetched := .ok () }
        server := .static [97, 98, 99]
        files := .success
        fuel := 4 },
    .work (.sync 0 .success)]

/-- The hash of `abc` is registered for its file. -/
def abcCatalogue : Catalogue String := fun file =>
  if file = programPath "/" "a" then some abcInfo.appHash else none

theorem abc_listed : Listed [47] abcCatalogue emptyDisk.locate abcInfo where
  program := by
    intro _ path isPath
    have isAbc : appPath [47] abcInfo = some (programPath "/" "a") := by decide +kernel
    cases isAbc.symm.trans isPath
    rfl
  log := by
    intro logFileName isLog
    have isAbc : fromUtf8 (abcInfo.log.getD abcInfo.fileName) = some "a" := by decide +kernel
    cases isAbc.symm.trans isLog
    decide +kernel

/-- The program `abc` is started, and it is genuine. -/
theorem launched_genuine_abc :
    ∃ site : Site String, site.launched.length = 1 ∧
      ∀ launched ∈ site.launched, launched.Genuine abcSha256 := by
  let start : Site String :=
    .start { spawned := 0, children := [], containers := [] } emptyDisk
  let step : Site String → SiteAction String → Option (Site String) :=
    siteStep abcSha256 true [47]
  have lengths : (Foundation.run step start abcActions).map (·.launched.length) = some 1 := by
    decide +kernel
  obtain ⟨site, taken, isOne⟩ := Option.map_eq_some_iff.mp lengths
  have admitted : Admitted step (Careful [47] abcCatalogue) start abcActions := by
    refine ⟨?_, fun _ _ => ⟨rfl, fun _ _ => ⟨trivial, fun _ _ => trivial⟩⟩⟩
    rintro _ ⟨⟩
    exact abc_listed
  exact ⟨site, isOne, launched_genuine abcSha256 true [47] abcCatalogue _ emptyDisk
    (Reaches.start.append admitted taken)⟩

end Popsicle.Node
