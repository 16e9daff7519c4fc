import Popsicle.Downloads
import Popsicle.Node.Verified

/-!
# The chain and its nodes

Each sequencer has a node that asks the chain which application to run.  A node may ask at
any block, and goes on with an answer while the chain goes on with its groups.  Nodes of one
group run one application all the same, and nodes of different groups different ones.
-/

namespace Popsicle.Node

open Foundation Exec

variable {ι AccountId Context File : Type} {config : ContainerConfig}

/-! ## Steps -/

/-- The blocks of the chain, the last one first, and the nodes with their disks. -/
structure Network (ι AccountId File : Type) where
  head : Hosting AccountId
  past : List (Hosting AccountId)
  sites : ι → Site File

/-- The chain before any application is registered, and nodes that have not started. -/
def Network.start (groups : Groups AccountId) (machine : ι → Machine) (disk : ι → Disk File) :
    Network ι AccountId File where
  head := { groups, container := .default }
  past := []
  sites node := .start (machine node) (disk node)

/-- The blocks so far. -/
def Network.blocks (network : Network ι AccountId File) : List (Hosting AccountId) :=
  network.head :: network.past

/-- What happens on the chain or on a node.  A new best head of a node may be any block. -/
inductive NetworkAction (ι AccountId File : Type) where
  | chain (action : HostingAction AccountId)
  | newBestHead (node : ι) (block : Nat) (storage : Storage)
  | site (node : ι) (action : SiteAction File)

section Steps

variable [DecidableEq ι] [DecidableEq AccountId] [DecidableEq File]

/-- The step asks what to load. -/
def SiteAction.asks : SiteAction File → Bool
  | .work (.load ..) => true
  | _ => false

/-- A node takes a step. -/
def Network.work (sha256 : Sha256 Context) (overflowChecks : Bool) (dataPath : Bytes)
    (network : Network ι AccountId File) (node : ι) (action : SiteAction File) :
    Option (Network ι AccountId File) :=
  (siteStep sha256 overflowChecks dataPath (network.sites node) action).map fun site =>
    { network with sites := Function.update network.sites node site }

/-- A step of the chain, or of the node of an author. -/
def networkStep (config : ContainerConfig) (author : ι → AccountId) (sha256 : Sha256 Context)
    (overflowChecks : Bool) (dataPath : ι → Bytes) (network : Network ι AccountId File) :
    NetworkAction ι AccountId File → Option (Network ι AccountId File)
  | .chain action => (hostingStep config network.head action).map fun hosting =>
      { network with head := hosting, past := network.head :: network.past }
  | .newBestHead node block storage => network.blocks[block]?.bind fun hosting =>
      network.work sha256 overflowChecks (dataPath node) node
        (.work (.load storage (shuldLoad hosting (author node))))
  | .site node action =>
      if action.asks then none
      else network.work sha256 overflowChecks (dataPath node) node action

end Steps

/-! ## What the chain keeps -/

/-- What a node is told is what is registered of the application of its group. -/
structure Registered (hosting : Hosting AccountId) (info : DownloadInfo) : Prop where
  given : hosting.container.groupAppMap.get info.group = some info.appId
  stored : ∃ appInfo, hosting.container.appInfoMap.get info.appId = some appInfo ∧
    info = appInfo.download info.group info.appId info.url

section Chain

variable {hosting after : Hosting AccountId} {container : Container AccountId}
  {allocation : Allocation} {author : AccountId} {info : DownloadInfo}

/-- The registered applications are those of another state of the pallet, too. -/
def Extends (container after : Container AccountId) : Prop :=
  ∀ app appInfo, container.appInfoMap.get app = some appInfo →
    after.appInfoMap.get app = some appInfo

theorem extends_refl (container : Container AccountId) : Extends container container :=
  fun _ _ stored => stored

theorem ends_allocApp_appInfoMap (group : Nat) (inuseApps : List Bool) (index remaining : Nat) :
    (allocApp group inuseApps index remaining).Ends container
      (fun _ after => after.appInfoMap = container.appInfoMap)
      fun _ _ => True := by
  induction remaining generalizing index with
  | zero => exact rfl
  | succ remaining ih =>
      simp only [allocApp, ends_ite, ends_bind, ends_read, ends_ensure, ends_write, ends_pure]
      exact ⟨fun _ => ⟨fun _ => trivial, fun _ => trivial⟩, fun _ => ih _⟩

theorem ends_allocApps_appInfoMap (groups : List Nat) (inuseApps : List Bool) :
    (allocApps groups inuseApps).Ends container
      (fun _ after => after.appInfoMap = container.appInfoMap)
      fun _ _ => True := by
  induction groups generalizing container inuseApps with
  | nil => exact rfl
  | cons group rest ih =>
      simp only [allocApps, ends_bind, ends_read]
      split
      · exact ih inuseApps
      · rw [ends_bind]
        refine (ends_allocApp_appInfoMap group inuseApps 0 inuseApps.length).imp ?_
        intro inuseApps middle same
        rw [← same]
        exact ih inuseApps

theorem ends_containerDispatch_extends (represents : Represents config container allocation)
    (origin : Origin AccountId) (call : ContainerCall) :
    (containerDispatch config origin call).Ends container (fun _ after => Extends container after)
      fun _ after => Extends container after := by
  cases call with
  | registerApp appHash projectName fileName size args log isDockerImage dockerImage =>
      simp only [containerDispatch, registerApp, ends_transactional, ends_bind, ends_ensureSigned,
        ends_read, ends_write, ends_u32Result_nat, ends_ensure]
      refine ⟨fun who _ => ⟨fun _ => ⟨fun hasRoom => ?_, fun _ => extends_refl container⟩,
        fun _ => extends_refl container⟩, fun _ => extends_refl container⟩
      intro app appInfo stored
      rw [represents.inuse, Allocation.length_usage] at hasRoom
      have fits := config.maxRuningApp_le
      have inside := (represents.appInfo app).mp (by rw [stored]; rfl)
      have isNext : container.nextApplicationId = allocation.apps + 1 := by
        rw [represents.nextApplicationId]
        exact Nat.mod_eq_of_lt (by omega)
      rw [StorageMap.get_insert_of_ne]
      · exact stored
      · omega
  | setDefaultUrl url =>
      simp only [containerDispatch, setDefaultUrl, ends_transactional, ends_bind,
        ends_ensureRoot, ends_write]
      exact ⟨fun _ => extends_refl container, fun _ => extends_refl container⟩

/-- No step of the chain changes an application. -/
theorem extends_of_step (represents : Represents config hosting.container allocation)
    {action : HostingAction AccountId} (taken : hostingStep config hosting action = some after) :
    Extends hosting.container after.container := by
  cases action with
  | extrinsic origin call =>
      cases taken
      exact Ends.last (ends_containerDispatch_extends represents origin call)
  | regroup groups =>
      cases taken
      exact extends_refl _
  | finalize =>
      simp only [hostingStep] at taken
      split at taken
      · rename_i container run
        cases taken
        have same := (ends_allocApps_appInfoMap _ _).of_ok run
        intro app appInfo stored
        dsimp only
        rw [same]
        exact stored
      · cases taken

/-- What was registered stays so. -/
theorem Registered.step (registered : Registered hosting info)
    (represents : Represents config hosting.container allocation)
    {action : HostingAction AccountId} (taken : hostingStep config hosting action = some after) :
    Registered after info := by
  obtain ⟨next, represented, atLeast⟩ := represents.kept (Reaches.start.next action trivial taken)
  obtain ⟨inside, isApp⟩ := (represents.matched.groupApp _ _).mp registered.given
  obtain ⟨appInfo, stored, isInfo⟩ := registered.stored
  refine ⟨(represented.matched.groupApp _ _).mpr ⟨inside.trans_le atLeast, isApp⟩, appInfo, ?_,
    isInfo⟩
  exact extends_of_step represents taken _ _ stored

/-- Two answers for one group differ in the address to download from at most. -/
theorem Registered.agree {hosting : Hosting AccountId} {info other : DownloadInfo}
    (registered : Registered hosting info) (alsoRegistered : Registered hosting other)
    (same : info.group = other.group) : other = { info with url := other.url } := by
  have sameApp : info.appId = other.appId := by
    have given := registered.given
    rw [same, alsoRegistered.given] at given
    exact (Option.some.inj given).symm
  obtain ⟨appInfo, stored, isInfo⟩ := registered.stored
  obtain ⟨otherInfo, alsoStored, isOther⟩ := alsoRegistered.stored
  rw [← sameApp, stored] at alsoStored
  cases alsoStored
  rw [isInfo, isOther, same, sameApp]
  rfl

variable [DecidableEq AccountId]

theorem registered_of_shuldLoad (told : shuldLoad hosting author = some info) :
    Registered hosting info := by
  simp only [shuldLoad, Option.bind_eq_bind, Option.bind_eq_some_iff] at told
  obtain ⟨app, given, appInfo, stored, url, _, isInfo⟩ := told
  cases isInfo
  exact ⟨given, appInfo, stored, rfl⟩

theorem inGroup_of_accountInGroup {groups : Groups AccountId} {group : Nat}
    (found : (accountInGroup author groups).1 = .ok group) : InGroup groups author group := by
  change (require _ _ groups).1 = _ at found
  cases isFirst : groups.groupMembers.findIdx? (fun group => decide (author ∈ group)) with
  | none =>
      rw [isFirst] at found
      cases found
  | some first =>
      rw [isFirst] at found
      cases found
      obtain ⟨inside, member, _⟩ := List.findIdx?_eq_some_iff_getElem.mp isFirst
      exact ⟨_, List.getElem?_eq_getElem inside, of_decide_eq_true member⟩

/-- A node is only told of an application of the group it is in. -/
theorem inGroup_of_shuldLoad (represents : Represents config hosting.container allocation)
    (told : shuldLoad hosting author = some info) :
    InGroup hosting.groups author info.group := by
  have given := (registered_of_shuldLoad told).given
  have isGroup : getGroupId hosting.groups author = info.group := by
    simp only [shuldLoad, Option.bind_eq_bind, Option.bind_eq_some_iff] at told
    obtain ⟨app, _, appInfo, _, url, _, isInfo⟩ := told
    cases isInfo
    rfl
  unfold getGroupId at isGroup
  split at isGroup
  · rename_i group found
    rw [← isGroup]
    exact inGroup_of_accountInGroup found
  · rw [← isGroup, represents.noGroup] at given
    cases given

end Chain

/-! ## What the nodes handle -/

/-- The worker downloads the application, is about to run it, or has it ready. -/
inductive Worker.Handles (worker : Worker) (info : DownloadInfo) : Prop where
  | downloads (task : DownloadTask) (member : task ∈ worker.downloads)
      (isInfo : task.download.appInfo = info) : Worker.Handles worker info
  | ready (isReady : worker.host.app.appInfo = some info) : Worker.Handles worker info
  | runs (task : RunTask) (member : task ∈ worker.runs) (isInfo : task.appInfo = info) :
      Worker.Handles worker info

/-- A node handles an application, or has started it as a child. -/
def Site.Handles (site : Site File) (info : DownloadInfo) : Prop :=
  site.worker.Handles info ∨ ∃ launched ∈ site.launched, launched.appInfo = info

section Sites

variable {dataPath : Bytes} {worker after : Worker} {action : Action} {info : DownloadInfo}

theorem Worker.Handles.congr (handles : after.Handles info)
    (downloads : ∀ task ∈ after.downloads, ∃ old ∈ worker.downloads,
      old.download.appInfo = task.download.appInfo)
    (ready : after.host.app.appInfo = worker.host.app.appInfo)
    (runs : ∀ task ∈ after.runs, task ∈ worker.runs) : worker.Handles info := by
  cases handles with
  | downloads task member isInfo =>
      obtain ⟨old, isOld, same⟩ := downloads task member
      exact .downloads old isOld (same.trans isInfo)
  | ready isReady => exact .ready (ready ▸ isReady)
  | runs task member isInfo => exact .runs task (runs task member) isInfo

theorem Transition.handles (transition : Transition dataPath worker action after)
    (handles : after.Handles info) :
    worker.Handles info ∨ ∃ storage, action = .load storage (some info) := by
  cases transition with
  | waits | rests =>
      exact .inl (handles.congr (fun task member => ⟨task, member, rfl⟩) rfl fun _ => id)
  | loads storage appInfo syncArgs optionArgs args loads =>
      cases handles with
      | downloads task member isInfo =>
          rcases List.mem_append.mp member with earlier | isNew
          · exact .inl (.downloads task earlier isInfo)
          · rw [List.mem_singleton.mp isNew] at isInfo
            exact .inr ⟨storage, by rw [← isInfo]⟩
      | ready isReady => exact .inl (.ready isReady)
      | runs task member isInfo => exact .inl (.runs task member isInfo)
  | launches storage appInfo runArgs optionArgs downloaded isAppInfo =>
      left
      cases handles with
      | downloads task member isInfo => exact .downloads task member isInfo
      | ready isReady => exact .ready isReady
      | runs task member isInfo =>
          rcases List.mem_append.mp member with earlier | isNew
          · exact .runs task earlier isInfo
          · rw [List.mem_singleton.mp isNew] at isInfo
            exact .ready (isInfo ▸ isAppInfo)
  | prepares index answers download host phase found uninterrupted same isPhase =>
      refine .inl (handles.congr (fun task member => ?_) (by simp [Worker.goOn, same]) fun _ => id)
      rcases List.mem_or_eq_of_mem_set member with earlier | rfl
      · exact ⟨task, earlier, rfl⟩
      · exact ⟨_, List.mem_of_getElem? found, rfl⟩
  | interrupts index answers download host found interrupted same =>
      refine .inl (handles.congr (fun task member => ?_) (by simp [Worker.goOn, same]) fun _ => id)
      exact ⟨task, List.mem_of_mem_eraseIdx member, rfl⟩
  | syncs index answers download filled host found calm isFilled same =>
      refine .inl (handles.congr (fun task member => ?_) (by simp [Worker.goOn, same.appInfo])
        (by simp [Worker.goOn]))
      simp only [Worker.goOn, note_downloads] at member
      rcases List.mem_or_eq_of_mem_set member with earlier | rfl
      · exact ⟨task, earlier, rfl⟩
      · exact ⟨_, List.mem_of_getElem? found, rfl⟩
  | panics index answers download host found panics same =>
      refine .inl (handles.congr (fun task member => ?_) (by simp [Worker.goOn, same])
        (by simp [Worker.goOn]))
      simp only [Worker.goOn, note_downloads] at member
      exact ⟨task, List.mem_of_mem_eraseIdx member, rfl⟩
  | settles index download startFlag found =>
      left
      cases handles with
      | downloads task member isInfo =>
          exact .downloads task (List.mem_of_mem_eraseIdx member) isInfo
      | ready isReady =>
          cases startFlag with
          | true =>
              cases isReady
              exact .downloads _ (List.mem_of_getElem? found) rfl
          | false => exact .ready isReady
      | runs task member isInfo => exact .runs task member isInfo
  | runs index answers task host found same =>
      refine .inl (handles.congr (fun task member => ⟨task, member, rfl⟩) same.appInfo ?_)
      exact fun task member => List.mem_of_mem_eraseIdx member

variable [DecidableEq File] {sha256 : Sha256 Context} {overflowChecks : Bool}
  {site later : Site File} {taken : SiteAction File}

theorem handles_of_launch {appInfo : DownloadInfo} {runArgs : Option Bytes} {answers : RunAnswers}
    (handled : site.worker.Handles appInfo)
    (notLoad : ∀ storage, action ≠ .load storage (some info))
    (launched : site.launch dataPath action appInfo runArgs answers = some later)
    (handles : later.Handles info) : site.Handles info := by
  obtain ⟨worker, worked, rfl⟩ := Option.map_eq_some_iff.mp launched
  rcases handles with handles | ⟨entry, member, isInfo⟩
  · rcases (transition_of_step worked).handles handles with earlier | ⟨storage, isLoad⟩
    · exact .inl earlier
    · exact absurd isLoad (notLoad storage)
  · unfold Site.note at member
    dsimp only at member
    split at member
    · exact .inr ⟨entry, member, isInfo⟩
    · rcases List.mem_cons.mp member with rfl | earlier
      · exact .inl (isInfo ▸ handled)
      · exact .inr ⟨entry, earlier, isInfo⟩

theorem handles_of_siteStep
    (stepped : siteStep sha256 overflowChecks dataPath site taken = some later)
    (handles : later.Handles info) :
    site.Handles info ∨ ∃ storage, taken = .work (.load storage (some info)) := by
  have works : ∀ {action worker}, workerStep dataPath site.worker action = some worker →
      ∀ disk : Disk File, Site.Handles { site with worker, disk } info →
        site.Handles info ∨ ∃ storage, action = .load storage (some info) := by
    intro action worker worked disk handles
    rcases handles with handles | launched
    · rcases (transition_of_step worked).handles handles with earlier | isLoad
      · exact .inl (.inl earlier)
      · exact .inr isLoad
    · exact .inl (.inr launched)
  cases taken with
  | writes disk =>
      cases stepped
      exact .inl handles
  | prepare index answers =>
      obtain ⟨task, _, prepared⟩ := Option.bind_eq_some_iff.mp stepped
      unfold Site.prepare at prepared
      split at prepared
      · obtain ⟨worker, worked, rfl⟩ := Option.map_eq_some_iff.mp prepared
        rcases works worked _ handles with earlier | ⟨_, isLoad⟩
        · exact .inl earlier
        · cases isLoad
      · split at prepared
        · cases prepared
        · obtain ⟨worker, worked, rfl⟩ := Option.map_eq_some_iff.mp prepared
          rcases works worked _ handles with earlier | ⟨_, isLoad⟩
          · exact .inl earlier
          · cases isLoad
  | work action =>
      cases action with
      | prepare => cases stepped
      | sync index answers =>
          obtain ⟨task, found, launched⟩ := Option.bind_eq_some_iff.mp stepped
          exact .inl (handles_of_launch (.downloads task (List.mem_of_getElem? found) rfl)
            (by rintro _ ⟨⟩) launched handles)
      | run index answers =>
          obtain ⟨task, found, launched⟩ := Option.bind_eq_some_iff.mp stepped
          exact .inl (handles_of_launch (.runs task (List.mem_of_getElem? found) rfl)
            (by rintro _ ⟨⟩) launched handles)
      | load | launch | abandon | settle =>
          obtain ⟨worker, worked, rfl⟩ := Option.map_eq_some_iff.mp stepped
          rcases works worked _ handles with earlier | ⟨storage, isLoad⟩
          · exact .inl earlier
          · exact .inr ⟨storage, by rw [isLoad]⟩

end Sites

/-! ## Agreement -/

section Agreement

variable {author : ι → AccountId} {sha256 : Sha256 Context} {overflowChecks : Bool}
  {dataPath : ι → Bytes} {network after : Network ι AccountId File}

/-- What was registered at some block still is, and the nodes only handle that. -/
structure Faithful (config : ContainerConfig) (author : ι → AccountId)
    (network : Network ι AccountId File) : Prop where
  represents : ∀ block ∈ network.blocks, ∃ allocation,
    Represents config block.container allocation
  kept : ∀ block ∈ network.blocks, ∀ info, Registered block info → Registered network.head info
  handles : ∀ node info, (network.sites node).Handles info → Registered network.head info ∧
    ∃ block ∈ network.blocks, InGroup block.groups (author node) info.group

theorem faithful_start (groups : Groups AccountId) (machine : ι → Machine)
    (disk : ι → Disk File) : Faithful config author (.start groups machine disk) := by
  refine ⟨?_, ?_, ?_⟩
  · rintro block isBlock
    cases List.mem_singleton.mp isBlock
    exact represents_of_reaches rfl .start
  · rintro block isBlock info registered
    cases List.mem_singleton.mp isBlock
    exact registered
  · rintro node info ((⟨_, ⟨⟩, _⟩ | ⟨⟨⟩⟩ | ⟨_, ⟨⟩, _⟩) | ⟨_, ⟨⟩, _⟩)

variable [DecidableEq ι] [DecidableEq File]

theorem Faithful.work (faithful : Faithful config author network) {node : ι}
    {action : SiteAction File}
    (told : ∀ storage info, action = .work (.load storage (some info)) →
      Registered network.head info ∧
        ∃ block ∈ network.blocks, InGroup block.groups (author node) info.group)
    (worked : network.work sha256 overflowChecks (dataPath node) node action = some after) :
    Faithful config author after := by
  obtain ⟨site, stepped, rfl⟩ := Option.map_eq_some_iff.mp worked
  refine ⟨faithful.represents, faithful.kept, fun other info handles => ?_⟩
  by_cases isNode : other = node
  · subst isNode
    dsimp only at handles
    rw [Function.update_self] at handles
    rcases handles_of_siteStep stepped handles with earlier | ⟨storage, isLoad⟩
    · exact faithful.handles other info earlier
    · exact told storage info isLoad
  · dsimp only at handles
    rw [Function.update_of_ne isNode] at handles
    exact faithful.handles other info handles

variable [DecidableEq AccountId]

/-- Every step of the chain or of a node keeps what is handled registered. -/
theorem Faithful.step (faithful : Faithful config author network)
    {action : NetworkAction ι AccountId File}
    (taken : networkStep config author sha256 overflowChecks dataPath network action =
      some after) : Faithful config author after := by
  cases action with
  | chain action =>
      obtain ⟨hosting, stepped, rfl⟩ := Option.map_eq_some_iff.mp taken
      obtain ⟨allocation, represents⟩ := faithful.represents network.head List.mem_cons_self
      have later : ∀ info, Registered network.head info → Registered hosting info :=
        fun info registered => registered.step represents stepped
      refine ⟨?_, ?_, fun node info handles => ?_⟩
      · obtain ⟨next, represented, _⟩ := represents.step stepped
        exact List.forall_mem_cons.mpr ⟨⟨next, represented⟩, faithful.represents⟩
      · refine List.forall_mem_cons.mpr ⟨fun _ => id, fun block isBlock info registered => ?_⟩
        exact later info (faithful.kept block isBlock info registered)
      · obtain ⟨registered, block, isBlock, member⟩ := faithful.handles node info handles
        exact ⟨later info registered, block, List.mem_cons_of_mem _ isBlock, member⟩
  | newBestHead node index storage =>
      obtain ⟨block, isBlock, worked⟩ := Option.bind_eq_some_iff.mp taken
      have member := List.mem_of_getElem? isBlock
      refine faithful.work ?_ worked
      intro storage info isLoad
      have told : shuldLoad block (author node) = some info := by
        simp only [SiteAction.work.injEq, Action.load.injEq] at isLoad
        exact isLoad.2
      obtain ⟨allocation, represents⟩ := faithful.represents block member
      exact ⟨faithful.kept block member info (registered_of_shuldLoad told), block, member,
        inGroup_of_shuldLoad represents told⟩
  | site node action =>
      simp only [networkStep] at taken
      split at taken
      · cases taken
      · rename_i notAsks
        refine faithful.work ?_ taken
        rintro storage info rfl
        exact absurd rfl notAsks

theorem Faithful.registered (faithful : Faithful config author network)
    {action : NetworkAction ι AccountId File}
    (taken : networkStep config author sha256 overflowChecks dataPath network action = some after)
    {info : DownloadInfo} (registered : Registered network.head info) :
    Registered after.head info := by
  have later := (faithful.step taken).kept
  cases action with
  | chain action =>
      obtain ⟨hosting, _, rfl⟩ := Option.map_eq_some_iff.mp taken
      exact later network.head (List.mem_cons_of_mem _ List.mem_cons_self) info registered
  | newBestHead node index storage =>
      obtain ⟨block, _, worked⟩ := Option.bind_eq_some_iff.mp taken
      obtain ⟨site, _, rfl⟩ := Option.map_eq_some_iff.mp worked
      exact registered
  | site node action =>
      simp only [networkStep] at taken
      split at taken
      · cases taken
      · obtain ⟨site, _, rfl⟩ := Option.map_eq_some_iff.mp taken
        exact registered

/-- In every run of the chain and its nodes, whichever blocks the nodes look at and in whatever
order the steps are taken: a node only handles the application that is registered for a group
its sequencer was in, and two nodes handle the same application if and only if they do so for
the same group. -/
theorem nodes_agree (config : ContainerConfig) (author : ι → AccountId) (sha256 : Sha256 Context)
    (overflowChecks : Bool) (dataPath : ι → Bytes) (groups : Groups AccountId)
    (machine : ι → Machine) (disk : ι → Disk File)
    (reaches : Reaches (networkStep config author sha256 overflowChecks dataPath)
      (fun _ _ => True) (.start groups machine disk) network) :
    (∀ node info, (network.sites node).Handles info → Registered network.head info ∧
      ∃ block ∈ network.blocks, InGroup block.groups (author node) info.group) ∧
    ∀ node other info info', (network.sites node).Handles info →
      (network.sites other).Handles info' →
        (info.group = info'.group ↔ info.appId = info'.appId) ∧
        (info.group = info'.group → info' = { info with url := info'.url }) := by
  have faithful : Faithful config author network :=
    reaches.invariant (faithful_start groups machine disk)
      fun _ _ _ faithful _ taken => faithful.step taken
  refine ⟨faithful.handles, fun node other info info' handles alsoHandles => ?_⟩
  obtain ⟨registered, _⟩ := faithful.handles node info handles
  obtain ⟨alsoRegistered, _⟩ := faithful.handles other info' alsoHandles
  refine ⟨⟨fun same => ?_, fun same => ?_⟩, registered.agree alsoRegistered⟩
  · rw [registered.agree alsoRegistered same]
  · obtain ⟨allocation, represents⟩ := faithful.represents network.head List.mem_cons_self
    have given := alsoRegistered.given
    rw [← same] at given
    exact represents.given_inj registered.given given

end Agreement

/-- A network of two groups. -/
def abcNetwork : Network Nat Nat String :=
  .start twoGroups.groups (fun _ => { spawned := 0, children := [], containers := [] })
    fun _ => emptyDisk

def abcNetworkStep :
    Network Nat Nat String → NetworkAction Nat Nat String → Option (Network Nat Nat String) :=
  networkStep hundredApps id abcSha256 true fun _ => [47]

/-- The file is registered, and the node of the first group is told of it. -/
def abcToldActions : List (NetworkAction Nat Nat String) :=
  [.chain (.extrinsic .root (.setDefaultUrl abcInfo.url)),
    .chain (.extrinsic (.signed 7)
      (.registerApp abcInfo.appHash [112] abcInfo.fileName 3 none none none none)),
    .chain .finalize,
    .newBestHead 1 0 none]

/-- What the node of the first group is told. -/
def abcTold : DownloadInfo := { abcInfo with group := 0 }

/-- The application that is registered after the file `abc`. -/
def bcdTold : DownloadInfo :=
  { abcInfo with appId := 2, appHash := [1], fileName := [98], size := 5, group := 1 }

/-- Two files are registered, and the node of each group is told of its own, the second one a
block later. -/
def bothToldActions : List (NetworkAction Nat Nat String) :=
  [.chain (.extrinsic .root (.setDefaultUrl abcInfo.url)),
    .chain (.extrinsic (.signed 7)
      (.registerApp abcInfo.appHash [112] abcInfo.fileName 3 none none none none)),
    .chain (.extrinsic (.signed 8)
      (.registerApp bcdTold.appHash [112] bcdTold.fileName 5 none none none none)),
    .chain .finalize,
    .newBestHead 1 0 none,
    .chain .finalize,
    .newBestHead 2 0 none]

/-- Two nodes download what is registered for their groups, and no node downloads it for another
group. -/
theorem nodes_agree_abc :
    ∃ network : Network Nat Nat String,
      (network.sites 1).Handles abcTold ∧ (network.sites 2).Handles bcdTold ∧
      Registered network.head abcTold ∧ Registered network.head bcdTold ∧
      ∀ node info, (network.sites node).Handles info →
        (info.group = 0 ↔ info.appId = 1) ∧ (info.group = 1 ↔ info.appId = 2) := by
  have shown : (Foundation.run abcNetworkStep abcNetwork bothToldActions).map
      (fun network => [1, 2].map fun node =>
        (network.sites node).worker.downloads.map (·.download.appInfo)) =
        some [[abcTold], [bcdTold]] := by
    decide +kernel
  obtain ⟨network, taken, areTold⟩ := Option.map_eq_some_iff.mp shown
  have admitted : Admitted abcNetworkStep (fun _ _ => True) abcNetwork bothToldActions :=
    admitted_of_forall (fun _ _ _ => trivial) abcNetwork
  obtain ⟨handled, agrees⟩ := nodes_agree hundredApps id abcSha256 true (fun _ => [47]) _ _ _
    (Reaches.start.append admitted taken)
  have told : ∀ {node info}, (network.sites node).worker.downloads.map (·.download.appInfo) =
      [info] → (network.sites node).Handles info := by
    intro node info isTold
    obtain ⟨task, member, isInfo⟩ := List.mem_map.mp (isTold ▸ List.mem_singleton_self info)
    exact .inl (.downloads task member isInfo)
  simp only [List.map_cons, List.map_nil, List.cons.injEq, and_true] at areTold
  have first := told areTold.1
  have second := told areTold.2
  refine ⟨network, first, second, (handled 1 abcTold first).1, (handled 2 bcdTold second).1, ?_⟩
  intro node info handles
  exact ⟨(agrees node 1 info abcTold handles first).1,
    (agrees node 2 info bcdTold handles second).1⟩

/-! ## Programs -/

/-- Files that are there can be opened, and nothing else writes to the files of applications. -/
def Guarded (dataPath : ι → Bytes) (catalogue : ι → Catalogue File)
    (network : Network ι AccountId File) : NetworkAction ι AccountId File → Prop
  | .site node action =>
      action.asks = false → Careful (dataPath node) (catalogue node) (network.sites node) action
  | _ => True

section Programs

variable [DecidableEq File] {author : ι → AccountId} {sha256 : Sha256 Context}
  {overflowChecks : Bool} {dataPath : ι → Bytes} {catalogue : ι → Catalogue File}
  {disk : ι → Disk File} {network after : Network ι AccountId File}

/-- All nodes have verified what they start, and find their files where they did at first. -/
structure AllVerified (sha256 : Sha256 Context) (dataPath : ι → Bytes)
    (catalogue : ι → Catalogue File) (disk : ι → Disk File)
    (network : Network ι AccountId File) : Prop where
  verified : ∀ node, Verified sha256 (dataPath node) (catalogue node) (network.sites node)
  locate : ∀ node, (network.sites node).disk.locate = (disk node).locate

theorem openLog_locate {appInfo : DownloadInfo} {runArgs : Option Bytes} {answers : RunAnswers}
    {disk : Disk File} : (openLog appInfo runArgs answers disk).locate = disk.locate := by
  unfold openLog
  split
  · split <;> rfl
  · rfl

theorem Verified.locate {dataPath : Bytes} {catalogue : Catalogue File} {site later : Site File}
    (verified : Verified sha256 dataPath catalogue site) {action : SiteAction File}
    (careful : Careful dataPath catalogue site action)
    (stepped : siteStep sha256 overflowChecks dataPath site action = some later) :
    later.disk.locate = site.disk.locate := by
  cases action with
  | writes disk =>
      cases stepped
      exact careful.1
  | prepare index answers =>
      obtain ⟨task, found, prepared⟩ := Option.bind_eq_some_iff.mp stepped
      unfold Site.prepare at prepared
      split at prepared
      · obtain ⟨worker, _, rfl⟩ := Option.map_eq_some_iff.mp prepared
        rfl
      · rename_i notDocker
        split at prepared
        · cases prepared
        · rename_i result disk ended fetched
          obtain ⟨worker, _, rfl⟩ := Option.map_eq_some_iff.mp prepared
          have keeps : Keeps sha256 catalogue site.disk (fetchFile sha256 overflowChecks dataPath
              task.download.appInfo answers.server answers.files answers.fuel site.disk).2 :=
            fetchFile_keeps (Bool.eq_false_iff.mpr notDocker)
              (verified.listed task (List.mem_of_getElem? found)) careful
          rw [fetched] at keeps
          exact keeps.locate
  | work action =>
      cases action with
      | prepare => cases stepped
      | sync | run =>
          obtain ⟨task, _, launched⟩ := Option.bind_eq_some_iff.mp stepped
          obtain ⟨worker, _, rfl⟩ := Option.map_eq_some_iff.mp launched
          exact openLog_locate
      | load | launch | abandon | settle =>
          obtain ⟨worker, _, rfl⟩ := Option.map_eq_some_iff.mp stepped
          rfl

variable [DecidableEq ι]

/-- A careful step of a node keeps what all nodes have verified. -/
theorem AllVerified.work (all : AllVerified sha256 dataPath catalogue disk network) {node : ι}
    {action : SiteAction File}
    (careful : Careful (dataPath node) (catalogue node) (network.sites node) action)
    (worked : network.work sha256 overflowChecks (dataPath node) node action = some after) :
    AllVerified sha256 dataPath catalogue disk after := by
  obtain ⟨site, stepped, rfl⟩ := Option.map_eq_some_iff.mp worked
  refine ⟨fun other => ?_, fun other => ?_⟩
  · by_cases isNode : other = node
    · subst isNode
      simpa using (all.verified other).step careful stepped
    · simpa [isNode] using all.verified other
  · by_cases isNode : other = node
    · subst isNode
      simpa using ((all.verified other).locate careful stepped).trans (all.locate other)
    · simpa [isNode] using all.locate other

/-- Applications that are registered are listed. -/
def AllListed (dataPath : ι → Bytes) (catalogue : ι → Catalogue File) (disk : ι → Disk File)
    (hosting : Hosting AccountId) : Prop :=
  ∀ node info, Registered hosting info →
    Listed (dataPath node) (catalogue node) (disk node).locate info

variable [DecidableEq AccountId]

/-- Where the applications that are registered in the end are listed, all nodes verify what they
start. -/
theorem AllVerified.step (faithful : Faithful config author network)
    (all : AllListed dataPath catalogue disk network.head →
      AllVerified sha256 dataPath catalogue disk network) {action : NetworkAction ι AccountId File}
    (guarded : Guarded dataPath catalogue network action)
    (taken : networkStep config author sha256 overflowChecks dataPath network action =
      some after) (listed : AllListed dataPath catalogue disk after.head) :
    AllVerified sha256 dataPath catalogue disk after := by
  have earlier : AllListed dataPath catalogue disk network.head :=
    fun node info registered => listed node info (faithful.registered taken registered)
  cases action with
  | chain action =>
      obtain ⟨hosting, _, rfl⟩ := Option.map_eq_some_iff.mp taken
      have verified := all earlier
      exact ⟨verified.verified, verified.locate⟩
  | newBestHead node index storage =>
      obtain ⟨block, isBlock, worked⟩ := Option.bind_eq_some_iff.mp taken
      refine (all earlier).work ?_ worked
      intro info told
      rw [(all earlier).locate node]
      exact earlier node info (faithful.kept block (List.mem_of_getElem? isBlock) info
        (registered_of_shuldLoad told))
  | site node action =>
      simp only [networkStep] at taken
      split at taken
      · cases taken
      · rename_i notAsks
        exact (all earlier).work (guarded (Bool.eq_false_iff.mpr notAsks)) taken

/-- In every run of the chain and its nodes, where no two registered applications share a file:
whatever a node starts as a child has the hash that the chain keeps for the application of the
group, whichever blocks the nodes look at and whatever the servers send. -/
theorem programs_registered (config : ContainerConfig) (author : ι → AccountId)
    (sha256 : Sha256 Context) (overflowChecks : Bool) (dataPath : ι → Bytes)
    (catalogue : ι → Catalogue File) (groups : Groups AccountId) (machine : ι → Machine)
    (disk : ι → Disk File)
    (reaches : Reaches (networkStep config author sha256 overflowChecks dataPath)
      (Guarded dataPath catalogue) (.start groups machine disk) network)
    (listed : AllListed dataPath catalogue disk network.head) :
    ∀ node, ∀ launched ∈ (network.sites node).launched, ∃ content appInfo,
      launched.program = some content ∧
      network.head.container.groupAppMap.get launched.appInfo.group =
        some launched.appInfo.appId ∧
      network.head.container.appInfoMap.get launched.appInfo.appId = some appInfo ∧
      sha256.value content = appInfo.appHash := by
  let kept : Network ι AccountId File → Prop := fun network =>
    Faithful config author network ∧ (AllListed dataPath catalogue disk network.head →
      AllVerified sha256 dataPath catalogue disk network)
  have held : kept network := by
    refine reaches.invariant ⟨faithful_start groups machine disk, fun _ => ?_⟩ ?_
    · exact ⟨fun node => verified_start (machine node) (disk node), fun _ => rfl⟩
    · rintro network action after ⟨faithful, all⟩ guarded taken
      exact ⟨faithful.step taken, AllVerified.step faithful all guarded taken⟩
  intro node launched member
  obtain ⟨registered, _⟩ := held.1.handles node launched.appInfo (.inr ⟨launched, member, rfl⟩)
  obtain ⟨appInfo, stored, isInfo⟩ := registered.stored
  obtain ⟨content, isContent, isHash⟩ :=
    ((held.2 listed).verified node).launched launched member
  refine ⟨content, appInfo, isContent, registered.given, stored, ?_⟩
  rw [isHash, isInfo]
  rfl

end Programs

/-- How many programs the node of the first group has started, and what is registered. -/
def abcOutcome (network : Network Nat Nat String) : Nat × Nat × Option DownloadInfo :=
  ((network.sites 1).launched.length, network.head.container.nextApplicationId,
    (network.head.container.appInfoMap.get 1).map (·.download 0 1 abcInfo.url))

theorem abc_allListed {network : Network Nat Nat String}
    (faithful : Faithful hundredApps id network)
    (outcome : abcOutcome network = (1, 2, some abcTold)) :
    AllListed (fun _ : Nat => [47]) (fun _ => abcCatalogue) (fun _ => emptyDisk) network.head := by
  simp only [abcOutcome, Prod.mk.injEq, Option.map_eq_some_iff] at outcome
  obtain ⟨_, isNext, appInfo, stored, isTold⟩ := outcome
  obtain ⟨allocation, represents⟩ := faithful.represents network.head List.mem_cons_self
  have isOne : allocation.apps = 1 := by
    have atMost := represents.atMost.trans hundredApps.maxRuningApp_le
    have isLast := represents.nextApplicationId
    rw [isNext, u32Max] at isLast
    rw [u32Max] at atMost
    omega
  intro node info registered
  obtain ⟨other, alsoStored, isInfo⟩ := registered.stored
  have isApp : info.appId = 1 := by
    have inside := (represents.appInfo info.appId).mp (by rw [alsoStored]; rfl)
    omega
  rw [isApp, stored] at alsoStored
  cases alsoStored
  have same : info = { abcInfo with group := info.group, url := info.url } := by
    rw [isInfo, isApp]
    exact congrArg (fun told : DownloadInfo => { told with group := info.group, url := info.url })
      isTold
  rw [same]
  exact ⟨abc_listed.program, abc_listed.log⟩

/-- The node of the first group starts the file `abc`, and it has the registered hash. -/
theorem programs_registered_abc :
    ∃ network : Network Nat Nat String, (network.sites 1).launched.length = 1 ∧
      ∀ launched ∈ (network.sites 1).launched, ∃ content appInfo,
        launched.program = some content ∧
        network.head.container.groupAppMap.get launched.appInfo.group =
          some launched.appInfo.appId ∧
        network.head.container.appInfoMap.get launched.appInfo.appId = some appInfo ∧
        abcSha256.value content = appInfo.appHash := by
  let actions : List (NetworkAction Nat Nat String) :=
    abcToldActions ++ abcActions.tail.map (.site 1)
  have shown : (Foundation.run abcNetworkStep abcNetwork actions).map abcOutcome =
      some (1, 2, some abcTold) := by
    decide +kernel
  obtain ⟨network, taken, outcome⟩ := Option.map_eq_some_iff.mp shown
  have admitted : Admitted abcNetworkStep (Guarded (fun _ => [47]) fun _ => abcCatalogue)
      abcNetwork actions :=
    ⟨trivial, fun _ _ => ⟨trivial, fun _ _ => ⟨trivial, fun _ _ => ⟨trivial, fun _ _ =>
      ⟨fun _ => rfl, fun _ _ => ⟨fun _ => trivial, fun _ _ => trivial⟩⟩⟩⟩⟩⟩
  have reaches := Reaches.start.append admitted taken
  have faithful : Faithful hundredApps id network :=
    reaches.invariant (faithful_start twoGroups.groups _ _)
      fun _ _ _ faithful _ taken => faithful.step taken
  refine ⟨network, congrArg Prod.fst outcome, ?_⟩
  exact programs_registered hundredApps id abcSha256 true (fun _ => [47]) (fun _ => abcCatalogue) _
    _ _ reaches (abc_allListed faithful outcome) 1

end Popsicle.Node
