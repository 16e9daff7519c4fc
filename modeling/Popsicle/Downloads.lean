import Popsicle.Allocation

/-!
# What the node downloads

The node of a sequencer asks which application to run.  The answer is put together from
the groups and from three storage items of the applications, with a number that is no
group for authors that are in none.
-/

namespace Popsicle

open Foundation Exec

variable {AccountId : Type} {config : ContainerConfig} {start hosting : Hosting AccountId}
  {author : AccountId}

/-- The account is a member of the group with the given number. -/
def InGroup (groups : Groups AccountId) (account : AccountId) (index : Nat) : Prop :=
  ∃ group, groups.groupMembers[index]? = some group ∧ account ∈ group

/-- The account is a member of a group that runs the given application. -/
structure Hosts (hosting : Hosting AccountId) (author : AccountId) (group app : Nat) : Prop where
  member : InGroup hosting.groups author group
  given : hosting.container.groupAppMap.get group = some app

/-- What is to be downloaded for a group, as it is registered. -/
def AppInfo.download (appInfo : AppInfo AccountId) (group app : Nat) (url : Bytes) :
    DownloadInfo where
  appId := app
  appHash := appInfo.appHash
  fileName := appInfo.fileName
  size := appInfo.size
  group := group
  url := url
  args := appInfo.args
  log := appInfo.log
  isDockerImage := appInfo.isDockerImage.getD false
  dockerImage := appInfo.dockerImage

/-- The number that stands for no group is never a group with an application. -/
theorem Represents.noGroup {container : Container AccountId} {allocation : Allocation}
    (represents : Represents config container allocation) :
    container.groupAppMap.get 0xFFFFFFFF = none := by
  have given := allocation.given_le.trans (represents.atMost.trans config.maxRuningApp_le)
  rw [represents.groupApp, if_neg]
  exact Nat.not_lt.mpr given

theorem Represents.registered {container : Container AccountId} {allocation : Allocation}
    (represents : Represents config container allocation) {group app : Nat}
    (given : container.groupAppMap.get group = some app) :
    ∃ appInfo, container.appInfoMap.get app = some appInfo := by
  obtain ⟨inside, rfl⟩ := (represents.matched.groupApp group app).mp given
  have atMost := allocation.given_le
  apply Option.isSome_iff_exists.mp
  rw [represents.appInfo]
  omega

theorem Represents.given_inj {container : Container AccountId} {allocation : Allocation}
    (represents : Represents config container allocation) {group other app : Nat}
    (given : container.groupAppMap.get group = some app)
    (alsoGiven : container.groupAppMap.get other = some app) : group = other := by
  have isNext := (represents.matched.groupApp group app).mp given
  have isNext' := (represents.matched.groupApp other app).mp alsoGiven
  omega

section Answers

variable [DecidableEq AccountId]

/-- An author that is in a group has the number of its group, as far as groups are disjoint. -/
theorem getGroupId_of_inGroup {groups : Groups AccountId} {index : Nat}
    (disjoint : groups.groupMembers.Pairwise List.Disjoint) (member : InGroup groups author index) :
    getGroupId groups author = index := by
  have found := (accountInGroup_iff disjoint author index).mpr member
  rw [getGroupId, found]

/-- An author in no group has the number that stands for none. -/
theorem getGroupId_of_notInGroup {groups : Groups AccountId}
    (outside : ∀ index, ¬InGroup groups author index) :
    getGroupId groups author = 0xFFFFFFFF := by
  have notFound : groups.groupMembers.findIdx? (fun group => author ∈ group) = none := by
    rw [List.findIdx?_eq_none_iff]
    intro group isGroup
    obtain ⟨index, isIndex⟩ := List.getElem?_of_mem isGroup
    rw [decide_eq_false_iff_not]
    exact fun member => outside index ⟨group, isIndex, member⟩
  have run : accountInGroup author groups =
      (.error (.error (.grouping .accountNotInGroup)), groups) := by
    change require _ _ groups = _
    rw [notFound]
    rfl
  rw [getGroupId, run]

theorem InGroup.unique {groups : Groups AccountId} {index other : Nat}
    (disjoint : groups.groupMembers.Pairwise List.Disjoint) (member : InGroup groups author index)
    (alsoMember : InGroup groups author other) : index = other := by
  rw [← getGroupId_of_inGroup disjoint member, getGroupId_of_inGroup disjoint alsoMember]

theorem shuldLoad_of_notInGroup {allocation : Allocation}
    (represents : Represents config hosting.container allocation)
    (outside : ∀ index, ¬InGroup hosting.groups author index) :
    shuldLoad hosting author = none := by
  rw [shuldLoad, getGroupId_of_notInGroup outside, represents.noGroup]
  rfl

/-- An author in a group is told of the application of that group. -/
theorem shuldLoad_of_hosts {group app : Nat} {appInfo : AppInfo AccountId} {url : Bytes}
    (disjoint : hosting.groups.groupMembers.Pairwise List.Disjoint)
    (hosts : Hosts hosting author group app)
    (stored : hosting.container.appInfoMap.get app = some appInfo)
    (isUrl : hosting.container.defaultUrl = some url) :
    shuldLoad hosting author = some (appInfo.download group app url) := by
  simp only [shuldLoad, getGroupId_of_inGroup disjoint hosts.member, hosts.given,
    Option.bind_eq_bind, Option.bind_some, stored, isUrl]
  rfl

/-- Where an author is told of an application, it is in a group. -/
theorem hosts_of_shuldLoad {allocation : Allocation} {info : DownloadInfo} {url : Bytes}
    (represents : Represents config hosting.container allocation)
    (disjoint : hosting.groups.groupMembers.Pairwise List.Disjoint)
    (isUrl : hosting.container.defaultUrl = some url)
    (answer : shuldLoad hosting author = some info) :
    ∃ group app appInfo, Hosts hosting author group app ∧
      hosting.container.appInfoMap.get app = some appInfo ∧
      info = appInfo.download group app url := by
  have inside : ∃ group, InGroup hosting.groups author group := by
    by_contra outside
    rw [shuldLoad_of_notInGroup represents (not_exists.mp outside)] at answer
    cases answer
  obtain ⟨group, member⟩ := inside
  have isGroup := getGroupId_of_inGroup disjoint member
  have isGiven : ∃ app, hosting.container.groupAppMap.get group = some app := by
    apply Option.ne_none_iff_exists'.mp
    intro notGiven
    rw [shuldLoad, isGroup, notGiven] at answer
    cases answer
  obtain ⟨app, given⟩ := isGiven
  obtain ⟨appInfo, stored⟩ := represents.registered given
  have hosts : Hosts hosting author group app := ⟨member, given⟩
  rw [shuldLoad_of_hosts disjoint hosts stored isUrl] at answer
  exact ⟨group, app, appInfo, hosts, stored, (Option.some.inj answer).symm⟩

/-- The node of a sequencer is told of the application of the sequencer's own group, and
of none if the sequencer is in no group. -/
theorem shuldLoad_ownGroup (empty : start.container = .default)
    (reaches : Reaches (hostingStep config) (fun _ _ => True) start hosting) {url : Bytes}
    (disjoint : hosting.groups.groupMembers.Pairwise List.Disjoint)
    (isUrl : hosting.container.defaultUrl = some url) :
    (∀ author, (∃ info, shuldLoad hosting author = some info) ↔
        ∃ group app, Hosts hosting author group app) ∧
      (∀ author info, shuldLoad hosting author = some info →
        Hosts hosting author info.group info.appId ∧
          ∃ appInfo, hosting.container.appInfoMap.get info.appId = some appInfo ∧
            info = appInfo.download info.group info.appId url) ∧
      (∀ left right infoLeft infoRight, shuldLoad hosting left = some infoLeft →
        shuldLoad hosting right = some infoRight →
        (infoLeft.appId = infoRight.appId ↔
          ∃ group, InGroup hosting.groups left group ∧ InGroup hosting.groups right group)) ∧
      ∀ author, (∀ group, ¬InGroup hosting.groups author group) →
        shuldLoad hosting author = none := by
  obtain ⟨allocation, represents⟩ := represents_of_reaches empty reaches
  have answered : ∀ author info, shuldLoad hosting author = some info →
      Hosts hosting author info.group info.appId ∧
        ∃ appInfo, hosting.container.appInfoMap.get info.appId = some appInfo ∧
          info = appInfo.download info.group info.appId url := by
    intro author info answer
    obtain ⟨group, app, appInfo, hosts, stored, rfl⟩ :=
      hosts_of_shuldLoad represents disjoint isUrl answer
    exact ⟨hosts, appInfo, stored, rfl⟩
  refine ⟨fun author => ?_, answered, ?_, fun author => shuldLoad_of_notInGroup represents⟩
  · constructor
    · rintro ⟨info, answer⟩
      exact ⟨info.group, info.appId, (answered author info answer).1⟩
    · rintro ⟨group, app, hosts⟩
      obtain ⟨appInfo, stored⟩ := represents.registered hosts.given
      exact ⟨_, shuldLoad_of_hosts disjoint hosts stored isUrl⟩
  · intro left right infoLeft infoRight answerLeft answerRight
    have hostsLeft := (answered left infoLeft answerLeft).1
    have hostsRight := (answered right infoRight answerRight).1
    constructor
    · intro sameApp
      have given := hostsLeft.given
      rw [sameApp] at given
      have sameGroup := represents.given_inj given hostsRight.given
      exact ⟨infoLeft.group, hostsLeft.member, sameGroup ▸ hostsRight.member⟩
    · rintro ⟨group, memberLeft, memberRight⟩
      have given := hostsLeft.given
      have alsoGiven := hostsRight.given
      rw [hostsLeft.member.unique disjoint memberLeft] at given
      rw [hostsRight.member.unique disjoint memberRight] at alsoGiven
      exact Option.some.inj (given.symm.trans alsoGiven)

end Answers

/-- A registration, an address to download from, and the end of a block. -/
def addressedRun : List (HostingAction Nat) :=
  [.extrinsic .root (.setDefaultUrl [9])] ++ registeredRun

/-- With one application for two groups, the first group runs it. -/
theorem shuldLoad_ownGroup_first :
    ∃ hosting, Reaches (hostingStep hundredApps) (fun _ _ => True) twoGroups hosting ∧
      Hosts hosting 1 0 1 ∧
      (∃ info, shuldLoad hosting 1 = some info) ∧ shuldLoad hosting 3 = none := by
  have shown : ((run (hostingStep hundredApps) twoGroups addressedRun).map fun hosting =>
      (hosting.groups.groupMembers, hosting.container.defaultUrl,
        hosting.container.groupAppMap.get 0)) = some ([[1], [2]], some [9], some 1) := by
    decide +kernel
  obtain ⟨hosting, taken, observed⟩ := Option.map_eq_some_iff.mp shown
  simp only [Prod.mk.injEq] at observed
  obtain ⟨isGroups, isUrl, isGiven⟩ := observed
  have reaches : Reaches (hostingStep hundredApps) (fun _ _ => True) twoGroups hosting :=
    Reaches.start.append (admitted_of_forall (fun _ _ _ => trivial) twoGroups) taken
  have disjoint : hosting.groups.groupMembers.Pairwise List.Disjoint := by
    rw [isGroups]
    simp
  obtain ⟨answers, _, _, outside⟩ := shuldLoad_ownGroup rfl reaches disjoint isUrl
  have hosts : Hosts hosting 1 0 1 := ⟨⟨[1], by rw [isGroups]; rfl, by simp⟩, isGiven⟩
  refine ⟨hosting, reaches, hosts, (answers 1).mpr ⟨0, 1, hosts⟩, outside 3 ?_⟩
  intro group member
  obtain ⟨members, isMembers, inside⟩ := member
  rw [isGroups] at isMembers
  rcases group with _ | _ | _
  · cases isMembers
    simp at inside
  · cases isMembers
    simp at inside
  · cases isMembers

end Popsicle
