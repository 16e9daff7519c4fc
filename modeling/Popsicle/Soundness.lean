import Popsicle.Effects

/-!
# Soundness of the storage

Every effect keeps the maps in step with one another.
-/

namespace Popsicle

open Foundation Keyed

variable {AccountId Native : Type} [LinearOrder AccountId] {config : Config AccountId Native}
  {may : Withdrawal AccountId → Prop} {signs : AccountId → Prop}
  {before after : Stakes AccountId Native}

/-! ## Parts of an update -/

section Parts

variable {candidate delegator : AccountId} {info info' : CandidateMetadata}

theorem Sound.put_delegator (sound : Sound config before) {state : Delegator AccountId}
    (stored : before.delegatorState.get delegator = some state)
    {entry : Option (Delegator AccountId)}
    (consistent : ∀ state', entry = some state' → Delegator.Consistent delegator state') :
    ∀ account state', (before.delegatorState.put delegator entry).get account = some state' →
      Delegator.Consistent account state' ∧ before.candidateInfo.get account = none :=
  StorageMap.forall_put
    (fun account state' _ found =>
      ⟨sound.records account state' found, sound.apart account state' found⟩)
    fun state' isEntry => ⟨consistent state' isEntry, sound.apart delegator state stored⟩

theorem Sound.insert_delegator (sound : Sound config before) {state state' : Delegator AccountId}
    (stored : before.delegatorState.get delegator = some state)
    (consistent : Delegator.Consistent delegator state') :
    ∀ account state'',
      (before.delegatorState.insert delegator state').get account = some state'' →
        Delegator.Consistent account state'' ∧ before.candidateInfo.get account = none := by
  rw [← StorageMap.put_some]
  refine sound.put_delegator stored ?_
  rintro _ ⟨⟩
  exact consistent

/-- The metadata of a stored candidate is updated, and its lists with it. -/
theorem Sound.rewrite (sound : Sound config before)
    (stored : before.candidateInfo.get candidate = some info)
    (isInfo : after.candidateInfo = before.candidateInfo.insert candidate info')
    (terms : ∀ request, info'.request = some request → request.amount < info'.bond)
    (pool : PoolHolds config after.candidatePool (activeTotals after.candidateInfo))
    (top : StorageMap.SameKeys after.topDelegations after.candidateInfo)
    (bottom : StorageMap.SameKeys after.bottomDelegations after.candidateInfo)
    (delegators : ∀ account state, after.delegatorState.get account = some state →
      Delegator.Consistent account state ∧ before.candidateInfo.get account = none) :
    Sound config after where
  pool := pool
  top := top
  bottom := bottom
  records account state found := (delegators account state found).1
  apart account state found := by
    have absent := (delegators account state found).2
    rw [isInfo, StorageMap.get_insert_of_ne]
    · exact absent
    · rintro rfl
      rw [stored] at absent
      cases absent
  requests := by
    rw [isInfo]
    exact StorageMap.forall_insert sound.requests terms

theorem SameTerms.requests (same : SameTerms info info')
    (terms : ∀ request, info.request = some request → request.amount < info.bond) :
    ∀ request, info'.request = some request → request.amount < info'.bond := by
  rw [same.2.1, same.2.2]
  exact terms

/-- After a kick the records are still consistent, and no account has got one. -/
theorem Kicks.delegators (sound : Sound config before) {kicked : Option (Bond AccountId)}
    (kicks : Kicks config candidate before kicked after) :
    ∀ account state, after.delegatorState.get account = some state →
      Delegator.Consistent account state ∧ before.candidateInfo.get account = none := by
  cases kicked with
  | none =>
      cases kicks
      exact fun account state found =>
        ⟨sound.records account state found, sound.apart account state found⟩
  | some bond =>
      obtain ⟨state, stored, _, rfl⟩ := kicks
      refine sound.put_delegator stored fun state' isEntry => ?_
      split at isEntry
      · cases isEntry
      · cases isEntry
        exact ((sound.records bond.owner state stored).without candidate).forget _

theorem Sound.join (sound : Sound config before)
    (apart : before.delegatorState.get candidate = none)
    (isInfo : after.candidateInfo = before.candidateInfo.insert candidate (CandidateMetadata.new 0))
    (isState : after.delegatorState = before.delegatorState)
    (pool : PoolHolds config after.candidatePool (activeTotals after.candidateInfo))
    (top : StorageMap.SameKeys after.topDelegations after.candidateInfo)
    (bottom : StorageMap.SameKeys after.bottomDelegations after.candidateInfo) :
    Sound config after where
  pool := pool
  top := top
  bottom := bottom
  records account state found := sound.records account state (by rwa [← isState])
  apart account state found := by
    rw [isState] at found
    have different : account ≠ candidate := by
      rintro rfl
      rw [apart] at found
      cases found
    rw [isInfo, StorageMap.get_insert_of_ne _ _ different]
    exact sound.apart account state found
  requests := by
    rw [isInfo]
    refine StorageMap.forall_insert sound.requests ?_
    rintro request ⟨⟩

/-- The metadata of a stored candidate is updated, and nothing else. -/
theorem Sound.amend (sound : Sound config before)
    (stored : before.candidateInfo.get candidate = some info)
    (terms : ∀ request, info'.request = some request → request.amount < info'.bond)
    (isInfo : after.candidateInfo = before.candidateInfo.insert candidate info')
    (isTop : after.topDelegations = before.topDelegations)
    (isBottom : after.bottomDelegations = before.bottomDelegations)
    (isState : after.delegatorState = before.delegatorState)
    (pool : PoolHolds config after.candidatePool (activeTotals after.candidateInfo)) :
    Sound config after := by
  refine sound.rewrite stored isInfo terms pool ?_ ?_ fun account state found => ?_
  · rw [isInfo, isTop]
    exact sound.top.rewrite stored info'
  · rw [isInfo, isBottom]
    exact sound.bottom.rewrite stored info'
  · rw [isState] at found
    exact ⟨sound.records account state found, sound.apart account state found⟩

/-- The metadata and the lists of a stored candidate are updated, and records of delegators. -/
theorem Sound.relist (sound : Sound config before) {top' bottom' : Delegations AccountId}
    (stored : before.candidateInfo.get candidate = some info) (same : SameTerms info info')
    (isInfo : after.candidateInfo = before.candidateInfo.insert candidate info')
    (isTop : after.topDelegations = before.topDelegations.insert candidate top')
    (isBottom : after.bottomDelegations = before.bottomDelegations.insert candidate bottom')
    (pool : PoolHolds config after.candidatePool (activeTotals after.candidateInfo))
    (delegators : ∀ account state, after.delegatorState.get account = some state →
      Delegator.Consistent account state ∧ before.candidateInfo.get account = none) :
    Sound config after := by
  refine sound.rewrite stored isInfo (same.requests (sound.requests candidate info stored)) pool
    ?_ ?_ delegators
  · rw [isInfo, isTop]
    exact sound.top.insert _ _ _
  · rw [isInfo, isBottom]
    exact sound.bottom.insert _ _ _

theorem Sound.exit (sound : Sound config before) {bonds : List (Bond AccountId)}
    {returned : Stakes AccountId Native}
    (returns : Returns config candidate bonds before returned)
    (isInfo : after.candidateInfo = before.candidateInfo.remove candidate)
    (isState : after.delegatorState = returned.delegatorState)
    (pool : PoolHolds config after.candidatePool (activeTotals after.candidateInfo))
    (top : StorageMap.SameKeys after.topDelegations after.candidateInfo)
    (bottom : StorageMap.SameKeys after.bottomDelegations after.candidateInfo) :
    Sound config after where
  pool := pool
  top := top
  bottom := bottom
  records := by
    rw [isState]
    exact (returns.records sound.records).1
  apart account state found := by
    rw [isState] at found
    rw [isInfo, StorageMap.get_remove]
    cases stored : before.delegatorState.get account with
    | none =>
        rw [(returns.records sound.records).2 account stored] at found
        cases found
    | some old => rw [sound.apart account old stored, ite_self]
  requests := by
    rw [isInfo]
    exact StorageMap.forall_remove sound.requests candidate

/-- The record of a delegator is replaced, and nothing else that must be in step. -/
theorem Sound.record (sound : Sound config before) {state state' : Delegator AccountId}
    (stored : before.delegatorState.get delegator = some state)
    (consistent : Delegator.Consistent delegator state')
    {scheduled : StorageMap AccountId (List (ScheduledRequest AccountId))}
    (pool : PoolHolds config before.candidatePool (activeTotals before.candidateInfo)) :
    Sound config { before with
      delegatorState := before.delegatorState.insert delegator state'
      delegationScheduledRequests := scheduled } := by
  have delegators := sound.insert_delegator stored consistent
  exact ⟨pool, sound.top, sound.bottom, fun account state found =>
    (delegators account state found).1, fun account state found =>
    (delegators account state found).2, sound.requests⟩

end Parts

/-! ## Every effect -/

theorem Sound.settles (sound : Sound config before)
    (settles : Settles config may signs before after) : Sound config after := by
  obtain ⟨effect, pool⟩ := settles
  cases effect with
  | native | moves | clears =>
      exact ⟨pool, sound.top, sound.bottom, sound.records, sound.apart, sound.requests⟩
  | joins candidate native joined fresh apart =>
      exact sound.join apart rfl rfl pool (sound.top.insert _ _ _) (sound.bottom.insert _ _ _)
  | amends candidate info status request _ stored terms =>
      refine sound.amend stored (fun new isNew => ?_) rfl rfl rfl rfl pool
      rcases terms new isNew with old | below
      · exact sound.requests candidate info stored new old
      · exact below
  | bondsMore candidate info more _ stored =>
      refine sound.amend stored (fun request pending => ?_) rfl rfl rfl rfl pool
      exact Nat.lt_add_right more (sound.requests candidate info stored request pending)
  | bondsLess candidate info request _ stored =>
      refine sound.amend stored ?_ rfl rfl rfl rfl pool
      rintro new ⟨⟩
  | exits candidate info top bottom returned native _ stored _ _ returns =>
      exact sound.exit returns rfl rfl pool (sound.top.remove _) (sound.bottom.remove _)
  | delegates delegator candidate amount state info info' _ _ top' bottom' kicked mid _ _ stored
      _ _ _ _ apart _ enrolls kicks _ same =>
      have start := fun state stored => sound.records delegator state stored
      refine sound.relist stored same rfl rfl rfl pool ?_
      exact StorageMap.forall_insert (kicks.delegators sound) ⟨enrolls.consistent start, apart⟩
  | revokes delegator candidate amount state request info info' _ _ _ _ _ storedDelegator _ _
      stored _ _ _ same =>
      refine sound.relist stored same rfl rfl rfl pool ?_
      refine sound.put_delegator storedDelegator fun state' isEntry => ?_
      split at isEntry
      · cases isEntry
      · cases isEntry
        exact ((sound.records delegator state storedDelegator).without candidate).forget _
  | decreases delegator candidate bonded less state request info info' _ _ _ _ _ storedDelegator
      _ _ _ recorded below stored _ _ _ same =>
      have consistent := sound.records delegator state storedDelegator
      have held := consistent.le_total recorded
      refine sound.relist stored same rfl rfl rfl pool ?_
      refine sound.insert_delegator storedDelegator ((consistent.forget less).rebonded recorded ?_)
      simp only [Delegator.forget]
      omega
  | increases delegator candidate bonded more state info info' _ _ _ _ _ storedDelegator _
      recorded _ stored _ _ _ same =>
      have consistent := sound.records delegator state storedDelegator
      refine sound.relist stored same rfl rfl rfl pool ?_
      refine sound.insert_delegator storedDelegator (consistent.rebonded recorded ?_)
      omega
  | schedules delegator candidate bonded state request storedDelegator =>
      have consistent := sound.records delegator state storedDelegator
      have updated : Delegator.Consistent delegator
          { state with lessTotal := state.lessTotal + request.action.amount } :=
        ⟨consistent.id, consistent.sorted, consistent.total⟩
      exact sound.record storedDelegator updated pool
  | cancels delegator candidate state request storedDelegator =>
      have consistent := sound.records delegator state storedDelegator
      exact sound.record storedDelegator (consistent.forget request.action.amount) pool

end Popsicle
