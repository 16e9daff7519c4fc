import Popsicle.Exit

/-!
# Effects of the extrinsics

`Effect` says once what each extrinsic of the staking pallet can do to storage.
Whatever is shown of runs is shown case by case for these effects.
-/

namespace Popsicle

open Foundation Exec Keyed

variable {AccountId Native : Type} [LinearOrder AccountId] {config : Config AccountId Native}

/-- The steps that take stake out and are singled out: a due exit, and a due decrease
of a delegation.  They are scheduled beforehand. -/
inductive Withdrawal (AccountId : Type) where
  | exit (candidate : AccountId)
  | decrease (delegator candidate : AccountId)
  | schedules

/-- What a step does to the storage of stakes.  The predicates restrict the
withdrawals and the accounts that put in BTC. -/
inductive Effect (config : Config AccountId Native) (may : Withdrawal AccountId → Prop)
    (signs : AccountId → Prop) (before : Stakes AccountId Native) :
    Stakes AccountId Native → Prop where
  | native (native : Native) : Effect config may signs before { before with native }
  | moves (balance : AccountId → Nat)
      (kept : config.asset.Credits →
        before.btc.balance config.palletAccount ≤ balance config.palletAccount) :
      Effect config may signs before { before with btc := { before.btc with balance } }
  | clears (scheduled : StorageMap AccountId (List (ScheduledRequest AccountId)))
      (same : ∀ sequencer, requestsOf scheduled sequencer = before.requests sequencer) :
      Effect config may signs before { before with delegationScheduledRequests := scheduled }
  | joins (candidate : AccountId) (native : Native)
      (pool : BoundedOrderedSet (Bond AccountId))
      (fresh : before.candidateInfo.get candidate = none)
      (apart : before.delegatorState.get candidate = none) :
      Effect config may signs before { before with
        candidateInfo := before.candidateInfo.insert candidate (CandidateMetadata.new 0)
        topDelegations := before.topDelegations.insert candidate Delegations.default
        bottomDelegations := before.bottomDelegations.insert candidate Delegations.default
        candidatePool := pool
        native }
  | amends (candidate : AccountId) (info : CandidateMetadata) (status : SequencerStatus)
      (request : Option CandidateBondLessRequest) (pool : BoundedOrderedSet (Bond AccountId))
      (stored : before.candidateInfo.get candidate = some info)
      (terms : ∀ new, request = some new → info.request = some new ∨ new.amount < info.bond)
      (timed : may .schedules ∨ (∀ when, status = .leaving when → info.status = .leaving when) ∧
        ∀ new, request = some new → info.request = some new) :
      Effect config may signs before { before with
        candidateInfo := before.candidateInfo.insert candidate { info with status, request }
        candidatePool := pool }
  | bondsMore (candidate : AccountId) (info : CandidateMetadata) (more : Nat)
      (pool : BoundedOrderedSet (Bond AccountId))
      (stored : before.candidateInfo.get candidate = some info)
      (funded : more ≤ before.btc.balance candidate)
      (signed : signs candidate) :
      Effect config may signs before { before with
        candidateInfo := before.candidateInfo.insert candidate
          { info with bond := info.bond + more, totalCounted := info.totalCounted + more }
        candidatePool := pool
        total := before.total + more
        btc := before.btc.pay config candidate config.palletAccount more }
  | bondsLess (candidate : AccountId) (info : CandidateMetadata)
      (request : CandidateBondLessRequest) (pool : BoundedOrderedSet (Bond AccountId))
      (stored : before.candidateInfo.get candidate = some info)
      (pending : info.request = some request) :
      Effect config may signs before { before with
        candidateInfo := before.candidateInfo.insert candidate
          { info with
            bond := info.bond - request.amount
            totalCounted := info.totalCounted - request.amount
            request := none }
        candidatePool := pool
        total := before.total - request.amount
        btc := before.btc.pay config config.palletAccount candidate request.amount }
  | exits (candidate : AccountId) (info : CandidateMetadata)
      (top bottom : Delegations AccountId) (returned : Stakes AccountId Native)
      (native : Native) (allowed : may (.exit candidate))
      (stored : before.candidateInfo.get candidate = some info)
      (storedTop : before.topDelegations.get candidate = some top)
      (storedBottom : before.bottomDelegations.get candidate = some bottom)
      (returns : Returns config candidate (table top bottom) before returned) :
      Effect config may signs before { before with
        delegatorState := returned.delegatorState
        candidateInfo := before.candidateInfo.remove candidate
        delegationScheduledRequests := returned.delegationScheduledRequests.remove candidate
        topDelegations := before.topDelegations.remove candidate
        bottomDelegations := before.bottomDelegations.remove candidate
        total := before.total - (info.bond + top.total + bottom.total)
        btc := returned.btc
        native }
  | delegates (delegator candidate : AccountId) (amount : Nat) (state : Delegator AccountId)
      (info info' : CandidateMetadata) (top bottom top' bottom' : Delegations AccountId)
      (kicked : Option (Bond AccountId)) (mid : Stakes AccountId Native)
      (less : Option Nat) (pool : BoundedOrderedSet (Bond AccountId))
      (stored : before.candidateInfo.get candidate = some info)
      (storedTop : before.topDelegations.get candidate = some top)
      (storedBottom : before.bottomDelegations.get candidate = some bottom)
      (minimum : config.minDelegation ≤ amount)
      (fresh : booked before.delegatorState delegator candidate = none)
      (apart : before.candidateInfo.get delegator = none)
      (signed : signs delegator)
      (enrolls : Enrolls (before.delegatorState.get delegator) delegator candidate amount state)
      (kicks : Kicks config candidate before kicked mid)
      (adds : Adds config info top bottom { owner := delegator, amount } kicked info' top' bottom')
      (same : SameTerms info info')
      (isLess : Listed config info top bottom → less = kicked.map Bond.amount) :
      Effect config may signs before { mid with
        delegatorState := mid.delegatorState.insert delegator state
        candidateInfo := before.candidateInfo.insert candidate info'
        topDelegations := before.topDelegations.insert candidate top'
        bottomDelegations := before.bottomDelegations.insert candidate bottom'
        total := before.total + (amount - less.getD 0)
        candidatePool := pool
        btc := mid.btc.pay config delegator config.palletAccount amount }
  | revokes (delegator candidate : AccountId) (amount : Nat) (state : Delegator AccountId)
      (request : ScheduledRequest AccountId) (info info' : CandidateMetadata)
      (top bottom top' bottom' : Delegations AccountId)
      (pool : BoundedOrderedSet (Bond AccountId))
      (storedDelegator : before.delegatorState.get delegator = some state)
      (found : findRequest (before.requests candidate) delegator = some request)
      (action : request.action = .revoke amount)
      (stored : before.candidateInfo.get candidate = some info)
      (storedTop : before.topDelegations.get candidate = some top)
      (storedBottom : before.bottomDelegations.get candidate = some bottom)
      (removes : Removes config info top bottom delegator info' top' bottom')
      (same : SameTerms info info') :
      Effect config may signs before
        { dropped config candidate delegator state (state.delegations.entries.length = 1)
            before with
          candidateInfo := before.candidateInfo.insert candidate info'
          topDelegations := before.topDelegations.insert candidate top'
          bottomDelegations := before.bottomDelegations.insert candidate bottom'
          total := before.total - amount
          candidatePool := pool }
  | decreases (delegator candidate : AccountId) (bonded less : Nat)
      (state : Delegator AccountId) (request : ScheduledRequest AccountId)
      (info info' : CandidateMetadata) (top bottom top' bottom' : Delegations AccountId)
      (pool : BoundedOrderedSet (Bond AccountId))
      (storedDelegator : before.delegatorState.get delegator = some state)
      (allowed : may (.decrease delegator candidate))
      (found : findRequest (before.requests candidate) delegator = some request)
      (action : request.action = .decrease less)
      (recorded : state.getBondAmount candidate = some bonded)
      (below : less < bonded)
      (stored : before.candidateInfo.get candidate = some info)
      (storedTop : before.topDelegations.get candidate = some top)
      (storedBottom : before.bottomDelegations.get candidate = some bottom)
      (changes : Recorded top bottom delegator bonded →
        Changes config info top bottom delegator (· - less) info' top' bottom')
      (same : SameTerms info info') :
      Effect config may signs before { before with
        delegatorState := before.delegatorState.insert delegator
          ((state.forget less).rebonded candidate (· - less) (state.total - less))
        candidateInfo := before.candidateInfo.insert candidate info'
        delegationScheduledRequests := before.delegationScheduledRequests.insert candidate
          (removeRequest (before.requests candidate) delegator)
        topDelegations := before.topDelegations.insert candidate top'
        bottomDelegations := before.bottomDelegations.insert candidate bottom'
        total := before.total - less
        candidatePool := pool
        btc := before.btc.pay config config.palletAccount delegator less }
  | increases (delegator candidate : AccountId) (bonded more : Nat)
      (state : Delegator AccountId) (info info' : CandidateMetadata)
      (top bottom top' bottom' : Delegations AccountId)
      (pool : BoundedOrderedSet (Bond AccountId))
      (storedDelegator : before.delegatorState.get delegator = some state)
      (unrevoked : delegationRequestRevokeExists (before.requests candidate) delegator = false)
      (recorded : state.getBondAmount candidate = some bonded)
      (signed : signs delegator)
      (stored : before.candidateInfo.get candidate = some info)
      (storedTop : before.topDelegations.get candidate = some top)
      (storedBottom : before.bottomDelegations.get candidate = some bottom)
      (changes : Recorded top bottom delegator bonded →
        Changes config info top bottom delegator (· + more) info' top' bottom')
      (same : SameTerms info info') :
      Effect config may signs before { before with
        delegatorState := before.delegatorState.insert delegator
          (state.rebonded candidate (· + more) (state.total + more))
        candidateInfo := before.candidateInfo.insert candidate info'
        topDelegations := before.topDelegations.insert candidate top'
        bottomDelegations := before.bottomDelegations.insert candidate bottom'
        total := before.total + more
        candidatePool := pool
        btc := before.btc.pay config delegator config.palletAccount more }
  | schedules (delegator candidate : AccountId) (bonded : Nat) (state : Delegator AccountId)
      (request : ScheduledRequest AccountId)
      (storedDelegator : before.delegatorState.get delegator = some state)
      (sender : request.delegator = delegator)
      (absent : findRequest (before.requests candidate) delegator = none)
      (recorded : state.getBondAmount candidate = some bonded)
      (fits : request.action.Fits config bonded)
      (allowed : may .schedules) :
      Effect config may signs before { before with
        delegatorState := before.delegatorState.insert delegator
          { state with lessTotal := state.lessTotal + request.action.amount }
        delegationScheduledRequests := before.delegationScheduledRequests.insert candidate
          (before.requests candidate ++ [request]) }
  | cancels (delegator candidate : AccountId) (state : Delegator AccountId)
      (request : ScheduledRequest AccountId)
      (storedDelegator : before.delegatorState.get delegator = some state)
      (found : findRequest (before.requests candidate) delegator = some request) :
      Effect config may signs before { before with
        delegatorState := before.delegatorState.insert delegator
          (state.forget request.action.amount)
        delegationScheduledRequests := before.delegationScheduledRequests.insert candidate
          (removeRequest (before.requests candidate) delegator) }

/-- An effect with the pool in step with the stored candidates. -/
def Settles (config : Config AccountId Native) (may : Withdrawal AccountId → Prop)
    (signs : AccountId → Prop) (before after : Stakes AccountId Native) : Prop :=
  Effect config may signs before after ∧
    PoolHolds config after.candidatePool (activeTotals after.candidateInfo)

/-- The status of an account, if it is a candidate. -/
def Stakes.status (stakes : Stakes AccountId Native) (candidate : AccountId) :
    Option SequencerStatus :=
  (stakes.candidateInfo.get candidate).map CandidateMetadata.status

/-- Every account has the status it had before. -/
def SameStatuses (before after : Stakes AccountId Native) : Prop :=
  ∀ candidate, after.status candidate = before.status candidate

/-- An effect that changes the status of no account. -/
def Quiet (config : Config AccountId Native) (may : Withdrawal AccountId → Prop)
    (signs : AccountId → Prop) (before after : Stakes AccountId Native) : Prop :=
  Settles config may signs before after ∧ SameStatuses before after

theorem sameStatuses_insert {before after : Stakes AccountId Native} {candidate : AccountId}
    {info info' : CandidateMetadata} (stored : before.candidateInfo.get candidate = some info)
    (isAfter : after.candidateInfo = before.candidateInfo.insert candidate info')
    (same : info'.status = info.status) : SameStatuses before after := by
  intro account
  rw [Stakes.status, Stakes.status, isAfter, StorageMap.get_insert]
  split
  next equal => rw [equal, stored, Option.map_some, Option.map_some, same]
  next => rfl

/-- In a safe state the fault is an error, or an overflow, and not another panic. -/
def Excused (config : Config AccountId Native) (stakes : Stakes AccountId Native)
    (fault : Fault) : Prop :=
  Safe config stakes → (∃ reason, fault = .error reason) ∨ fault = .panic .arithmeticOverflow

theorem excused_error {stakes : Stakes AccountId Native} (reason : DispatchError) :
    Excused config stakes (.error reason) :=
  fun _ => .inl ⟨reason, rfl⟩

theorem excused_overflow {stakes : Stakes AccountId Native} :
    Excused config stakes (.panic .arithmeticOverflow) :=
  fun _ => .inr rfl

end Popsicle
