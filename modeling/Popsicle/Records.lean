import Popsicle.Refund

/-!
# Records of the delegators

`RecordsHold` says that the records of the delegators and the scheduled requests
describe the same delegations.  A delegator can delegate anew, change or drop a
delegation, and schedule or withdraw a request; each of these keeps the statement.
-/

namespace Popsicle

open Foundation Keyed

variable {AccountId Native : Type} [LinearOrder AccountId] {config : Config AccountId Native}

/-- What a delegator has delegated to a candidate, by its record. -/
def booked (delegatorState : StorageMap AccountId (Delegator AccountId))
    (delegator candidate : AccountId) : Option Nat :=
  (delegatorState.get delegator).bind fun state => state.getBondAmount candidate

/-- The requests stored towards a sequencer; an unset item reads as empty. -/
def requestsOf (scheduled : StorageMap AccountId (List (ScheduledRequest AccountId)))
    (sequencer : AccountId) : List (ScheduledRequest AccountId) :=
  (scheduled.get sequencer).getD []

/-- What a delegator has pending towards all sequencers. -/
def pendingTotal (scheduled : StorageMap AccountId (List (ScheduledRequest AccountId)))
    (delegator : AccountId) : Nat :=
  scheduled.sum fun _ requests => pendingAmount requests delegator

/-- An action can be taken on a delegation of the given amount. -/
def DelegationAction.Fits (config : Config AccountId Native) (bonded : Nat) :
    DelegationAction → Prop
  | .revoke amount => amount = bonded
  | .decrease amount => amount < bonded ∧ amount + config.minDelegation ≤ bonded

/-- The record of a delegator agrees with itself and respects the minimum. -/
structure Delegator.Kept (config : Config AccountId Native) (account : AccountId)
    (state : Delegator AccountId) : Prop extends Delegator.Consistent account state where
  nonempty : state.delegations.entries ≠ []
  atLeast : ∀ bond ∈ state.delegations.entries, config.minDelegation ≤ bond.amount

/-- Records and requests describe the same delegations. -/
structure RecordsHold (config : Config AccountId Native)
    (delegatorState : StorageMap AccountId (Delegator AccountId))
    (scheduled : StorageMap AccountId (List (ScheduledRequest AccountId))) : Prop where
  kept : ∀ account state, delegatorState.get account = some state →
    Delegator.Kept config account state
  lessTotal : ∀ account state, delegatorState.get account = some state →
    state.lessTotal = pendingTotal scheduled account
  distinct : ∀ sequencer, Distinct ScheduledRequest.delegator (requestsOf scheduled sequencer)
  fits : ∀ sequencer delegator request,
    findRequest (requestsOf scheduled sequencer) delegator = some request → ∃ amount,
      booked delegatorState delegator sequencer = some amount ∧
        request.action.Fits config amount

/-! ## Looking up -/

section Lookups

variable {delegatorState : StorageMap AccountId (Delegator AccountId)}
  {delegator account candidate : AccountId} {state : Delegator AccountId} {amount : Nat}

theorem booked_of_stored (stored : delegatorState.get delegator = some state)
    (candidate : AccountId) :
    booked delegatorState delegator candidate = state.getBondAmount candidate := by
  simp [booked, stored]

theorem booked_of_none (absent : delegatorState.get delegator = none)
    (candidate : AccountId) : booked delegatorState delegator candidate = none := by
  simp [booked, absent]

theorem booked_eq_some : booked delegatorState delegator candidate = some amount ↔
    ∃ state, delegatorState.get delegator = some state ∧
      state.getBondAmount candidate = some amount :=
  Option.bind_eq_some_iff

theorem booked_put (delegatorState : StorageMap AccountId (Delegator AccountId))
    (delegator : AccountId) (entry : Option (Delegator AccountId))
    (account candidate : AccountId) :
    booked (delegatorState.put delegator entry) account candidate =
      if account = delegator then entry.bind fun state => state.getBondAmount candidate
      else booked delegatorState account candidate := by
  rw [booked, StorageMap.get_put]
  split <;> rfl

theorem booked_insert (delegatorState : StorageMap AccountId (Delegator AccountId))
    (delegator : AccountId) (state : Delegator AccountId) (account candidate : AccountId) :
    booked (delegatorState.insert delegator state) account candidate =
      if account = delegator then state.getBondAmount candidate
      else booked delegatorState account candidate :=
  booked_put delegatorState delegator (some state) account candidate

/-- An update that keeps every amount of the delegator keeps all amounts. -/
theorem booked_insert_same {state' : Delegator AccountId}
    (stored : delegatorState.get delegator = some state)
    (same : state'.delegations = state.delegations) (account candidate : AccountId) :
    booked (delegatorState.insert delegator state') account candidate =
      booked delegatorState account candidate := by
  rw [booked_insert]
  split
  next equal => rw [equal, booked_of_stored stored, Delegator.getBondAmount, same]; rfl
  next => rfl

end Lookups

/-! ## Pending amounts -/

section Pending

variable {scheduled scheduled' : StorageMap AccountId (List (ScheduledRequest AccountId))}
  {sequencer delegator : AccountId} {requests : List (ScheduledRequest AccountId)}

theorem weight_pending (scheduled : StorageMap AccountId (List (ScheduledRequest AccountId)))
    (sequencer delegator : AccountId) :
    scheduled.weight (fun _ requests => pendingAmount requests delegator) sequencer =
      pendingAmount (requestsOf scheduled sequencer) delegator := by
  unfold StorageMap.weight requestsOf
  cases scheduled.get sequencer <;> rfl

/-- The pending total changes with the requests towards one sequencer. -/
theorem pendingTotal_update
    (frame : ∀ other, other ≠ sequencer → requestsOf scheduled' other = requestsOf scheduled other)
    (delegator : AccountId) :
    pendingTotal scheduled' delegator + pendingAmount (requestsOf scheduled sequencer) delegator =
      pendingTotal scheduled delegator +
        pendingAmount (requestsOf scheduled' sequencer) delegator := by
  have weights : ∀ other, other ≠ sequencer →
      scheduled'.weight (fun _ requests => pendingAmount requests delegator) other =
        scheduled.weight (fun _ requests => pendingAmount requests delegator) other := by
    intro other different
    rw [weight_pending, weight_pending, frame other different]
  have change := StorageMap.sum_update _ sequencer weights
  rwa [weight_pending, weight_pending] at change

theorem pendingTotal_congr
    (same : ∀ sequencer, requestsOf scheduled' sequencer = requestsOf scheduled sequencer)
    (delegator : AccountId) :
    pendingTotal scheduled' delegator = pendingTotal scheduled delegator := by
  apply StorageMap.sum_eq_of_weight
  intro sequencer
  rw [weight_pending, weight_pending, same]

theorem pendingTotal_eq_zero
    (none : ∀ sequencer, findRequest (requestsOf scheduled sequencer) delegator = none) :
    pendingTotal scheduled delegator = 0 := by
  apply Finset.sum_eq_zero
  intro sequencer _
  rw [weight_pending, pendingAmount, none]
  rfl

theorem pendingAmount_of_find {request : ScheduledRequest AccountId}
    (found : findRequest requests delegator = some request) :
    pendingAmount requests delegator = request.action.amount := by
  simp [pendingAmount, found]

theorem pendingAmount_of_none (absent : findRequest requests delegator = none) :
    pendingAmount requests delegator = 0 := by
  simp [pendingAmount, absent]

/-- With one request per delegator, removing the first removes them all. -/
theorem removeRequest_eq (distinct : Distinct ScheduledRequest.delegator requests)
    (delegator : AccountId) :
    removeRequest requests delegator = erase ScheduledRequest.delegator requests delegator := by
  induction requests with
  | nil => rfl
  | cons request rest ih =>
      obtain ⟨fresh, restDistinct⟩ := List.nodup_cons.mp distinct
      by_cases equal : request.delegator = delegator
      · have absent : lookup ScheduledRequest.delegator rest delegator = none := by
          rw [lookup_eq_none]
          intro other member same
          exact fresh (List.mem_map.mpr ⟨other, member, same.trans equal.symm⟩)
        have skip : erase ScheduledRequest.delegator (request :: rest) delegator =
            erase ScheduledRequest.delegator rest delegator := by
          simp [erase, equal]
        rw [skip, erase_eq_self absent]
        simp [removeRequest, equal]
      · simpa [removeRequest, erase, equal] using ih restDistinct

theorem pendingAmount_erase (requests : List (ScheduledRequest AccountId))
    (delegator account : AccountId) :
    pendingAmount (erase ScheduledRequest.delegator requests delegator) account =
      if account = delegator then 0 else pendingAmount requests account := by
  rw [pendingAmount, findRequest, lookup_erase]
  split <;> rfl

theorem findRequest_push {request : ScheduledRequest AccountId}
    (absent : findRequest requests request.delegator = none) (account : AccountId) :
    findRequest (requests ++ [request]) account =
      if account = request.delegator then some request else findRequest requests account := by
  by_cases equal : account = request.delegator
  · subst equal
    simp [findRequest, lookup, List.find?_append] at absent ⊢
    rw [List.find?_eq_none.mpr (by simpa using absent)]
    rfl
  · simp [findRequest, lookup, List.find?_append, equal, Ne.symm equal]

theorem requestsOf_insert (stakes : Stakes AccountId Native) (sequencer : AccountId)
    (requests : List (ScheduledRequest AccountId)) (other : AccountId) :
    requestsOf (stakes.delegationScheduledRequests.insert sequencer requests) other =
      if other = sequencer then requests else stakes.requests other := by
  rw [requestsOf, StorageMap.get_insert]
  split <;> rfl

/-- The requests after one of them has been taken off its list. -/
theorem requestsOf_removed {stakes : Stakes AccountId Native}
    (distinct : Distinct ScheduledRequest.delegator (stakes.requests sequencer))
    (delegator other : AccountId) :
    requestsOf (stakes.delegationScheduledRequests.insert sequencer
        (removeRequest (stakes.requests sequencer) delegator)) other =
      if other = sequencer then
        erase ScheduledRequest.delegator
          (requestsOf stakes.delegationScheduledRequests sequencer) delegator
      else requestsOf stakes.delegationScheduledRequests other := by
  rw [requestsOf_insert, removeRequest_eq distinct]
  rfl

theorem requestsOf_forgetRequest {stakes : Stakes AccountId Native}
    (distinct : Distinct ScheduledRequest.delegator (stakes.requests sequencer))
    (delegator other : AccountId) :
    requestsOf (forgetRequest stakes sequencer delegator) other =
      if other = sequencer then
        erase ScheduledRequest.delegator (stakes.requests sequencer) delegator
      else stakes.requests other := by
  unfold forgetRequest
  split
  next =>
    rw [requestsOf, StorageMap.get_insert, removeRequest_eq distinct]
    split <;> rfl
  next absent =>
    have isNone : findRequest (stakes.requests sequencer) delegator = none := by
      simpa using absent
    rw [erase_eq_self isNone]
    split
    next equal => rw [equal]; rfl
    next => rfl

end Pending

/-! ## Records that change -/

/-- The record of a delegator after a new delegation. -/
def Enrolls (before : Option (Delegator AccountId)) (delegator candidate : AccountId)
    (amount : Nat) (after : Delegator AccountId) : Prop :=
  match before with
  | none => after = Delegator.new delegator candidate amount
  | some state => ∃ entries, SortedByOwner entries ∧
      entries.Perm ({ owner := candidate, amount } :: state.delegations.entries) ∧
      after = { state with delegations := ⟨entries⟩, total := state.total + amount }

/-- The record with the amount of one delegation changed. -/
def Delegator.rebonded (self : Delegator AccountId) (candidate : AccountId)
    (change : Nat → Nat) (total : Nat) : Delegator AccountId :=
  { self with
    delegations := ⟨adjust Bond.owner self.delegations.entries candidate fun bond =>
      { bond with amount := change bond.amount }⟩
    total }

section Changes

variable {before : Option (Delegator AccountId)} {delegator candidate : AccountId}
  {amount : Nat} {state after : Delegator AccountId}

theorem new_entries (delegator candidate : AccountId) (amount : Nat) :
    (Delegator.new delegator candidate amount).delegations.entries =
      [{ owner := candidate, amount }] := by
  rw [Delegator.new, sortedByOwner_singleton.fromVec]

theorem Enrolls.total_eq (enrolls : Enrolls before delegator candidate amount after) :
    after.total = (before.map Delegator.total).getD 0 + amount := by
  cases before with
  | none =>
      rw [enrolls]
      simp [Delegator.new]
  | some state =>
      obtain ⟨entries, _, _, rfl⟩ := enrolls
      rfl

theorem Enrolls.consistent (enrolls : Enrolls before delegator candidate amount after)
    (consistent : ∀ state, before = some state → Delegator.Consistent delegator state) :
    Delegator.Consistent delegator after := by
  cases before with
  | none =>
      rw [enrolls]
      refine ⟨rfl, ?_, ?_⟩
      · rw [new_entries]
        exact sortedByOwner_singleton
      · rw [new_entries]
        rfl
  | some state =>
      obtain ⟨entries, sorted, perm, rfl⟩ := enrolls
      have old := consistent state rfl
      refine ⟨old.id, sorted, ?_⟩
      rw [Delegations.sumAmounts_perm perm, Delegations.sumAmounts_cons, ← old.total]
      exact Nat.add_comm _ _

theorem Enrolls.mem_entries (enrolls : Enrolls before delegator candidate amount after)
    {bond : Bond AccountId} (member : bond ∈ after.delegations.entries) :
    bond = { owner := candidate, amount } ∨
      ∃ state, before = some state ∧ bond ∈ state.delegations.entries := by
  cases before with
  | none =>
      rw [enrolls, new_entries] at member
      exact .inl (List.mem_singleton.mp member)
  | some state =>
      obtain ⟨entries, _, perm, rfl⟩ := enrolls
      rcases List.mem_cons.mp (perm.mem_iff.mp member) with isNew | isOld
      · exact .inl isNew
      · exact .inr ⟨state, rfl, isOld⟩

theorem Enrolls.getBondAmount (enrolls : Enrolls before delegator candidate amount after)
    (consistent : ∀ state, before = some state → Delegator.Consistent delegator state)
    (fresh : (before.bind fun state => state.getBondAmount candidate) = none)
    (other : AccountId) :
    after.getBondAmount other =
      if other = candidate then some amount
      else before.bind fun state => state.getBondAmount other := by
  cases before with
  | none =>
      rw [enrolls, Delegator.getBondAmount, new_entries, lookup_cons]
      by_cases equal : other = candidate
      · simp [equal]
      · simp [equal, Ne.symm equal]
  | some state =>
      obtain ⟨entries, sorted, perm, rfl⟩ := enrolls
      have distinct : Distinct Bond.owner
          ({ owner := candidate, amount } :: state.delegations.entries) :=
        (consistent state rfl).sorted.distinct.cons
          (Delegator.getBondAmount_eq_none.mp fresh)
      rw [Delegator.getBondAmount, distinct.lookup_perm perm, lookup_cons]
      by_cases equal : other = candidate
      · simp [equal]
      · simp [equal, Ne.symm equal, Delegator.getBondAmount]

theorem Delegator.getBondAmount_rebonded (self : Delegator AccountId) (candidate : AccountId)
    (change : Nat → Nat) (total : Nat) (other : AccountId) :
    (self.rebonded candidate change total).getBondAmount other =
      if other = candidate then (self.getBondAmount other).map change
      else self.getBondAmount other := by
  have found := lookup_adjust self.delegations.entries
    (fun bond : Bond AccountId => { bond with amount := change bond.amount })
    (fun _ => (rfl : Bond.owner _ = _)) candidate other
  simp only [Delegator.getBondAmount, Delegator.rebonded, found]
  split
  next => simp [Option.map_map, Function.comp_def]
  next => rfl

theorem Delegator.Consistent.rebonded (consistent : Delegator.Consistent delegator state)
    (recorded : state.getBondAmount candidate = some amount) {change : Nat → Nat}
    {total : Nat} (isTotal : total + amount = state.total + change amount) :
    Delegator.Consistent delegator (state.rebonded candidate change total) := by
  have distinct := consistent.sorted.distinct
  have found := Delegator.getBondAmount_eq_some.mp recorded
  refine ⟨consistent.id, ?_, ?_⟩
  · have owners : (state.rebonded candidate change total).delegations.entries.map Bond.owner =
        state.delegations.entries.map Bond.owner := map_key_adjust _ _ fun _ => rfl
    refine List.pairwise_map.mp ?_
    rw [owners]
    exact List.pairwise_map.mpr consistent.sorted
  · have sum := Delegations.sumAmounts_adjust distinct found change
    have old := consistent.total
    dsimp only [Delegator.rebonded] at sum ⊢
    omega

end Changes

/-! ## Moves -/

namespace RecordsHold

variable {delegatorState : StorageMap AccountId (Delegator AccountId)}
  {scheduled scheduled' : StorageMap AccountId (List (ScheduledRequest AccountId))}
  {delegator candidate : AccountId} {state : Delegator AccountId} {amount : Nat}

theorem update (holds : RecordsHold config delegatorState scheduled)
    {entry : Option (Delegator AccountId)}
    (others : ∀ account, account ≠ delegator → ∀ sequencer,
      findRequest (requestsOf scheduled' sequencer) account =
        findRequest (requestsOf scheduled sequencer) account)
    (distinct : ∀ sequencer,
      Distinct ScheduledRequest.delegator (requestsOf scheduled' sequencer))
    (kept : ∀ state, entry = some state → Delegator.Kept config delegator state ∧
      state.lessTotal = pendingTotal scheduled' delegator)
    (fits : ∀ sequencer request,
      findRequest (requestsOf scheduled' sequencer) delegator = some request → ∃ amount,
        (entry.bind fun state => state.getBondAmount sequencer) = some amount ∧
          request.action.Fits config amount) :
    RecordsHold config (delegatorState.put delegator entry) scheduled' where
  kept := StorageMap.forall_put (fun account state _ => holds.kept account state)
    fun state isEntry => (kept state isEntry).1
  lessTotal := by
    refine StorageMap.forall_put (fun account state different stored => ?_)
      fun state isEntry => (kept state isEntry).2
    rw [holds.lessTotal account state stored]
    apply StorageMap.sum_eq_of_weight
    intro sequencer
    rw [weight_pending, weight_pending, pendingAmount, pendingAmount,
      others account different sequencer]
  distinct := distinct
  fits sequencer account request found := by
    rw [booked_put]
    split
    next equal =>
      subst equal
      exact fits sequencer request found
    next different =>
      rw [others account different sequencer] at found
      exact holds.fits sequencer account request found

/-- Only the requests themselves matter, not how they are stored. -/
theorem congr_requests (holds : RecordsHold config delegatorState scheduled)
    (same : ∀ sequencer, requestsOf scheduled' sequencer = requestsOf scheduled sequencer) :
    RecordsHold config delegatorState scheduled' where
  kept := holds.kept
  lessTotal account state stored := by
    rw [pendingTotal_congr same]
    exact holds.lessTotal account state stored
  distinct sequencer := by
    rw [same]
    exact holds.distinct sequencer
  fits sequencer account request found := by
    rw [same] at found
    exact holds.fits sequencer account request found

theorem no_request (holds : RecordsHold config delegatorState scheduled)
    (absent : delegatorState.get delegator = none) (sequencer : AccountId) :
    findRequest (requestsOf scheduled sequencer) delegator = none := by
  by_contra present
  obtain ⟨request, found⟩ := Option.ne_none_iff_exists'.mp present
  obtain ⟨amount, recorded, _⟩ := holds.fits sequencer delegator request found
  simp [booked_of_none absent] at recorded

theorem cancel (holds : RecordsHold config delegatorState scheduled)
    (stored : delegatorState.get delegator = some state)
    (frame : ∀ other, requestsOf scheduled' other =
      if other = candidate then
        erase ScheduledRequest.delegator (requestsOf scheduled candidate) delegator
      else requestsOf scheduled other) :
    RecordsHold config (delegatorState.insert delegator
      (state.forget (pendingAmount (requestsOf scheduled candidate) delegator))) scheduled' := by
  have lookups : ∀ sequencer account,
      findRequest (requestsOf scheduled' sequencer) account =
        if sequencer = candidate ∧ account = delegator then none
        else findRequest (requestsOf scheduled sequencer) account := by
    intro sequencer account
    rw [frame, findRequest]
    by_cases equal : sequencer = candidate
    · subst equal
      simp only [if_true, lookup_erase, true_and]
      rfl
    · simp [equal, findRequest]
  have elsewhere : ∀ other, other ≠ candidate →
      requestsOf scheduled' other = requestsOf scheduled other := by
    intro other different
    rw [frame, if_neg different]
  have total := pendingTotal_update elsewhere delegator
  rw [frame candidate, if_pos rfl, pendingAmount_erase, if_pos rfl] at total
  rw [← StorageMap.put_some]
  refine holds.update ?_ ?_ ?_ ?_
  · intro account different sequencer
    rw [lookups, if_neg fun both => different both.2]
  · intro sequencer
    rw [frame]
    split
    · exact (holds.distinct candidate).erase delegator
    · exact holds.distinct sequencer
  · rintro _ ⟨⟩
    have kept := holds.kept delegator state stored
    have less := holds.lessTotal delegator state stored
    refine ⟨⟨kept.toConsistent.forget _, kept.nonempty, kept.atLeast⟩, ?_⟩
    simp only [Delegator.forget]
    omega
  · intro sequencer request found
    rw [lookups] at found
    split at found
    · cases found
    · obtain ⟨amount, recorded, fits⟩ := holds.fits sequencer delegator request found
      rw [booked_of_stored stored] at recorded
      exact ⟨amount, recorded, fits⟩

/-- A delegator schedules a request towards a sequencer it delegates to. -/
theorem push (holds : RecordsHold config delegatorState scheduled)
    (stored : delegatorState.get delegator = some state)
    {request : ScheduledRequest AccountId} (sender : request.delegator = delegator)
    (absent : findRequest (requestsOf scheduled candidate) delegator = none)
    (recorded : state.getBondAmount candidate = some amount)
    (fits : request.action.Fits config amount)
    (frame : ∀ other, requestsOf scheduled' other =
      if other = candidate then requestsOf scheduled candidate ++ [request]
      else requestsOf scheduled other) :
    RecordsHold config (delegatorState.insert delegator
      { state with lessTotal := state.lessTotal + request.action.amount }) scheduled' := by
  subst sender
  have lookups : ∀ sequencer account,
      findRequest (requestsOf scheduled' sequencer) account =
        if sequencer = candidate ∧ account = request.delegator then some request
        else findRequest (requestsOf scheduled sequencer) account := by
    intro sequencer account
    rw [frame]
    by_cases equal : sequencer = candidate
    · subst equal
      simp [findRequest_push absent]
    · simp [equal]
  have elsewhere : ∀ other, other ≠ candidate →
      requestsOf scheduled' other = requestsOf scheduled other := by
    intro other different
    rw [frame, if_neg different]
  have total := pendingTotal_update elsewhere request.delegator
  rw [pendingAmount_of_none absent, pendingAmount_of_find (by rw [lookups, if_pos ⟨rfl, rfl⟩])]
    at total
  rw [← StorageMap.put_some]
  refine holds.update ?_ ?_ ?_ ?_
  · intro account different sequencer
    rw [lookups, if_neg fun both => different both.2]
  · intro sequencer
    rw [frame]
    split
    · have distinct := (holds.distinct candidate).cons absent
      exact distinct.perm (List.perm_append_singleton _ _)
    · exact holds.distinct sequencer
  · rintro _ ⟨⟩
    have kept := holds.kept request.delegator state stored
    have less := holds.lessTotal request.delegator state stored
    refine ⟨⟨⟨kept.id, kept.sorted, kept.total⟩, kept.nonempty, kept.atLeast⟩, ?_⟩
    dsimp only
    omega
  · intro sequencer other found
    rw [lookups] at found
    split at found
    next both =>
      cases found
      rw [both.1]
      exact ⟨amount, recorded, fits⟩
    next =>
      obtain ⟨amount, recorded, fits⟩ := holds.fits sequencer request.delegator other found
      rw [booked_of_stored stored] at recorded
      exact ⟨amount, recorded, fits⟩

/-- The record of a delegator is replaced, keeping what its requests rely on. -/
theorem replace (holds : RecordsHold config delegatorState scheduled)
    {entry : Option (Delegator AccountId)}
    (kept : ∀ state, entry = some state → Delegator.Kept config delegator state ∧
      state.lessTotal = pendingTotal scheduled delegator)
    (fits : ∀ sequencer request,
      findRequest (requestsOf scheduled sequencer) delegator = some request → ∃ amount,
        (entry.bind fun state => state.getBondAmount sequencer) = some amount ∧
          request.action.Fits config amount) :
    RecordsHold config (delegatorState.put delegator entry) scheduled :=
  holds.update (fun _ _ _ => rfl) holds.distinct kept fits

/-- A delegator drops the delegation to a candidate it has no request towards.
Its record goes with its only delegation. -/
theorem drop (holds : RecordsHold config delegatorState scheduled)
    (stored : delegatorState.get delegator = some state)
    (absent : findRequest (requestsOf scheduled candidate) delegator = none)
    (recorded : state.getBondAmount candidate = some amount) {leaving : Bool}
    (alone : leaving = true ↔ state.delegations.entries.length = 1) :
    RecordsHold config (delegatorState.put delegator
      (if leaving then none else some (state.without candidate))) scheduled := by
  have kept := holds.kept delegator state stored
  have found := Delegator.getBondAmount_eq_some.mp recorded
  have length := kept.sorted.distinct.length_erase found
  have others : ∀ sequencer request,
      findRequest (requestsOf scheduled sequencer) delegator = some request →
        sequencer ≠ candidate ∧ ∃ amount, state.getBondAmount sequencer = some amount ∧
          request.action.Fits config amount := by
    intro sequencer request pending
    obtain ⟨amount, recorded, fits⟩ := holds.fits sequencer delegator request pending
    rw [booked_of_stored stored] at recorded
    refine ⟨?_, amount, recorded, fits⟩
    rintro rfl
    rw [absent] at pending
    cases pending
  refine holds.replace ?_ ?_
  · intro state' isEntry
    split at isEntry
    next => cases isEntry
    next stays =>
      cases isEntry
      refine ⟨⟨kept.toConsistent.without candidate, ?_, ?_⟩, ?_⟩
      · intro isNil
        have isNil : Keyed.erase Bond.owner state.delegations.entries candidate = [] := isNil
        rw [isNil, List.length_nil] at length
        exact stays (alone.mpr length.symm)
      · intro bond member
        exact kept.atLeast bond (mem_erase.mp member).1
      · exact holds.lessTotal delegator state stored
  · intro sequencer request pending
    obtain ⟨different, amount', recorded', fits⟩ := others sequencer request pending
    have remains : (state.without candidate).getBondAmount sequencer = some amount' := by
      rw [Delegator.getBondAmount_without, if_neg different, recorded']
    refine ⟨amount', ?_, fits⟩
    split
    next leaves =>
      have isNil : Keyed.erase Bond.owner state.delegations.entries candidate = [] := by
        rw [← List.length_eq_zero_iff]
        have single := alone.mp leaves
        omega
      have found' := Delegator.getBondAmount_eq_some.mp remains
      simp only [Delegator.without, isNil] at found'
      cases found'
    next => exact remains

theorem dropped {stakes : Stakes AccountId Native}
    (holds : RecordsHold config stakes.delegatorState stakes.delegationScheduledRequests)
    (stored : stakes.delegatorState.get delegator = some state)
    (recorded : state.getBondAmount candidate = some amount) {leaving : Bool}
    (alone : leaving = true ↔ state.delegations.entries.length = 1) :
    RecordsHold config (dropped config candidate delegator state leaving stakes).delegatorState
      (dropped config candidate delegator state leaving stakes).delegationScheduledRequests := by
  have frame := requestsOf_forgetRequest (holds.distinct candidate) delegator
  have withdrawn := holds.cancel stored frame
  have absent : findRequest (requestsOf (forgetRequest stakes candidate delegator) candidate)
      delegator = none := by
    rw [frame, if_pos rfl, findRequest, lookup_erase, if_pos rfl]
  have rest := withdrawn.drop (StorageMap.get_insert_self _ _ _) absent recorded alone
  rw [StorageMap.put_insert_self] at rest
  exact rest

theorem enroll (holds : RecordsHold config delegatorState scheduled)
    (fresh : booked delegatorState delegator candidate = none)
    (minimum : config.minDelegation ≤ amount)
    (enrolls : Enrolls (delegatorState.get delegator) delegator candidate amount state) :
    RecordsHold config (delegatorState.insert delegator state) scheduled := by
  have before : ∀ state, delegatorState.get delegator = some state →
      Delegator.Consistent delegator state :=
    fun state stored => (holds.kept delegator state stored).toConsistent
  rw [← StorageMap.put_some]
  refine holds.replace ?_ ?_
  · rintro _ ⟨⟩
    refine ⟨⟨enrolls.consistent before, ?_, ?_⟩, ?_⟩
    · intro isNil
      have recorded := enrolls.getBondAmount before fresh candidate
      simp [Delegator.getBondAmount, isNil] at recorded
    · intro bond member
      rcases enrolls.mem_entries member with rfl | ⟨old, stored, inOld⟩
      · exact minimum
      · exact (holds.kept delegator old stored).atLeast bond inOld
    · cases stored : delegatorState.get delegator with
      | none =>
          rw [stored] at enrolls
          rw [enrolls, pendingTotal_eq_zero (holds.no_request stored)]
          rfl
      | some old =>
          have less := holds.lessTotal delegator old stored
          rw [stored] at enrolls
          obtain ⟨entries, _, _, rfl⟩ := enrolls
          exact less
  · intro sequencer request found
    obtain ⟨bonded, recorded, fits⟩ := holds.fits sequencer delegator request found
    refine ⟨bonded, ?_, fits⟩
    have different : sequencer ≠ candidate := by
      rintro rfl
      rw [fresh] at recorded
      cases recorded
    rw [Option.bind_some, enrolls.getBondAmount before fresh, if_neg different]
    exact recorded

theorem rebond (holds : RecordsHold config delegatorState scheduled)
    (stored : delegatorState.get delegator = some state)
    (recorded : state.getBondAmount candidate = some amount) (change : Nat → Nat)
    {total : Nat} (isTotal : total + amount = state.total + change amount)
    (minimum : config.minDelegation ≤ change amount)
    (fits : ∀ request,
      findRequest (requestsOf scheduled candidate) delegator = some request →
        request.action.Fits config (change amount)) :
    RecordsHold config (delegatorState.insert delegator
      (state.rebonded candidate change total)) scheduled := by
  have kept := holds.kept delegator state stored
  have found := Delegator.getBondAmount_eq_some.mp recorded
  rw [← StorageMap.put_some]
  refine holds.replace ?_ ?_
  · rintro _ ⟨⟩
    refine ⟨⟨kept.toConsistent.rebonded recorded isTotal, ?_, ?_⟩, ?_⟩
    · simpa [Delegator.rebonded, Keyed.adjust] using kept.nonempty
    · intro bond member
      have perm := kept.sorted.distinct.adjust_perm
        (fun bond => { bond with amount := change bond.amount }) (fun _ => rfl) found
      rcases List.mem_cons.mp (perm.mem_iff.mp member) with rfl | inRest
      · exact minimum
      · exact kept.atLeast bond (mem_erase.mp inRest).1
    · exact holds.lessTotal delegator state stored
  · intro sequencer request pending
    rw [Option.bind_some, Delegator.getBondAmount_rebonded]
    obtain ⟨bonded, recorded', sound⟩ := holds.fits sequencer delegator request pending
    rw [booked_of_stored stored] at recorded'
    by_cases equal : sequencer = candidate
    · subst equal
      rw [if_pos rfl, recorded]
      exact ⟨change amount, rfl, fits request pending⟩
    · rw [if_neg equal]
      exact ⟨bonded, recorded', sound⟩

end RecordsHold

end Popsicle
