import Popsicle.Soundness

/-!
# Agreement is preserved

Every effect keeps records, requests and lists in agreement, as long as the
candidates that leave do so cleanly.
-/

namespace Popsicle

open Foundation Keyed

variable {AccountId Native : Type} [LinearOrder AccountId] {config : Config AccountId Native}
  {may : Withdrawal AccountId → Prop} {signs : AccountId → Prop}
  {before after : Stakes AccountId Native}

/-! ## The lists against a book -/

namespace ListsHold

variable {candidateInfo : StorageMap AccountId CandidateMetadata}
  {topDelegations bottomDelegations : StorageMap AccountId (Delegations AccountId)}
  {book book' : AccountId → AccountId → Option Nat} {candidate : AccountId}
  {info info' : CandidateMetadata} {top bottom top' bottom' : Delegations AccountId}

/-- Metadata, lists and bookings of one candidate change together. -/
theorem relist (holds : ListsHold config candidateInfo topDelegations bottomDelegations book)
    (listed : Listed config info' top' bottom')
    (amounts : ∀ delegator, (lookup Bond.owner (table top' bottom') delegator).map Bond.amount =
      book' delegator candidate)
    (others : ∀ delegator other, other ≠ candidate → book' delegator other = book delegator other) :
    ListsHold config (candidateInfo.insert candidate info')
      (topDelegations.insert candidate top') (bottomDelegations.insert candidate bottom')
      book' where
  listed other info stored := by
    rw [StorageMap.get_insert] at stored
    split at stored
    next equal =>
      cases stored
      subst equal
      exact ⟨top', bottom', StorageMap.get_insert_self _ _ _, StorageMap.get_insert_self _ _ _,
        listed, amounts⟩
    next different =>
      obtain ⟨top, bottom, storedTop, storedBottom, listed, amounts⟩ :=
        holds.listed other info stored
      refine ⟨top, bottom, ?_, ?_, listed, fun delegator => ?_⟩
      · rw [StorageMap.get_insert_of_ne _ _ different, storedTop]
      · rw [StorageMap.get_insert_of_ne _ _ different, storedBottom]
      · rw [amounts, others delegator other different]
  absent other missing delegator := by
    rw [StorageMap.get_insert] at missing
    split at missing
    next => cases missing
    next different => rw [others delegator other different, holds.absent other missing]

theorem amend (holds : ListsHold config candidateInfo topDelegations bottomDelegations book)
    (stored : candidateInfo.get candidate = some info)
    (listed : ∀ top bottom, Listed config info top bottom → Listed config info' top bottom) :
    ListsHold config (candidateInfo.insert candidate info') topDelegations bottomDelegations
      book := by
  obtain ⟨top, bottom, storedTop, storedBottom, was, amounts⟩ :=
    holds.listed candidate info stored
  have changed := holds.relist (listed top bottom was) amounts fun _ _ _ => rfl
  rwa [StorageMap.insert_eq_self storedTop, StorageMap.insert_eq_self storedBottom] at changed

theorem leave (holds : ListsHold config candidateInfo topDelegations bottomDelegations book)
    (gone : ∀ delegator, book' delegator candidate = none)
    (others : ∀ delegator other, other ≠ candidate → book' delegator other = book delegator other) :
    ListsHold config (candidateInfo.remove candidate) (topDelegations.remove candidate)
      (bottomDelegations.remove candidate) book' where
  listed other info stored := by
    rw [StorageMap.get_remove] at stored
    split at stored
    next => cases stored
    next different =>
      obtain ⟨top, bottom, storedTop, storedBottom, listed, amounts⟩ :=
        holds.listed other info stored
      refine ⟨top, bottom, ?_, ?_, listed, fun delegator => ?_⟩
      · rw [StorageMap.get_remove_of_ne _ different, storedTop]
      · rw [StorageMap.get_remove_of_ne _ different, storedBottom]
      · rw [amounts, others delegator other different]
  absent other missing delegator := by
    by_cases equal : other = candidate
    · rw [equal, gone]
    · rw [StorageMap.get_remove_of_ne _ equal] at missing
      rw [others delegator other equal, holds.absent other missing]

theorem congr_book (holds : ListsHold config candidateInfo topDelegations bottomDelegations book)
    (same : ∀ delegator other, book' delegator other = book delegator other) :
    ListsHold config candidateInfo topDelegations bottomDelegations book' := by
  have equal : book' = book := funext fun delegator => funext fun other => same delegator other
  rwa [equal]

end ListsHold

/-! ## The table after an exchange -/

section Table

variable {table table' : List (Bond AccountId)} {bond : Bond AccountId} {owner : AccountId}

theorem lookup_removed (exchanged : Exchanged [bond] [] table table')
    (distinct : Distinct Bond.owner table) (distinct' : Distinct Bond.owner table')
    (query : AccountId) :
    lookup Bond.owner table' query =
      if query = bond.owner then none else lookup Bond.owner table query := by
  split
  next equal =>
    rw [equal]
    exact exchanged.lookup_gone distinct (List.mem_singleton_self bond) (by simp)
  next different =>
    exact exchanged.lookup_of_ne distinct distinct' (by simpa using Ne.symm different) (by simp)

theorem lookup_changed {bond' : Bond AccountId}
    (exchanged : Exchanged [bond] [bond'] table table') (same : bond'.owner = bond.owner)
    (distinct : Distinct Bond.owner table) (distinct' : Distinct Bond.owner table')
    (query : AccountId) :
    lookup Bond.owner table' query =
      if query = bond.owner then some bond' else lookup Bond.owner table query := by
  split
  next equal =>
    rw [equal, ← same]
    exact distinct'.lookup_of_mem (exchanged.mem_after (List.mem_singleton_self bond'))
  next different =>
    refine exchanged.lookup_of_ne distinct distinct' (by simpa using Ne.symm different) ?_
    simpa [same] using Ne.symm different

/-- One delegation has been added, and possibly another one kicked. -/
theorem lookup_added {kicked : Option (Bond AccountId)}
    (exchanged : Exchanged kicked.toList [bond] table table')
    (distinct : Distinct Bond.owner table) (distinct' : Distinct Bond.owner table')
    (query : AccountId) :
    lookup Bond.owner table' query =
      if query = bond.owner then some bond
      else if kicked.map Bond.owner = some query then none
      else lookup Bond.owner table query := by
  by_cases equal : query = bond.owner
  · rw [if_pos equal, equal]
    exact distinct'.lookup_of_mem (exchanged.mem_after (List.mem_singleton_self bond))
  · rw [if_neg equal]
    cases kicked with
    | none =>
        rw [Option.map_none, if_neg (by simp)]
        exact exchanged.lookup_of_ne distinct distinct' (by simp)
          (by simpa using Ne.symm equal)
    | some other =>
        by_cases isKicked : other.owner = query
        · subst isKicked
          rw [Option.map_some, if_pos rfl]
          exact exchanged.lookup_gone distinct (by simp) (by simpa using Ne.symm equal)
        · rw [Option.map_some, if_neg (by simpa using isKicked)]
          exact exchanged.lookup_of_ne distinct distinct' (by simpa using isKicked)
            (by simpa using Ne.symm equal)

end Table

/-! ## The effects that move delegations -/

section Moves

variable {candidate delegator : AccountId} {info info' : CandidateMetadata}
  {top bottom top' bottom' : Delegations AccountId} {state : Delegator AccountId}
  {amount : Nat}

theorem Agrees.exit_booked (agrees : Agrees config before)
    (clean : CleanExit before.delegatorState candidate)
    (stored : before.candidateInfo.get candidate = some info)
    (storedTop : before.topDelegations.get candidate = some top)
    (storedBottom : before.bottomDelegations.get candidate = some bottom)
    (returns : Returns config candidate (table top bottom) before after)
    (account other : AccountId) :
    booked after.delegatorState account other =
      if other = candidate then none else booked before.delegatorState account other := by
  obtain ⟨_, _, amounts⟩ :=
    returns.booked (agrees.returnable clean stored storedTop storedBottom)
  rw [amounts]
  by_cases equal : other = candidate
  · by_cases member : account ∈ (table top bottom).map Bond.owner
    · simp [equal, member]
    · obtain ⟨_, same⟩ := agrees.listed stored storedTop storedBottom
      have missing : lookup Bond.owner (table top bottom) account = none := by
        rw [← Option.not_isSome_iff_eq_none, lookup_isSome]
        exact member
      rw [equal, if_neg fun both => member both.2, if_pos rfl, ← same, missing]
      rfl
  · simp [equal]

theorem Agrees.exit (agrees : Agrees config before)
    (clean : CleanExit before.delegatorState candidate)
    (stored : before.candidateInfo.get candidate = some info)
    (storedTop : before.topDelegations.get candidate = some top)
    (storedBottom : before.bottomDelegations.get candidate = some bottom)
    (returns : Returns config candidate (table top bottom) before after) :
    RecordsHold config after.delegatorState
        (after.delegationScheduledRequests.remove candidate) ∧
      ListsHold config (before.candidateInfo.remove candidate)
        (before.topDelegations.remove candidate) (before.bottomDelegations.remove candidate)
        (booked after.delegatorState) := by
  have amounts := agrees.exit_booked clean stored storedTop storedBottom returns
  obtain ⟨records, _, _⟩ :=
    returns.booked (agrees.returnable clean stored storedTop storedBottom)
  have isEmpty : requestsOf after.delegationScheduledRequests candidate = [] := by
    rw [List.eq_nil_iff_forall_not_mem]
    intro request member
    have found := (records.distinct candidate).lookup_of_mem member
    obtain ⟨bonded, recorded, _⟩ := records.fits candidate request.delegator request found
    rw [amounts, if_pos rfl] at recorded
    cases recorded
  constructor
  · refine records.congr_requests fun sequencer => ?_
    by_cases equal : sequencer = candidate
    · rw [equal, isEmpty]
      simp [requestsOf]
    · simp [requestsOf, equal]
  · refine agrees.lists.leave (fun account => ?_) fun account other different => ?_
    · rw [amounts, if_pos rfl]
    · rw [amounts, if_neg different]

/-- A kicked delegation is on record, and not one of the new delegator. -/
theorem Agrees.kicked (agrees : Agrees config before) {bond : Bond AccountId}
    (stored : before.candidateInfo.get candidate = some info)
    (storedTop : before.topDelegations.get candidate = some top)
    (storedBottom : before.bottomDelegations.get candidate = some bottom)
    (fresh : booked before.delegatorState delegator candidate = none)
    (member : bond ∈ table top bottom)
    (found : before.delegatorState.get bond.owner = some state) :
    state.getBondAmount candidate = some bond.amount ∧ delegator ≠ bond.owner := by
  have isBooked := agrees.booked_of_mem stored storedTop storedBottom member
  refine ⟨(booked_of_stored found candidate).symm.trans isBooked, ?_⟩
  rintro rfl
  rw [fresh] at isBooked
  cases isBooked

/-- Only a delegation to the candidate is kicked. -/
theorem Agrees.kicked_mem (agrees : Agrees config before) {kicked : Option (Bond AccountId)}
    (stored : before.candidateInfo.get candidate = some info)
    (storedTop : before.topDelegations.get candidate = some top)
    (storedBottom : before.bottomDelegations.get candidate = some bottom)
    (fresh : booked before.delegatorState delegator candidate = none)
    (adds : Adds config info top bottom { owner := delegator, amount } kicked info' top' bottom') :
    ∀ bond, kicked = some bond → bond ∈ table top bottom := by
  obtain ⟨listed, amounts⟩ := agrees.listed stored storedTop storedBottom
  have missing : lookup Bond.owner (table top bottom) delegator = none := by
    rw [← Option.map_eq_none_iff, amounts, fresh]
  obtain ⟨_, exchanged, _⟩ := adds listed missing
  exact fun bond isKicked => exchanged.mem_before (by simp [isKicked])

theorem Agrees.delegate (agrees : Agrees config before)
    {kicked : Option (Bond AccountId)} {mid : Stakes AccountId Native}
    (stored : before.candidateInfo.get candidate = some info)
    (storedTop : before.topDelegations.get candidate = some top)
    (storedBottom : before.bottomDelegations.get candidate = some bottom)
    (minimum : config.minDelegation ≤ amount)
    (fresh : booked before.delegatorState delegator candidate = none)
    (enrolls : Enrolls (before.delegatorState.get delegator) delegator candidate amount state)
    (kicks : Kicks config candidate before kicked mid)
    (adds : Adds config info top bottom { owner := delegator, amount } kicked info' top' bottom') :
    RecordsHold config (mid.delegatorState.insert delegator state)
        mid.delegationScheduledRequests ∧
      ListsHold config (before.candidateInfo.insert candidate info')
        (before.topDelegations.insert candidate top')
        (before.bottomDelegations.insert candidate bottom')
        (booked (mid.delegatorState.insert delegator state)) := by
  obtain ⟨listed, amounts⟩ := agrees.listed stored storedTop storedBottom
  have missing : lookup Bond.owner (table top bottom) delegator = none := by
    rw [← Option.map_eq_none_iff, amounts, fresh]
  obtain ⟨listed', exchanged, _⟩ := adds listed missing
  have lookups := lookup_added exchanged listed.distinct listed'.distinct
  have consistent : ∀ state, before.delegatorState.get delegator = some state →
      Delegator.Consistent delegator state :=
    fun state found => (agrees.records.kept delegator state found).toConsistent
  have records : RecordsHold config mid.delegatorState mid.delegationScheduledRequests ∧
      mid.delegatorState.get delegator = before.delegatorState.get delegator ∧
      ∀ account other, booked mid.delegatorState account other =
        if kicked.map Bond.owner = some account ∧ other = candidate then none
        else booked before.delegatorState account other := by
    cases kicked with
    | none =>
        cases kicks
        exact ⟨agrees.records, rfl, by simp⟩
    | some bond =>
        obtain ⟨old, found, _, rfl⟩ := kicks
        have member : bond ∈ table top bottom := exchanged.mem_before (by simp)
        have kept := (agrees.records.kept bond.owner old found).toConsistent
        obtain ⟨recorded, different⟩ :=
          agrees.kicked stored storedTop storedBottom fresh member found
        refine ⟨agrees.records.dropped found recorded decide_eq_true_iff,
          StorageMap.get_put_of_ne _ _ different, fun account other => ?_⟩
        rw [booked_dropped found decide_eq_true_iff.mp kept recorded]
        simp [eq_comm]
  obtain ⟨recordsMid, sameState, bookedMid⟩ := records
  have freshMid : booked mid.delegatorState delegator candidate = none := by
    rw [bookedMid, fresh, ite_self]
  rw [← sameState] at enrolls consistent
  refine ⟨recordsMid.enroll freshMid minimum enrolls, ?_⟩
  have after : ∀ account other, booked (mid.delegatorState.insert delegator state) account
      other = if account = delegator ∧ other = candidate then some amount
        else booked mid.delegatorState account other := by
    intro account other
    rw [booked_insert]
    by_cases equal : account = delegator
    · rw [if_pos equal, enrolls.getBondAmount consistent freshMid, equal]
      by_cases here : other = candidate
      · simp [here]
      · simp [here, booked]
    · simp [equal]
  refine agrees.lists.relist listed' (fun account => ?_) fun account other different => ?_
  · rw [lookups, after, bookedMid]
    by_cases equal : account = delegator
    · simp [equal]
    · simp only [equal, if_false, and_true]
      split
      next => rfl
      next => exact amounts account
  · rw [after, bookedMid, if_neg fun both => different both.2,
      if_neg fun both => different both.2]

theorem Agrees.revoke (agrees : Agrees config before)
    (storedDelegator : before.delegatorState.get delegator = some state)
    (stored : before.candidateInfo.get candidate = some info)
    (storedTop : before.topDelegations.get candidate = some top)
    (storedBottom : before.bottomDelegations.get candidate = some bottom)
    (removes : Removes config info top bottom delegator info' top' bottom') {leaving : Bool}
    (alone : leaving = true ↔ state.delegations.entries.length = 1) :
    RecordsHold config (dropped config candidate delegator state leaving before).delegatorState
        (dropped config candidate delegator state leaving before).delegationScheduledRequests ∧
      ListsHold config (before.candidateInfo.insert candidate info')
        (before.topDelegations.insert candidate top')
        (before.bottomDelegations.insert candidate bottom')
        (booked (dropped config candidate delegator state leaving before).delegatorState) := by
  obtain ⟨listed, amounts⟩ := agrees.listed stored storedTop storedBottom
  obtain ⟨bond, found, listed', exchanged, _⟩ := removes listed
  have isOwner := key_of_lookup found
  subst isOwner
  have lookups := lookup_removed exchanged listed.distinct listed'.distinct
  have recorded : state.getBondAmount candidate = some bond.amount := by
    rw [← booked_of_stored storedDelegator, ← amounts, found]
    rfl
  have kept := (agrees.records.kept bond.owner state storedDelegator).toConsistent
  have rest : ∀ account other, booked (dropped config candidate bond.owner state leaving
      before).delegatorState account other = _ :=
    booked_dropped storedDelegator alone.mp kept recorded
  refine ⟨agrees.records.dropped storedDelegator recorded alone,
    agrees.lists.relist listed' (fun account => ?_) fun account other different => ?_⟩
  · rw [lookups, rest]
    by_cases equal : account = bond.owner
    · simp [equal]
    · simpa [equal] using amounts account
  · rw [rest, if_neg fun both => different both.2]

theorem Agrees.relist_changed (agrees : Agrees config before) {change : Nat → Nat}
    {bonded : Nat} {delegatorState : StorageMap AccountId (Delegator AccountId)}
    (storedDelegator : before.delegatorState.get delegator = some state)
    (recorded : state.getBondAmount candidate = some bonded)
    (stored : before.candidateInfo.get candidate = some info)
    (storedTop : before.topDelegations.get candidate = some top)
    (storedBottom : before.bottomDelegations.get candidate = some bottom)
    (changes : Changes config info top bottom delegator change info' top' bottom')
    (isBooked : ∀ account other, booked delegatorState account other =
      if account = delegator ∧ other = candidate then some (change bonded)
      else booked before.delegatorState account other) :
    ListsHold config (before.candidateInfo.insert candidate info')
      (before.topDelegations.insert candidate top')
      (before.bottomDelegations.insert candidate bottom') (booked delegatorState) := by
  obtain ⟨listed, amounts⟩ := agrees.listed stored storedTop storedBottom
  obtain ⟨bond, found, listed', exchanged, _⟩ := changes listed
  have isOwner := key_of_lookup found
  subst isOwner
  have lookups := lookup_changed exchanged rfl listed.distinct listed'.distinct
  have amountEq : bond.amount = bonded := by
    have same := amounts bond.owner
    rw [found, booked_of_stored storedDelegator, recorded] at same
    exact Option.some.inj same
  refine agrees.lists.relist listed' (fun account => ?_) fun account other different => ?_
  · rw [lookups, isBooked]
    by_cases equal : account = bond.owner
    · simp [equal, amountEq]
    · simpa [equal] using amounts account
  · rw [isBooked, if_neg fun both => different both.2]

theorem booked_rebonded {delegatorState : StorageMap AccountId (Delegator AccountId)}
    (stored : delegatorState.get delegator = some state) {bonded : Nat}
    (recorded : state.getBondAmount candidate = some bonded) (change : Nat → Nat) (total : Nat)
    (account other : AccountId) :
    booked (delegatorState.insert delegator (state.rebonded candidate change total)) account
        other =
      if account = delegator ∧ other = candidate then some (change bonded)
      else booked delegatorState account other := by
  rw [booked_insert]
  by_cases equal : account = delegator
  · rw [if_pos equal, Delegator.getBondAmount_rebonded]
    by_cases here : other = candidate
    · simp [equal, here, recorded]
    · simp [equal, here, booked_of_stored stored]
  · simp [equal]

theorem Agrees.decrease (agrees : Agrees config before) {bonded less : Nat}
    {request : ScheduledRequest AccountId}
    (storedDelegator : before.delegatorState.get delegator = some state)
    (found : findRequest (before.requests candidate) delegator = some request)
    (action : request.action = .decrease less)
    (recorded : state.getBondAmount candidate = some bonded)
    (stored : before.candidateInfo.get candidate = some info)
    (storedTop : before.topDelegations.get candidate = some top)
    (storedBottom : before.bottomDelegations.get candidate = some bottom)
    (changes : Recorded top bottom delegator bonded →
      Changes config info top bottom delegator (· - less) info' top' bottom') :
    RecordsHold config (before.delegatorState.insert delegator
        ((state.forget less).rebonded candidate (· - less) (state.total - less)))
        (before.delegationScheduledRequests.insert candidate
          (removeRequest (before.requests candidate) delegator)) ∧
      ListsHold config (before.candidateInfo.insert candidate info')
        (before.topDelegations.insert candidate top')
        (before.bottomDelegations.insert candidate bottom')
        (booked (before.delegatorState.insert delegator
          ((state.forget less).rebonded candidate (· - less) (state.total - less)))) := by
  have isBooked := (booked_of_stored storedDelegator candidate).trans recorded
  obtain ⟨bonded', recorded', fits⟩ :=
    agrees.records.fits candidate delegator request found
  rw [isBooked] at recorded'
  cases recorded'
  rw [action] at fits
  obtain ⟨below, minimum⟩ := fits
  have pending : pendingAmount (requestsOf before.delegationScheduledRequests candidate)
      delegator = less :=
    (pendingAmount_of_find found).trans (by rw [action]; rfl)
  have frame := requestsOf_removed (agrees.records.distinct candidate) delegator
  have withdrawn := agrees.records.cancel storedDelegator frame
  rw [pending] at withdrawn
  have held := (agrees.records.kept delegator state storedDelegator).toConsistent.le_total recorded
  have isTotal : state.total - less + bonded = (state.forget less).total + (bonded - less) := by
    simp only [Delegator.forget]
    omega
  have forgotten : (before.delegatorState.insert delegator (state.forget less)).get delegator =
      some (state.forget less) := StorageMap.get_insert_self _ _ _
  have changed := withdrawn.rebond forgotten recorded (· - less) isTotal (by omega) fun other => by
    rw [frame, if_pos rfl, findRequest, lookup_erase, if_pos rfl]
    rintro ⟨⟩
  have amounts := booked_rebonded forgotten recorded (· - less) (state.total - less)
  rw [StorageMap.insert_insert_self] at changed amounts
  refine ⟨changed, agrees.relist_changed storedDelegator recorded stored storedTop storedBottom
    (changes (agrees.recorded stored storedTop storedBottom isBooked)) fun account other => ?_⟩
  have unchanged := booked_insert_same storedDelegator
    (show (state.forget less).delegations = state.delegations from rfl)
  rw [amounts, unchanged]

theorem Agrees.increase (agrees : Agrees config before) {bonded more : Nat}
    (storedDelegator : before.delegatorState.get delegator = some state)
    (unrevoked : delegationRequestRevokeExists (before.requests candidate) delegator = false)
    (recorded : state.getBondAmount candidate = some bonded)
    (stored : before.candidateInfo.get candidate = some info)
    (storedTop : before.topDelegations.get candidate = some top)
    (storedBottom : before.bottomDelegations.get candidate = some bottom)
    (changes : Recorded top bottom delegator bonded →
      Changes config info top bottom delegator (· + more) info' top' bottom') :
    RecordsHold config (before.delegatorState.insert delegator
        (state.rebonded candidate (· + more) (state.total + more)))
        before.delegationScheduledRequests ∧
      ListsHold config (before.candidateInfo.insert candidate info')
        (before.topDelegations.insert candidate top')
        (before.bottomDelegations.insert candidate bottom')
        (booked (before.delegatorState.insert delegator
          (state.rebonded candidate (· + more) (state.total + more)))) := by
  have isBooked := (booked_of_stored storedDelegator candidate).trans recorded
  have kept := agrees.records.kept delegator state storedDelegator
  have least := kept.atLeast _ (mem_of_lookup (Delegator.getBondAmount_eq_some.mp recorded))
  have isTotal : state.total + more + bonded = state.total + (bonded + more) := by omega
  have minimum : config.minDelegation ≤ bonded + more := by
    dsimp only at least
    omega
  refine ⟨agrees.records.rebond storedDelegator recorded (· + more) isTotal minimum
    fun request found => ?_, agrees.relist_changed storedDelegator recorded stored storedTop
      storedBottom (changes (agrees.recorded stored storedTop storedBottom isBooked))
      (booked_rebonded storedDelegator recorded (· + more) _)⟩
  obtain ⟨bonded', recorded', fits⟩ :=
    agrees.records.fits candidate delegator request found
  rw [isBooked] at recorded'
  cases recorded'
  cases action : request.action with
  | revoke amount =>
      have member := mem_of_lookup found
      have isSender := key_of_lookup found
      have exists_revoke : delegationRequestRevokeExists (before.requests candidate) delegator =
          true :=
        List.any_eq_true.mpr ⟨request, member, by simp [isSender, action]⟩
      rw [unrevoked] at exists_revoke
      cases exists_revoke
  | decrease less =>
      rw [action] at fits
      obtain ⟨below, enough⟩ := fits
      exact ⟨by omega, by omega⟩

end Moves

/-! ## Every effect -/

theorem Agrees.effect (agrees : Agrees config before) (sound : Sound config before)
    (effect : Effect config may signs before after)
    (clean : ∀ candidate, may (.exit candidate) → CleanExit before.delegatorState candidate) :
    Agrees config after := by
  cases effect with
  | native | moves => exact ⟨agrees.records, agrees.lists⟩
  | clears scheduled same => exact ⟨agrees.records.congr_requests same, agrees.lists⟩
  | joins candidate native pool fresh apart =>
      refine ⟨agrees.records, agrees.lists.relist (listed_new config) (fun delegator => ?_)
        fun _ _ _ => rfl⟩
      rw [agrees.lists.absent candidate fresh]
      rfl
  | amends candidate info status request pool stored =>
      exact ⟨agrees.records, agrees.lists.amend stored fun top bottom listed =>
        ⟨listed.tiers, listed.topTotal, listed.bottomTotal, listed.cachedTop,
          listed.cachedBottom, listed.delegationCount, listed.noTop⟩⟩
  | bondsMore candidate info more pool stored =>
      refine ⟨agrees.records, agrees.lists.amend stored fun top bottom listed =>
        ⟨listed.tiers, listed.topTotal, listed.bottomTotal, ?_, listed.cachedBottom,
          listed.delegationCount, listed.noTop⟩⟩
      obtain ⟨lowest, capacity, counted⟩ := listed.cachedTop
      refine ⟨lowest, capacity, ?_⟩
      dsimp only
      omega
  | bondsLess candidate info request pool stored pending =>
      refine ⟨agrees.records, agrees.lists.amend stored fun top bottom listed =>
        ⟨listed.tiers, listed.topTotal, listed.bottomTotal, ?_, listed.cachedBottom,
          listed.delegationCount, listed.noTop⟩⟩
      obtain ⟨lowest, capacity, counted⟩ := listed.cachedTop
      have below := sound.requests candidate info stored request pending
      refine ⟨lowest, capacity, ?_⟩
      dsimp only
      omega
  | exits candidate info top bottom returned native allowed stored storedTop storedBottom
      returns =>
      obtain ⟨records, lists⟩ :=
        agrees.exit (clean candidate allowed) stored storedTop storedBottom returns
      exact ⟨records, lists⟩
  | delegates delegator candidate amount state info info' top bottom top' bottom' kicked mid less
      pool stored storedTop storedBottom minimum fresh _ _ enrolls kicks adds =>
      obtain ⟨records, lists⟩ := agrees.delegate stored storedTop storedBottom minimum fresh
        enrolls kicks adds
      exact ⟨records, lists⟩
  | revokes delegator candidate amount state request info info' top bottom top' bottom' pool
      storedDelegator _ _ stored storedTop storedBottom removes =>
      obtain ⟨records, lists⟩ := agrees.revoke storedDelegator stored storedTop storedBottom
        removes decide_eq_true_iff
      exact ⟨records, lists⟩
  | decreases delegator candidate bonded less state request info info' top bottom top' bottom'
      pool storedDelegator _ found action recorded _ stored storedTop storedBottom changes =>
      obtain ⟨records, lists⟩ := agrees.decrease storedDelegator found action recorded stored
        storedTop storedBottom changes
      exact ⟨records, lists⟩
  | increases delegator candidate bonded more state info info' top bottom top' bottom' pool
      storedDelegator unrevoked recorded _ stored storedTop storedBottom changes =>
      obtain ⟨records, lists⟩ := agrees.increase storedDelegator unrevoked recorded stored
        storedTop storedBottom changes
      exact ⟨records, lists⟩
  | schedules delegator candidate bonded state request storedDelegator sender absent recorded
      fits =>
      refine ⟨agrees.records.push storedDelegator sender absent recorded fits
        (requestsOf_insert before candidate _), agrees.lists.congr_book ?_⟩
      exact booked_insert_same storedDelegator rfl
  | cancels delegator candidate state request storedDelegator found =>
      have frame := requestsOf_removed (agrees.records.distinct candidate) delegator
      have withdrawn := agrees.records.cancel storedDelegator frame
      have pending : pendingAmount (requestsOf before.delegationScheduledRequests candidate)
          delegator = request.action.amount := pendingAmount_of_find found
      rw [pending] at withdrawn
      exact ⟨withdrawn, agrees.lists.congr_book (booked_insert_same storedDelegator rfl)⟩

end Popsicle
