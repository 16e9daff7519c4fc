import Popsicle.Consistency
import Popsicle.Foundation.Precedence

/-!
# First come, first served among delegations

The order in which delegations have been made is not stored.  It is tracked here next to
a run in which accounts delegate to one candidate, together with the accounts whose call
put them into the top list.
-/

namespace Popsicle

open Foundation Exec Keyed Ranked

variable {AccountId Native : Type} [LinearOrder AccountId] {config : Config AccountId Native}

/-! ## Where a delegation is placed -/

/-- The delegations in the top list of a candidate. -/
def Stakes.topBonds (stakes : Stakes AccountId Native) (candidate : AccountId) :
    List (Bond AccountId) :=
  ((stakes.topDelegations.get candidate).map Delegations.delegations).getD []

/-- The delegations in the bottom list of a candidate. -/
def Stakes.bottomBonds (stakes : Stakes AccountId Native) (candidate : AccountId) :
    List (Bond AccountId) :=
  ((stakes.bottomDelegations.get candidate).map Delegations.delegations).getD []

/-- A delegation is placed in one of the two lists of a candidate. -/
def Places (config : Config AccountId Native) (candidate : AccountId)
    (delegation : Bond AccountId) (before after : Stakes AccountId Native) : Prop :=
  ∃ kicked, Admits Bond.amount config.maxTopDelegationsPerCandidate
    config.maxBottomDelegationsPerCandidate delegation (before.topBonds candidate)
    (before.bottomBonds candidate) kicked (after.topBonds candidate) (after.bottomBonds candidate)

section Placing

variable {stakes : Stakes AccountId Native} {candidate : AccountId} {info : CandidateMetadata}
  {top bottom : Delegations AccountId} {delegation : Bond AccountId}

omit [LinearOrder AccountId] in
theorem Listed.MakesRoom.yields {bottom₁ : Delegations AccountId}
    {kicked : Option (Bond AccountId)} (made : Listed.MakesRoom config bottom bottom₁ kicked) :
    Yields config.maxBottomDelegationsPerCandidate bottom.delegations kicked
      bottom₁.delegations := by
  cases made with
  | room short => exact .room short
  | kick isFull split =>
      rw [split] at isFull ⊢
      exact .kick isFull

variable (storedTop : stakes.topDelegations.get candidate = some top)
  (storedBottom : stakes.bottomDelegations.get candidate = some bottom)
  (pooled : Pooled config candidate (some info) stakes)
  (consistent : ∀ account state, stakes.delegatorState.get account = some state →
    Delegator.Consistent account state)
  (listed : Listed config info top bottom)
include storedTop storedBottom pooled consistent listed

theorem places_addTopDelegation
    (greater : info.topCapacity = .full → info.lowestTopDelegationAmount < delegation.amount) :
    (info.addTopDelegation config candidate delegation).Ends stakes
      (fun _ after => Places config candidate delegation stakes after) (fun _ _ => True) := by
  simp only [CandidateMetadata.addTopDelegation, CandidateMetadata.readTop,
    CandidateMetadata.insertTop, ends_bind, ends_read, ends_require, ends_ite, ends_write,
    ends_pure, storedTop, Option.some.injEq, forall_eq', reduceCtorEq, false_implies, and_true]
  refine ⟨fun isFull => ⟨?_, fun _ => trivial⟩, fun notFull => ?_⟩
  · rintro ⟨shorter, last⟩ popped
    obtain ⟨split, _⟩ := Delegations.pop_eq_some popped
    refine Ends.mono (ends_addBottomDelegation storedBottom consistent) ?_ fun _ _ _ => trivial
    rintro info₁ after₁ ⟨kicked, mid, bottom₁, kicks, makes, rfl, rfl⟩
    refine Ends.mono (ends_resetTopData (kicks.pooled pooled)) ?_ fun _ _ => False.elim
    rintro info' after ⟨rfl, pool, rfl, _⟩
    have made := makes listed.tiers.bottomLength
    have sorted := listed.topSorted
    rw [split] at sorted
    have capacity : info.topCapacity = .full := by
      rw [listed.cachedTop.2.1, Delegations.cachedCapacity_eq_full]
      exact ⟨by rw [← isFull, split]; simp, isFull.ge⟩
    have less := greater capacity
    rw [listed.cachedTop.1, Delegations.lowestDelegationAmount_append split] at less
    have placedTop : ({ shorter with total := shorter.total - last.amount }
        |>.insertSortedGreatestToLeast delegation).delegations =
        place Bond.amount delegation shorter.delegations :=
      Delegations.insertSortedGreatestToLeast_delegations
        (sorted.sublist (List.sublist_append_left _ _))
    have placedBottom : (bottom₁.insertSortedGreatestToLeast last).delegations =
        place Bond.amount last bottom₁.delegations :=
      Delegations.insertSortedGreatestToLeast_delegations (listed.bottomSorted.sublist made.sublist)
    refine ⟨kicked, ?_⟩
    simp only [Stakes.topBonds, Stakes.bottomBonds, storedTop, storedBottom,
      StorageMap.get_insert_self, Option.map_some, Option.getD_some, split]
    rw [split] at isFull
    have admits := Admits.bump isFull less made.yields
    rw [← placedTop, ← placedBottom] at admits
    exact admits
  · refine Ends.mono (ends_resetTopData pooled) ?_ fun _ _ => False.elim
    rintro info' after ⟨rfl, pool, rfl, _⟩
    have room := lt_of_le_of_ne listed.tiers.topLength notFull
    have noBottom := listed.tiers.nil_or_cons_of_room room
    have placed : (top.insertSortedGreatestToLeast delegation).delegations =
        place Bond.amount delegation top.delegations :=
      Delegations.insertSortedGreatestToLeast_delegations listed.topSorted
    refine ⟨none, ?_⟩
    simp only [Stakes.topBonds, Stakes.bottomBonds, storedTop, storedBottom,
      StorageMap.get_insert_self, Option.map_some, Option.getD_some, noBottom, placed]
    exact .top room

theorem places_addDelegation :
    (info.addDelegation config candidate delegation).Ends stakes
      (fun _ after => Places config candidate delegation stakes after) (fun _ _ => True) := by
  have topEnds : _ → (info.addTopDelegation config candidate delegation).Ends stakes _ _ :=
    places_addTopDelegation storedTop storedBottom pooled consistent listed
  unfold CandidateMetadata.addDelegation
  split
  next isFull =>
    rw [ends_ite]
    refine ⟨fun greater => ?_, fun notGreater => ?_⟩
    · simp only [ends_bind, ends_pure]
      exact topEnds fun _ => greater
    · have placed : (info.bottomCapacity = .full →
          info.lowestBottomDelegationAmount < delegation.amount) →
          (info.addBottomDelegation config false candidate delegation).Ends stakes
            (fun _ after => Places config candidate delegation stakes after) fun _ _ => True := by
        intro guarded
        refine (ends_addBottomDelegation storedBottom consistent).mono ?_ fun _ _ _ => trivial
        rintro info' after ⟨kicked, mid, bottom₁, kicks, makes, rfl, rfl⟩
        have made := makes listed.tiers.bottomLength
        have sameTop : mid.topDelegations.get candidate = some top := by
          rw [kicks.frame]
          exact storedTop
        have length := listed.top_length_of_full isFull
        have below : ∀ high ∈ top.delegations, delegation.amount ≤ high.amount := by
          intro high member
          have lowest := Delegations.lowest_le listed.topSorted member
          rw [listed.cachedTop.1] at notGreater
          omega
        have above : ∀ low, kicked = some low → low.amount < delegation.amount := by
          rintro low rfl
          obtain ⟨bottomFull, lowest⟩ := listed.kicked_full made
          rw [← lowest]
          exact guarded bottomFull
        have placed : (bottom₁.insertSortedGreatestToLeast delegation).delegations =
            place Bond.amount delegation bottom₁.delegations :=
          Delegations.insertSortedGreatestToLeast_delegations
            (listed.bottomSorted.sublist made.sublist)
        refine ⟨kicked, ?_⟩
        simp only [Stakes.topBonds, Stakes.bottomBonds, storedTop, storedBottom, sameTop,
          StorageMap.get_insert_self, Option.map_some, Option.getD_some, placed]
        exact .bottom length.2 below made.yields above
      simp only [ends_bind, ends_ite, ends_ensure, ends_pure]
      exact ⟨fun _ => ⟨fun above => placed fun _ => above, fun _ => trivial⟩,
        fun notFull => placed fun isFull => absurd isFull notFull⟩
  next notFull =>
    simp only [ends_bind, ends_pure]
    exact topEnds fun isFull => absurd isFull notFull

end Placing

/-! ## Candidates that are delegated to -/

/-- The lists of a candidate are well kept. -/
def Kept (config : Config AccountId Native) (candidate : AccountId)
    (stakes : Stakes AccountId Native) : Prop :=
  ∃ info top bottom, stakes.candidateInfo.get candidate = some info ∧
    stakes.topDelegations.get candidate = some top ∧
    stakes.bottomDelegations.get candidate = some bottom ∧ Listed config info top bottom

/-- All delegations to a candidate, the greatest first. -/
def Stakes.bonds (stakes : Stakes AccountId Native) (candidate : AccountId) :
    List (Bond AccountId) :=
  stakes.topBonds candidate ++ stakes.bottomBonds candidate

section Delegating

variable {stakes : Stakes AccountId Native} {candidate delegator : AccountId}

omit [LinearOrder AccountId] in
theorem Kept.distinct (kept : Kept config candidate stakes) :
    Distinct Bond.owner (stakes.bonds candidate) := by
  obtain ⟨info, top, bottom, _, storedTop, storedBottom, listed⟩ := kept
  rw [Stakes.bonds, Stakes.topBonds, Stakes.bottomBonds, storedTop, storedBottom]
  exact listed.tiers.distinct

omit [LinearOrder AccountId] in
theorem Kept.descending (kept : Kept config candidate stakes) :
    Descending Bond.amount (stakes.bonds candidate) := by
  obtain ⟨info, top, bottom, _, storedTop, storedBottom, listed⟩ := kept
  rw [Stakes.bonds, Stakes.topBonds, Stakes.bottomBonds, storedTop, storedBottom]
  exact listed.tiers.descending

/-- A delegation of an account that has none is placed in well-kept lists, which stay so. -/
theorem places_delegateInner (sound : Sound config stakes) (kept : Kept config candidate stakes)
    (fresh : ∀ bond ∈ stakes.bonds candidate, bond.owner ≠ delegator)
    (amount candidateHint hint : Nat) :
    (delegateInner config candidate delegator amount candidateHint hint).Ends stakes
      (fun _ after => Kept config candidate after ∧
        Places config candidate { owner := delegator, amount } stakes after)
      (fun _ _ => True) := by
  obtain ⟨info, top, bottom, stored, storedTop, storedBottom, listed⟩ := kept
  have absent : lookup Bond.owner (table top bottom) delegator = none := by
    rw [lookup_eq_none]
    intro bond member
    refine fresh bond ?_
    rw [Stakes.bonds, Stakes.topBonds, Stakes.bottomBonds, storedTop, storedBottom]
    exact member
  have pooled := sound.pooled stored
  simp only [delegateInner, reducibleBalance, readCandidate, ends_bind, ends_read, ends_ensure,
    ends_require, ends_pure]
  refine ⟨fun _ => ⟨fun _ => ⟨fun _ => ?_, fun _ => trivial⟩, fun _ => trivial⟩, fun _ => trivial⟩
  refine (ends_delegatorStateWith sound amount hint).mono ?_ fun _ _ _ => trivial
  rintro state _ ⟨rfl, _⟩
  rw [stored]
  refine ⟨?_, fun _ => trivial⟩
  rintro _ ⟨⟩
  refine ⟨fun _ => ?_, fun _ => trivial⟩
  refine Ends.mono ((ends_addDelegation storedTop storedBottom pooled sound.records).and
    (places_addDelegation storedTop storedBottom pooled sound.records listed)) ?_
    fun _ _ _ => trivial
  rintro ⟨info', added, less⟩ after ⟨⟨kicked, mid, kicks, ⟨top', bottom', pool, rfl, _, _,
    adds⟩, _⟩, places⟩
  simp only [ends_transferBtc, storeCandidate, storeDelegator, ends_write]
  refine ⟨fun _ => ⟨⟨info', top', bottom', ?_, ?_, ?_, ?_⟩, places⟩, fun _ => trivial⟩
  · exact StorageMap.get_insert_self _ _ _
  · exact StorageMap.get_insert_self _ _ _
  · exact StorageMap.get_insert_self _ _ _
  · exact (adds listed absent).1

end Delegating

/-! ## The order of the calls -/

/-- The account itself, if its delegation is in the top list. -/
def Stakes.riser (stakes : Stakes AccountId Native) (candidate delegator : AccountId) :
    List AccountId :=
  if delegator ∈ (stakes.topBonds candidate).map Bond.owner then [delegator] else []

/-- The records and the two lists of a candidate are the same. -/
structure SameLists (candidate : AccountId) (before after : Stakes AccountId Native) : Prop where
  candidateInfo : after.candidateInfo.get candidate = before.candidateInfo.get candidate
  top : after.topDelegations.get candidate = before.topDelegations.get candidate
  bottom : after.bottomDelegations.get candidate = before.bottomDelegations.get candidate

/-- From a state in which a candidate has no delegations, other accounts delegate to it one
after the other, each of them once.  Nothing else that happens changes its lists.  The calls
are listed in their order, and so are those that put the delegation into the top list. -/
inductive Serves (config : Config AccountId Native) (spec : ChainSpec AccountId Native)
    (candidate : AccountId) : List AccountId → List AccountId → State AccountId Native → Prop where
  | vacant {state : State AccountId Native} (reachable : Reachable config spec state)
      (kept : Kept config candidate state.stakes) (vacant : state.stakes.bonds candidate = []) :
      Serves config spec candidate [] [] state
  | delegate {calls risen : List AccountId} {before after : State AccountId Native}
      (earlier : Serves config spec candidate calls risen before) {delegator : AccountId}
      (fresh : delegator ∉ calls) {amount candidateHint hint : Nat}
      (isOk : (dispatch config (.signed delegator)
        (.delegate candidate amount candidateHint hint) before).1 = .ok ())
      (taken : step config before (.extrinsic (.signed delegator)
        (.delegate candidate amount candidateHint hint)) = some after) :
      Serves config spec candidate (calls ++ [delegator])
        (risen ++ after.stakes.riser candidate delegator) after
  | other {calls risen : List AccountId} {before after : State AccountId Native}
      (earlier : Serves config spec candidate calls risen before)
      {action : Action AccountId Native} (taken : step config before action = some after)
      (same : SameLists candidate before.stakes after.stakes) :
      Serves config spec candidate calls risen after

/-- The delegations are those of some of the calls, and in the order of the calls as far as
none of them has come down from the top list. -/
structure Served (config : Config AccountId Native) (candidate : AccountId)
    (calls risen : List AccountId) (stakes : Stakes AccountId Native) : Prop where
  kept : Kept config candidate stakes
  called : ∀ bond ∈ stakes.bonds candidate, bond.owner ∈ calls
  risenCalls : risen ⊆ calls
  inOrder : InOrder Bond.amount (fun bond => calls.idxOf bond.owner)
    (fun bond => bond.owner ∈ risen) (stakes.topBonds candidate) (stakes.bottomBonds candidate)

section Serving

variable {spec : ChainSpec AccountId Native} {candidate delegator : AccountId}
  {calls risen : List AccountId} {before after state : State AccountId Native}
  {amount candidateHint hint : Nat}

omit [LinearOrder AccountId] in
/-- The lists of a candidate that has just joined are well kept. -/
theorem kept_of_joined {stakes : Stakes AccountId Native}
    (stored : stakes.candidateInfo.get candidate = some (CandidateMetadata.new 0))
    (storedTop : stakes.topDelegations.get candidate = some Delegations.default)
    (storedBottom : stakes.bottomDelegations.get candidate = some Delegations.default) :
    Kept config candidate stakes ∧ stakes.bonds candidate = [] := by
  refine ⟨⟨_, _, _, stored, storedTop, storedBottom, listed_new config⟩, ?_⟩
  rw [Stakes.bonds, Stakes.topBonds, Stakes.bottomBonds, storedTop, storedBottom]
  rfl

theorem Served.sameLists {stakes other : Stakes AccountId Native}
    (served : Served config candidate calls risen stakes)
    (same : SameLists candidate stakes other) : Served config candidate calls risen other := by
  obtain ⟨⟨info, top, bottom, stored, storedTop, storedBottom, listed⟩, called, risenCalls,
    inOrder⟩ := served
  have sameTop : other.topBonds candidate = stakes.topBonds candidate := by
    rw [Stakes.topBonds, Stakes.topBonds, same.top]
  have sameBottom : other.bottomBonds candidate = stakes.bottomBonds candidate := by
    rw [Stakes.bottomBonds, Stakes.bottomBonds, same.bottom]
  refine ⟨⟨info, top, bottom, same.candidateInfo.trans stored, same.top.trans storedTop,
    same.bottom.trans storedBottom, listed⟩, ?_, risenCalls, ?_⟩
  · rw [Stakes.bonds, sameTop, sameBottom]
    exact called
  · rw [sameTop, sameBottom]
    exact inOrder

theorem Served.places (served : Served config candidate calls risen before.stakes)
    (sound : Sound config before.stakes) (fresh : delegator ∉ calls)
    (isOk : (dispatch config (.signed delegator)
      (.delegate candidate amount candidateHint hint) before).1 = .ok ())
    (taken : step config before (.extrinsic (.signed delegator)
      (.delegate candidate amount candidateHint hint)) = some after) :
    Kept config candidate after.stakes ∧
      Places config candidate { owner := delegator, amount } before.stakes after.stakes := by
  have newcomer : ∀ bond ∈ before.stakes.bonds candidate, bond.owner ≠ delegator := by
    rintro bond member rfl
    exact fresh (served.called bond member)
  have ends := places_delegateInner sound served.kept newcomer amount candidateHint hint
  have chain : (dispatch config (.signed delegator)
      (.delegate candidate amount candidateHint hint)).Ends before
      (fun _ after => Kept config candidate after.stakes ∧
        Places config candidate { owner := delegator, amount } before.stakes after.stakes)
      (fun _ _ => True) := by
    simp only [dispatch, chainCall, stakesCall, onStakes, ends_transactional, ends_bind,
      ends_ensureSigned, ends_read, ends_zoom]
    refine ⟨?_, fun _ => trivial⟩
    rintro who ⟨⟩
    exact ends
  have isAfter : (dispatch config (.signed delegator)
      (.delegate candidate amount candidateHint hint) before).2 = after := by
    rw [step, Option.ite_none_left_eq_some] at taken
    exact Option.some.inj taken.2
  exact chain.of_ok (Prod.ext isOk isAfter)

theorem mem_riser {stakes : Stakes AccountId Native} {account : AccountId} :
    account ∈ stakes.riser candidate delegator ↔
      account = delegator ∧ delegator ∈ (stakes.topBonds candidate).map Bond.owner := by
  rw [Stakes.riser]
  split
  next isTop => simp [isTop]
  next notTop => simp [notTop]

theorem Served.sameAge {stakes : Stakes AccountId Native}
    (served : Served config candidate calls risen stakes) (delegator : AccountId) :
    ∀ bond ∈ stakes.bonds candidate,
      (calls ++ [delegator]).idxOf bond.owner = calls.idxOf bond.owner :=
  fun bond member => List.idxOf_append_of_mem (served.called bond member)

/-- The delegations of an order of calls are served through one more call. -/
theorem Served.next {stakes : Stakes AccountId Native}
    (served : Served config candidate calls risen before.stakes) (fresh : delegator ∉ calls)
    (kept : Kept config candidate stakes)
    (places : Places config candidate { owner := delegator, amount } before.stakes stakes) :
    Served config candidate (calls ++ [delegator]) (risen ++ stakes.riser candidate delegator)
      stakes := by
  obtain ⟨kicked, admits⟩ := places
  have called := served.called
  have entered : ∀ bond ∈ stakes.bonds candidate,
      bond = { owner := delegator, amount } ∨ bond ∈ before.stakes.bonds candidate := by
    intro bond member
    exact List.mem_cons.mp (admits.perm.subset (List.mem_append_left _ member))
  have calledAfter : ∀ bond ∈ stakes.bonds candidate, bond.owner ∈ calls ++ [delegator] := by
    intro bond member
    rcases entered bond member with rfl | wasThere
    · exact List.mem_append_right _ (List.mem_singleton_self delegator)
    · exact List.mem_append_left _ (called bond wasThere)
  have sameAge := served.sameAge delegator
  have sameRisen : ∀ bond ∈ before.stakes.bonds candidate,
      bond.owner ∈ risen ++ stakes.riser candidate delegator ↔ bond.owner ∈ risen := by
    intro bond member
    have different : bond.owner ≠ delegator := by
      rintro rfl
      exact fresh (called bond member)
    simp [mem_riser, different]
  have newest : ∀ bond ∈ before.stakes.bonds candidate,
      (calls ++ [delegator]).idxOf bond.owner < (calls ++ [delegator]).idxOf delegator := by
    intro bond member
    rw [sameAge bond member, List.idxOf_append_of_notMem fresh]
    have inside := List.idxOf_lt_length_of_mem (called bond member)
    omega
  have isRisen : delegator ∈ risen ++ stakes.riser candidate delegator ↔
      { owner := delegator, amount } ∈ stakes.topBonds candidate := by
    have notBefore : delegator ∉ risen := fun member => fresh (served.risenCalls member)
    rw [List.mem_append, mem_riser]
    constructor
    · rintro (isBefore | ⟨_, isTop⟩)
      · exact absurd isBefore notBefore
      · obtain ⟨bond, member, isOwner⟩ := List.mem_map.mp isTop
        rcases entered bond (List.mem_append_left _ member) with rfl | wasThere
        · exact member
        · exact absurd (isOwner ▸ called bond wasThere) fresh
    · intro member
      exact .inr ⟨rfl, List.mem_map_of_mem member⟩
  refine ⟨kept, calledAfter, ?_, ?_⟩
  · intro account member
    rcases List.mem_append.mp member with isBefore | isNow
    · exact List.mem_append_left _ (served.risenCalls isBefore)
    · rw [(mem_riser.mp isNow).1]
      exact List.mem_append_right _ (List.mem_singleton_self delegator)
  · refine (served.inOrder.congr sameAge sameRisen).admits admits served.kept.descending ?_ newest
      isRisen
    intro wasTop
    exact fresh (called _ (List.mem_append_left _ wasTop))

theorem Serves.served (serves : Serves config spec candidate calls risen state) :
    Reachable config spec state ∧ Served config candidate calls risen state.stakes := by
  induction serves with
  | vacant reachable kept vacant =>
      obtain ⟨noTop, noBottom⟩ := List.append_eq_nil_iff.mp vacant
      refine ⟨reachable, kept, ?_, List.nil_subset _, ?_⟩
      · rw [vacant]
        exact fun bond member => absurd member List.not_mem_nil
      · rw [noTop, noBottom]
        exact .nil
  | delegate _ fresh isOk taken ih =>
      obtain ⟨reachable, served⟩ := ih
      obtain ⟨kept, places⟩ := served.places reachable.sound fresh isOk taken
      exact ⟨reachable.next trivial taken, served.next fresh kept places⟩
  | other _ taken same ih =>
      exact ⟨ih.1.next trivial taken, ih.2.sameLists same⟩

/-- What is kicked when the next account delegates is the least of all, and it is the latest
of its amount if and only if it has not come down from the top list behind others of that
amount. -/
theorem kicks_latest_iff (serves : Serves config spec candidate calls risen before)
    (fresh : delegator ∉ calls)
    (isOk : (dispatch config (.signed delegator)
      (.delegate candidate amount candidateHint hint) before).1 = .ok ())
    (taken : step config before (.extrinsic (.signed delegator)
      (.delegate candidate amount candidateHint hint)) = some after)
    {kicked : Bond AccountId} (wasThere : kicked ∈ before.stakes.bonds candidate)
    (isGone : kicked ∉ after.stakes.bonds candidate) :
    (∀ bond ∈ before.stakes.bonds candidate ++ after.stakes.bonds candidate,
        kicked.amount ≤ bond.amount) ∧
      ((∀ stays ∈ after.stakes.bonds candidate, stays.amount = kicked.amount →
          (calls ++ [delegator]).idxOf stays.owner < (calls ++ [delegator]).idxOf kicked.owner) ↔
        (kicked.owner ∈ risen → ∀ other ∈ before.stakes.bottomBonds candidate,
          other.amount = kicked.amount → other = kicked)) := by
  obtain ⟨reachable, served⟩ := serves.served
  obtain ⟨kept, places⟩ := served.places reachable.sound fresh isOk taken
  obtain ⟨out, admits⟩ := places
  have isOut : out = some kicked := by
    have stays := admits.perm.symm.subset (List.mem_cons_of_mem _ wasThere)
    have isKicked := (List.mem_append.mp stays).resolve_left isGone
    exact Option.mem_toList.mp isKicked
  subst isOut
  have descending := served.kept.descending
  refine ⟨admits.kicked_le descending, ?_⟩
  have distinct : (before.stakes.bottomBonds candidate).Nodup :=
    (List.nodup_append.mp (List.Nodup.of_map _ served.kept.distinct)).2.1
  have inOrder := served.inOrder.congr (served.sameAge delegator) fun _ _ => Iff.rfl
  exact inOrder.kicked_iff admits descending distinct

/-- Let accounts delegate one after the other, as long as the calls succeed. -/
def serveAll (config : Config AccountId Native) (candidate : AccountId) :
    List AccountId → List AccountId → State AccountId Native → List (AccountId × Nat) →
      Option (List AccountId × List AccountId × State AccountId Native)
  | calls, risen, state, [] => some (calls, risen, state)
  | calls, risen, state, (delegator, amount) :: rest =>
      let call : Call AccountId := .delegate candidate amount calls.length 0
      if delegator ∉ calls ∧ (dispatch config (.signed delegator) call state).1.isOk then
        (step config state (.extrinsic (.signed delegator) call)).bind fun after =>
          serveAll config candidate (calls ++ [delegator])
            (risen ++ after.stakes.riser candidate delegator) after rest
      else none

theorem Serves.all (serves : Serves config spec candidate calls risen before)
    {rest : List (AccountId × Nat)} {calls' risen' : List AccountId}
    (taken : serveAll config candidate calls risen before rest = some (calls', risen', after)) :
    Serves config spec candidate calls' risen' after := by
  induction rest generalizing calls risen before with
  | nil =>
      cases taken
      exact serves
  | cons call rest ih =>
      simp only [serveAll, Option.ite_none_right_eq_some, Option.bind_eq_some_iff] at taken
      obtain ⟨⟨fresh, isOk⟩, middle, first, others⟩ := taken
      refine ih (serves.delegate fresh ?_ first) others
      generalize (dispatch config _ _ before).1 = result at isOk ⊢
      cases result with
      | ok => rfl
      | error => cases isOk

end Serving

/-- The mock runtime with one place in the top list and two in the bottom list. -/
def threePlaces : Config Nat (Nat → Nat) :=
  { mockRuntime with maxTopDelegationsPerCandidate := 1, maxBottomDelegationsPerCandidate := 2 }

/-- Some delegations to a candidate and one more: the order of the calls, the accounts that
entered the top list, the bottom list and all delegations before the last call, and those
after it. -/
structure Displacement where
  order : List Nat
  risen : List Nat
  bottom : List (Bond Nat)
  before : List (Bond Nat)
  after : List (Bond Nat)
  deriving DecidableEq

/-- Let accounts delegate to a candidate that has just joined, and then one more. -/
def displaced (calls : List (Nat × Nat)) (delegator amount : Nat) : Option Displacement := do
  let start ← played threePlaces (mockGenesis [1] []) [.nextBlock 0]
  if start.stakes.candidateInfo.get 1 = some (CandidateMetadata.new 0) ∧
      start.stakes.topDelegations.get 1 = some Delegations.default ∧
      start.stakes.bottomDelegations.get 1 = some Delegations.default then
    let (order, risen, before) ← serveAll threePlaces 1 [] [] start calls
    let call : Call Nat := .delegate 1 amount order.length 0
    let after ← step threePlaces before (.extrinsic (.signed delegator) call)
    if (dispatch threePlaces (.signed delegator) call before).1.isOk then
      return {
        order, risen
        bottom := before.stakes.bottomBonds 1
        before := before.stakes.bonds 1
        after := after.stakes.bonds 1 }
    else none
  else none

theorem exists_of_displaced {calls : List (Nat × Nat)} {delegator amount : Nat}
    {displacement : Displacement} (shown : displaced calls delegator amount = some displacement) :
    ∃ before after, Serves threePlaces (mockGenesis [1] []) 1 displacement.order
        displacement.risen before ∧
      (dispatch threePlaces (.signed delegator)
        (.delegate 1 amount displacement.order.length 0) before).1 = .ok () ∧
      step threePlaces before (.extrinsic (.signed delegator)
        (.delegate 1 amount displacement.order.length 0)) = some after ∧
      before.stakes.bottomBonds 1 = displacement.bottom ∧
      before.stakes.bonds 1 = displacement.before ∧
      after.stakes.bonds 1 = displacement.after := by
  simp only [displaced, Option.bind_eq_bind, Option.bind_eq_some_iff,
    Option.ite_none_right_eq_some, Option.pure_def] at shown
  obtain ⟨start, isPlayed, ⟨stored, storedTop, storedBottom⟩, ⟨order, risen, before⟩, served,
    after, taken, isOk, isShown⟩ := shown
  obtain rfl := Option.some.inj isShown
  have joined : Kept threePlaces 1 start.stakes ∧ start.stakes.bonds 1 = [] :=
    kept_of_joined stored storedTop storedBottom
  have serves := (Serves.vacant (Reached.of_played_any isPlayed) joined.1 joined.2).all served
  refine ⟨before, after, serves, ?_, taken, rfl, rfl, rfl⟩
  generalize (dispatch threePlaces _ _ before).1 = result at isOk ⊢
  cases result with
  | ok => rfl
  | error => cases isOk

/-- Of three delegations with the same amount the last is kicked. -/
theorem kicks_latest_iff_third :
    ∃ before after : State Nat (Nat → Nat),
      Serves threePlaces (mockGenesis [1] []) 1 [3, 4, 5] [3] before ∧
      before.stakes.bonds 1 = [⟨3, 5⟩, ⟨4, 5⟩, ⟨5, 5⟩] ∧
      after.stakes.bonds 1 = [⟨6, 7⟩, ⟨4, 5⟩, ⟨3, 5⟩] ∧
      ∀ stays ∈ after.stakes.bonds 1, stays.amount = 5 →
        [3, 4, 5, 6].idxOf stays.owner < [3, 4, 5, 6].idxOf 5 := by
  obtain ⟨before, after, serves, isOk, taken, bottom, isBefore, isAfter⟩ := exists_of_displaced
    (show displaced [(3, 5), (4, 5), (5, 5)] 6 7 = some ⟨[3, 4, 5], [3], [⟨4, 5⟩, ⟨5, 5⟩],
      [⟨3, 5⟩, ⟨4, 5⟩, ⟨5, 5⟩], [⟨6, 7⟩, ⟨4, 5⟩, ⟨3, 5⟩]⟩ by decide +kernel)
  dsimp only at serves isOk taken bottom isBefore isAfter
  have wasThere : (⟨5, 5⟩ : Bond Nat) ∈ before.stakes.bonds 1 := by
    rw [isBefore]
    decide
  have isGone : (⟨5, 5⟩ : Bond Nat) ∉ after.stakes.bonds 1 := by
    rw [isAfter]
    decide
  have latest := kicks_latest_iff serves (by decide) isOk taken wasThere isGone
  exact ⟨before, after, serves, isBefore, isAfter,
    latest.2.mpr fun isRisen => absurd isRisen (by decide)⟩

/-- An account that has come down from the top list is kicked before a later one with the
same amount. -/
theorem kicked_before_later :
    ∃ before after : State Nat (Nat → Nat),
      Serves threePlaces (mockGenesis [1] []) 1 [3, 4, 5] [3, 5] before ∧
      (dispatch threePlaces (.signed 6) (.delegate 1 7 3 0) before).1 = .ok () ∧
      step threePlaces before (.extrinsic (.signed 6) (.delegate 1 7 3 0)) = some after ∧
      ⟨3, 5⟩ ∈ before.stakes.bonds 1 ∧ ⟨3, 5⟩ ∉ after.stakes.bonds 1 ∧
      ⟨4, 5⟩ ∈ after.stakes.bonds 1 := by
  obtain ⟨before, after, serves, isOk, taken, _, isBefore, isAfter⟩ := exists_of_displaced
    (show displaced [(3, 5), (4, 5), (5, 6)] 6 7 = some ⟨[3, 4, 5], [3, 5], [⟨4, 5⟩, ⟨3, 5⟩],
      [⟨5, 6⟩, ⟨4, 5⟩, ⟨3, 5⟩], [⟨6, 7⟩, ⟨5, 6⟩, ⟨4, 5⟩]⟩ by decide +kernel)
  dsimp only at serves isOk taken isBefore isAfter
  refine ⟨before, after, serves, isOk, taken, ?_, ?_, ?_⟩
  · rw [isBefore]
    decide
  · rw [isAfter]
    decide
  · rw [isAfter]
    decide

end Popsicle
