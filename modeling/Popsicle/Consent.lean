import Popsicle.Consistency
import Popsicle.Custody
import Popsicle.Delays

/-!
# What happens to an account without its signature

Whatever others sign, and whatever blocks pass, the pallet pulls no BTC from an account that
does not sign.  What disappears from the delegations of the account is sent back to it, nothing
is delegated, bonded or scheduled in its name.
-/

namespace Popsicle

open Foundation Exec Keyed

variable {AccountId Native : Type} [LinearOrder AccountId] {config : Config AccountId Native}
  {may : Withdrawal AccountId → Prop} {signs : AccountId → Prop} {account : AccountId}

/-! ## Delegations -/

/-- What an account has delegated, to all candidates together. -/
def delegated (delegatorState : StorageMap AccountId (Delegator AccountId))
    (account : AccountId) : Nat :=
  ((delegatorState.get account).map Delegator.total).getD 0

/-- An account has paid nothing, has got back what it has delegated less than before, and has
no delegation that is new or larger than before. -/
structure Spared (config : Config AccountId Native) (account : AccountId)
    (delegatorState : StorageMap AccountId (Delegator AccountId)) (btc : Ledger AccountId)
    (delegatorState' : StorageMap AccountId (Delegator AccountId))
    (btc' : Ledger AccountId) : Prop where
  pulled : pulled config btc' account = pulled config btc account
  repaid : sent config btc account + delegated delegatorState account ≤
    sent config btc' account + delegated delegatorState' account
  booked : ∀ candidate amount, booked delegatorState' account candidate = some amount →
    ∃ old, booked delegatorState account candidate = some old ∧ amount ≤ old

namespace Spared

variable {delegatorState delegatorState' delegatorState'' :
    StorageMap AccountId (Delegator AccountId)}
  {btc btc' btc'' : Ledger AccountId} {who : AccountId} {paid received : Nat}

theorem refl : Spared config account delegatorState btc delegatorState btc where
  pulled := rfl
  repaid := le_refl _
  booked _ amount isBooked := ⟨amount, isBooked, le_refl _⟩

theorem trans (first : Spared config account delegatorState btc delegatorState' btc')
    (second : Spared config account delegatorState' btc' delegatorState'' btc'') :
    Spared config account delegatorState btc delegatorState'' btc'' where
  pulled := second.pulled.trans first.pulled
  repaid := first.repaid.trans second.repaid
  booked candidate amount isBooked := by
    obtain ⟨middle, isMiddle, atMost⟩ := second.booked candidate amount isBooked
    obtain ⟨old, isOld, atMost'⟩ := first.booked candidate middle isMiddle
    exact ⟨old, isOld, atMost.trans atMost'⟩

theorem of_payment (outside : account ≠ config.palletAccount)
    (exchanges : Exchanges config btc who paid received btc') (unpaid : account = who → paid = 0) :
    Spared config account delegatorState btc delegatorState btc' := by
  obtain ⟨isPulled, isSent⟩ := exchanges account outside
  refine ⟨?_, ?_, fun _ amount isBooked => ⟨amount, isBooked, le_refl _⟩⟩
  · rw [isPulled]
    split
    next isOwn => rw [unpaid isOwn, Nat.add_zero]
    next => rfl
  · omega

theorem of_other (outside : account ≠ config.palletAccount) (different : account ≠ who)
    (exchanges : Exchanges config btc who paid received btc')
    (entry : Option (Delegator AccountId)) :
    Spared config account delegatorState btc (delegatorState.put who entry) btc' := by
  obtain ⟨isPulled, isSent⟩ := exchanges account outside
  rw [if_neg different, Nat.add_zero] at isPulled isSent
  refine ⟨isPulled, ?_, fun candidate amount isBooked => ?_⟩
  · rw [isSent, delegated, delegated, StorageMap.get_put_of_ne _ _ different]
  · rw [booked_put, if_neg different] at isBooked
    exact ⟨amount, isBooked, le_refl _⟩

/-- The record of the account changes, and the account is paid what it loses. -/
theorem of_own (outside : account ≠ config.palletAccount) {state : Delegator AccountId}
    (stored : delegatorState.get account = some state)
    (exchanges : Exchanges config btc account 0 received btc')
    (entry : Option (Delegator AccountId))
    (balanced : state.total ≤ received + (entry.map Delegator.total).getD 0)
    (smaller : ∀ candidate amount,
      (entry.bind fun state => state.getBondAmount candidate) = some amount →
        ∃ old, state.getBondAmount candidate = some old ∧ amount ≤ old) :
    Spared config account delegatorState btc (delegatorState.put account entry) btc' := by
  obtain ⟨isPulled, isSent⟩ := exchanges account outside
  rw [if_pos rfl] at isPulled isSent
  refine ⟨isPulled, ?_, fun candidate amount isBooked => ?_⟩
  · rw [isSent, delegated, delegated, StorageMap.get_put_self, stored, Option.map_some,
      Option.getD_some]
    omega
  · rw [booked_put, if_pos rfl] at isBooked
    rw [booked_of_stored stored]
    exact smaller candidate amount isBooked

theorem of_same (outside : account ≠ config.palletAccount) {state state' : Delegator AccountId}
    (stored : delegatorState.get who = some state)
    (same : state'.delegations = state.delegations) (total : state'.total = state.total) :
    Spared config account delegatorState btc (delegatorState.insert who state') btc := by
  have nothing := exchanges_nothing config btc who
  by_cases isOwn : account = who
  · subst isOwn
    refine of_own outside stored nothing (some state') (by simp [total]) ?_
    intro candidate amount isBooked
    refine ⟨amount, ?_, le_refl _⟩
    rw [← isBooked, Option.bind_some, Delegator.getBondAmount, Delegator.getBondAmount, same]
  · exact of_other outside isOwn nothing (some state')

end Spared

section Dropping

variable {stakes before after : Stakes AccountId Native} {candidate delegator : AccountId}
  {state : Delegator AccountId} {bonds : List (Bond AccountId)}

theorem spared_dropped (outside : account ≠ config.palletAccount)
    (consistent : Delegator.Consistent delegator state)
    (stored : stakes.delegatorState.get delegator = some state) {leaving : Bool}
    (all : leaving = true → state.total = (state.getBondAmount candidate).getD 0) :
    Spared config account stakes.delegatorState stakes.btc
      (dropped config candidate delegator state leaving stakes).delegatorState
      (dropped config candidate delegator state leaving stakes).btc := by
  have refunded := exchanges_refund config stakes.btc delegator (state.getBondAmount candidate)
  by_cases isOwn : account = delegator
  · subst isOwn
    refine .of_own outside stored refunded _ ?_ fun other amount isBooked => ?_
    · cases leaving with
      | true => simpa using (all rfl).le
      | false =>
          simp only [Bool.false_eq_true, if_false, Option.map_some, Option.getD_some,
            Delegator.droppedRecord, Delegator.forget, Delegator.total_without]
          omega
    · cases leaving with
      | true => cases isBooked
      | false =>
          have rest : (state.without candidate).getBondAmount other = some amount := isBooked
          rw [Delegator.getBondAmount_without] at rest
          split at rest
          next => cases rest
          next => exact ⟨amount, rest, le_refl _⟩
  · exact .of_other outside isOwn refunded _

theorem Returns.spared (returns : Returns config candidate bonds before after)
    (outside : account ≠ config.palletAccount)
    (consistent : ∀ account state, before.delegatorState.get account = some state →
      Delegator.Consistent account state) :
    Spared config account before.delegatorState before.btc after.delegatorState after.btc := by
  induction returns with
  | done => exact .refl
  | skip _ _ _ ih => exact ih consistent
  | @give bond _ _ _ state amount stored recorded _ _ ih =>
      have kept := consistent _ _ stored
      have held := kept.le_total recorded
      refine (spared_dropped outside kept stored fun isZero => ?_).trans
        (ih (dropped_consistent consistent stored _))
      rw [decide_eq_true_iff] at isZero
      rw [recorded, Option.getD_some]
      omega

end Dropping

/-! ## Effects -/

section Effects

variable {before after : Stakes AccountId Native}

/-- A delegation to a candidate changes without payment by the account that spares it. -/
theorem Spared.rebonded {state : Delegator AccountId} {delegator candidate : AccountId}
    {bonded less : Nat} (outside : account ≠ config.palletAccount)
    (stored : before.delegatorState.get delegator = some state)
    (recorded : state.getBondAmount candidate = some bonded) (enough : bonded ≤ state.total)
    (below : less < bonded) :
    Spared config account before.delegatorState before.btc
      (before.delegatorState.insert delegator
        ((state.forget less).rebonded candidate (· - less) (state.total - less)))
      (before.btc.pay config config.palletAccount delegator less) := by
  have exchanged := exchanges_send config before.btc delegator less
  by_cases isOwn : account = delegator
  · subst isOwn
    refine .of_own outside stored exchanged (some _) ?_ fun other amount isBooked => ?_
    · simp only [Option.map_some, Option.getD_some, Delegator.rebonded]
      omega
    · rw [Option.bind_some, Delegator.getBondAmount_rebonded] at isBooked
      have same : (state.forget less).getBondAmount other = state.getBondAmount other := rfl
      rw [same] at isBooked
      split at isBooked
      next equal =>
        rw [equal, recorded] at isBooked ⊢
        cases isBooked
        exact ⟨bonded, rfl, Nat.sub_le _ _⟩
      next => exact ⟨amount, isBooked, le_refl _⟩
  · exact .of_other outside isOwn exchanged (some _)

theorem Effect.spared (effect : Effect config may (· ≠ account) before after)
    (sound : Sound config before) (agrees : Agrees config before)
    (outside : account ≠ config.palletAccount) :
    Spared config account before.delegatorState before.btc after.delegatorState after.btc := by
  cases effect with
  | native | clears | joins | amends => exact .refl
  | moves => exact ⟨rfl, le_refl _, fun _ amount isBooked => ⟨amount, isBooked, le_refl _⟩⟩
  | bondsMore candidate info more pool stored funded signed =>
      refine .of_payment outside (exchanges_pull config before.btc candidate more) fun isOwn => ?_
      exact absurd isOwn.symm signed
  | bondsLess candidate info request =>
      exact .of_payment outside (exchanges_send config before.btc candidate request.amount)
        fun _ => rfl
  | exits candidate info top bottom returned native allowed stored storedTop storedBottom
      returns => exact returns.spared outside sound.records
  | delegates delegator candidate amount state info info' top bottom top' bottom' kicked mid less
      pool stored storedTop storedBottom _ fresh _ signed _ kicks adds =>
      have kick : Spared config account before.delegatorState before.btc mid.delegatorState
          mid.btc := by
        cases kicked with
        | none =>
            cases kicks
            exact .refl
        | some bond =>
            obtain ⟨old, found, _, rfl⟩ := kicks
            obtain ⟨recorded, _⟩ := agrees.kicked stored storedTop storedBottom fresh
              (agrees.kicked_mem stored storedTop storedBottom fresh adds bond rfl) found
            have kept := sound.records bond.owner old found
            refine spared_dropped outside kept found fun alone => ?_
            rw [kept.total_of_single (decide_eq_true_iff.mp alone) recorded, recorded,
              Option.getD_some]
      exact kick.trans (.of_other outside (Ne.symm signed)
        (exchanges_pull config mid.btc delegator amount) (some state))
  | revokes delegator candidate amount state request info info' top bottom top' bottom' pool
      storedDelegator found =>
      have consistent := sound.records delegator state storedDelegator
      obtain ⟨bonded, isBooked, _⟩ := agrees.records.fits candidate delegator request found
      rw [booked_of_stored storedDelegator] at isBooked
      refine spared_dropped outside consistent storedDelegator fun alone => ?_
      rw [consistent.total_of_single (decide_eq_true_iff.mp alone) isBooked, isBooked,
        Option.getD_some]
  | decreases delegator candidate bonded less state request info info' top bottom top' bottom'
      pool storedDelegator _ _ _ recorded below =>
      have enough := (sound.records delegator state storedDelegator).le_total recorded
      exact .rebonded outside storedDelegator recorded enough below
  | increases delegator candidate bonded more state info info' top bottom top' bottom' pool _ _ _
      signed =>
      exact .of_other outside (Ne.symm signed) (exchanges_pull config before.btc delegator more)
        (some _)
  | schedules delegator candidate bonded state request storedDelegator =>
      exact .of_same outside storedDelegator rfl rfl
  | cancels delegator candidate state request storedDelegator =>
      exact .of_same outside storedDelegator rfl rfl

end Effects

/-! ## Runs -/

/-- What a candidate has bonded of its own. -/
def bondOf (candidateInfo : StorageMap AccountId CandidateMetadata) (account : AccountId) : Nat :=
  ((candidateInfo.get account).map CandidateMetadata.bond).getD 0

/-- The account in whose name a term is pending. -/
def Term.holder : Term AccountId → AccountId
  | .revoke delegator _ | .decrease delegator _ => delegator
  | .leave candidate | .bondLess candidate => candidate

/-- An account has paid nothing and has got back what it has delegated less than before.  It
has no delegation, bond or pending term that is new or larger than before. -/
structure Untouched (config : Config AccountId Native) (account : AccountId)
    (before after : Stakes AccountId Native) : Prop
    extends Spared config account before.delegatorState before.btc after.delegatorState
      after.btc where
  bond : bondOf after.candidateInfo account ≤ bondOf before.candidateInfo account
  pending : ∀ term due, term.holder = account → Pending after term due → Pending before term due

/-- An action that is not signed by the given account. -/
def Unsigned (account : AccountId) (_ : State AccountId Native) (action : Action AccountId Native) :
    Prop :=
  ∀ call, action ≠ .extrinsic (.signed account) call

section Runs

variable {spec : ChainSpec AccountId Native} {state before after later : State AccountId Native}
  {action : Action AccountId Native}

/-- Metadata is replaced, with at most the same bond if it is that of the account. -/
theorem bondOf_insert_le {candidateInfo : StorageMap AccountId CandidateMetadata}
    {candidate : AccountId} {info info' : CandidateMetadata}
    (stored : candidateInfo.get candidate = some info)
    (atMost : account = candidate → info'.bond ≤ info.bond) :
    bondOf (candidateInfo.insert candidate info') account ≤ bondOf candidateInfo account := by
  by_cases isOwn : account = candidate
  · rw [bondOf, bondOf, ← isOwn, StorageMap.get_insert_self, isOwn, stored]
    exact atMost isOwn
  · rw [bondOf, bondOf, StorageMap.get_insert_of_ne _ _ isOwn]

theorem Effect.bondOf_le {before after : Stakes AccountId Native}
    (effect : Effect config may (· ≠ account) before after) :
    bondOf after.candidateInfo account ≤ bondOf before.candidateInfo account := by
  cases effect with
  | native | clears | moves | schedules | cancels => exact le_refl _
  | joins candidate native pool fresh =>
      by_cases isOwn : account = candidate
      · rw [isOwn, bondOf, StorageMap.get_insert_self]
        exact Nat.zero_le _
      · rw [bondOf, bondOf, StorageMap.get_insert_of_ne _ _ isOwn]
  | amends candidate info status request pool stored =>
      exact bondOf_insert_le stored fun _ => le_refl _
  | bondsMore candidate info more pool stored funded signed =>
      exact bondOf_insert_le stored fun isOwn => absurd isOwn.symm signed
  | bondsLess candidate info request pool stored =>
      exact bondOf_insert_le stored fun _ => Nat.sub_le _ _
  | exits candidate =>
      by_cases isOwn : account = candidate
      · rw [isOwn, bondOf, StorageMap.get_remove_self]
        exact Nat.zero_le _
      · rw [bondOf, bondOf, StorageMap.get_remove_of_ne _ isOwn]
  | delegates _ _ _ _ _ _ _ _ _ _ _ _ _ _ stored _ _ _ _ _ _ _ _ _ same
  | revokes _ _ _ _ _ _ _ _ _ _ _ _ _ _ _ stored _ _ _ same
  | decreases _ _ _ _ _ _ _ _ _ _ _ _ _ _ _ _ _ _ _ stored _ _ _ same
  | increases _ _ _ _ _ _ _ _ _ _ _ _ _ _ _ _ stored _ _ _ same =>
      exact bondOf_insert_le stored fun _ => same.2.1.le

/-- A step that the account does not sign leaves it untouched. -/
theorem untouched_of_step (sound : Sound config before.stakes)
    (agrees : Agrees config before.stakes) (outside : account ≠ config.palletAccount)
    (unsigned : Unsigned account before action) (taken : step config before action = some after) :
    Untouched config account before.stakes after.stakes := by
  have signed : ∀ who call, action = .extrinsic (.signed who) call → who ≠ config.palletAccount →
      who ≠ account := by
    rintro who call isExtrinsic _ rfl
    exact unsigned call isExtrinsic
  have transition : Transition config (fun _ => True) (· ≠ account) before action after :=
    transition_of_signed sound signed (allows_any before action) taken
  have settles := transition.settles sound
  refine ⟨settles.1.spared sound agrees outside, settles.1.bondOf_le, ?_⟩
  intro term due isHolder pending
  refine (pending_of_step sound taken pending).resolve_right ?_
  rintro ⟨⟨origin, call, rfl, schedules⟩, _⟩
  cases schedules with
  | revoke | decrease | leave | bondLess =>
      cases isHolder
      exact unsigned _ rfl

/-- Whatever others sign from a reachable state on, an account that does not sign is left
untouched. -/
theorem untouched_throughout (positive : 1 ≤ config.minDelegation)
    (outside : account ≠ config.palletAccount) (reachable : Reachable config spec state)
    (reaches : Reaches (step config) (Unsigned account) state later) :
    Untouched config account state.stakes later.stakes := by
  have kept : ∀ before action after, Reachable config spec before →
      Untouched config account state.stakes before.stakes → Unsigned account before action →
      step config before action = some after →
      Untouched config account state.stakes after.stakes := by
    intro before action after reached untouched unsigned taken
    have agrees := reached.agrees_of_positive positive
    have next := untouched_of_step reached.sound agrees outside unsigned taken
    exact ⟨untouched.toSpared.trans next.toSpared, next.bond.trans untouched.bond,
      fun term due isHolder pending =>
        untouched.pending term due isHolder (next.pending term due isHolder pending)⟩
  exact (reachable.along reaches kept
    ⟨.refl, le_refl _, fun _ _ _ pending => pending⟩).2

end Runs

/-- What is delegated by the account 3 before and after its delegation is kicked by another. -/
def kickedRun : Option (Nat × Nat) :=
  (played mockRuntime crowdedGenesis [.nextBlock 0]).bind fun state =>
    (run (step mockRuntime) state crowdedRun.tail).map fun later =>
      (delegated state.stakes.delegatorState 3, delegated later.stakes.delegatorState 3)

theorem untouched_throughout_crowded :
    ∃ state later : State Nat (Nat → Nat), Reachable mockRuntime crowdedGenesis state ∧
      delegated state.stakes.delegatorState 3 = 3 ∧ delegated later.stakes.delegatorState 3 = 0 ∧
      Untouched mockRuntime 3 state.stakes later.stakes := by
  obtain ⟨state, isPlayed, continued⟩ := Option.bind_eq_some_iff.mp
    (show kickedRun = some (3, 0) by decide +kernel)
  obtain ⟨later, taken, observed⟩ := Option.map_eq_some_iff.mp continued
  obtain ⟨first, last⟩ := Prod.mk.inj observed
  have unsigned : ∀ state, ∀ action ∈ crowdedRun.tail, Unsigned 3 state action := by
    intro state action member call isExtrinsic
    simp only [crowdedRun, List.tail_cons, isExtrinsic, List.mem_cons, Action.extrinsic.injEq,
      Origin.signed.injEq, List.not_mem_nil, or_false] at member
    omega
  have reachable := Reached.of_played_any isPlayed
  have reaches := Reaches.start.append (admitted_of_forall unsigned state) taken
  exact ⟨state, later, reachable, first, last,
    untouched_throughout (by decide) (by decide) reachable reaches⟩

end Popsicle
