import Popsicle.Accounting

/-!
# Withdrawals go through

On a plain ledger everything that is due goes through and no extrinsic panics.  On an
asset with a minimum balance a refund fails exactly when the escrow has been burnt, or
the receiver holds nothing and gets less than the minimum.
-/

namespace Popsicle

open Foundation Exec Keyed

variable {AccountId Native : Type} [LinearOrder AccountId] {config : Config AccountId Native}
  {spec : ChainSpec AccountId Native} {state : State AccountId Native}

/-! ## Due withdrawals -/

/-- An extrinsic succeeds. -/
def Succeeds (config : Config AccountId Native) (state : State AccountId Native)
    (origin : Origin AccountId) (call : Call AccountId) : Prop :=
  (dispatch config origin call state).1 = .ok ()

theorem isOk_iff {result : Except Fault Unit} : result.isOk = true ↔ result = .ok () := by
  cases result <;> simp [Except.isOk, Except.toBool]

/-- Whatever is due goes through, and no extrinsic of the staking pallet panics but at
an overflow in a build that checks for it. -/
structure WithdrawalsOpen (config : Config AccountId Native) (state : State AccountId Native) :
    Prop where
  requests : ∀ who candidate, ∀ request ∈ state.stakes.requests candidate,
    request.whenExecutable ≤ state.rounds.round.current →
      Succeeds config state (.signed who) (.executeDelegationRequest request.delegator candidate)
  exits : ∀ who candidate info when candidateDelegationCount,
    state.stakes.candidateInfo.get candidate = some info → info.status = .leaving when →
      when ≤ state.rounds.round.current → info.delegationCount ≤ candidateDelegationCount →
        Succeeds config state (.signed who)
          (.executeLeaveCandidates candidate candidateDelegationCount)
  bondLess : ∀ who candidate info request,
    state.stakes.candidateInfo.get candidate = some info → info.request = some request →
      request.whenExecutable ≤ state.rounds.round.current →
        Succeeds config state (.signed who) (.executeCandidateBondLess candidate)
  panics : ∀ origin call site, call.ofGrouping = false →
    (dispatch config origin call state).1 = .error (.panic site) → site = .arithmeticOverflow

theorem Reached.safe {admits : State AccountId Native → Action AccountId Native → Prop}
    (reached : Reached config spec admits state) (minDelegation : 1 ≤ config.minDelegation)
    (roomy : Roomy config) (plain : config.asset.IsPlain)
    (outside : ∀ entry ∈ spec.delegations, entry.1 ≠ config.palletAccount) :
    Safe config state.stakes where
  sound := reached.sound
  agrees := reached.agrees_of_positive minDelegation
  funded := ⟨plain, reached.covered plain.exact.credits outside, reached.unburnt plain.exact⟩
  roomy := roomy
  minDelegation := minDelegation

theorem succeeds_of_ends {who : AccountId} {call : Call AccountId}
    {body : StakesM AccountId Native Unit} {post : Unit → Stakes AccountId Native → Prop}
    (isCall : chainCall config (.signed who) call = do
      let who ← ensureSigned (.signed who)
      let state ← read
      match stakesCall config state.rounds.round who call with
      | some body => onStakes body
      | none => return ())
    (isBody : stakesCall config state.rounds.round who call = some body)
    (ends : body.Ends state.stakes post fun _ _ => False) :
    Succeeds config state (.signed who) call := by
  have whole : (dispatch config (.signed who) call).Ends state
      (fun _ after => post () after.stakes) fun _ _ => False := by
    rw [dispatch, ends_transactional, isCall]
    simp only [ends_bind, ends_ensureSigned, ends_read]
    refine ⟨fun other isWho => ?_, fun nobody => nobody who rfl⟩
    cases isWho
    simp only [isBody, onStakes, ends_zoom]
    exact ends
  obtain ⟨_, _, equation, _⟩ := whole.exists_ok
  unfold Succeeds
  rw [equation]

/-- In a safe state whatever is due goes through, and nothing panics. -/
theorem Safe.withdrawalsOpen (safe : Safe config state.stakes) : WithdrawalsOpen config state where
  requests who candidate request member due := by
    have found := (safe.agrees.records.distinct candidate).lookup_of_mem member
    have isDue : RequestDue state.rounds.round state.stakes candidate request.delegator :=
      ⟨request, found, due⟩
    have ends : (delegationExecuteScheduledRequest config state.rounds.round candidate
        request.delegator).Ends state.stakes (fun _ after => Settles config (fun _ => True)
          (fun _ => True) state.stakes after) _ :=
      ends_delegationExecuteScheduledRequest safe.sound state.rounds.round candidate
        fun _ => trivial
    exact succeeds_of_ends rfl rfl (ends.mono (fun _ _ => id)
      fun _ _ outcome => (outcome safe).2 isDue)
  exits who candidate info when candidateDelegationCount stored leaving due enough := by
    have isDue : ExitDue state.rounds.round state.stakes candidate candidateDelegationCount :=
      ⟨info, when, stored, leaving, due, enough⟩
    have ends : (executeLeaveCandidates config state.rounds.round candidate
        candidateDelegationCount).Ends state.stakes (fun _ after => Settles config
          (fun _ => True) (fun _ => True) state.stakes after) _ :=
      ends_executeLeaveCandidates safe.sound state.rounds.round candidate
        candidateDelegationCount fun _ => trivial
    exact succeeds_of_ends rfl rfl (ends.mono (fun _ _ => id)
      fun _ _ outcome => (outcome safe).2 isDue)
  bondLess who candidate info request stored pending due := by
    have isDue : BondLessDue state.rounds.round state.stakes candidate :=
      ⟨info, request, stored, pending, due⟩
    have ends : (executeCandidateBondLessInner config state.rounds.round candidate).Ends
        state.stakes (fun _ after => Settles config (fun _ => True) (fun _ => True)
          state.stakes after) _ :=
      ends_executeCandidateBondLessInner safe.sound state.rounds.round candidate
    exact succeeds_of_ends rfl rfl (ends.mono (fun _ _ => id)
      fun _ _ outcome => outcome.2 safe isDue)
  panics origin call site staking panicked := by
    have allowed : Withdraws (fun _ => True) state.rounds.round state.stakes call :=
      allows_any state (.extrinsic origin call)
    have ends : (dispatch config origin call).Ends state (fun _ _ => True)
        fun fault _ => Stops config call state fault := by
      rw [dispatch, ends_transactional]
      exact (ends_chainCall safe.sound origin call (fun _ _ => trivial) allowed).mono
        (fun _ _ (_ : Update config _ (fun _ => True) state _) => trivial) fun _ _ => id
    have stops := ends.of_error (Prod.ext panicked rfl) safe staking
    rcases stops with ⟨reason, isError⟩ | isOverflow
    · cases isError
    · cases isOverflow
      rfl

/-- Due withdrawals go through and no extrinsic panics in every reachable state. -/
theorem withdrawals_open (minDelegation : 1 ≤ config.minDelegation) (roomy : Roomy config)
    (plain : config.asset.IsPlain)
    (outside : ∀ entry ∈ spec.delegations, entry.1 ≠ config.palletAccount)
    (reachable : Reachable config spec state) : WithdrawalsOpen config state :=
  (reachable.safe minDelegation roomy plain outside).withdrawalsOpen

theorem withdrawals_open_crowded :
    ∃ state, Reachable plainRuntime crowdedGenesis state ∧
      WithdrawalsOpen plainRuntime state := by
  obtain ⟨state, reachable, _⟩ := Reached.exists_of_played
    (show (played plainRuntime crowdedGenesis crowdedRun).map (fun _ => ()) = some () by
      decide +kernel)
  exact ⟨state, reachable, withdrawals_open (by decide) ⟨by decide, by decide⟩
    plainRuntime_isPlain (by decide) reachable⟩

/-! ## Refunds with another minimum balance -/

section Refunds

variable {candidate sequencer delegator : AccountId} {bonds : List (Bond AccountId)}
  {stakes : Stakes AccountId Native} {record : Delegator AccountId} {amount : Nat}

/-- A receiver that holds nothing gets less than the minimum balance. -/
def TooSmall (minBalance : Nat) (balance : AccountId → Nat) (dest : AccountId)
    (amount : Nat) : Prop :=
  balance dest = 0 ∧ amount < minBalance

/-- The escrow no longer holds an amount. -/
def Short (config : Config AccountId Native) (balance : AccountId → Nat) (amount : Nat) : Prop :=
  balance config.palletAccount < amount

theorem not_refundable_iff {minBalance : Nat} {balance : AccountId → Nat} {dest : AccountId}
    (hasMinimum : config.asset.HasMinimum minBalance) :
    ¬Refundable config balance dest amount ↔
      Short config balance amount ∨ TooSmall minBalance balance dest amount := by
  rw [Refundable, hasMinimum.accepts]
  unfold Short TooSmall
  omega

/-- In a reachable state, or while the stakes of a leaving candidate are being
returned, the refund of a recorded delegation fails if and only if the escrow no longer
holds it or it is too small; and the escrow holds it unless some of it has been burnt. -/
theorem refund_fails_iff {minBalance : Nat} (hasMinimum : config.asset.HasMinimum minBalance)
    (outside : ∀ entry ∈ spec.delegations, entry.1 ≠ config.palletAccount)
    (reachable : Reachable config spec state)
    (returns : Returns config candidate bonds state.stakes stakes)
    (stored : stakes.delegatorState.get delegator = some record)
    (recorded : record.getBondAmount sequencer = some amount) :
    ((record.rmDelegation config sequencer stakes).1 =
        .error (.panic .decreasingLockCannotFail) ↔
      Short config stakes.btc.balance amount ∨
        TooSmall minBalance stakes.btc.balance delegator amount) ∧
    (Short config stakes.btc.balance amount → 0 < stakes.btc.burnt) := by
  have sound := reachable.sound
  have consistent := (returns.records sound.records).1 delegator record stored
  have covered := returns.covered sound.records (reachable.covered hasMinimum.moves.credits outside)
  have ends : (record.rmDelegation config sequencer).Ends stakes
      (fun _ _ => Refundable config stakes.btc.balance delegator amount)
      (fun fault _ => fault = .panic .decreasingLockCannotFail ∧
        ¬Refundable config stakes.btc.balance delegator amount) := by
    rw [ends_rmDelegation consistent]
    refine ⟨fun bonded isBonded => ?_, fun absent => ?_⟩
    · rw [recorded] at isBonded
      cases isBonded
      exact ⟨id, fun refused => ⟨rfl, refused⟩⟩
    · rw [recorded] at absent
      cases absent
  constructor
  · rw [← not_refundable_iff hasMinimum]
    rcases equation : record.rmDelegation config sequencer stakes with ⟨fault | result, after⟩
    · obtain ⟨isLock, refused⟩ := ends.of_error equation
      simp [isLock, refused]
    · have refundable := ends.of_ok equation
      simp [refundable]
  · intro short
    by_contra unburnt
    have solvent := covered.solvent (Nat.eq_zero_of_not_pos unburnt)
    exact absurd (solvent.covers consistent stored recorded) (Nat.not_le.mpr short)

end Refunds

/-- The mock runtime with a minimum balance of 100 for the BTC asset. -/
def highMinimum : Config Nat (Nat → Nat) := { mockRuntime with asset := .withMinimum 100 }

/-- A genesis in which eight accounts delegate to candidate 1, the last of them 30. -/
def fullGenesis : ChainSpec Nat (Nat → Nat) :=
  mockGenesis [1] [(3, 1, 200), (4, 1, 90), (5, 1, 80), (6, 1, 70), (7, 1, 60), (8, 1, 50),
    (9, 1, 40), (10, 1, 30)]

/-- The last delegator moves the rest of its BTC to another account. -/
def emptied : List (Action Nat (Nat → Nat)) :=
  [.nextBlock 0, .moveBtc 10 11 970]

theorem refund_fails_iff_emptied :
    ∃ state record, Reachable highMinimum fullGenesis state ∧
      state.stakes.delegatorState.get 10 = some record ∧
      ((record.rmDelegation highMinimum 1 state.stakes).1 =
          .error (.panic .decreasingLockCannotFail) ↔
        Short highMinimum state.stakes.btc.balance 30 ∨
          TooSmall 100 state.stakes.btc.balance 10 30) ∧
      (Short highMinimum state.stakes.btc.balance 30 → 0 < state.stakes.btc.burnt) := by
  obtain ⟨state, reachable, observed⟩ := Reached.exists_of_played
    (show (played highMinimum fullGenesis emptied).map
      (fun state => (state.stakes.delegatorState.get 10).map fun record =>
        record.getBondAmount 1) = some (some (some 30)) by decide +kernel)
  obtain ⟨record, stored, recorded⟩ := Option.map_eq_some_iff.mp observed
  have nothing : Returns highMinimum 1 [] state.stakes state.stakes := .done state.stakes
  have hasMinimum : highMinimum.asset.HasMinimum 100 := Asset.withMinimum_hasMinimum 100
  exact ⟨state, record, reachable, stored,
    refund_fails_iff hasMinimum (by decide) reachable nothing stored recorded⟩

/-- An account that holds nothing blocks the delegation of another one. -/
theorem refund_blocks_delegate :
    ∃ state, Reachable highMinimum fullGenesis state ∧
      (dispatch highMinimum (.signed 12) (.delegate 1 35 8 0) state).1 =
        .error (.panic .decreasingLockCannotFail) := by
  obtain ⟨state, reachable, observed⟩ := Reached.exists_of_played
    (show (played highMinimum fullGenesis emptied).map
      (fun state => match (dispatch highMinimum (.signed 12) (.delegate 1 35 8 0) state).1 with
        | .error fault => some fault
        | .ok _ => none) = some (some (.panic .decreasingLockCannotFail)) by decide +kernel)
  refine ⟨state, reachable, ?_⟩
  split at observed
  next fault failed => rw [failed, Option.some.inj observed]
  next => cases observed

end Popsicle
