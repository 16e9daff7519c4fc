import Popsicle.Consistency

/-!
# The book of stakes

What the staking pallet is for, without its lists, records, requests and totals: a book of what
every candidate has bonded and every delegator has delegated, in which each entry is one of
eight kinds and moves the BTC it says.  Every run of the chain keeps such a book.
-/

namespace Popsicle

open Foundation Exec Keyed

variable {AccountId Native : Type} [LinearOrder AccountId] {config : Config AccountId Native}

/-! ## The book -/

/-- The bonds of the candidates, the delegations, and the BTC that has been moved. -/
@[ext] structure Book (AccountId : Type) where
  bond : AccountId → Option Nat
  amount : AccountId → AccountId → Option Nat
  transfers : List (Transfer AccountId)

/-- An entry of the book. -/
inductive Entry (AccountId : Type) where
  | join (candidate : AccountId)
  | bondMore (candidate : AccountId) (more : Nat)
  | bondLess (candidate : AccountId) (less : Nat)
  | leave (candidate : AccountId) (bonded : Nat)
  | delegate (delegator candidate : AccountId) (amount : Nat)
  | increase (delegator candidate : AccountId) (more : Nat)
  | decrease (delegator candidate : AccountId) (less : Nat)
  | giveBack (delegator candidate : AccountId) (amount : Nat)

/-- The account that pays for an entry. -/
def Entry.payer : Entry AccountId → Option AccountId
  | .bondMore candidate _ => some candidate
  | .delegate delegator _ _ | .increase delegator _ _ => some delegator
  | .join _ | .bondLess _ _ | .leave _ _ | .decrease _ _ _ | .giveBack _ _ _ => none

namespace Book

variable {book : Book AccountId}

/-- The book before anything is entered. -/
def empty : Book AccountId where
  bond _ := none
  amount _ _ := none
  transfers := []

def setBond (book : Book AccountId) (candidate : AccountId) (bond : Option Nat) :
    Book AccountId :=
  { book with bond := Function.update book.bond candidate bond }

def setAmount (book : Book AccountId) (delegator candidate : AccountId) (amount : Option Nat) :
    Book AccountId :=
  { book with amount := fun account other =>
      if account = delegator ∧ other = candidate then amount else book.amount account other }

def pay (book : Book AccountId) (source dest : AccountId) (amount : Nat) : Book AccountId :=
  { book with transfers := book.transfers ++ [{ source, dest, amount }] }

/-- An entry may be made in a book, and leads to another one.  A candidate leaves when nothing
is delegated to it any more; what it has bonded is not paid back. -/
inductive Step (config : Config AccountId Native) (book : Book AccountId) :
    Entry AccountId → Book AccountId → Prop where
  | join (candidate : AccountId) (fresh : book.bond candidate = none)
      (apart : ∀ other, book.amount candidate other = none) :
      Step config book (.join candidate) (book.setBond candidate (some 0))
  | bondMore (candidate : AccountId) (bonded more : Nat)
      (stored : book.bond candidate = some bonded) :
      Step config book (.bondMore candidate more)
        ((book.setBond candidate (some (bonded + more))).pay candidate config.palletAccount more)
  | bondLess (candidate : AccountId) (bonded less : Nat)
      (stored : book.bond candidate = some bonded) (below : less < bonded) :
      Step config book (.bondLess candidate less)
        ((book.setBond candidate (some (bonded - less))).pay config.palletAccount candidate less)
  | leave (candidate : AccountId) (bonded : Nat) (stored : book.bond candidate = some bonded)
      (alone : ∀ delegator, book.amount delegator candidate = none) :
      Step config book (.leave candidate bonded) (book.setBond candidate none)
  | delegate (delegator candidate : AccountId) (bonded amount : Nat)
      (stored : book.bond candidate = some bonded) (apart : book.bond delegator = none)
      (fresh : book.amount delegator candidate = none) (minimum : config.minDelegation ≤ amount) :
      Step config book (.delegate delegator candidate amount)
        ((book.setAmount delegator candidate (some amount)).pay delegator config.palletAccount
          amount)
  | increase (delegator candidate : AccountId) (amount more : Nat)
      (stored : book.amount delegator candidate = some amount) :
      Step config book (.increase delegator candidate more)
        ((book.setAmount delegator candidate (some (amount + more))).pay delegator
          config.palletAccount more)
  | decrease (delegator candidate : AccountId) (amount less : Nat)
      (stored : book.amount delegator candidate = some amount)
      (minimum : less + config.minDelegation ≤ amount) :
      Step config book (.decrease delegator candidate less)
        ((book.setAmount delegator candidate (some (amount - less))).pay config.palletAccount
          delegator less)
  | giveBack (delegator candidate : AccountId) (amount : Nat)
      (stored : book.amount delegator candidate = some amount) :
      Step config book (.giveBack delegator candidate amount)
        ((book.setAmount delegator candidate none).pay config.palletAccount delegator amount)

end Book

/-- The book that the storage of stakes keeps. -/
def Stakes.book (stakes : Stakes AccountId Native) : Book AccountId where
  bond candidate := (stakes.candidateInfo.get candidate).map CandidateMetadata.bond
  amount := booked stakes.delegatorState
  transfers := stakes.btc.transfers

/-! ## Effects as entries -/

section Views

variable {before after : Stakes AccountId Native} {candidate delegator : AccountId}
  {info info' : CandidateMetadata}

theorem bond_insert (candidateInfo : StorageMap AccountId CandidateMetadata)
    (candidate : AccountId) (info : CandidateMetadata) :
    (fun account => ((candidateInfo.insert candidate info).get account).map
        CandidateMetadata.bond) =
      Function.update (fun account => (candidateInfo.get account).map CandidateMetadata.bond)
        candidate (some info.bond) := by
  funext account
  rw [Function.update_apply, StorageMap.get_insert]
  split <;> rfl

theorem bond_insert_same {candidateInfo : StorageMap AccountId CandidateMetadata}
    (stored : candidateInfo.get candidate = some info) (same : info'.bond = info.bond) :
    (fun account => ((candidateInfo.insert candidate info').get account).map
        CandidateMetadata.bond) =
      fun account => (candidateInfo.get account).map CandidateMetadata.bond := by
  rw [bond_insert, Function.update_eq_self_iff, stored, same]
  rfl

theorem bond_remove (candidateInfo : StorageMap AccountId CandidateMetadata)
    (candidate : AccountId) :
    (fun account => ((candidateInfo.remove candidate).get account).map CandidateMetadata.bond) =
      Function.update (fun account => (candidateInfo.get account).map CandidateMetadata.bond)
        candidate none := by
  funext account
  rw [Function.update_apply, StorageMap.get_remove]
  split <;> rfl

theorem bond_of_stored {stakes : Stakes AccountId Native}
    (stored : stakes.candidateInfo.get candidate = some info) :
    stakes.book.bond candidate = some info.bond := by
  simp [Stakes.book, stored]

theorem book_dropped {stakes : Stakes AccountId Native} {state : Delegator AccountId}
    {amount : Nat} {leaving : Bool} (stored : stakes.delegatorState.get delegator = some state)
    (alone : leaving = true → state.delegations.entries.length = 1)
    (consistent : Delegator.Consistent delegator state)
    (recorded : state.getBondAmount candidate = some amount) :
    Book.Step config stakes.book (.giveBack delegator candidate amount)
      (dropped config candidate delegator state leaving stakes).book := by
  have isBooked : stakes.book.amount delegator candidate = some amount :=
    (booked_of_stored stored candidate).trans recorded
  have isAfter : (dropped config candidate delegator state leaving stakes).book =
      (stakes.book.setAmount delegator candidate none).pay config.palletAccount delegator
        amount := by
    apply Book.ext
    · rfl
    · funext account other
      have key : stakes.delegatorState.get (Bond.mk delegator amount).owner = some state := stored
      exact booked_dropped key alone consistent recorded account other
    · simp [Stakes.book, dropped, recorded, Ledger.refund, Book.pay, Book.setAmount]
  rw [isAfter]
  exact .giveBack delegator candidate amount isBooked

end Views

section Effects

variable {may : Withdrawal AccountId → Prop} {signs : AccountId → Prop}
  {before mid after returned : Stakes AccountId Native} {candidate delegator : AccountId}
  {info info' : CandidateMetadata} {top bottom : Delegations AccountId}
  {state : Delegator AccountId} {amount bonded : Nat}

/-- The entries of a step are paid by accounts that have signed. -/
def Paid (signs : AccountId → Prop) (entry : Entry AccountId) : Prop :=
  ∀ who, entry.payer = some who → signs who

omit [LinearOrder AccountId] in
theorem paid_of_none {entry : Entry AccountId} (none : entry.payer = none) : Paid signs entry := by
  intro who isPayer
  rw [none] at isPayer
  cases isPayer

omit [LinearOrder AccountId] in
theorem paid_of_signed {entry : Entry AccountId} (isPayer : entry.payer = some delegator)
    (signed : signs delegator) : Paid signs entry := by
  intro who alsoPayer
  rw [isPayer] at alsoPayer
  cases alsoPayer
  exact signed

/-- What is done to the stakes is entered in the book. -/
def Entered (config : Config AccountId Native) (signs : AccountId → Prop)
    (before after : Stakes AccountId Native) : Prop :=
  ∃ entries, Path (Book.Step config) before.book entries after.book ∧
    ∀ entry ∈ entries, Paid signs entry

theorem entered_of_same (same : after.book = before.book) : Entered config signs before after :=
  ⟨[], same ▸ .nil _, by simp⟩

theorem entered_of_step {entry : Entry AccountId} {last : Book AccountId}
    (step : Book.Step config before.book entry last) (same : after.book = last)
    (paid : Paid signs entry) : Entered config signs before after :=
  ⟨[entry], same ▸ Path.single step, by simpa using paid⟩

theorem Entered.trans (first : Entered config signs before mid)
    (second : Entered config signs mid after) : Entered config signs before after := by
  obtain ⟨entries, path, paid⟩ := first
  obtain ⟨others, further, alsoPaid⟩ := second
  exact ⟨entries ++ others, path.append further, List.forall_mem_append.mpr ⟨paid, alsoPaid⟩⟩

/-- Returning booked stakes gives them back, one after the other. -/
theorem Returns.entered {bonds : List (Bond AccountId)}
    (returns : Returns config candidate bonds before after)
    (returnable : Returnable config candidate bonds before) :
    Entered config signs before after := by
  induction returns with
  | done stakes => exact entered_of_same rfl
  | skip stored absent _ _ =>
      have isBooked := returnable.amounts _ List.mem_cons_self
      rw [booked_of_stored stored, absent] at isBooked
      cases isBooked
  | give stored recorded _ _ ih =>
      have consistent := (returnable.records.kept _ _ stored).toConsistent
      have alone := returnable.clean.alone consistent stored recorded
      exact (entered_of_step (book_dropped stored alone.mp consistent recorded) rfl
        (paid_of_none rfl)).trans (ih (returnable.next stored recorded))

/-- An exit gives all delegations back before the candidate leaves. -/
theorem Agrees.entered_exit (agrees : Agrees config before) (positive : 1 ≤ config.minDelegation)
    (stored : before.candidateInfo.get candidate = some info)
    (storedTop : before.topDelegations.get candidate = some top)
    (storedBottom : before.bottomDelegations.get candidate = some bottom)
    (returns : Returns config candidate (table top bottom) before returned) :
    Entered config signs before { before with
      delegatorState := returned.delegatorState
      candidateInfo := before.candidateInfo.remove candidate
      btc := returned.btc } := by
  have clean := agrees.records.cleanExit positive candidate
  have gone := agrees.exit_booked clean stored storedTop storedBottom returns
  have frame : returned.candidateInfo = before.candidateInfo := by rw [returns.frame]
  have isStored : returned.book.bond candidate = some info.bond := by
    simp [Stakes.book, frame, stored]
  refine (returns.entered (agrees.returnable clean stored storedTop storedBottom)).trans
    (entered_of_step (.leave candidate info.bond isStored fun delegator => ?_) ?_
      (paid_of_none rfl))
  · have nothingLeft := gone delegator candidate
    rwa [if_pos rfl] at nothingLeft
  · refine Book.ext ?_ rfl rfl
    rw [Book.setBond, Stakes.book, Stakes.book, frame]
    exact bond_remove before.candidateInfo candidate

/-- A kicked delegation is given back.  It is not one of the account that kicks it. -/
theorem Kicks.entered {kicked : Option (Bond AccountId)}
    (kicks : Kicks config candidate before kicked mid) (sound : Sound config before)
    (agrees : Agrees config before) (stored : before.candidateInfo.get candidate = some info)
    (storedTop : before.topDelegations.get candidate = some top)
    (storedBottom : before.bottomDelegations.get candidate = some bottom)
    (fresh : booked before.delegatorState delegator candidate = none)
    (member : ∀ bond, kicked = some bond → bond ∈ table top bottom) :
    Entered config signs before mid ∧ mid.candidateInfo = before.candidateInfo ∧
      mid.delegatorState.get delegator = before.delegatorState.get delegator := by
  cases kicked with
  | none =>
      cases kicks
      exact ⟨entered_of_same rfl, rfl, rfl⟩
  | some bond =>
      obtain ⟨old, found, _, rfl⟩ := kicks
      obtain ⟨recorded, different⟩ := agrees.kicked stored storedTop storedBottom fresh
        (member bond rfl) found
      have kept := sound.records bond.owner old found
      exact ⟨entered_of_step (book_dropped found decide_eq_true_iff.mp kept recorded) rfl
        (paid_of_none rfl), rfl, StorageMap.get_put_of_ne _ _ different⟩

/-- A delegation is entered for a candidate by an account that is none. -/
theorem entered_delegation
    (consistent : ∀ state, before.delegatorState.get delegator = some state →
      Delegator.Consistent delegator state)
    (stored : before.candidateInfo.get candidate = some info)
    (apart : before.candidateInfo.get delegator = none)
    (fresh : booked before.delegatorState delegator candidate = none)
    (minimum : config.minDelegation ≤ amount) (signed : signs delegator)
    (enrolls : Enrolls (before.delegatorState.get delegator) delegator candidate amount state)
    (same : SameTerms info info') :
    Entered config signs before { before with
      delegatorState := before.delegatorState.insert delegator state
      candidateInfo := before.candidateInfo.insert candidate info'
      btc := before.btc.pay config delegator config.palletAccount amount } := by
  refine entered_of_step (.delegate delegator candidate info.bond amount (bond_of_stored stored)
      (by simp [Stakes.book, apart]) fresh minimum)
    (Book.ext (bond_insert_same stored same.2.1) ?_ rfl) (paid_of_signed rfl signed)
  funext account other
  change booked (before.delegatorState.insert delegator state) account other = _
  rw [booked_insert]
  by_cases equal : account = delegator
  · rw [if_pos equal, enrolls.getBondAmount consistent fresh, equal]
    simp [Book.pay, Book.setAmount, Stakes.book, booked]
  · simp [Book.pay, Book.setAmount, Stakes.book, equal]

theorem Agrees.entered_decrease {request : ScheduledRequest AccountId} {less : Nat}
    (agrees : Agrees config before)
    (storedDelegator : before.delegatorState.get delegator = some state)
    (found : findRequest (before.requests candidate) delegator = some request)
    (action : request.action = .decrease less)
    (recorded : state.getBondAmount candidate = some bonded)
    (stored : before.candidateInfo.get candidate = some info) (same : SameTerms info info') :
    Entered config signs before { before with
      delegatorState := before.delegatorState.insert delegator
        ((state.forget less).rebonded candidate (· - less) (state.total - less))
      candidateInfo := before.candidateInfo.insert candidate info'
      btc := before.btc.pay config config.palletAccount delegator less } := by
  have isBooked := (booked_of_stored storedDelegator candidate).trans recorded
  obtain ⟨bonded', recorded', fits⟩ := agrees.records.fits candidate delegator request found
  rw [isBooked] at recorded'
  cases recorded'
  rw [action] at fits
  have forgotten : (before.delegatorState.insert delegator (state.forget less)).get delegator =
      some (state.forget less) := StorageMap.get_insert_self _ _ _
  have amounts := booked_rebonded forgotten recorded (· - less) (state.total - less)
  rw [StorageMap.insert_insert_self] at amounts
  have unchanged := booked_insert_same storedDelegator
    (show (state.forget less).delegations = state.delegations from rfl)
  refine entered_of_step (.decrease delegator candidate bonded less isBooked fits.2)
    (Book.ext (bond_insert_same stored same.2.1) ?_ rfl) (paid_of_none rfl)
  simp only [unchanged] at amounts
  funext account other
  exact amounts account other

theorem entered_increase {more : Nat}
    (storedDelegator : before.delegatorState.get delegator = some state)
    (recorded : state.getBondAmount candidate = some bonded) (signed : signs delegator)
    (stored : before.candidateInfo.get candidate = some info) (same : SameTerms info info') :
    Entered config signs before { before with
      delegatorState := before.delegatorState.insert delegator
        (state.rebonded candidate (· + more) (state.total + more))
      candidateInfo := before.candidateInfo.insert candidate info'
      btc := before.btc.pay config delegator config.palletAccount more } := by
  have isBooked := (booked_of_stored storedDelegator candidate).trans recorded
  refine entered_of_step (.increase delegator candidate bonded more isBooked)
    (Book.ext (bond_insert_same stored same.2.1) ?_ rfl) (paid_of_signed rfl signed)
  funext account other
  exact booked_rebonded storedDelegator recorded (· + more) (state.total + more) account other

/-- A record with the delegations of the one before is the same in the book. -/
theorem entered_of_record {state' : Delegator AccountId}
    (storedDelegator : before.delegatorState.get delegator = some state)
    (same : state'.delegations = state.delegations) :
    Entered config signs before
      { before with delegatorState := before.delegatorState.insert delegator state' } := by
  refine entered_of_same (Book.ext rfl ?_ rfl)
  funext account other
  exact booked_insert_same storedDelegator same account other

theorem Effect.entered (effect : Effect config may signs before after)
    (sound : Sound config before) (agrees : Agrees config before)
    (positive : 1 ≤ config.minDelegation) : Entered config signs before after := by
  cases effect with
  | native | clears | moves => exact entered_of_same rfl
  | joins candidate native pool fresh apart =>
      have isFresh : before.book.bond candidate = none := by simp [Stakes.book, fresh]
      exact entered_of_step (.join candidate isFresh fun other => booked_of_none apart other)
        (Book.ext (bond_insert before.candidateInfo candidate _) rfl rfl) (paid_of_none rfl)
  | amends candidate info status request pool stored =>
      exact entered_of_same (Book.ext (bond_insert_same stored rfl) rfl rfl)
  | bondsMore candidate info more pool stored funded signed =>
      exact entered_of_step (.bondMore candidate info.bond more (bond_of_stored stored))
        (Book.ext (bond_insert before.candidateInfo candidate _) rfl rfl)
        (paid_of_signed rfl signed)
  | bondsLess candidate info request pool stored pending =>
      exact entered_of_step (.bondLess candidate info.bond request.amount (bond_of_stored stored)
          (sound.requests candidate info stored request pending))
        (Book.ext (bond_insert before.candidateInfo candidate _) rfl rfl) (paid_of_none rfl)
  | exits candidate info top bottom returned native allowed stored storedTop storedBottom
      returns =>
      exact agrees.entered_exit positive stored storedTop storedBottom returns
  | delegates delegator candidate amount state info info' top bottom top' bottom' kicked mid less
      pool stored storedTop storedBottom minimum fresh apart signed enrolls kicks adds same =>
      obtain ⟨entered, sameInfo, sameState⟩ := kicks.entered sound agrees stored storedTop
        storedBottom fresh (agrees.kicked_mem stored storedTop storedBottom fresh adds)
      have delegated : Entered config signs mid _ :=
        entered_delegation (sameState ▸ sound.records delegator) (sameInfo ▸ stored)
          (sameInfo ▸ apart) (by rwa [booked, sameState]) minimum signed (sameState ▸ enrolls) same
      rw [sameInfo] at delegated
      exact entered.trans delegated
  | revokes delegator candidate amount state request info info' top bottom top' bottom' pool
      storedDelegator found action stored _ _ _ same =>
      have consistent := sound.records delegator state storedDelegator
      obtain ⟨bonded, isBooked, _⟩ := agrees.records.fits candidate delegator request found
      rw [booked_of_stored storedDelegator] at isBooked
      exact entered_of_step
        (book_dropped storedDelegator decide_eq_true_iff.mp consistent isBooked)
        (Book.ext (bond_insert_same stored same.2.1) rfl rfl) (paid_of_none rfl)
  | decreases delegator candidate bonded less state request info info' top bottom top' bottom'
      pool storedDelegator _ found action recorded _ stored _ _ _ same =>
      exact agrees.entered_decrease storedDelegator found action recorded stored same
  | increases delegator candidate bonded more state info info' top bottom top' bottom' pool
      storedDelegator _ recorded signed stored _ _ _ same =>
      exact entered_increase storedDelegator recorded signed stored same
  | schedules delegator candidate bonded state request storedDelegator =>
      exact entered_of_record storedDelegator rfl
  | cancels delegator candidate state request storedDelegator =>
      exact entered_of_record storedDelegator rfl

end Effects

/-! ## Runs -/

/-- Whoever pays for an entry has signed the action that makes it. -/
def Entry.SignedIn (entry : Entry AccountId) (action : Action AccountId Native) : Prop :=
  ∀ who, entry.payer = some who → ∃ call, action = .extrinsic (.signed who) call

section Runs

variable {spec : ChainSpec AccountId Native} {state after later : State AccountId Native}
  {action : Action AccountId Native} {actions : List (Action AccountId Native)}

/-- A step of the chain is a path of entries that its signer pays for. -/
theorem path_of_step (positive : 1 ≤ config.minDelegation) (reachable : Reachable config spec state)
    (taken : step config state action = some after) :
    ∃ entries, Path (Book.Step config) state.stakes.book entries after.stakes.book ∧
      ∀ entry ∈ entries, entry.SignedIn action := by
  have transition : Transition config (fun _ => True)
      (fun who => ∃ call, action = .extrinsic (.signed who) call) state action after :=
    transition_of_signed reachable.sound (fun _ call isExtrinsic _ => ⟨call, isExtrinsic⟩)
      (allows_any state action) taken
  have settles := transition.settles reachable.sound
  exact settles.1.entered reachable.sound (reachable.agrees_of_positive positive) positive

/-- A run of the chain is a path of entries in the book. -/
theorem path_of_run (positive : 1 ≤ config.minDelegation) (reachable : Reachable config spec state)
    (taken : run (step config) state actions = some later) :
    ∃ pieces : List (List (Entry AccountId)),
      Path (Book.Step config) state.stakes.book pieces.flatten later.stakes.book ∧
        List.Forall₂ (fun piece action => ∀ entry ∈ piece, entry.SignedIn action) pieces
          actions := by
  have follows : ∀ before action after, Reachable config spec before →
      step config before action = some after → Reachable config spec after ∧
        ∃ piece, Path (Book.Step config) before.stakes.book piece after.stakes.book ∧
          ∀ entry ∈ piece, entry.SignedIn action :=
    fun before action after reached taken =>
      ⟨reached.next trivial taken, path_of_step positive reached taken⟩
  exact run_path (fun state => state.stakes.book) follows reachable taken

/-- In every reachable state the storage of stakes is what some entries have made of the empty
book, and every run from there continues the book: action by action, with entries that are
paid for by the signer of the action. -/
theorem keeps_book (positive : 1 ≤ config.minDelegation) (reachable : Reachable config spec state) :
    (∃ entries, Path (Book.Step config) .empty entries state.stakes.book) ∧
    ∀ actions later, run (step config) state actions = some later →
      ∃ pieces : List (List (Entry AccountId)),
        Path (Book.Step config) state.stakes.book pieces.flatten later.stakes.book ∧
          List.Forall₂ (fun piece action => ∀ entry ∈ piece, entry.SignedIn action) pieces
            actions := by
  refine ⟨?_, fun actions later taken => path_of_run positive reachable taken⟩
  have keeps : Keeps config (fun _ _ => True) (fun _ => True) fun stakes =>
      Agrees config stakes ∧ ∃ entries, Path (Book.Step config) .empty entries stakes.book := by
    rintro before after sound ⟨agrees, entries, path⟩ settles
    obtain ⟨more, further, _⟩ := settles.1.entered sound agrees positive
    exact ⟨keeps_agrees_of_positive positive before after sound agrees settles,
      entries ++ more, path.append further⟩
  exact (reachable.stakes (fun state action _ => allows_any state action) keeps
    ⟨spec.agrees_initial, [], .nil _⟩ (fun _ _ => trivial) fun _ _ => trivial).2.2

end Runs

/-- What the account 3 has delegated before and after its delegation is kicked by another. -/
def crowdedBook : Option (Option Nat × Option Nat) :=
  (played mockRuntime crowdedGenesis []).bind fun state =>
    (run (step mockRuntime) state crowdedRun).map fun later =>
      (state.stakes.book.amount 3 1, later.stakes.book.amount 3 1)

theorem keeps_book_crowded :
    ∃ state later : State Nat (Nat → Nat),
      state.stakes.book.amount 3 1 = some 3 ∧ later.stakes.book.amount 3 1 = none ∧
      (∃ entries, Path (Book.Step mockRuntime) .empty entries state.stakes.book) ∧
      ∃ pieces : List (List (Entry Nat)),
        Path (Book.Step mockRuntime) state.stakes.book pieces.flatten later.stakes.book ∧
          List.Forall₂ (fun piece action => ∀ entry ∈ piece, entry.SignedIn action) pieces
            crowdedRun := by
  obtain ⟨state, isPlayed, continued⟩ := Option.bind_eq_some_iff.mp
    (show crowdedBook = some (some 3, none) by decide +kernel)
  obtain ⟨later, taken, observed⟩ := Option.map_eq_some_iff.mp continued
  obtain ⟨first, last⟩ := Prod.mk.inj observed
  have kept := keeps_book (by decide) (Reached.of_played_any isPlayed)
  exact ⟨state, later, first, last, kept.1, kept.2 crowdedRun later taken⟩

end Popsicle
