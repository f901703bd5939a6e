/-
  WcashPool.Store.WinnerLifecycle — what a backend event can do to the money.

  `EventStep start s` is the transition system behind the projector: the few
  ways in which the event with sequence `s`, which found the database `start`,
  can move a winner between its states, post to the ledger or freeze a chain,
  each with everything the source has checked by then.  Every handler is a chain
  of such steps (`applyEvent_steps`), so an invariant is proved once per kind of
  step and never again per handler.

  Main results: `applyEvent_steps`, `EventSteps.frame` and `EventStep.posts`.
-/
import Mathlib.Logic.Relation
import WcashPool.Store.Projection

namespace WcashPool.Store

open Fallible Protocol DoubleEntry Accounting

/-! ## §1. The steps -/

/-- The `(account, amount)` pairs that one observation of a winner recorded. -/
def recordedSplit (db : Database) (key : Chain × Hex32) (observation : ℕ) : List (Uuid × ℕ) :=
  (allocationsAt db key observation).map fun a => (a.accountId, a.amountZat)

/-- The ledger keys under which an active winner was posted. -/
def WinnerRow.postings (w : WinnerRow) (observation : ℕ) : List (ℕ × LedgerKind) :=
  (observation, .winnerObserved)
    :: (w.activeMaturityEventSeq.map (·, LedgerKind.winnerMatured)).toList

/-- One step of the event with sequence `s`, which found the database `start`. -/
inductive EventStep (start : Database) (s : ℕ) : Database → Database → Prop
  /-- Attribution, jobs, shares and proofs: nothing that carries money. -/
  | records (db : Database) (accounts : Table AccountRow.id) (workers : Table WorkerRow.id)
      (jobs : Table JobRow.jobId) (shares : Table ShareRow.shareId)
      (winnerProofs : Table WinnerProofRow.key) :
      EventStep start s db { db with
        accounts := accounts, workers := workers, jobs := jobs, shares := shares,
        winnerProofs := winnerProofs }
  /-- A reward is claimed for the first time. -/
  | claim (db : Database) (w : WinnerRow) (winners : Table WinnerRow.key)
      (hinsert : db.winners.insert w = some winners) (hstate : w.state = .submitted)
      (hobs : w.activeObservationEventSeq = none) (hmat : w.activeMaturityEventSeq = none) :
      EventStep start s db { db with winners := winners }
  /-- Another proof of the winner is selected. -/
  | select (db : Database) (key : Chain × Hex32) (shareId : Hex32) :
      EventStep start s db { db with
        winners := db.winners.modify key
          (fun w => { w with activeProofShareId := some shareId }) fun _ => rfl }
  /-- A winner without ledger lines moves to another such state. -/
  | rest (db : Database) (key : Chain × Hex32) (w : WinnerRow) (next : WinnerState)
      (hw : db.winners.find key = some w) (hstate : w.state.inactive)
      (hnext : next.inactive) :
      EventStep start s db { db with
        winners := db.winners.modify key (·.enter next none none) fun _ => rfl }
  /-- The payouts of a chain are frozen. -/
  | freeze (db : Database) (chain : Chain) (safety : ChainSafety)
      (hfrozen : safety.payoutsFrozen = true) :
      EventStep start s db { db with chainSafety := db.chainSafety.set chain (some safety) }
  /-- The reward is observed, and the plan recorded: the one that `start` gives. -/
  | observe (db : Database) (key : Chain × Hex32) (w : WinnerRow) (share : ShareRow)
      (plan : AllocationPlan) (version : ℕ) (allocations : Table WinnerAllocationRow.key)
      (ledger : Ledger) (hw : db.winners.find key = some w) (hstate : w.state.inactive)
      (hshare : start.shares.find w.shareId = some share)
      (horigin : winnerAllocationPlan start key w.rewardZat share.eventSeq = .ok (plan, version))
      (hplan : winnerAllocationPlan db key w.rewardZat share.eventSeq = .ok (plan, version))
      (hrows : allocations.rows = db.winnerAllocations.rows
        ++ plan.accounts.map (allocationRow key s version))
      (hledger : db.ledger.Extends ledger
        { chain := key.1
          kind := .winnerObserved
          backendEventSeq := some s
          reference := .winner key
          entries := observedEntries w.rewardZat plan.split plan.poolFeeZat }) :
      EventStep start s db { db with
        winnerAllocations := allocations
        ledger := ledger
        winners := db.winners.modify key (·.enter .observed (some s) none) fun _ => rfl }
  /-- The observed reward becomes spendable. -/
  | mature (db : Database) (key : Chain × Hex32) (w : WinnerRow) (observation : ℕ) (ledger : Ledger)
      (hw : db.winners.find key = some w) (hstate : w.state = .observed)
      (hobs : w.activeObservationEventSeq = some observation)
      (hledger : db.ledger.Extends ledger
        { chain := key.1
          kind := .winnerMatured
          backendEventSeq := some s
          reference := .winner key
          entries := maturedEntries w.rewardZat (recordedSplit db key observation)
            (w.rewardZat - ((recordedSplit db key observation).map (·.2)).sum) }) :
      EventStep start s db { db with
        ledger := ledger
        winners := db.winners.modify key
          (·.enter .matured (some observation) (some s)) fun _ => rfl }
  /-- The maturity is taken back; with payouts at risk the chain is frozen by now. -/
  | demature (db : Database) (key : Chain × Hex32) (w : WinnerRow) (observation maturity : ℕ)
      (ledger : Ledger) (hw : db.winners.find key = some w) (hstate : w.state = .matured)
      (hobs : w.activeObservationEventSeq = some observation)
      (hmat : w.activeMaturityEventSeq = some maturity)
      (hexposed : payoutExposure db key.1 → db.Frozen key.1)
      (hledger : db.ledger.Extends ledger
        { chain := key.1
          kind := .winnerDematured
          backendEventSeq := some s
          reference := .winner key
          entries := negate (db.ledger.postedBy [(maturity, .winnerMatured)]) }) :
      EventStep start s db { db with
        ledger := ledger
        winners := db.winners.modify key
          (·.enter .observed (some observation) none) fun _ => rfl }
  /-- Every line of the winner is taken back. -/
  | reverse (db : Database) (key : Chain × Hex32) (w : WinnerRow) (observation : ℕ) (kind : LedgerKind)
      (next : WinnerState) (ledger : Ledger)
      (hw : db.winners.find key = some w) (hstate : w.state.inactive = false)
      (hobs : w.activeObservationEventSeq = some observation) (hnext : next.inactive)
      (hexposed : w.activeMaturityEventSeq.isSome → payoutExposure db key.1 →
        db.Frozen key.1)
      (hledger : db.ledger.Extends ledger
        { chain := key.1
          kind := kind
          backendEventSeq := some s
          reference := .winner key
          entries := negate (db.ledger.postedBy (w.postings observation)) }) :
      EventStep start s db { db with
        ledger := ledger
        winners := db.winners.modify key (·.enter next none none) fun _ => rfl }

/-- A chain of steps of one event. -/
abbrev EventSteps (start : Database) (s : ℕ) : Database → Database → Prop :=
  Relation.ReflTransGen (EventStep start s)

/-! ## §2. The handlers are chains of steps -/

section Handlers

variable {start db db' : Database} {draw : LedgerKind → LedgerDraw} {s : ℕ} {shareId jobId : Hex32}
  {winner : WinnerDescriptor} {confirmations : ℕ} {row : LoadedWinner}

/-- A proof's state. -/
theorem updateWinnerProofState_steps {state : WinnerState}
    (h : updateWinnerProofState db winner shareId state = .ok db') : EventSteps start s db db' := by
  obtain ⟨proofs, rfl⟩ := updateWinnerProofState_spec h
  exact .single (.records db db.accounts db.workers db.jobs db.shares proofs)

/-- The proof selected. -/
theorem selectWinnerProof_steps (h : selectWinnerProof db winner shareId = .ok db') :
    EventSteps start s db db' := by
  replace h := passed h
  injection h with h
  subst h
  exact .single (.select db winner.key shareId)

/-- After the guard, payouts at risk mean a frozen chain. -/
theorem freezeIfExposed_steps (start : Database) {chain : Chain} {reason : FreezeReason}
    (h : freezeIfExposed db chain s reason = .ok db') :
    EventSteps start s db db' ∧ (∃ safety, db' = { db with chainSafety := safety }) ∧
      (payoutExposure db' chain → db'.Frozen chain) := by
  obtain ⟨frozen, -, h⟩ := bind_eq_ok.mp h
  split at h
  · obtain ⟨safety, hfrozen, rfl⟩ := freezeChainPayouts_spec h
    refine ⟨.single (.freeze db chain safety hfrozen), ⟨_, rfl⟩, fun _ => ⟨safety, ?_, hfrozen⟩⟩
    show (db.chainSafety.set chain (some safety)).get chain = some safety
    rw [PerChain.get_set, if_pos rfl]
  · next hsafe =>
    injection h with h
    subst h
    exact ⟨.refl, ⟨db.chainSafety, rfl⟩, fun hexposed => absurd hexposed hsafe⟩

variable {share : ShareRow} {w : WinnerRow} {receipt : ShareReceipt}

/-- A maturity taken back. -/
theorem dematureWinner_steps (hrow : Loaded db winner row w share) (hstate : row.state = .matured)
    (h : dematureWinner db draw s winner row = .ok db') : EventSteps start s db db' := by
  obtain ⟨observation, hobs, h⟩ := bind_eq_ok.mp h
  obtain ⟨maturity, hmat, h⟩ := bind_eq_ok.mp h
  obtain ⟨frozen, hfreeze, h⟩ := bind_eq_ok.mp h
  obtain ⟨entries, hmirror, h⟩ := bind_eq_ok.mp (passed h)
  obtain ⟨posted, hpost, h⟩ := bind_eq_ok.mp h
  rw [orReject_eq_ok] at hobs hmat
  obtain ⟨hsteps, ⟨safety, rfl⟩, hexposed⟩ := freezeIfExposed_steps start hfreeze
  obtain rfl := mirrorEntries_spec hmirror
  obtain ⟨ledger, hledger, rfl⟩ := insertLedgerTransaction_spec hpost
  obtain rfl := updateWinnerState_spec h
  exact hsteps.tail (.demature _ winner.key w observation maturity ledger hrow.find
    (hrow.state ▸ hstate) (hrow.observation ▸ hobs) (hrow.maturity ▸ hmat) hexposed hledger)

theorem observeEconomicWinner_steps (hrow : Loaded db winner row w share)
    (h : observeEconomicWinner db draw s winner confirmations row = .ok db') :
    EventSteps db s db db' := by
  unfold observeEconomicWinner at h
  split at h
  · injection h with h
    exact h ▸ .refl
  split at h
  · next hmatured =>
    obtain ⟨required, -, h⟩ := bind_eq_ok.mp h
    split at h
    · injection h with h
      exact h ▸ .refl
    · exact dematureWinner_steps hrow hmatured.1 h
  · obtain ⟨hguard, h⟩ := rejectIf_bind_ok h
    obtain ⟨⟨plan, version⟩, hplan, h⟩ := bind_eq_ok.mp h
    obtain ⟨allocations, hinsert, h⟩ := bind_eq_ok.mp h
    obtain ⟨posted, hpost, h⟩ := bind_eq_ok.mp (passed h)
    rw [not_or, not_not] at hguard
    obtain ⟨ledger, hledger, rfl⟩ := insertLedgerTransaction_spec hpost
    obtain rfl := updateWinnerState_spec h
    rw [← hrow.reward, hrow.shareSeq] at hplan
    rw [← hrow.reward] at hledger
    exact .single (.observe db winner.key w share plan version allocations ledger hrow.find
      (hrow.state ▸ hguard.1) hrow.claimed hplan hplan (insertAllocations_spec hinsert) hledger)

/-- `WinnerObserved`. -/
theorem observeWinner_steps
    (h : observeWinner db draw s shareId jobId winner confirmations = .ok db') :
    EventSteps db s db db' := by
  obtain ⟨row, hload, h⟩ := bind_eq_ok.mp h
  obtain ⟨observed, hobserve, h⟩ := bind_eq_ok.mp (passed h)
  obtain ⟨proved, hproof, h⟩ := bind_eq_ok.mp h
  obtain ⟨w, share, hrow⟩ := loadWinner_spec hload
  exact ((observeEconomicWinner_steps hrow hobserve).trans
    (updateWinnerProofState_steps hproof)).trans (selectWinnerProof_steps h)

theorem matureEconomicWinner_steps (hrow : Loaded db winner row w share)
    (h : matureEconomicWinner db draw s winner row = .ok db') : EventSteps start s db db' := by
  unfold matureEconomicWinner at h
  split at h
  · injection h with h
    exact h ▸ .refl
  · obtain ⟨hguard, h⟩ := rejectIf_bind_ok h
    obtain ⟨observation, hobs, h⟩ := bind_eq_ok.mp h
    obtain ⟨poolFee, hfee, h⟩ := bind_eq_ok.mp (passed (passed (passed h)))
    obtain ⟨posted, hpost, h⟩ := bind_eq_ok.mp h
    rw [not_or, not_not] at hguard
    rw [orReject_eq_ok] at hobs
    obtain ⟨-, rfl⟩ := checkedSub_eq_ok.mp hfee
    obtain ⟨ledger, hledger, rfl⟩ := insertLedgerTransaction_spec hpost
    obtain rfl := updateWinnerState_spec h
    rw [← hrow.reward] at hledger
    exact .single (.mature db winner.key w observation ledger hrow.find
      (hrow.state ▸ hguard.1) (hrow.observation ▸ hobs) hledger)

theorem restoreWinner_steps {row' : LoadedWinner} (hrow : Loaded db winner row w share)
    (h : restoreWinner db draw s shareId jobId winner confirmations row = .ok (db', row')) :
    EventSteps db s db db' ∧ ∃ w' share', Loaded db' winner row' w' share' := by
  unfold restoreWinner at h
  split at h
  · obtain ⟨rfl, rfl⟩ := ok_pair_inj h
    exact ⟨.refl, w, share, hrow⟩
  · obtain ⟨observed, hobserve, h⟩ := bind_eq_ok.mp h
    obtain ⟨row'', hload, h⟩ := bind_eq_ok.mp h
    obtain ⟨rfl, rfl⟩ := ok_pair_inj h
    exact ⟨observeEconomicWinner_steps hrow hobserve, loadWinner_spec hload⟩

/-- `WinnerMatured`. -/
theorem matureWinner_steps
    (h : matureWinner db draw s shareId jobId winner confirmations = .ok db') :
    EventSteps db s db db' := by
  obtain ⟨row, hload, h⟩ := bind_eq_ok.mp h
  obtain ⟨required, -, h⟩ := bind_eq_ok.mp (passed h)
  obtain ⟨⟨restored, row'⟩, hrestore, h⟩ := bind_eq_ok.mp (passed h)
  obtain ⟨matured, hmature, h⟩ := bind_eq_ok.mp h
  obtain ⟨proved, hproof, h⟩ := bind_eq_ok.mp h
  obtain ⟨w, share, hrow⟩ := loadWinner_spec hload
  obtain ⟨hsteps, w', share', hrow'⟩ := restoreWinner_steps hrow hrestore
  exact ((hsteps.trans (matureEconomicWinner_steps hrow' hmature)).trans
    (updateWinnerProofState_steps hproof)).trans (selectWinnerProof_steps h)

theorem freezeIfMatured_steps (start : Database) {chain : Chain} {maturity : Option ℕ}
    (h : freezeIfMatured db chain s maturity = .ok db') :
    EventSteps start s db db' ∧ (∃ safety, db' = { db with chainSafety := safety }) ∧
      (maturity.isSome → payoutExposure db' chain → db'.Frozen chain) := by
  unfold freezeIfMatured at h
  split at h
  · obtain ⟨hsteps, hframe, hexposed⟩ := freezeIfExposed_steps start h
    exact ⟨hsteps, hframe, fun _ => hexposed⟩
  · next hnone =>
    injection h with h
    subst h
    exact ⟨.refl, ⟨db.chainSafety, rfl⟩, fun hsome => absurd hsome hnone⟩

theorem WinnerReversal.nextState_inactive (reversal : WinnerReversal) :
    reversal.nextState.inactive := by
  cases reversal <;> rfl

/-- A reward reversed. -/
theorem reverseEconomicWinner_steps {reversal : WinnerReversal}
    (hrow : Loaded db winner row w share)
    (h : reverseEconomicWinner db draw s winner row reversal = .ok db') :
    EventSteps start s db db' := by
  unfold reverseEconomicWinner at h
  split at h
  · next hinactive =>
    replace h := passed h
    obtain rfl := updateWinnerState_spec h
    exact .single (.rest db winner.key w _ hrow.find (hrow.state ▸ hinactive)
      reversal.nextState_inactive)
  · next hactive =>
    obtain ⟨frozen, hfreeze, h⟩ := bind_eq_ok.mp h
    obtain ⟨observation, hobs, h⟩ := bind_eq_ok.mp h
    obtain ⟨entries, hmirror, h⟩ := bind_eq_ok.mp (passed h)
    obtain ⟨posted, hpost, h⟩ := bind_eq_ok.mp h
    rw [orReject_eq_ok] at hobs
    obtain ⟨hsteps, ⟨safety, rfl⟩, hexposed⟩ := freezeIfMatured_steps start hfreeze
    obtain rfl := mirrorEntries_spec hmirror
    obtain ⟨ledger, hledger, rfl⟩ := insertLedgerTransaction_spec hpost
    obtain rfl := updateWinnerState_spec h
    rw [hrow.maturity] at hexposed hledger
    rw [hrow.state, Bool.not_eq_true] at hactive
    exact hsteps.tail (.reverse _ winner.key w observation _ _ ledger hrow.find hactive
      (hrow.observation ▸ hobs) reversal.nextState_inactive hexposed hledger)

/-- `WinnerOrphaned` and `WinnerQuarantined`. -/
theorem reverseWinner_steps {reversal : WinnerReversal}
    (h : reverseWinner db draw s shareId jobId winner reversal = .ok db') :
    EventSteps start s db db' := by
  obtain ⟨row, hload, h⟩ := bind_eq_ok.mp h
  obtain ⟨proved, hproof, h⟩ := bind_eq_ok.mp (passed h)
  obtain ⟨w, share, hrow⟩ := loadWinner_spec hload
  have hsteps : EventSteps start s db proved := updateWinnerProofState_steps hproof
  split at h
  · injection h with h
    exact h ▸ hsteps
  · -- the row was read before the proof changed, and a proof is not the winner's row
    obtain ⟨proofs, rfl⟩ := updateWinnerProofState_spec hproof
    have hrow' : Loaded { db with winnerProofs := proofs } winner row w share :=
      ⟨hrow.find, hrow.reward, hrow.state, hrow.observation, hrow.maturity, hrow.claimed,
        hrow.shareSeq⟩
    exact hsteps.trans (reverseEconomicWinner_steps hrow' h)

/-- `WinnerSideChain`. -/
theorem sideChainWinner_steps (h : sideChainWinner db shareId jobId winner = .ok db') :
    EventSteps start s db db' := by
  obtain ⟨row, hload, h⟩ := bind_eq_ok.mp h
  obtain ⟨hguard, h⟩ := rejectIf_bind_ok h
  obtain ⟨proved, hproof, h⟩ := bind_eq_ok.mp h
  obtain ⟨w, share, hrow⟩ := loadWinner_spec hload
  have hstate : w.state = .submitted := by
    by_contra hne
    exact hguard (Or.inr (Or.inr (Or.inl (hrow.state ▸ hne))))
  obtain ⟨proofs, rfl⟩ := updateWinnerProofState_spec hproof
  obtain rfl := updateWinnerState_spec h
  exact (updateWinnerProofState_steps hproof).tail
    (.rest _ winner.key w .sideChain hrow.find (by rw [hstate]; rfl) rfl)

/-- `WinnerRequeued`. -/
theorem requeueWinner_steps (h : requeueWinner db shareId jobId winner = .ok db') :
    EventSteps start s db db' := by
  obtain ⟨row, hload, h⟩ := bind_eq_ok.mp h
  obtain ⟨proved, hproof, h⟩ := bind_eq_ok.mp (passed h)
  obtain ⟨w, share, hrow⟩ := loadWinner_spec hload
  split at h
  · next hquarantined =>
    have hstate : w.state = .quarantined := hrow.state ▸ hquarantined.2
    obtain ⟨proofs, rfl⟩ := updateWinnerProofState_spec hproof
    obtain rfl := updateWinnerState_spec h
    exact (updateWinnerProofState_steps hproof).tail
      (.rest _ winner.key w .requeued hrow.find (by rw [hstate]; rfl) rfl)
  · injection h with h
    exact h ▸ updateWinnerProofState_steps hproof

theorem insertWinner_steps (h : insertWinner db receipt jobId winner = .ok db') :
    EventSteps start s db db' := by
  obtain ⟨winners, hensure, h⟩ := bind_eq_ok.mp h
  obtain ⟨proofs, -, h⟩ := bind_eq_ok.mp (passed h)
  injection h with h
  subst h
  have hrecords : EventStep start s { db with winners := winners }
      { db with winners := winners, winnerProofs := proofs } :=
    .records _ db.accounts db.workers db.jobs db.shares proofs
  cases ensureWinner_spec hensure with
  | inl hsame =>
    subst hsame
    exact .single hrecords
  | inr hinsert =>
    have hclaim : EventStep start s db { db with winners := winners } :=
      .claim db _ winners hinsert rfl rfl rfl
    exact (Relation.ReflTransGen.single hclaim).tail hrecords

/-- The winners of a share. -/
theorem insertWinners_steps {winners : List WinnerDescriptor}
    (h : insertWinners receipt jobId db winners = .ok db') : EventSteps start s db db' := by
  induction winners generalizing db with
  | nil =>
    injection h with h
    exact h ▸ .refl
  | cons winner winners ih =>
    obtain ⟨mid, hmid, h⟩ := bind_eq_ok.mp h
    exact (insertWinner_steps hmid).trans (ih h)

/-- `ShareCommitted`. -/
theorem commitShare_steps {worker : WorkerIdentity} {targetLe : TargetLe}
    (h : commitShare db receipt jobId worker targetLe = .ok db') : EventSteps start s db db' := by
  obtain ⟨job, -, h⟩ := bind_eq_ok.mp h
  obtain ⟨imported, himport, h⟩ := bind_eq_ok.mp (passed h)
  obtain ⟨work, -, h⟩ := bind_eq_ok.mp h
  obtain ⟨shares, -, h⟩ := bind_eq_ok.mp (passed (passed h))
  obtain ⟨accounts, workers, rfl⟩ := importWorker_spec himport
  have hrecords : EventStep start s db
      { db with accounts := accounts, workers := workers, shares := shares } :=
    .records db accounts workers db.jobs shares db.winnerProofs
  exact (insertWinners_steps h).head hrecords

/-- `JobActivated`. -/
theorem activateJob_steps {job : JobDescriptor} {eventSeq : ℕ}
    (h : activateJob db eventSeq job = .ok db') : EventSteps start s db db' := by
  obtain ⟨jobs, -, h⟩ := bind_eq_ok.mp (passed h)
  injection h with h
  subst h
  exact .single (.records db db.accounts db.workers jobs db.shares db.winnerProofs)

/-- **Refinement.**  Applying an event is a chain of its steps. -/
theorem applyEvent_steps {event : BackendEvent} (h : applyEvent db draw event = .ok db') :
    EventSteps db event.eventSeq db db' := by
  cases event with
  | jobActivated eventSeq job => exact activateJob_steps h
  | jobInvalidated eventSeq jobId reason acceptForMs =>
    injection h with h
    exact h ▸ .refl
  | generationClosed eventSeq jobId =>
    injection h with h
    exact h ▸ .refl
  | shareCommitted receipt jobId identity targetLe => exact commitShare_steps h
  | winnerObserved eventSeq shareId jobId winner tip confirmations => exact observeWinner_steps h
  | winnerSideChain eventSeq shareId jobId winner tip => exact sideChainWinner_steps h
  | winnerOrphaned eventSeq shareId jobId winner tip => exact reverseWinner_steps h
  | winnerQuarantined eventSeq shareId jobId winner tip =>
    replace h := passed h
    exact reverseWinner_steps h
  | winnerRequeued eventSeq shareId jobId winner tip => exact requeueWinner_steps h
  | winnerMatured eventSeq shareId jobId winner tip confirmations => exact matureWinner_steps h

end Handlers

/-! ## §3. What no event touches -/

/-- The journal and its cursor, the policies and every payout table stay as they are. -/
structure SameBesidesWinners (db db' : Database) : Prop where
  lastEventSeq : db'.lastEventSeq = db.lastEventSeq
  backendEvents : db'.backendEvents = db.backendEvents
  chainPolicies : db'.chainPolicies = db.chainPolicies
  payoutDestinations : db'.payoutDestinations = db.payoutDestinations
  payoutBatches : db'.payoutBatches = db.payoutBatches
  walletReconciliations : db'.walletReconciliations = db.walletReconciliations
  expiryEvidence : db'.expiryEvidence = db.expiryEvidence
  reorgEvents : db'.reorgEvents = db.reorgEvents

variable {db db' start : Database}

theorem EventStep.frame {s : ℕ} (h : EventStep start s db db') : SameBesidesWinners db db' := by
  cases h <;> exact ⟨rfl, rfl, rfl, rfl, rfl, rfl, rfl, rfl⟩

/-- The tables that no event touches. -/
theorem EventSteps.frame {s : ℕ} (h : EventSteps start s db db') : SameBesidesWinners db db' := by
  induction h with
  | refl => exact ⟨rfl, rfl, rfl, rfl, rfl, rfl, rfl, rfl⟩
  | tail _ hstep ih =>
    have hlast := hstep.frame
    exact
      { lastEventSeq := hlast.lastEventSeq.trans ih.lastEventSeq
        backendEvents := hlast.backendEvents.trans ih.backendEvents
        chainPolicies := hlast.chainPolicies.trans ih.chainPolicies
        payoutDestinations := hlast.payoutDestinations.trans ih.payoutDestinations
        payoutBatches := hlast.payoutBatches.trans ih.payoutBatches
        walletReconciliations := hlast.walletReconciliations.trans ih.walletReconciliations
        expiryEvidence := hlast.expiryEvidence.trans ih.expiryEvidence
        reorgEvents := hlast.reorgEvents.trans ih.reorgEvents }

/-- Events post about winners only. -/
theorem EventStep.posts {s : ℕ} (h : EventStep start s db db') :
    ∃ new, db'.ledger.transactions = db.ledger.transactions ++ new ∧
      ∀ t ∈ new, ∃ key, t.reference = .winner key := by
  have hposted : ∀ {posting : Posting} {ledger : Ledger} (key : Chain × Hex32),
      db.ledger.Extends ledger posting → posting.reference = .winner key →
      ∃ new, ledger.transactions = db.ledger.transactions ++ new ∧
        ∀ t ∈ new, ∃ key, t.reference = .winner key := by
    intro posting ledger key hledger href
    obtain ⟨new, happend, hnew⟩ := hledger.about
    exact ⟨new, happend, fun t ht => ⟨key, (hnew t ht).1.trans href⟩⟩
  cases h with
  | records | claim | select | rest | freeze => exact ⟨[], (List.append_nil _).symm, by simp⟩
  | observe key w share plan version allocations ledger hw hstate hshare horigin hplan hrows
      hledger => exact hposted key hledger rfl
  | mature key w o ledger hw hstate hobs hledger => exact hposted key hledger rfl
  | demature key w o m ledger hw hstate hobs hmat hexposed hledger =>
    exact hposted key hledger rfl
  | reverse key w o kind next ledger hw hstate hobs hnext hexposed hledger =>
    exact hposted key hledger rfl

end WcashPool.Store
