/-
  WcashPool.Store.PayoutLifecycle — what a payout call can do to the money.

  The counterpart of `EventStep` for the calls of operator and payout worker:
  `PayoutStep` lists the few ways in which a call can reserve, move, release or
  settle a batch, fund the opening equity or freeze a chain.  Every call is a
  chain of such steps, so that the laws of the ledger are proved once per kind
  of step.

  Main results: `createPayoutBatch_steps`, `cancelRejectedPayoutSigning_steps`,
  `PayoutSteps.frame` and `PayoutStep.posts`.
-/
import WcashPool.Store.PayoutSettlement
import WcashPool.Store.WinnerLifecycle

namespace WcashPool.Store

open Fallible Protocol DoubleEntry Relation

/-! ## §1. Binding a policy -/

/-- Bind the launch policy of a chain and its safety row, both only if there is none; a policy
    that differs from the stored one is reported, and what was written stays. -/
def bindChainPolicy (db : Database) (chain : Chain) (policy : ChainPolicy) :
    Database × Except StoreError Unit :=
  ({ db with
      chainPolicies := db.chainPolicies.set chain ((db.chainPolicies.get chain).or (some policy))
      chainSafety := db.chainSafety.set chain
        ((db.chainSafety.get chain).or (some ⟨false, none, none⟩)) },
    rejectIf ((db.chainPolicies.get chain).or (some policy) ≠ some policy)
      .chainPolicyMismatch)

/-! ## §2. The steps -/

/-- The states in which a batch holds its reservation. -/
def PayoutBatchState.isLive : PayoutBatchState → Bool
  | .draft | .signing | .signed | .broadcasting | .broadcast | .expiryPending => true
  | .expired | .confirmed | .reorged | .cancelled => false

/-- The states of a batch whose reservation was taken back. -/
def PayoutBatchState.isReleased : PayoutBatchState → Bool
  | .cancelled | .expired => true
  | _ => false

/-- One step of a payout call. -/
inductive PayoutStep : Database → Database → Prop
  /-- Accounts, destinations, checkpoints and evidence: nothing that carries money. -/
  | records (db : Database) (accounts : Table AccountRow.id) (workers : Table WorkerRow.id)
      (payoutDestinations : Table PayoutDestination.id)
      (walletReconciliations : Table WalletReconciliationRow.id)
      (expiryEvidence : Table ExpiryEvidenceRow.key) (reorgEvents : Table ReorgEventRow.id) :
      PayoutStep db { db with
        accounts := accounts, workers := workers, payoutDestinations := payoutDestinations,
        walletReconciliations := walletReconciliations, expiryEvidence := expiryEvidence,
        reorgEvents := reorgEvents }
  /-- Policies and safety rows appear; none changes. -/
  | bind (db : Database) (chainPolicies : PerChain (Option ChainPolicy))
      (chainSafety : PerChain (Option ChainSafety))
      (hpolicies : ∀ c p, db.chainPolicies.get c = some p → chainPolicies.get c = some p)
      (hsafety : ∀ c s, db.chainSafety.get c = some s → chainSafety.get c = some s) :
      PayoutStep db { db with chainPolicies := chainPolicies, chainSafety := chainSafety }
  /-- The payouts of a chain are frozen. -/
  | freeze (db : Database) (chain : Chain) (safety : ChainSafety)
      (hfrozen : safety.payoutsFrozen = true) :
      PayoutStep db { db with chainSafety := db.chainSafety.set chain (some safety) }
  /-- The opening equity of a chain is recognised, for the first time. -/
  | fund (db : Database) (chain : Chain) (surplusZat : ℕ) (ledger : Ledger)
      (hfirst : openingFundings db chain = [])
      (hledger : db.ledger.Extends ledger (funding chain surplusZat)) :
      PayoutStep db { db with ledger := ledger }
  /-- A batch is drafted over balances that the accounts have, on a chain that is not frozen. -/
  | reserve (db : Database) (row : PayoutBatchRow) (batches : Table PayoutBatchRow.id)
      (ledger : Ledger) (hunfrozen : ¬ db.Frozen row.chain) (hdraft : Draft db row)
      (hinsert : db.payoutBatches.insert row = some batches)
      (hledger : db.ledger.Extends ledger (reservation row.chain row.id row.items)) :
      PayoutStep db { db with payoutBatches := batches, ledger := ledger }
  /-- A batch moves on, with its reservation. -/
  | move (db : Database) (batchId : Uuid) (row : PayoutBatchRow) (next : PayoutBatchState)
      (hrow : db.payoutBatches.find batchId = some row) (hlive : row.state.isLive)
      (hnext : next.isLive) (hsigned : next.isSigned → row.state.isSigned) :
      PayoutStep db { db with
        payoutBatches := db.payoutBatches.modify batchId (·.enter next) fun _ => rfl }
  /-- The signer's transaction is recorded, with a fee inside the reserve. -/
  | sign (db : Database) (batchId : Uuid) (row : PayoutBatchRow) (facts : SignedTransitionFacts)
      (hrow : db.payoutBatches.find batchId = some row) (hstate : row.state = .signing)
      (hpos : 0 < facts.networkFeeZat)
      (hle : facts.networkFeeZat ≤ liabilityTotal row.items - payoutTotal row.items) :
      PayoutStep db { db with
        payoutBatches :=
          db.payoutBatches.modify batchId (·.advance .signed (some facts)) fun _ => rfl }
  /-- The reservation is taken back. -/
  | release (db : Database) (batchId : Uuid) (row : PayoutBatchRow) (next : PayoutBatchState)
      (ledger : Ledger) (hrow : db.payoutBatches.find batchId = some row)
      (hlive : row.state.isLive) (hnext : next.isReleased)
      (hsigned : next.isSigned → row.state.isSigned)
      (hledger : db.ledger.Extends ledger (releasing row.loaded)) :
      PayoutStep db { db with
        ledger := ledger
        payoutBatches := db.payoutBatches.modify batchId (·.enter next) fun _ => rfl }
  /-- The batch is settled with the fee of its transaction. -/
  | settle (db : Database) (batchId : Uuid) (row : PayoutBatchRow) (feeZat : ℕ)
      (confirmation : PayoutConfirmation) (ledger : Ledger)
      (hrow : db.payoutBatches.find batchId = some row) (hstate : row.state.isMinable)
      (hfee : row.networkFeeZat = some feeZat) (hpos : 0 < feeZat)
      (hle : feeZat ≤ reserveSum row.outputs)
      (hledger : db.ledger.Extends ledger
        (settling row.loaded (charges row.outputs feeZat) feeZat)) :
      PayoutStep db { db with
        ledger := ledger
        payoutBatches := db.payoutBatches.modify batchId (·.confirm confirmation) fun _ => rfl }
  /-- The transaction of a settled batch left the best chain. -/
  | reorganise (db : Database) (batchId : Uuid) (row : PayoutBatchRow)
      (hrow : db.payoutBatches.find batchId = some row) (hstate : row.state = .confirmed) :
      PayoutStep db { db with
        payoutBatches := db.payoutBatches.modify batchId (·.enter .reorged) fun _ => rfl }

/-- A chain of steps of one call. -/
abbrev PayoutSteps : Database → Database → Prop := ReflTransGen PayoutStep

/-! ## §3. The calls are chains of steps -/

section Calls

variable {cfg : Config} {db db' : Database} {batchId : Uuid} {draw : LedgerDraw}

/-- A call that changed nothing. -/
theorem PayoutSteps.of_eq (h : db' = db) : PayoutSteps db db' := h ▸ .refl

/-- A policy bound. -/
theorem bindChainPolicy_steps (db : Database) (chain : Chain) (policy : ChainPolicy) :
    PayoutSteps db (bindChainPolicy db chain policy).1 := by
  have hkept : ∀ {α : Type} (p : PerChain (Option α)) (a : α) (c : Chain) (b : α),
      p.get c = some b → (p.set chain ((p.get chain).or (some a))).get c = some b := by
    intro α p a c b hget
    rw [PerChain.get_set]
    split
    · next hc =>
      rw [← hc, hget]
      rfl
    · exact hget
  exact .single (.bind db _ _ (fun c p hp => hkept _ policy c p hp) fun c s hs =>
    hkept _ _ c s hs)

theorem activateDuePayoutDestinations_steps (db : Database) (chain : Chain) (now : ℕ) :
    PayoutSteps db { db with
      payoutDestinations := (activateDuePayoutDestinations db.payoutDestinations chain now).1 } :=
  .single (.records db db.accounts db.workers _ db.walletReconciliations db.expiryEvidence
    db.reorgEvents)

/-- The opening equity. -/
theorem recordOpeningPoolEquity_steps {chain : Chain} {observed expected : ℕ}
    (h : recordOpeningPoolEquity db draw chain observed expected = .ok db') : PayoutSteps db db' := by
  obtain hsame | ⟨hfirst, ledger, hledger, rfl⟩ := recordOpeningPoolEquity_spec h
  · exact .of_eq hsame
  · exact .single (.fund db chain expected ledger hfirst hledger)

variable {now : ℕ}

/-- A reconciliation. -/
theorem recordWalletReconciliation_steps {id : Uuid} {observation : WalletObservation}
    {answer : Except StoreError WalletReconciliation}
    (h : recordWalletReconciliation cfg db id now observation = .ok (db', answer)) :
    PayoutSteps db db' := by
  obtain ⟨rows, hdb⟩ := recordWalletReconciliation_spec h
  have hrecords : PayoutSteps db { db with walletReconciliations := rows } :=
    .single (.records db db.accounts db.workers db.payoutDestinations rows db.expiryEvidence
      db.reorgEvents)
  obtain rfl | ⟨safety, hfrozen, rfl⟩ := hdb
  · exact hrecords
  · exact hrecords.tail (.freeze _ observation.chain safety hfrozen)

/-- **A batch created**, as steps of the system. -/
theorem createPayoutBatch_steps {draw : BatchDraw} {chain : Chain}
    {idempotencyKey reconciliationId : Uuid} {answer : Except StoreError PayoutBatch}
    (h : createPayoutBatch cfg db draw chain idempotencyKey reconciliationId = .ok (db', answer)) :
    PayoutSteps db db' := by
  obtain ⟨destinations, hdb⟩ := createPayoutBatch_spec h
  have hrecords : PayoutSteps db { db with payoutDestinations := destinations } :=
    .single (.records db db.accounts db.workers destinations db.walletReconciliations
      db.expiryEvidence db.reorgEvents)
  obtain rfl | ⟨hunfrozen, row, batches, ledger, hdraft, rfl, hinsert, hledger, rfl⟩ := hdb
  · exact hrecords
  · exact hrecords.tail (.reserve _ row batches ledger hunfrozen hdraft hinsert hledger)

/-- Signing authorized. -/
theorem authorizePayoutSigning_steps {request : PayoutBatchRequest}
    (h : authorizePayoutSigning cfg db now batchId = .ok (db', request)) : PayoutSteps db db' := by
  obtain hsame | ⟨row, hrow, hstate, -, rfl⟩ := authorizePayoutSigning_spec h
  · exact .of_eq hsame
  · exact .single (.move db batchId row .signing hrow (by rw [hstate]; rfl) rfl
      fun h => absurd h (by decide))

/-- The signed facts recorded. -/
theorem markPayoutSigned_steps {facts : SignedTransitionFacts}
    (h : markPayoutSigned db batchId facts = .ok db') : PayoutSteps db db' := by
  obtain hsame | ⟨row, hrow, hstate, hpos, hle, rfl⟩ := markPayoutSigned_spec h
  · exact .of_eq hsame
  · exact .single (.sign db batchId row facts hrow hstate hpos hle)

/-- A broadcast authorized. -/
theorem authorizePayoutBroadcast_steps {artifact : SignedPayoutArtifact}
    (h : authorizePayoutBroadcast db batchId = .ok (db', artifact)) : PayoutSteps db db' := by
  obtain hsame | ⟨row, hrow, hstate, -, rfl⟩ := authorizePayoutBroadcast_spec h
  · exact .of_eq hsame
  · exact .single (.move db batchId row .broadcasting hrow (by rw [hstate]; rfl) rfl
      fun _ => by rw [hstate]; rfl)

theorem markPayoutBroadcast_steps (h : markPayoutBroadcast db batchId = .ok db') :
    PayoutSteps db db' := by
  obtain hsame | ⟨row, hrow, hstate, -, rfl⟩ := transitionPayout_spec h
  · exact .of_eq hsame
  · -- without the signer's facts only the state changes
    exact .single (.move db batchId row .broadcast hrow (by rw [hstate]; rfl) rfl
      fun _ => by rw [hstate]; rfl)

theorem PayoutBatchState.isSubmitted_live {state : PayoutBatchState} (h : state.isSubmitted) :
    state.isLive ∧ state.isSigned := by
  cases state <;> simp_all [isSubmitted, isLive, isSigned]

/-- An expired payout held. -/
theorem holdExpiredPayout_steps {evidence : PayoutExpiryEvidence}
    (h : holdExpiredPayout cfg db now batchId evidence = .ok db') : PayoutSteps db db' := by
  obtain hsame | ⟨row, expiryEvidence, hrow, hstate, rfl⟩ := holdExpiredPayout_spec h
  · exact .of_eq hsame
  · obtain ⟨hlive, hsigned⟩ := PayoutBatchState.isSubmitted_live hstate
    have hrecords : PayoutSteps db { db with expiryEvidence := expiryEvidence } :=
      .single (.records db db.accounts db.workers db.payoutDestinations db.walletReconciliations
        expiryEvidence db.reorgEvents)
    exact hrecords.tail (.move _ batchId row .expiryPending hrow hlive rfl fun _ => hsigned)

/-- A release of a live batch is a step. -/
theorem Released.steps {expected next : PayoutBatchState} (h : Released db db' batchId expected next)
    (hlive : expected.isLive) (hnext : next.isReleased) (hsigned : next.isSigned → expected.isSigned) :
    PayoutSteps db db' := by
  obtain ⟨row, ledger, hrow, rfl, hledger, rfl⟩ := h
  exact .single (.release db batchId row next ledger hrow hlive hnext hsigned hledger)

/-- A held payout expired. -/
theorem expireHeldPayout_steps {evidence : PayoutExpiryEvidence}
    (h : expireHeldPayout cfg db now draw batchId evidence = .ok db') : PayoutSteps db db' := by
  obtain hsame | ⟨expiryEvidence, hreleased⟩ := expireHeldPayout_spec h
  · exact .of_eq hsame
  · have hrecords : PayoutSteps db { db with expiryEvidence := expiryEvidence } :=
      .single (.records db db.accounts db.workers db.payoutDestinations db.walletReconciliations
        expiryEvidence db.reorgEvents)
    exact hrecords.trans (hreleased.steps rfl rfl fun _ => rfl)

/-- A draft cancelled. -/
theorem cancelPayoutDraft_steps (h : cancelPayoutDraft db draw batchId = .ok db') :
    PayoutSteps db db' := by
  obtain hsame | hreleased := cancelPayoutDraft_spec h
  · exact .of_eq hsame
  · exact hreleased.steps rfl rfl fun h => absurd h (by decide)

/-- A rejected signing cancelled. -/
theorem cancelRejectedPayoutSigning_steps
    (h : cancelRejectedPayoutSigning db draw batchId = .ok db') : PayoutSteps db db' := by
  obtain hsame | hreleased := cancelRejectedPayoutSigning_spec h
  · exact .of_eq hsame
  · exact hreleased.steps rfl rfl fun h => absurd h (by decide)

/-- **A payout confirmed**, as steps of the system. -/
theorem confirmPayout_steps {confirmation : PayoutConfirmation}
    (h : confirmPayout db draw batchId confirmation = .ok db') : PayoutSteps db db' := by
  obtain hsame | ⟨row, fee, ledger, hrow, hstate, hfee, hpos, hle, hledger, rfl⟩ :=
    confirmPayout_spec h
  · exact .of_eq hsame
  · exact .single (.settle db batchId row fee confirmation ledger hrow hstate hfee hpos hle hledger)

/-- A confirmation reorganised away. -/
theorem markConfirmedPayoutReorged_steps {eventId : Uuid} {evidence : PayoutReorg}
    (h : markConfirmedPayoutReorged db eventId batchId evidence = .ok db') : PayoutSteps db db' := by
  obtain hsame | ⟨row, reorgEvents, safety, hrow, hstate, hfrozen, rfl⟩ :=
    markConfirmedPayoutReorged_spec h
  · exact .of_eq hsame
  · have hrecords : PayoutSteps db { db with reorgEvents := reorgEvents } :=
      .single (.records db db.accounts db.workers db.payoutDestinations db.walletReconciliations
        db.expiryEvidence reorgEvents)
    exact (hrecords.tail (.reorganise _ batchId row hrow hstate)).tail
      (.freeze _ row.chain safety hfrozen)

end Calls

/-! ## §4. What no payout call touches -/

/-- The journal, its cursor, jobs, shares and everything about winners stay as they are. -/
structure SameBesidesPayouts (db db' : Database) : Prop where
  lastEventSeq : db'.lastEventSeq = db.lastEventSeq
  backendEvents : db'.backendEvents = db.backendEvents
  jobs : db'.jobs = db.jobs
  shares : db'.shares = db.shares
  winners : db'.winners = db.winners
  winnerProofs : db'.winnerProofs = db.winnerProofs
  winnerAllocations : db'.winnerAllocations = db.winnerAllocations

variable {db db' : Database}

theorem PayoutStep.frame (h : PayoutStep db db') : SameBesidesPayouts db db' := by
  cases h <;> exact ⟨rfl, rfl, rfl, rfl, rfl, rfl, rfl⟩

/-- The tables that no payout call touches. -/
theorem PayoutSteps.frame (h : PayoutSteps db db') : SameBesidesPayouts db db' := by
  induction h with
  | refl => exact ⟨rfl, rfl, rfl, rfl, rfl, rfl, rfl⟩
  | tail _ hstep ih =>
    have hlast := hstep.frame
    exact
      { lastEventSeq := hlast.lastEventSeq.trans ih.lastEventSeq
        backendEvents := hlast.backendEvents.trans ih.backendEvents
        jobs := hlast.jobs.trans ih.jobs
        shares := hlast.shares.trans ih.shares
        winners := hlast.winners.trans ih.winners
        winnerProofs := hlast.winnerProofs.trans ih.winnerProofs
        winnerAllocations := hlast.winnerAllocations.trans ih.winnerAllocations }

/-- A payout step posts the first funding of a chain, or about batches only. -/
theorem PayoutStep.posts (h : PayoutStep db db') :
    (∃ chain, ∃ surplusZat : ℕ, openingFundings db chain = [] ∧
      db.ledger.Extends db'.ledger (funding chain surplusZat)) ∨
    ∃ new, db'.ledger.transactions = db.ledger.transactions ++ new ∧
      ∀ t ∈ new, ∃ batchId, t.reference = .payout batchId := by
  have hposted : ∀ {posting : Posting} {ledger : Ledger} (batchId : Uuid),
      db.ledger.Extends ledger posting → posting.reference = .payout batchId →
      ∃ new, ledger.transactions = db.ledger.transactions ++ new ∧
        ∀ t ∈ new, ∃ batchId, t.reference = .payout batchId := by
    intro posting ledger batchId hledger href
    obtain ⟨new, happend, hnew⟩ := hledger.about
    exact ⟨new, happend, fun t ht => ⟨batchId, (hnew t ht).1.trans href⟩⟩
  cases h with
  | records | bind | freeze | move | sign | reorganise =>
    exact Or.inr ⟨[], (List.append_nil _).symm, by simp⟩
  | fund chain surplusZat ledger hfirst hledger =>
    exact Or.inl ⟨chain, surplusZat, hfirst, hledger⟩
  | reserve row batches ledger hunfrozen hdraft hinsert hledger =>
    exact Or.inr (hposted row.id hledger rfl)
  | release batchId row next ledger hrow hlive hnext hsigned hledger =>
    exact Or.inr (hposted row.id hledger rfl)
  | settle batchId row fee confirmation ledger hrow hstate hfee hpos hle hledger =>
    exact Or.inr (hposted row.id hledger rfl)

end WcashPool.Store
