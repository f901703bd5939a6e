/-
  WcashPool.Store.PayoutTransitions — a reserved batch on its way to the chain
  (`authorize_payout_signing` … `cancel_rejected_payout_signing`).

  Signing and broadcasting each need an authorisation that a freeze withholds;
  what was authorised may always be completed.  A batch ends in one of four
  ways: its transaction confirms, and may be reorganised away later; it is
  cancelled before anything was signed; or it expires unmined.  Every call
  answers a repetition from what is stored.

  Every function is followed by the lemma that says what a success of it did.
-/
import WcashPool.Store.PayoutBatches

namespace WcashPool.Store

open Fallible Protocol DoubleEntry

/-! ## §1. The request to the signer -/

inductive Asset
  | wec
  | zec
deriving DecidableEq, Repr

def assetForChain : Chain → Asset
  | .wcash => .wec
  | .zcash => .zec

/-- One exact payout output authorised by the accounting projector. -/
structure PayoutOutput where
  allocationId : Uuid
  canonicalAddress : Text
  receiverKind : ReceiverKind
  amountZat : ℕ
deriving DecidableEq, Repr

/-- Complete idempotent request to the isolated signer. -/
structure PayoutBatchRequest where
  batchId : Uuid
  asset : Asset
  network : DeploymentNetwork
  ledgerRoot : Hex32
  reconciliationId : Uuid
  maximumNetworkFeeZat : ℕ
  outputs : List PayoutOutput
deriving DecidableEq, Repr

/-- The UTF-8 sequences of the whitespace characters. -/
def whitespaceSequences : List Text :=
  [[9], [10], [11], [12], [13], [32], [0xC2, 0x85], [0xC2, 0xA0], [0xE1, 0x9A, 0x80],
    [0xE2, 0x80, 0x80], [0xE2, 0x80, 0x81], [0xE2, 0x80, 0x82], [0xE2, 0x80, 0x83],
    [0xE2, 0x80, 0x84], [0xE2, 0x80, 0x85], [0xE2, 0x80, 0x86], [0xE2, 0x80, 0x87],
    [0xE2, 0x80, 0x88], [0xE2, 0x80, 0x89], [0xE2, 0x80, 0x8A], [0xE2, 0x80, 0xA8],
    [0xE2, 0x80, 0xA9], [0xE2, 0x80, 0xAF], [0xE2, 0x81, 0x9F], [0xE3, 0x80, 0x80]]

/-- Does a whitespace character occur?  No sequence starts inside another character. -/
def hasWhitespace : Text → Bool
  | [] => false
  | byte :: rest =>
    whitespaceSequences.any (·.isPrefixOf (byte :: rest)) || hasWhitespace rest

def maxPayoutOutputs : ℕ := 200

/-- Enforce bounded, nonzero signer input. -/
def PayoutBatchRequest.validate (request : PayoutBatchRequest) : Except StoreError Unit :=
  rejectIf (request.batchId.isNil ∨ request.reconciliationId.isNil ∨ request.ledgerRoot.isZero ∨
      request.maximumNetworkFeeZat = 0 ∨ request.outputs = [] ∨
      request.outputs.length > maxPayoutOutputs ∨
      ¬ (request.outputs.map (·.allocationId)).Nodup ∨
      (∃ o ∈ request.outputs, o.allocationId.isNil ∨ o.amountZat = 0 ∨
        o.canonicalAddress.length < 8 ∨ o.canonicalAddress.length > 512 ∨
        hasWhitespace o.canonicalAddress) ∨
      (request.outputs.map (·.amountZat)).sum ≥ 2 ^ 64)
    (.corruptDatabaseState "payout signer request")

/-- The policy that a batch was created under. -/
def batchPolicy (db : Database) (chain : Chain) (policyVersion : ℕ) :
    Except StoreError ChainPolicy :=
  orReject (.corruptDatabaseState "payout policy")
    ((db.chainPolicies.get chain).filter (·.policyVersion = policyVersion))

/-- The request of a batch, once its ledger commitment is taken as it stands. -/
def frozenPayoutSignerRequest (cfg : Config) (db : Database) (batch : PayoutBatch) :
    Except StoreError PayoutBatchRequest := do
  rejectIf (batch.ledgerSequenceCutoff ≥ i64Limit) .moneyOverflow
  rejectIf (¬ ∃ t ∈ db.ledger.transactions, t.ledgerSequence = batch.ledgerSequenceCutoff ∧
      t.chain = batch.chain ∧ t.kind = .payoutReserved ∧ t.reference = .payout batch.id)
    (.corruptDatabaseState "payout ledger sequence fence")
  let policy ← batchPolicy db batch.chain batch.policyVersion
  let smallest ← orReject .invalidPayoutBatch
    (batch.outputs.map (·.liabilityAmountZat)).min?
  let policyReserve ← policyFeeReserve policy batch.minerTotalZat smallest
  rejectIf (policyReserve = 0 ∨ batch.maximumNetworkFeeZat ≠ policyReserve ∨
      batch.payoutTotalZat + batch.maximumNetworkFeeZat ≥ 2 ^ 64 ∨
      batch.payoutTotalZat + batch.maximumNetworkFeeZat ≠ batch.minerTotalZat)
    (.corruptDatabaseState "payout fee reserve")
  let request : PayoutBatchRequest :=
    { batchId := batch.id
      asset := assetForChain batch.chain
      network := cfg.network
      ledgerRoot := batch.ledgerRoot
      reconciliationId := batch.reconciliationId
      maximumNetworkFeeZat := batch.maximumNetworkFeeZat
      outputs := batch.outputs.map fun o => ⟨o.allocationId, o.address, o.receiverKind, o.amountZat⟩ }
  request.validate
  pure request

/-- The request, with the ledger commitment derived again. -/
def payoutSignerRequest (cfg : Config) (db : Database) (batch : PayoutBatch) :
    Except StoreError PayoutBatchRequest := do
  let snapshot ← ledgerSnapshot cfg db batch.chain (some batch.ledgerSequenceCutoff)
  rejectIf (snapshot.root ≠ batch.ledgerRoot) .walletReconciliationStale
  frozenPayoutSignerRequest cfg db batch

/-! ## §2. Signing and broadcasting -/

/-- The row moved to another state. -/
def PayoutBatchRow.enter (row : PayoutBatchRow) (state : PayoutBatchState) : PayoutBatchRow :=
  { row with state := state }

/-- `UPDATE payout_batches SET state=… WHERE id=… AND state=…`, exactly one row. -/
def updatePayoutState (db : Database) (batchId : Uuid) (expected next : PayoutBatchState) :
    Except StoreError Database := do
  rejectIf ((db.payoutBatches.find batchId).map (·.state) ≠ some expected) .invalidPayoutTransition
  pure { db with payoutBatches := db.payoutBatches.modify batchId (·.enter next) fun _ => rfl }

variable {db db' : Database} {batchId : Uuid}

/-- One batch enters its next state. -/
theorem updatePayoutState_spec {expected next : PayoutBatchState}
    (h : updatePayoutState db batchId expected next = .ok db') :
    db' = { db with
      payoutBatches := db.payoutBatches.modify batchId (·.enter next) fun _ => rfl } := by
  replace h := passed h
  injection h with h
  exact h.symm

/-- Authorise the exact immutable signer request while payouts are unfrozen; a batch that is
    authorised already gets the identical request whatever happened since. -/
def authorizePayoutSigning (cfg : Config) (db : Database) (now : ℕ) (batchId : Uuid) :
    Except StoreError (Database × PayoutBatchRequest) := do
  rejectIf batchId.isNil .invalidPayoutBatch
  let batch ← loadPayoutBatch db batchId
  if batch.state = .draft then do
    lockUnfrozenChain db batch.chain
    let _ ← loadUsableWalletReconciliation db batch.chain batch.reconciliationId now
    let request ← payoutSignerRequest cfg db batch
    let db ← updatePayoutState db batchId .draft .signing
    pure (db, request)
  else if batch.state = .signing then do
    let request ← payoutSignerRequest cfg db batch
    pure (db, request)
  else .error .invalidPayoutTransition

/-- A draft is signing, or was already. -/
theorem authorizePayoutSigning_spec {cfg : Config} {now : ℕ} {request : PayoutBatchRequest}
    (h : authorizePayoutSigning cfg db now batchId = .ok (db', request)) :
    db' = db ∨ ∃ row, db.payoutBatches.find batchId = some row ∧ row.state = .draft ∧
      ¬ db.Frozen row.chain ∧ db' = { db with
        payoutBatches := db.payoutBatches.modify batchId (·.enter .signing) fun _ => rfl } := by
  obtain ⟨row, hrow, h⟩ := loadPayoutBatch_bind (passed h)
  split at h
  · next hdraft =>
    obtain ⟨_, hunfrozen, h⟩ := bind_eq_ok.mp h
    obtain ⟨request', -, h⟩ := bind_eq_ok.mp (passed h)
    obtain ⟨mid, hupdate, h⟩ := bind_eq_ok.mp h
    obtain ⟨rfl, -⟩ := ok_pair_inj h
    exact Or.inr ⟨row, hrow, hdraft, (lockUnfrozenChain_spec hunfrozen).2,
      updatePayoutState_spec hupdate⟩
  · split at h
    · obtain ⟨request', -, h⟩ := bind_eq_ok.mp h
      injection h with h
      exact Or.inl (Prod.mk.inj h).1.symm
    · cases h

def maxSignedTransactionBytes : ℕ := 4 * 1_024 * 1_024

/-- What the signer returns for a batch. -/
structure SignedTransitionFacts where
  unsignedDigest : Hex32
  transactionId : Hex32
  signedTransaction : List UInt8
  networkFeeZat : ℕ
deriving DecidableEq, Repr

/-- The row with the signer's facts, `COALESCE`d over what it had. -/
def PayoutBatchRow.advance (row : PayoutBatchRow) (next : PayoutBatchState)
    (signed : Option SignedTransitionFacts) : PayoutBatchRow :=
  { row with
    state := next
    unsignedDigest := (signed.map (·.unsignedDigest)).or row.unsignedDigest
    transactionId := (signed.map (·.transactionId)).or row.transactionId
    signedTransaction := (signed.map (·.signedTransaction)).or row.signedTransaction
    networkFeeZat := (signed.map (·.networkFeeZat)).or row.networkFeeZat }

/-- A repeated transition must carry the stored facts. -/
def replayMatches (row : PayoutBatchRow) (facts : SignedTransitionFacts) : Prop :=
  row.unsignedDigest = some facts.unsignedDigest ∧ row.transactionId = some facts.transactionId ∧
    row.signedTransaction = some facts.signedTransaction ∧
    row.networkFeeZat = some facts.networkFeeZat

instance (row : PayoutBatchRow) (facts : SignedTransitionFacts) :
    Decidable (replayMatches row facts) :=
  inferInstanceAs (Decidable (_ ∧ _ ∧ _ ∧ _))

/-- The transaction is nobody else's, and its fee is positive and within policy and reserve. -/
def checkSignedFacts (db : Database) (row : PayoutBatchRow) (facts : SignedTransitionFacts) :
    Except StoreError Unit := do
  rejectIf (∃ b ∈ db.payoutBatches.rows, b.chain = row.chain ∧ b.id ≠ row.id ∧
    b.transactionId = some facts.transactionId) .payoutTransactionConflict
  let policy ← batchPolicy db row.chain row.policyVersion
  let _ ← castBigint (payoutTotal row.items)
  let _ ← castBigint (liabilityTotal row.items)
  let feeReserve ← checkedSub (.corruptDatabaseState "payout fee reserve")
    (liabilityTotal row.items) (payoutTotal row.items)
  rejectIf (facts.networkFeeZat = 0 ∨ facts.networkFeeZat > policy.maximumNetworkFeeZat ∨
      facts.networkFeeZat * 10_000 > liabilityTotal row.items * policy.maximumNetworkFeeBps ∨
      facts.networkFeeZat > feeReserve)
    .excessivePayoutFee
  rejectIf (facts.networkFeeZat ≥ i64Limit) .moneyOverflow

/-- The checks on the signer's facts, where there are any. -/
def checkSigned (db : Database) (row : PayoutBatchRow) :
    Option SignedTransitionFacts → Except StoreError Unit
  | none => .ok ()
  | some facts => checkSignedFacts db row facts

/-- The lock that a transition takes on the safety row. -/
def lockForTransition (db : Database) (chain : Chain) (requiresUnfrozen : Bool) :
    Except StoreError Unit := do
  let frozen ← lockChainSafetyRow db chain
  rejectIf (requiresUnfrozen ∧ frozen) (.payoutsFrozen chain)

/-- One edge of the batch's life, or its replay. -/
def transitionPayout (db : Database) (batchId : Uuid) (expected next : PayoutBatchState)
    (signed : Option SignedTransitionFacts) (requiresUnfrozen : Bool) :
    Except StoreError Database := do
  let row ← orReject .unknownPayoutBatch (db.payoutBatches.find batchId)
  if row.state = next then
    if ∀ facts ∈ signed, replayMatches row facts then pure db else .error .payoutReplayConflict
  else do
    rejectIf (row.state ≠ expected) .invalidPayoutTransition
    lockForTransition db row.chain requiresUnfrozen
    checkSigned db row signed
    pure { db with
      payoutBatches := db.payoutBatches.modify batchId (·.advance next signed) fun _ => rfl }

/-- One batch moves along, with its facts. -/
theorem transitionPayout_spec {expected next : PayoutBatchState}
    {signed : Option SignedTransitionFacts} {requiresUnfrozen : Bool}
    (h : transitionPayout db batchId expected next signed requiresUnfrozen = .ok db') :
    db' = db ∨ ∃ row, db.payoutBatches.find batchId = some row ∧ row.state = expected ∧
      checkSigned db row signed = .ok () ∧ db' = { db with
        payoutBatches := db.payoutBatches.modify batchId (·.advance next signed) fun _ => rfl } := by
  obtain ⟨row, hrow, h⟩ := bind_eq_ok.mp h
  rw [orReject_eq_ok] at hrow
  split at h
  · split at h
    · injection h with h
      exact Or.inl h.symm
    · cases h
  · obtain ⟨hexpected, h⟩ := require_bind_ok h
    obtain ⟨_, hsigned, h⟩ := bind_eq_ok.mp (passed h)
    injection h with h
    exact Or.inr ⟨row, hrow, hexpected, hsigned, h.symm⟩

variable {facts : SignedTransitionFacts}

/-- The fee that passes the checks is positive and reserved. -/
theorem checkSignedFacts_spec {row : PayoutBatchRow} {u : Unit}
    (h : checkSignedFacts db row facts = .ok u) :
    0 < facts.networkFeeZat ∧
      facts.networkFeeZat ≤ liabilityTotal row.items - payoutTotal row.items := by
  obtain ⟨policy, -, h⟩ := bind_eq_ok.mp (passed h)
  obtain ⟨feeReserve, hreserve, h⟩ := bind_eq_ok.mp (passed (passed h))
  obtain ⟨_, hfee, -⟩ := bind_eq_ok.mp h
  obtain ⟨-, rfl⟩ := checkedSub_eq_ok.mp hreserve
  rw [rejectIf_eq_ok] at hfee
  omega

/-- Record the isolated signer's exact transaction. -/
def markPayoutSigned (db : Database) (batchId : Uuid) (facts : SignedTransitionFacts) :
    Except StoreError Database := do
  rejectIf (facts.unsignedDigest.isZero ∨ facts.transactionId.isZero ∨
    facts.signedTransaction = [] ∨ facts.signedTransaction.length > maxSignedTransactionBytes)
    .invalidPayoutBatch
  transitionPayout db batchId .signing .signed (some facts) false

/-- Facts that a signer may return at all. -/
structure SignedTransitionFacts.WellFormed (facts : SignedTransitionFacts) : Prop where
  digest : ¬ facts.unsignedDigest.isZero
  transaction : ¬ facts.transactionId.isZero
  nonempty : facts.signedTransaction ≠ []
  bounded : facts.signedTransaction.length ≤ maxSignedTransactionBytes

theorem markPayoutSigned_cases (h : markPayoutSigned db batchId facts = .ok db') :
    facts.WellFormed ∧ (db' = db ∨ ∃ row, db.payoutBatches.find batchId = some row ∧
      row.state = .signing ∧ checkSignedFacts db row facts = .ok () ∧ db' = { db with
        payoutBatches :=
          db.payoutBatches.modify batchId (·.advance .signed (some facts)) fun _ => rfl }) := by
  obtain ⟨hfacts, h⟩ := rejectIf_bind_ok h
  rw [not_or, not_or, not_or] at hfacts
  obtain ⟨hdigest, htransaction, hne, hbound⟩ := hfacts
  exact ⟨⟨hdigest, htransaction, hne, not_lt.mp hbound⟩, transitionPayout_spec h⟩

/-- The facts are recorded, or were already. -/
theorem markPayoutSigned_spec (h : markPayoutSigned db batchId facts = .ok db') :
    db' = db ∨ ∃ row, db.payoutBatches.find batchId = some row ∧ row.state = .signing ∧
      0 < facts.networkFeeZat ∧
      facts.networkFeeZat ≤ liabilityTotal row.items - payoutTotal row.items ∧ db' = { db with
        payoutBatches :=
          db.payoutBatches.modify batchId (·.advance .signed (some facts)) fun _ => rfl } := by
  obtain ⟨-, hsame | ⟨row, hrow, hstate, hsigned, hdb⟩⟩ := markPayoutSigned_cases h
  · exact Or.inl hsame
  · obtain ⟨hpos, hle⟩ := checkSignedFacts_spec hsigned
    exact Or.inr ⟨row, hrow, hstate, hpos, hle, hdb⟩

/-- The exact signed artifact of a batch. -/
structure SignedPayoutArtifact where
  batchId : Uuid
  chain : Chain
  state : PayoutBatchState
  unsignedDigest : Hex32
  transactionId : Hex32
  signedTransaction : List UInt8
  networkFeeZat : ℕ
deriving DecidableEq, Repr

def signedArtifactFromRow (state : PayoutBatchState) (row : PayoutBatchRow) :
    Except StoreError SignedPayoutArtifact := do
  let unsignedDigest ← orReject (.corruptDatabaseState "unsigned payout digest")
    row.unsignedDigest
  let transactionId ← orReject (.corruptDatabaseState "payout transaction ID")
    row.transactionId
  let signedTransaction ← orReject (.corruptDatabaseState "signed payout transaction")
    (row.signedTransaction.filter fun bytes =>
      bytes ≠ [] ∧ bytes.length ≤ maxSignedTransactionBytes)
  let networkFeeZat ← orReject (.corruptDatabaseState "payout network fee")
    row.networkFeeZat
  pure ⟨row.id, row.chain, state, unsignedDigest, transactionId, signedTransaction, networkFeeZat⟩

/-- Authorise the exact stored transaction for submission while payouts are unfrozen. -/
def authorizePayoutBroadcast (db : Database) (batchId : Uuid) :
    Except StoreError (Database × SignedPayoutArtifact) := do
  rejectIf batchId.isNil .invalidPayoutBatch
  let row ← orReject .unknownPayoutBatch (db.payoutBatches.find batchId)
  if row.state = .signed then do
    lockUnfrozenChain db row.chain
    let db ← updatePayoutState db batchId .signed .broadcasting
    let artifact ← signedArtifactFromRow .broadcasting row
    pure (db, artifact)
  else if row.state = .broadcasting ∨ row.state = .broadcast then do
    let artifact ← signedArtifactFromRow row.state row
    pure (db, artifact)
  else .error .invalidPayoutTransition

/-- A signed batch is broadcasting, or was already. -/
theorem authorizePayoutBroadcast_spec {artifact : SignedPayoutArtifact}
    (h : authorizePayoutBroadcast db batchId = .ok (db', artifact)) :
    db' = db ∨ ∃ row, db.payoutBatches.find batchId = some row ∧ row.state = .signed ∧
      ¬ db.Frozen row.chain ∧ db' = { db with
        payoutBatches := db.payoutBatches.modify batchId (·.enter .broadcasting) fun _ => rfl } := by
  obtain ⟨row, hrow, h⟩ := bind_eq_ok.mp (passed h)
  rw [orReject_eq_ok] at hrow
  split at h
  · next hsigned =>
    obtain ⟨_, hunfrozen, h⟩ := bind_eq_ok.mp h
    obtain ⟨mid, hupdate, h⟩ := bind_eq_ok.mp h
    obtain ⟨artifact', -, h⟩ := bind_eq_ok.mp h
    obtain ⟨rfl, -⟩ := ok_pair_inj h
    exact Or.inr ⟨row, hrow, hsigned, (lockUnfrozenChain_spec hunfrozen).2,
      updatePayoutState_spec hupdate⟩
  · split at h
    · obtain ⟨artifact', -, h⟩ := bind_eq_ok.mp h
      injection h with h
      exact Or.inl (Prod.mk.inj h).1.symm
    · cases h

/-- Record that a previously authorised exact submission resolved. -/
def markPayoutBroadcast (db : Database) (batchId : Uuid) : Except StoreError Database :=
  transitionPayout db batchId .broadcasting .broadcast none false

/-! ## §3. Releasing a reservation -/

/-- The liabilities move back from pending to payable. -/
def releasedEntries (outputs : List PayoutInstruction) : List LedgerEntry :=
  outputs.flatMap fun o =>
    [⟨.payoutPending o.accountId, o.liabilityAmountZat⟩,
      ⟨.minerPayable o.accountId, -o.liabilityAmountZat⟩]

def releasing (batch : PayoutBatch) : Posting :=
  { chain := batch.chain
    kind := .payoutReleased
    backendEventSeq := none
    reference := .payout batch.id
    entries := releasedEntries batch.outputs }

def releaseLiabilities (db : Database) (draw : LedgerDraw) (batch : PayoutBatch) :
    Except StoreError Database := do
  requireI64 (batch.outputs.map (·.liabilityAmountZat))
  insertLedgerTransaction db draw (releasing batch)

variable {draw : LedgerDraw}

/-- A release is one posting. -/
theorem releaseLiabilities_spec {batch : PayoutBatch}
    (h : releaseLiabilities db draw batch = .ok db') :
    ∃ ledger, db.ledger.Extends ledger (releasing batch) ∧ db' = { db with ledger := ledger } := by
  replace h := passed h
  exact insertLedgerTransaction_spec h

/-- Cancel only an unsigned draft and release every pending liability. -/
def cancelPayoutDraft (db : Database) (draw : LedgerDraw) (batchId : Uuid) :
    Except StoreError Database := do
  let batch ← loadPayoutBatch db batchId
  if batch.state = .cancelled then pure db
  else do
    rejectIf (batch.state ≠ .draft) .invalidPayoutTransition
    let db ← releaseLiabilities db draw batch
    updatePayoutState db batchId .draft .cancelled

/-- Does the row carry anything that the signer produced? -/
def PayoutBatchRow.hasExternalFacts (row : PayoutBatchRow) : Bool :=
  row.unsignedDigest.isSome || row.transactionId.isSome || row.signedTransaction.isSome ||
    row.networkFeeZat.isSome

/-- Cancel an authorised batch that the signer rejected before it created a transaction. -/
def cancelRejectedPayoutSigning (db : Database) (draw : LedgerDraw) (batchId : Uuid) :
    Except StoreError Database := do
  let batch ← loadPayoutBatch db batchId
  if batch.state = .cancelled then pure db
  else do
    rejectIf (batch.state ≠ .signing) .invalidPayoutTransition
    rejectIf (((db.payoutBatches.find batchId).map (·.hasExternalFacts)).getD false)
      .invalidPayoutTransition
    let db ← releaseLiabilities db draw batch
    updatePayoutState db batchId .signing .cancelled

/-- The row was released and moved from `expected` to `next`; nothing else changed. -/
def Released (db db' : Database) (batchId : Uuid) (expected next : PayoutBatchState) : Prop :=
  ∃ row ledger, db.payoutBatches.find batchId = some row ∧ row.state = expected ∧
    db.ledger.Extends ledger (releasing row.loaded) ∧ db' = { db with
      ledger := ledger
      payoutBatches := db.payoutBatches.modify batchId (·.enter next) fun _ => rfl }

/-- A draft is released, or was already. -/
theorem cancelPayoutDraft_spec (h : cancelPayoutDraft db draw batchId = .ok db') :
    db' = db ∨ Released db db' batchId .draft .cancelled := by
  obtain ⟨row, hrow, h⟩ := loadPayoutBatch_bind h
  split at h
  · injection h with h
    exact Or.inl h.symm
  · obtain ⟨hstate, h⟩ := require_bind_ok h
    obtain ⟨mid, hrelease, h⟩ := bind_eq_ok.mp h
    obtain ⟨ledger, hledger, rfl⟩ := releaseLiabilities_spec hrelease
    exact Or.inr ⟨row, ledger, hrow, hstate, hledger, updatePayoutState_spec h⟩

/-- A signing batch is released, or was already. -/
theorem cancelRejectedPayoutSigning_spec (h : cancelRejectedPayoutSigning db draw batchId = .ok db') :
    db' = db ∨ Released db db' batchId .signing .cancelled := by
  obtain ⟨row, hrow, h⟩ := loadPayoutBatch_bind h
  split at h
  · injection h with h
    exact Or.inl h.symm
  · obtain ⟨hstate, h⟩ := require_bind_ok h
    obtain ⟨mid, hrelease, h⟩ := bind_eq_ok.mp (passed h)
    obtain ⟨ledger, hledger, rfl⟩ := releaseLiabilities_spec hrelease
    exact Or.inr ⟨row, ledger, hrow, hstate, hledger, updatePayoutState_spec h⟩

/-! ## §4. Expiry -/

def payoutExpiryFinalityDepth : ℕ := 1_001

def loadExpiryEvidence (db : Database) (batchId : Uuid) (phase : ExpiryPhase) :
    Except StoreError PayoutExpiryEvidence := do
  let row ← orReject (.corruptDatabaseState "payout expiry evidence")
    (db.expiryEvidence.find (batchId, phase))
  pure row.evidence

/-- The evidence names this very transaction, at a tip past its expiry, observed just now. -/
def validatePayoutExpiryEvidence (cfg : Config) (now : ℕ) (row : PayoutBatchRow)
    (evidence : PayoutExpiryEvidence) : Except StoreError Unit := do
  rejectIf (evidence.transactionId.isZero ∨ evidence.signedTransactionSha256.isZero ∨
      evidence.expiryHeight = 0 ∨ evidence.tipHash.isZero ∨
      evidence.tipHeight ≤ evidence.expiryHeight ∨ evidence.observedAt = 0)
    .invalidPayoutExpiryEvidence
  let raw ← orReject (.database "signed_transaction") row.signedTransaction
  rejectIf (row.transactionId ≠ some evidence.transactionId ∨
      cfg.ext.sha256 raw ≠ evidence.signedTransactionSha256 ∨ evidence.observedAt > now ∨
      now - evidence.observedAt > maxWalletReconciliationAgeSecs)
    .invalidPayoutExpiryEvidence

def insertExpiryEvidence (db : Database) (row : ExpiryEvidenceRow) :
    Except StoreError Database := do
  rejectIf (row.evidence.observedAt ≥ i64Limit) .invalidTimestamp
  let expiryEvidence ← orReject (.database "payout_expiry_evidence_pkey")
    (db.expiryEvidence.insert row)
  pure { db with expiryEvidence := expiryEvidence }

theorem insertExpiryEvidence_spec {row : ExpiryEvidenceRow}
    (h : insertExpiryEvidence db row = .ok db') :
    ∃ expiryEvidence, db' = { db with expiryEvidence := expiryEvidence } := by
  obtain ⟨expiryEvidence, -, h⟩ := bind_eq_ok.mp (passed h)
  injection h with h
  exact ⟨expiryEvidence, h.symm⟩

/-- The answer to evidence that is stored already. -/
def replayExpiryEvidence (db : Database) (batchId : Uuid) (phase : ExpiryPhase)
    (evidence : PayoutExpiryEvidence) : Except StoreError Database := do
  let prior ← loadExpiryEvidence db batchId phase
  rejectIf (prior ≠ evidence) .payoutReplayConflict
  pure db

variable {evidence : PayoutExpiryEvidence}

/-- A replay changes nothing. -/
theorem replayExpiryEvidence_spec {phase : ExpiryPhase}
    (h : replayExpiryEvidence db batchId phase evidence = .ok db') : db' = db := by
  obtain ⟨prior, -, h⟩ := bind_eq_ok.mp h
  replace h := passed h
  injection h with h
  exact h.symm

/-- The states from which an artifact may be held. -/
def PayoutBatchState.isSubmitted : PayoutBatchState → Bool
  | .signed | .broadcasting | .broadcast => true
  | _ => false

/-- Stop expiry rebroadcast loops without releasing a single reserved zatoshi. -/
def holdExpiredPayout (cfg : Config) (db : Database) (now : ℕ) (batchId : Uuid)
    (evidence : PayoutExpiryEvidence) : Except StoreError Database := do
  let batch ← loadPayoutBatch db batchId
  rejectIf (batch.chain ≠ .wcash) .invalidPayoutTransition
  if batch.state = .expiryPending then replayExpiryEvidence db batchId .held evidence
  else do
    rejectIf (¬ batch.state.isSubmitted) .invalidPayoutTransition
    let _ ← lockChainSafetyRow db .wcash
    let row ← orReject .unknownPayoutBatch (db.payoutBatches.find batchId)
    validatePayoutExpiryEvidence cfg now row evidence
    let db ← insertExpiryEvidence db ⟨batchId, .held, evidence, none⟩
    updatePayoutState db batchId batch.state .expiryPending

/-- A submitted batch is held, or was already. -/
theorem holdExpiredPayout_spec {cfg : Config} {now : ℕ}
    (h : holdExpiredPayout cfg db now batchId evidence = .ok db') :
    db' = db ∨ ∃ row expiryEvidence, db.payoutBatches.find batchId = some row ∧
      row.state.isSubmitted ∧ db' = { db with
        expiryEvidence := expiryEvidence
        payoutBatches := db.payoutBatches.modify batchId (·.enter .expiryPending) fun _ => rfl } := by
  obtain ⟨row, hrow, h⟩ := loadPayoutBatch_bind h
  replace h := passed h
  split at h
  · exact Or.inl (replayExpiryEvidence_spec h)
  · obtain ⟨hstate, h⟩ := require_bind_ok h
    obtain ⟨row', -, h⟩ := bind_eq_ok.mp (passed h)
    obtain ⟨mid, hinsert, h⟩ := bind_eq_ok.mp (passed h)
    obtain ⟨expiryEvidence, rfl⟩ := insertExpiryEvidence_spec hinsert
    exact Or.inr ⟨row, expiryEvidence, hrow, hstate, updatePayoutState_spec h⟩

/-- Release a held reserve once its whole validity range is below the finalisation frontier. -/
def expireHeldPayout (cfg : Config) (db : Database) (now : ℕ) (draw : LedgerDraw) (batchId : Uuid)
    (evidence : PayoutExpiryEvidence) : Except StoreError Database := do
  let batch ← loadPayoutBatch db batchId
  rejectIf (batch.chain ≠ .wcash) .invalidPayoutTransition
  if batch.state = .expired then replayExpiryEvidence db batchId .finalized evidence
  else do
    rejectIf (batch.state ≠ .expiryPending) .invalidPayoutTransition
    let _ ← lockChainSafetyRow db .wcash
    let row ← orReject .unknownPayoutBatch (db.payoutBatches.find batchId)
    validatePayoutExpiryEvidence cfg now row evidence
    let held ← loadExpiryEvidence db batchId .held
    rejectIf (held.transactionId ≠ evidence.transactionId ∨
        held.signedTransactionSha256 ≠ evidence.signedTransactionSha256 ∨
        held.expiryHeight ≠ evidence.expiryHeight ∨ evidence.tipHeight < held.tipHeight ∨
        evidence.observedAt < held.observedAt ∨
        evidence.expiryHeight + payoutExpiryFinalityDepth ≥ 2 ^ 32 ∨
        evidence.tipHeight < evidence.expiryHeight + payoutExpiryFinalityDepth)
      .invalidPayoutExpiryEvidence
    let db ← releaseLiabilities db draw batch
    let db ← insertExpiryEvidence db ⟨batchId, .finalized, evidence, some draw.id⟩
    updatePayoutState db batchId .expiryPending .expired

/-- A held batch is released, or was already. -/
theorem expireHeldPayout_spec {cfg : Config} {now : ℕ}
    (h : expireHeldPayout cfg db now draw batchId evidence = .ok db') :
    db' = db ∨ ∃ expiryEvidence,
      Released { db with expiryEvidence := expiryEvidence } db' batchId .expiryPending .expired := by
  obtain ⟨row, hrow, h⟩ := loadPayoutBatch_bind h
  replace h := passed h
  split at h
  · exact Or.inl (replayExpiryEvidence_spec h)
  · obtain ⟨hstate, h⟩ := require_bind_ok h
    obtain ⟨row', -, h⟩ := bind_eq_ok.mp (passed h)
    obtain ⟨held, -, h⟩ := bind_eq_ok.mp (passed h)
    obtain ⟨posted, hrelease, h⟩ := bind_eq_ok.mp (passed h)
    obtain ⟨mid, hinsert, h⟩ := bind_eq_ok.mp h
    obtain ⟨ledger, hledger, rfl⟩ := releaseLiabilities_spec hrelease
    obtain ⟨expiryEvidence, rfl⟩ := insertExpiryEvidence_spec hinsert
    exact Or.inr ⟨expiryEvidence, row, ledger, hrow, hstate, hledger, updatePayoutState_spec h⟩

end WcashPool.Store
