/-
  WcashPool.WecSigner.Pipeline — the WEC payout signer
  (`execute`, `prepare`, `recover_prepared`, `inspect_prepared`).

  Each entry point is a program: it asks the journal, the native wallet and the
  node, and stops at the first error.  The loop over the stages of a record is
  written out along the stages, since every turn of it either returns or writes
  the next stage.  A checkpoint can interrupt the program at any of its points,
  besides the crashes that every program has.

  Left out: the timeouts and size limits that each wallet call carries, and
  the seed, which only the wallet reads.
-/
import WcashPool.Lib.Programs
import WcashPool.WecSigner.Journal

namespace WcashPool.WecSigner

open Fallible Protocol Store Portal Programs Durable

/-! ## §1. The wallet boundary -/

inductive WalletNetwork
  | testnet
  | regtest
  | mainnet
deriving DecidableEq, Repr

inductive WalletFundSource
  | ironwood
  | sapling
  | transparent
deriving DecidableEq, Repr

structure WalletIdentity where
  network : WalletNetwork
  genesisHash : Text
  branchId : Text
  accountId : Uuid
  collectorPayoutCommitment : Hex32
  fundSource : WalletFundSource
  synchronized : Bool
deriving DecidableEq, Repr

structure WalletOutput where
  allocationId : Uuid
  canonicalAddress : Text
  receiverKind : ReceiverKind
  amountZat : ℕ
  memo : Text
deriving DecidableEq, Repr

structure WalletRecoveryCall where
  batchId : Uuid
  requestCommitment : Hex32
deriving DecidableEq, Repr

structure WalletSignCall where
  batchId : Uuid
  requestCommitment : Hex32
  identity : WalletIdentity
  outputs : List WalletOutput
  confirmations : ℕ
  maxFeeZat : ℕ
deriving DecidableEq, Repr

structure WalletSignedTransaction where
  batchId : Uuid
  requestCommitment : Hex32
  transactionId : Text
  rawTransactionHex : Text
  unsignedDigest : Hex32
  feeZat : ℕ
  targetHeight : ℕ
  expiryHeight : ℕ
  stored : Bool
  internalChangeReceiverVerified : Bool
deriving DecidableEq, Repr

structure WalletInspectionCall where
  batchId : Uuid
  requestCommitment : Hex32
  transactionId : Text
  rawTransactionHex : Text
deriving DecidableEq, Repr

structure PersistedIntent where
  identity : WalletIdentity
  batchId : Uuid
  requestCommitment : Hex32
  orderedOutputs : List WalletOutput
  unsignedDigest : Hex32
  transactionId : Text
  rawTransactionSha256 : Hex32
  feeZat : ℕ
  targetHeight : ℕ
  expiryHeight : ℕ
  stored : Bool
  internalChangeReceiverVerified : Bool
deriving DecidableEq, Repr

structure WalletBroadcastCall where
  batchId : Uuid
  requestCommitment : Hex32
  transactionId : Text
  rawTransactionHex : Text
deriving DecidableEq, Repr

structure BroadcastOutcome where
  transactionId : Text
  disposition : BroadcastDisposition
deriving DecidableEq, Repr

inductive BroadcastFailure
  | rejected
  | timeout
  | unavailable
  | ambiguous
  | protocolViolation
deriving DecidableEq, Repr

/-- The errors of the native wallet. -/
inductive NativeWalletError
  | timeout
  | unavailable
  | rejected
  | idempotencyConflict
  | ambiguous
  | protocolViolation
deriving DecidableEq, Repr

def mapReadonlyWalletError : NativeWalletError → WecPayoutError
  | .idempotencyConflict => .idempotencyConflict
  | .rejected | .protocolViolation => .walletProtocolViolation
  | .timeout | .unavailable | .ambiguous => .walletUnavailable

def mapRecoveryError : NativeWalletError → WecPayoutError
  | .idempotencyConflict => .idempotencyConflict
  | .protocolViolation | .rejected => .walletProtocolViolation
  | .timeout | .unavailable | .ambiguous => .walletAmbiguous

def mapSigningError : NativeWalletError → WecPayoutError
  | .idempotencyConflict => .idempotencyConflict
  | .rejected => .walletRejected
  | .protocolViolation => .walletProtocolViolation
  | .timeout | .unavailable | .ambiguous => .walletAmbiguous

def mapInspectionError : NativeWalletError → WecPayoutError
  | .idempotencyConflict => .idempotencyConflict
  | .protocolViolation | .rejected => .walletProtocolViolation
  | .timeout | .unavailable | .ambiguous => .walletUnavailable

/-! ## §2. Requests -/

/-- A payout batch and the funds that it is paid from. -/
structure WecPayoutRequest where
  batch : PayoutBatchRequest
  sourceAccount : Uuid
  fundSource : WalletFundSource
deriving DecidableEq, Repr

/-- The policy of one collector, and the hash function it commits with. -/
structure WecSignerConfig where
  sha256 : List UInt8 → Hex32
  network : DeploymentNetwork
  sourceAccount : Uuid
  expectedPayoutCommitment : Hex32
  confirmations : ℕ
  maxOutputs : ℕ
  maxFeeZat : ℕ
  transparentPayoutsEnabled : Bool

def minConfirmations : ℕ := 100

def maxNativeOutputs : ℕ := 100

def maxConfiguredFeeZat : ℕ := 100_000_000

def maxWecZat : ℕ := 2_100_000_000_000_000

def maxExpiryDelta : ℕ := 100

namespace WecSignerConfig

def walletNetwork (cfg : WecSignerConfig) : WalletNetwork :=
  match cfg.network with
  | .mainnet => .mainnet
  | .regtest => .regtest
  | .testnet => .testnet

def genesisHash (cfg : WecSignerConfig) : Text :=
  match cfg.network with
  | .mainnet => ascii "5bae12c8662a577b04ce1591af1a137c128f0cb51018a5f1622d861d1bb6fc48"
  | .regtest => ascii "70bf0bab17eff361a6331bb825b3b7253c8c96ff96407f948161d2912658bb1c"
  | .testnet => ascii "6b66fff119977d36d9c989093b516a876dbf6596536791ff35bb4c581e3fda98"

def branchId (cfg : WecSignerConfig) : Text :=
  match cfg.network with
  | .mainnet => ascii "d9c6a7ee"
  | .regtest => ascii "c3a6678a"
  | .testnet => ascii "54ba2bfb"

def validate (cfg : WecSignerConfig) : Except WecPayoutError Unit :=
  rejectIf (cfg.sourceAccount.isNil ∨ cfg.expectedPayoutCommitment.isZero ∨
      cfg.confirmations < minConfirmations ∨ cfg.maxOutputs = 0 ∨
      maxNativeOutputs < cfg.maxOutputs ∨ cfg.maxFeeZat = 0 ∨ maxConfiguredFeeZat < cfg.maxFeeZat)
    .invalidRequest

end WecSignerConfig

structure ValidatedRequest where
  portalCommitment : Hex32
  pipelineCommitment : Hex32
  outputTotalZat : ℕ
  outputs : List WalletOutput
deriving DecidableEq, Repr

variable (cfg : WecSignerConfig) (request : WecPayoutRequest) (validated : ValidatedRequest)

def fundSourceTag : WalletFundSource → UInt8
  | .ironwood => 1
  | .sapling => 2
  | .transparent => 3

/-- The request, with the account, the limits and the chain it is paid on. -/
def pipelineCommitment (portalCommitment : Hex32) : Hex32 :=
  cfg.sha256 (ascii "zecwec/wec-payout-pipeline/v2" ++ portalCommitment.asBytes
    ++ request.sourceAccount.asBytes ++ cfg.expectedPayoutCommitment.asBytes
    ++ [fundSourceTag request.fundSource] ++ beBytes 4 cfg.confirmations
    ++ beBytes 8 cfg.maxFeeZat ++ cfg.genesisHash ++ cfg.branchId)

/-- The memo that binds an output to its batch. -/
def outputMemo (batchId : Uuid) (portalCommitment : Hex32) (allocationId : Uuid) (ordinal : ℕ) :
    Except WecPayoutError Text := do
  rejectIf (ordinal ≥ 2 ^ 16) .invalidRequest
  pure (ascii "ZECWEC-WEC-PAYOUT-V1" ++ [0] ++ batchId.asBytes ++ portalCommitment.asBytes
    ++ allocationId.asBytes ++ beBytes 2 ordinal)

/-- A transparent output carries no memo. -/
def memoFor (batchId : Uuid) (portalCommitment : Hex32) (output : PayoutOutput) (ordinal : ℕ) :
    Except WecPayoutError Text :=
  if output.receiverKind = .transparent then .ok []
  else outputMemo batchId portalCommitment output.allocationId ordinal

def walletOutput (batchId : Uuid) (portalCommitment : Hex32) (output : PayoutOutput)
    (ordinal : ℕ) : Except WecPayoutError WalletOutput := do
  let memo ← memoFor batchId portalCommitment output ordinal
  pure ⟨output.allocationId, output.canonicalAddress, output.receiverKind, output.amountZat, memo⟩

/-- The receiver kind of the first output; a valid request has one. -/
def firstReceiverKind : Option ReceiverKind :=
  request.batch.outputs.head?.map (·.receiverKind)

/-- The checks on a request before the journal is touched. -/
def validateRequest : Except WecPayoutError ValidatedRequest := do
  rejectIf (request.batch.asset ≠ .wec) .wrongAsset
  rejectIf (request.batch.network ≠ cfg.network) .wrongNetwork
  rejectIf (request.sourceAccount ≠ cfg.sourceAccount) .wrongAccount
  rejectIf (request.fundSource ≠ .ironwood) .wrongFundSource
  let outputTotalZat ← (Portal.outputTotal request.batch).mapError fun _ =>
    .invalidRequest
  rejectIf (cfg.maxOutputs < request.batch.outputs.length ∨
      cfg.maxFeeZat < request.batch.maximumNetworkFeeZat ∨ maxWecZat < outputTotalZat ∨
      maxWecZat < outputTotalZat + request.batch.maximumNetworkFeeZat ∨
      ∃ output ∈ request.batch.outputs, some output.receiverKind ≠ firstReceiverKind request)
    .invalidRequest
  let portalCommitment ← (request.batch.commitment cfg.sha256).mapError fun _ =>
    .invalidRequest
  let outputs ← request.batch.outputs.zipIdx.mapM fun p =>
    walletOutput request.batch.batchId portalCommitment p.1 p.2
  pure ⟨portalCommitment, pipelineCommitment cfg request portalCommitment, outputTotalZat, outputs⟩

/-! ## §3. Checks of what the wallet returns -/

/-- The wallet must be the configured one. -/
def verifyIdentity (identity : WalletIdentity) : Except WecPayoutError Unit := do
  rejectIf (identity.network ≠ cfg.walletNetwork ∨ identity.genesisHash ≠ cfg.genesisHash ∨
    identity.branchId ≠ cfg.branchId) .wrongNetwork
  rejectIf (identity.accountId ≠ cfg.sourceAccount) .wrongAccount
  rejectIf (identity.collectorPayoutCommitment ≠ cfg.expectedPayoutCommitment) .wrongAccount
  rejectIf (identity.fundSource ≠ .ironwood) .wrongFundSource
  rejectIf (¬ identity.synchronized) .walletUnavailable

def verifySigned (signed : WalletSignedTransaction) : Except WecPayoutError Unit :=
  rejectIf (signed.batchId ≠ request.batch.batchId ∨
      signed.requestCommitment ≠ validated.pipelineCommitment ∨
      ¬ validTransactionId signed.transactionId ∨ ¬ validRawTransaction signed.rawTransactionHex ∨
      signed.unsignedDigest.isZero ∨ signed.feeZat = 0 ∨
      request.batch.maximumNetworkFeeZat < signed.feeZat ∨ signed.targetHeight = 0 ∨
      signed.expiryHeight ≤ signed.targetHeight ∨
      maxExpiryDelta < signed.expiryHeight - signed.targetHeight ∨ ¬ signed.stored ∨
      ¬ signed.internalChangeReceiverVerified)
    .walletProtocolViolation

/-- The inspected transaction must be the requested one. -/
def verifyInspection (signed : WalletSignedTransaction) (inspected : PersistedIntent) :
    Except WecPayoutError Unit := do
  (verifyIdentity cfg inspected.identity).mapError fun _ => .walletProtocolViolation
  let raw ← orReject .walletProtocolViolation (hexDecode signed.rawTransactionHex)
  rejectIf (inspected.batchId ≠ request.batch.batchId ∨
      inspected.requestCommitment ≠ validated.pipelineCommitment ∨
      inspected.orderedOutputs ≠ validated.outputs ∨
      inspected.unsignedDigest ≠ signed.unsignedDigest ∨
      inspected.transactionId ≠ signed.transactionId ∨
      inspected.rawTransactionSha256 ≠ cfg.sha256 raw ∨ inspected.feeZat ≠ signed.feeZat ∨
      inspected.targetHeight ≠ signed.targetHeight ∨
      inspected.expiryHeight ≠ signed.expiryHeight ∨ ¬ inspected.stored ∨
      ¬ inspected.internalChangeReceiverVerified)
    .walletProtocolViolation

/-! ## §4. Answers of the signer -/

/-- What a preparation returns. -/
structure WecPreparedPayout where
  receipt : BroadcastReceipt
  unsignedDigest : Hex32
  transactionIdBytes : List UInt8
  signedTransaction : List UInt8
  networkFeeZat : ℕ
  targetHeight : ℕ
  expiryHeight : ℕ
deriving DecidableEq, Repr

/-- What an execution returns. -/
structure WecPayoutExecution where
  receipt : BroadcastReceipt
  unsignedDigest : Hex32
  transactionIdBytes : List UInt8
  signedTransaction : List UInt8
  networkFeeZat : ℕ
  disposition : BroadcastDisposition
deriving DecidableEq, Repr

/-- The prepared payout of a record. -/
def preparedFromRecord (record : JournalRecord) : Except WecPayoutError WecPreparedPayout := do
  let artifact ← orReject .journalCorrupt record.stage.artifact
  let signedTransaction ← orReject .journalCorrupt
    (hexDecode artifact.rawTransactionHex)
  let transactionId ← orReject .journalCorrupt (hexDecode artifact.transactionId)
  rejectIf (transactionId.length ≠ 32) .journalCorrupt
  pure
    { receipt := ⟨record.batchId, record.portalCommitment, .wec, artifact.transactionId,
        record.outputTotalZat⟩
      unsignedDigest := artifact.unsignedDigest
      transactionIdBytes := transactionId
      signedTransaction := signedTransaction
      networkFeeZat := artifact.feeZat
      targetHeight := artifact.targetHeight
      expiryHeight := artifact.expiryHeight }

/-- The execution of a record. -/
def executionFromRecord (record : JournalRecord) (disposition : BroadcastDisposition) :
    Except WecPayoutError WecPayoutExecution := do
  let prepared ← preparedFromRecord record
  pure ⟨prepared.receipt, prepared.unsignedDigest, prepared.transactionIdBytes,
    prepared.signedTransaction, prepared.networkFeeZat, disposition⟩

/-! ## §5. Queries -/

inductive Checkpoint
  | identityReturned
  | recoveryReturned
  | signingReturned
  | inspectionReturned
  | broadcastReturned (stage : WecPipelineStage)
  | stagePersisted (stage : WecPipelineStage)
deriving DecidableEq, Repr

/-- Everything that the signer asks. -/
inductive WecQuery
  | lock
  | load (batchId : Uuid)
  | store (record : JournalRecord)
  | checkpoint (checkpoint : Checkpoint)
  | readSeed
  | identity
  | recoverExact (call : WalletRecoveryCall)
  | signExact (call : WalletSignCall)
  | inspectPersisted (call : WalletInspectionCall)
  | broadcastExact (call : WalletBroadcastCall)
deriving DecidableEq

abbrev WecAnswer : WecQuery → Type
  | .lock => Bool
  | .load _ => Except WecPayoutError (Option JournalRecord)
  | .store _ => Except WecPayoutError Unit
  | .checkpoint _ => Bool
  | .readSeed => Bool
  | .identity => Except NativeWalletError WalletIdentity
  | .recoverExact _ => Except NativeWalletError (Option WalletSignedTransaction)
  | .signExact _ => Except NativeWalletError WalletSignedTransaction
  | .inspectPersisted _ => Except NativeWalletError PersistedIntent
  | .broadcastExact _ => Except BroadcastFailure BroadcastOutcome

abbrev WecM := ProgE WecQuery WecAnswer WecPayoutError

/-- A pure step that may fail. -/
def check {α : Type} (x : Except WecPayoutError α) : WecM α := liftE x

def lockJournal : WecM Unit :=
  askE .lock fun locked => rejectIf (locked = false) .journalUnavailable

def loadJournal (batchId : Uuid) : WecM (Option JournalRecord) :=
  askE (.load batchId) fun answer => answer

def storeJournal (record : JournalRecord) : WecM Unit := askE (.store record) fun answer => answer

def readSeed : WecM Unit :=
  askE .readSeed fun readable => rejectIf (readable = false) .unsafeCredential

/-- A checkpoint that answers `true` interrupts. -/
def checkpoint (c : Checkpoint) : WecM Unit :=
  askE (.checkpoint c) fun interrupt => rejectIf (interrupt = true) .interrupted

def walletIdentity : WecM WalletIdentity :=
  askE .identity fun answer => answer.mapError mapReadonlyWalletError

def recoverExact (call : WalletRecoveryCall) : WecM (Option WalletSignedTransaction) :=
  askE (.recoverExact call) fun answer => answer.mapError mapRecoveryError

def signExact (call : WalletSignCall) : WecM WalletSignedTransaction :=
  askE (.signExact call) fun answer => answer.mapError mapSigningError

def inspectPersisted (call : WalletInspectionCall) : WecM PersistedIntent :=
  askE (.inspectPersisted call) fun answer => answer.mapError mapInspectionError

/-- The node's answer, a failure included. -/
def broadcastExact (call : WalletBroadcastCall) : WecM (Except BroadcastFailure BroadcastOutcome) :=
  askE (.broadcastExact call) fun answer => .ok answer

/-! ## §6. The pipeline -/

/-- Store a record, then pass its checkpoint. -/
def persist (record : JournalRecord) : WecM Unit := do
  storeJournal record
  checkpoint (.stagePersisted record.stage.publicStage)

/-- Is the record bound to these facts? -/
def JournalRecord.Binds (record : JournalRecord) (validated : ValidatedRequest) : Prop :=
  record.pipelineCommitment = validated.pipelineCommitment ∧
    record.portalCommitment = validated.portalCommitment ∧
    record.outputTotalZat = validated.outputTotalZat

instance (record : JournalRecord) (validated : ValidatedRequest) :
    Decidable (record.Binds validated) :=
  inferInstanceAs (Decidable (_ ∧ _ ∧ _))

/-- A new record; the gate of transparent payouts admits or refuses it. -/
def reserve : WecM JournalRecord := do
  check (rejectIf (firstReceiverKind request = some .transparent ∧
    ¬ cfg.transparentPayoutsEnabled) .invalidRequest)
  let record : JournalRecord :=
    ⟨request.batch.batchId, validated.pipelineCommitment, validated.portalCommitment,
      validated.outputTotalZat, .reserved⟩
  persist record
  pure record

/-- Load the batch's record, or reserve a new one. -/
def loadOrReserve : WecM JournalRecord := do
  match ← loadJournal request.batch.batchId with
  | some record =>
    check (rejectIf (¬ record.Binds validated) .idempotencyConflict)
    pure record
  | none => reserve cfg request validated

/-- The wallet's identity, verified. -/
def verifiedIdentity : WecM WalletIdentity := do
  let identity ← walletIdentity
  check (verifyIdentity cfg identity)
  checkpoint .identityReturned
  pure identity

/-- What the wallet has persisted for the batch. -/
def recoverBatch : WecM (Option WalletSignedTransaction) := do
  let recovered ← recoverExact ⟨request.batch.batchId, validated.pipelineCommitment⟩
  checkpoint .recoveryReturned
  pure recovered

/-- A transaction of the wallet becomes an artifact once its persisted intent was inspected. -/
def inspectSigned (signed : WalletSignedTransaction) : WecM StoredArtifact := do
  check (verifySigned request validated signed)
  let inspected ← inspectPersisted ⟨request.batch.batchId, validated.pipelineCommitment,
    signed.transactionId, signed.rawTransactionHex⟩
  check (verifyInspection cfg request validated signed inspected)
  checkpoint .inspectionReturned
  pure ⟨signed.rawTransactionHex, signed.transactionId, signed.unsignedDigest, signed.feeZat,
    signed.targetHeight, signed.expiryHeight⟩

/-- Signing, where the wallet has nothing to recover. -/
def signNew (identity : WalletIdentity) : WecM WalletSignedTransaction := do
  readSeed
  let signed ← signExact ⟨request.batch.batchId, validated.pipelineCommitment, identity,
    validated.outputs, cfg.confirmations, request.batch.maximumNetworkFeeZat⟩
  checkpoint .signingReturned
  pure signed

/-- What was recovered, or a new signature. -/
def recoveredOrSigned (identity : WalletIdentity) :
    Option WalletSignedTransaction → WecM WalletSignedTransaction
  | some signed => pure signed
  | none => signNew cfg request validated identity

/-- Recover the batch's transaction, or sign it. -/
def createOrRecover : WecM StoredArtifact := do
  let identity ← verifiedIdentity cfg
  let recovered ← recoverBatch request validated
  let signed ← recoveredOrSigned cfg request validated identity recovered
  inspectSigned cfg request validated signed

def inspectRecovered : Option WalletSignedTransaction → WecM (Option StoredArtifact)
  | none => pure none
  | some signed => do
    let artifact ← inspectSigned cfg request validated signed
    pure (some artifact)

def recoverExisting : WecM (Option StoredArtifact) := do
  let _ ← verifiedIdentity cfg
  let recovered ← recoverBatch request validated
  inspectRecovered cfg request validated recovered

def JournalRecord.at (record : JournalRecord) (stage : StoredStage) : JournalRecord :=
  { record with stage := stage }

/-- The first turn of both loops on a reserved record: sign, and write the artifact down. -/
def prepareReserved (record : JournalRecord) : WecM StoredArtifact := do
  let artifact ← createOrRecover cfg request validated
  persist (record.at (.prepared artifact))
  pure artifact

/-- The loop of `prepare_locked`. -/
def prepareStage (record : JournalRecord) : WecM WecPreparedPayout :=
  match record.stage with
  | .reserved => do
    let artifact ← prepareReserved cfg request validated record
    check (preparedFromRecord (record.at (.prepared artifact)))
  | .prepared _ | .signed _ | .broadcastUnresolved _ | .completed _ _ =>
    check (preparedFromRecord record)
  | .rejected _ => throw .broadcastRejected

/-- Prepare the payout, from any stage. -/
def prepareLocked : WecM WecPreparedPayout := do
  let record ← loadOrReserve cfg request validated
  prepareStage cfg request validated record

/-- The node's answer becomes the next stage. -/
def settleBroadcast (record : JournalRecord) (artifact : StoredArtifact) :
    Except BroadcastFailure BroadcastOutcome → WecM WecPayoutExecution
  | .ok outcome =>
    if outcome.transactionId ≠ artifact.transactionId then do
      checkpoint (.broadcastReturned .broadcastUnresolved)
      persist (record.at (.broadcastUnresolved artifact))
      throw .broadcastAmbiguous
    else do
      checkpoint (.broadcastReturned .completed)
      persist (record.at (.completed artifact outcome.disposition))
      check (executionFromRecord (record.at (.completed artifact outcome.disposition))
        outcome.disposition)
  | .error .rejected => do
    checkpoint (.broadcastReturned .rejected)
    persist (record.at (.rejected artifact))
    throw .broadcastRejected
  | .error _ => do
    checkpoint (.broadcastReturned .broadcastUnresolved)
    persist (record.at (.broadcastUnresolved artifact))
    throw .broadcastAmbiguous

/-- The turn of the loop on an unresolved record. -/
def broadcastRecorded (record : JournalRecord) (artifact : StoredArtifact) :
    WecM WecPayoutExecution := do
  let outcome ← broadcastExact ⟨record.batchId, record.pipelineCommitment, artifact.transactionId,
    artifact.rawTransactionHex⟩
  settleBroadcast record artifact outcome

/-- The turn on a prepared record: an ambiguous stage is written before the first node call. -/
def broadcastPrepared (record : JournalRecord) (artifact : StoredArtifact) :
    WecM WecPayoutExecution := do
  persist (record.at (.broadcastUnresolved artifact))
  broadcastRecorded (record.at (.broadcastUnresolved artifact)) artifact

/-- The loop of `execute_locked`. -/
def executeStage (record : JournalRecord) : WecM WecPayoutExecution :=
  match record.stage with
  | .reserved => do
    let artifact ← prepareReserved cfg request validated record
    broadcastPrepared (record.at (.prepared artifact)) artifact
  | .prepared artifact => broadcastPrepared record artifact
  | .signed artifact => broadcastRecorded record artifact
  | .broadcastUnresolved artifact => broadcastRecorded record artifact
  | .rejected _ => throw .broadcastRejected
  | .completed _ disposition => check (executionFromRecord record disposition)

/-- Prepare the payout and broadcast it, from any stage. -/
def executeLocked : WecM WecPayoutExecution := do
  let record ← loadOrReserve cfg request validated
  executeStage cfg request validated record

/-- `recover_prepared` on the record of the batch. -/
def recoverRecord (record : JournalRecord) : WecM (Option WecPreparedPayout) :=
  match record.stage with
  | .reserved => do
    match ← recoverExisting cfg request validated with
    | none => pure none
    | some artifact =>
      persist (record.at (.prepared artifact))
      let payout ← check (preparedFromRecord (record.at (.prepared artifact)))
      pure (some payout)
  | .prepared _ | .signed _ | .broadcastUnresolved _ | .completed _ _ => do
    let payout ← check (preparedFromRecord record)
    pure (some payout)
  | .rejected _ => throw .broadcastRejected

/-- Recover what was signed, and sign nothing. -/
def recoverLocked : WecM (Option WecPreparedPayout) := do
  match ← loadJournal request.batch.batchId with
  | none => pure none
  | some record =>
    check (rejectIf (¬ record.Binds validated) .idempotencyConflict)
    recoverRecord cfg request validated record

/-- `inspect_prepared`: the artifact of the record against what the wallet has. -/
def inspectLocked : WecM WecPreparedPayout := do
  let loaded ← loadJournal request.batch.batchId
  let record ← check (orReject .journalCorrupt loaded)
  check (rejectIf (¬ record.Binds validated) .idempotencyConflict)
  let expected ← check (orReject .idempotencyConflict record.stage.artifact)
  let recovered ← recoverExisting cfg request validated
  let inspected ← check (orReject .journalCorrupt recovered)
  check (rejectIf (inspected ≠ expected) .idempotencyConflict)
  check (preparedFromRecord record)

/-! ## §7. Entry points -/

/-- The public calls of the signer. -/
inductive EntryPoint
  | execute
  | prepare
  | recoverPrepared
  | inspectPrepared
deriving DecidableEq, Repr

structure WecCommand where
  entry : EntryPoint
  request : WecPayoutRequest
deriving DecidableEq, Repr

inductive WecResponse
  | executed (execution : WecPayoutExecution)
  | prepared (payout : WecPreparedPayout)
  | recovered (payout : Option WecPreparedPayout)
deriving DecidableEq, Repr

/-- The body of an entry point, under the journal's lock. -/
def locked (command : WecCommand) (validated : ValidatedRequest) : WecM WecResponse :=
  match command.entry with
  | .execute => do
    let execution ← executeLocked cfg command.request validated
    pure (.executed execution)
  | .prepare => do
    let payout ← prepareLocked cfg command.request validated
    pure (.prepared payout)
  | .recoverPrepared => do
    let payout ← recoverLocked cfg command.request validated
    pure (.recovered payout)
  | .inspectPrepared => do
    let payout ← inspectLocked cfg command.request validated
    pure (.prepared payout)

/-- One call: validate, lock, then run the entry point. -/
def perform (command : WecCommand) : WecM WecResponse := do
  check cfg.validate
  let validated ← check (validateRequest cfg command.request)
  lockJournal
  locked cfg command validated

/-! ## §8. The world of the signer -/

/-- The journal, and what the native wallet has persisted under each batch. -/
structure WecState where
  journal : Journal
  wallet : Uuid → Option Text

/-- How the world answers.  Files may be unreadable and the seed unavailable at any time; wallet
    and node answer anything and the wallet may persist anything, except that it has nothing
    persisted for a batch that it rejects to sign. -/
def wecAnswers (s : WecState) : (q : WecQuery) → WecAnswer q → WecState → Prop
  | .lock, _, s' => s' = s
  | .load batchId, answer, s' =>
    (answer = s.journal.load batchId ∨ answer = .error .journalUnavailable ∨
      answer = .error .journalCorrupt) ∧ s' = s
  | .store record, answer, s' => WriteAnswer record.stage.validate .journalUnavailable s
      { s with journal := s.journal.write record } answer s'
  | .checkpoint _, _, s' => s' = s
  | .readSeed, _, s' => s' = s
  | .signExact call, answer, s' =>
    s'.journal = s.journal ∧ (answer = .error .rejected → s'.wallet call.batchId = none)
  | .identity, _, s' => s'.journal = s.journal
  | .recoverExact _, _, s' => s'.journal = s.journal
  | .inspectPersisted _, _, s' => s'.journal = s.journal
  | .broadcastExact _, _, s' => s'.journal = s.journal

/-- The journal's lock keeps every other signer out. -/
def wecWorld : World WecState WecQuery WecAnswer := ⟨wecAnswers, fun _ _ => False⟩

theorem wecWorld_quiet : wecWorld.Quiet := fun _ _ h => h

end WcashPool.WecSigner
