/-
  WcashPool.ZecSigner.Pipeline — the ZEC payout signer
  (`execute`, `prepare`, `recover_prepared`).

  The signer drives an isolated wallet through the stages of a PCZT and gives
  the raw transaction to the parent node.  Every wallet call goes through one
  wrapper, `walletCall`, which classifies its failures.  The loop over the
  stages is written out along the stages, since every turn of it returns or
  writes the next stage; each turn has its own function, and `from…` runs the
  loop from that stage on.

  Left out: timeouts and size limits of the calls, and the decimal text of an
  amount.
-/
import WcashPool.Lib.Programs
import WcashPool.ZecSigner.Wallet

namespace WcashPool.ZecSigner

open Fallible Protocol Store Portal Programs Durable

/-! ## §1. Calls -/

inductive RpcFailure
  | timeout
  | unavailable
  | responseTooLarge
  | server (code : ℤ) (message : Text)
deriving DecidableEq, Repr

namespace RpcFailure

def isServer : RpcFailure → Bool
  | .server _ _ => true
  | _ => false

def toAsciiLowercase (text : Text) : Text :=
  text.map fun byte => if 65 ≤ byte ∧ byte ≤ 90 then byte + 32 else byte

def contains (text part : Text) : Bool := text.tails.any part.isPrefixOf

/-- The node has the transaction already. -/
def isAlreadyKnown : RpcFailure → Bool
  | .server code message =>
    let message := toAsciiLowercase message
    (code == -26 || code == -27) && contains message (ascii "already") &&
      (contains message (ascii "known") || contains message (ascii "mempool") ||
        contains message (ascii "block chain") || contains message (ascii "blockchain"))
  | _ => false

/-- The codes of a rejected transaction. -/
def isExplicitValidationRejection : RpcFailure → Bool
  | .server code _ => code == -22 || code == -25 || code == -26
  | _ => false

end RpcFailure

structure PcztCreateCall where
  account : Uuid
  amounts : List (Text × ℕ)
  minConfirmations : ℕ
  privacyPolicy : Text
  fundSource : ZecFundSource
deriving DecidableEq, Repr

/-- The calls of the wallet. -/
inductive WalletRpc
  | getWalletStatus
  | getAccount (accountId : Uuid)
  | getBalances (minConfirmations : ℕ)
  | exportViewingKey (address : Text)
  | pcztCreate (call : PcztCreateCall)
  | pcztInspect (pczt : Text)
  | pcztProve (pczt : Text)
  | pcztSign (pczt privacyPolicy : Text)
  | pcztExtract (pczt : Text)
deriving DecidableEq, Repr

abbrev WalletResult : WalletRpc → Type
  | .getWalletStatus => WalletStatus
  | .getAccount _ => WalletAccount
  | .getBalances _ => List WalletAccountBalance
  | .exportViewingKey _ => Text
  | .pcztCreate _ => CreateResult
  | .pcztInspect _ => InspectResult
  | .pcztProve _ => Text
  | .pcztSign _ _ => SignResult
  | .pcztExtract _ => ExtractResult

inductive Checkpoint
  | rpcReturned (stage : PipelineStage)
  | stagePersisted (stage : PipelineStage)
deriving DecidableEq, Repr

/-- Everything that the signer asks. -/
inductive ZecQuery
  | walletConfiguration
  | lock
  | load (batchId : Uuid)
  | store (record : JournalRecord)
  | checkpoint (checkpoint : Checkpoint)
  | wallet (rpc : WalletRpc)
  | sendRawTransaction (rawTransaction : Text)
deriving DecidableEq

/-- A wallet or node result is absent where the answer has the wrong shape or size. -/
abbrev ZecAnswer : ZecQuery → Type
  | .walletConfiguration => Bool
  | .lock => Bool
  | .load _ => Except ZecPayoutError (Option JournalRecord)
  | .store _ => Except ZecPayoutError Unit
  | .checkpoint _ => Bool
  | .wallet rpc => Except RpcFailure (Option (WalletResult rpc))
  | .sendRawTransaction _ => Except RpcFailure (Option Text)

abbrev ZecM := ProgE ZecQuery ZecAnswer ZecPayoutError

/-- A pure step that may fail. -/
def check {α : Type} (x : Except ZecPayoutError α) : ZecM α := liftE x

def validateWalletConfiguration : ZecM Unit :=
  askE .walletConfiguration fun safe =>
    rejectIf (safe = false) .unsafeWalletConfiguration

def lockJournal : ZecM Unit :=
  askE .lock fun locked => rejectIf (locked = false) .journalUnavailable

def loadJournal (batchId : Uuid) : ZecM (Option JournalRecord) :=
  askE (.load batchId) fun answer => answer

def storeJournal (record : JournalRecord) : ZecM Unit := askE (.store record) fun answer => answer

/-- A checkpoint that answers `true` interrupts. -/
def checkpoint (c : Checkpoint) : ZecM Unit :=
  askE (.checkpoint c) fun interrupt => rejectIf (interrupt = true) .interrupted

def rpcCheckpoint (stage : PipelineStage) : ZecM Unit := checkpoint (.rpcReturned stage)

/-- Store a record, then pass its checkpoint. -/
def persist (record : JournalRecord) : ZecM Unit := do
  storeJournal record
  checkpoint (.stagePersisted record.stage.publicStage)

/-- How the wrapper of every wallet call classifies a failure. -/
def walletFailure (failure : RpcFailure) : ZecPayoutError :=
  if failure.isServer then .walletRejected else .walletRpcUnavailable

/-- A failed call, or an empty answer, is an error. -/
def walletAnswer {α : Type} (answer : Except RpcFailure (Option α)) : Except ZecPayoutError α := do
  let result ← answer.mapError walletFailure
  orReject .walletProtocolViolation result

def walletCall (rpc : WalletRpc) : ZecM (WalletResult rpc) :=
  askE (.wallet rpc) fun answer => walletAnswer answer

/-- How a submission ended. -/
inductive BroadcastOutcome
  | accepted
  | alreadyKnown
  | rejected
  | ambiguous
deriving DecidableEq, Repr

/-- The outcome that a submission's answer stands for. -/
def broadcastOutcome (transactionId : Text) :
    Except RpcFailure (Option Text) → BroadcastOutcome
  | .ok value => if value = some transactionId then .accepted else .ambiguous
  | .error failure =>
    if failure.isAlreadyKnown then .alreadyKnown
    else if failure.isExplicitValidationRejection then .rejected
    else .ambiguous

def broadcast (rawTransaction transactionId : Text) : ZecM BroadcastOutcome :=
  askE (.sendRawTransaction rawTransaction) fun answer => .ok (broadcastOutcome transactionId answer)

/-! ## §2. Wallet state -/

variable (cfg : ZecSignerConfig) (request : ZecPayoutRequest)

/-- The height, the identity and the viewing key of the wallet. -/
def walletContext : ZecM WalletContext := do
  let status ← walletCall .getWalletStatus
  check (rejectIf (¬ WalletStatus.isFullySynchronized status) .walletRpcUnavailable)
  let account ← walletCall (.getAccount cfg.accountId)
  let identity ← check (WalletAccount.signingIdentity cfg account)
  let balances ← walletCall (.getBalances cfg.minConfirmations)
  check (requireNoLegacyOrchard balances cfg.accountId)
  let encodedUfvk ← walletCall (.exportViewingKey identity.unifiedAddress)
  let orchardFvk ← check (viewingKey cfg identity encodedUfvk)
  pure ⟨status.nodeTip.height, identity.seedFingerprint, identity.accountIndex, orchardFvk⟩

/-! ## §3. The turns of the loop -/

@[simp] def JournalRecord.at (record : JournalRecord) (stage : StoredStage) : JournalRecord :=
  { record with stage := stage }

/-- The PCZT has the coin type of the network, and the effects that were verified. -/
def verifyConsensusEffects (record : JournalRecord) (pczt : Text) : Except ZecPayoutError Unit := do
  let expected ← orReject .journalCorrupt record.consensusEffectsDigest
  let coinType ← pcztV2CoinType cfg.external pczt
  rejectIf (coinType ≠ cfg.external.zcashTestnetCoinType) .walletProtocolViolation
  let digest ← consensusEffectsDigest cfg.external pczt
  rejectIf (digest ≠ expected) .walletProtocolViolation

/-- Inspect a PCZT and check what the wallet says about it. -/
def inspectPczt (pczt privacyPolicy : Text) (stage : PipelineStage) (requirement : ProofRequirement) :
    ZecM ℕ := do
  let inspected ← walletCall (.pcztInspect pczt)
  rpcCheckpoint stage
  check (verifyInspection cfg request privacyPolicy inspected requirement)

/-- The turn on a reserved record: the created PCZT and its privacy policy. -/
def turnReserved (record : JournalRecord) : ZecM CreateResult := do
  let created ← walletCall (.pcztCreate ⟨request.sourceAccount,
    request.batch.outputs.map fun output => (output.canonicalAddress, output.amountZat),
    cfg.minConfirmations, requestedPrivacyPolicy request, request.fundSource⟩)
  rpcCheckpoint .created
  check (validatePrivacyPolicy (CreateResult.privacyPolicy created) request)
  check (validatePczt (CreateResult.pczt created))
  persist (record.at (.created created.pczt created.privacyPolicy))
  pure created

/-- The record of a created PCZT once its effects are verified. -/
@[simp] def JournalRecord.verified (record : JournalRecord) (effects : VerifiedEffects)
    (pczt privacyPolicy : Text) : JournalRecord :=
  { record with
    consensusEffectsDigest := some effects.digest
    consensusNetworkFeeZat := some effects.networkFeeZat
    stage := .createdVerified pczt privacyPolicy }

/-- Verify the created PCZT. -/
def turnCreated (record : JournalRecord) (pczt privacyPolicy : Text) : ZecM VerifiedEffects := do
  let wallet ← walletContext cfg
  let effects ← check (verifyCreatedPczt cfg.external cfg.addressNetwork request.batch
    privacyPolicy pczt wallet)
  let claimedFeeZat ← inspectPczt cfg request pczt privacyPolicy .createdVerified .mayBeMissing
  check (rejectIf (claimedFeeZat ≠ effects.networkFeeZat) .walletProtocolViolation)
  persist (record.verified effects pczt privacyPolicy)
  pure effects

/-- Ask for the proofs. -/
def turnCreatedVerified (record : JournalRecord) (pczt privacyPolicy : Text) : ZecM Text := do
  check (verifyConsensusEffects cfg record pczt)
  let proved ← walletCall (.pcztProve pczt)
  rpcCheckpoint .proved
  check (validatePczt proved)
  check (verifyConsensusEffects cfg record proved)
  persist (record.at (.proved proved privacyPolicy))
  pure proved

/-- Verify the proved PCZT. -/
def turnProved (record : JournalRecord) (pczt privacyPolicy : Text) : ZecM Unit := do
  check (verifyConsensusEffects cfg record pczt)
  let networkFeeZat ← inspectPczt cfg request pczt privacyPolicy .provedVerified .complete
  check (rejectIf (some networkFeeZat ≠ record.consensusNetworkFeeZat)
    .walletProtocolViolation)
  persist (record.at (.provedVerified pczt privacyPolicy))

/-- Ask for the signatures. -/
def turnProvedVerified (record : JournalRecord) (pczt privacyPolicy : Text) : ZecM Text := do
  check (verifyConsensusEffects cfg record pczt)
  let signed ← walletCall (.pcztSign pczt privacyPolicy)
  rpcCheckpoint .signed
  check (SignResult.validate signed)
  check (validatePczt (SignResult.pczt signed))
  check (verifyConsensusEffects cfg record (SignResult.pczt signed))
  persist (record.at (.signed signed.pczt privacyPolicy))
  pure signed.pczt

/-- Verify the signed PCZT. -/
def turnSigned (record : JournalRecord) (pczt privacyPolicy : Text) : ZecM ℕ := do
  check (verifyConsensusEffects cfg record pczt)
  let networkFeeZat ← inspectPczt cfg request pczt privacyPolicy .signedVerified .complete
  check (rejectIf (some networkFeeZat ≠ record.consensusNetworkFeeZat)
    .walletProtocolViolation)
  persist (record.at (.signedVerified pczt privacyPolicy networkFeeZat))
  pure networkFeeZat

/-- Extract the transaction. -/
def turnSignedVerified (record : JournalRecord) (pczt : Text) (networkFeeZat : ℕ) :
    ZecM ExtractResult := do
  check (verifyConsensusEffects cfg record pczt)
  let approvedTransactionId ← check (extractableConsensusTxid cfg.external pczt)
  let extracted ← walletCall (.pcztExtract pczt)
  rpcCheckpoint .extracted
  check (ExtractResult.validateAgainst cfg.external extracted approvedTransactionId)
  persist (record.at (.prepared extracted.hex extracted.txid networkFeeZat))
  pure extracted

/-! ## §4. Answers of the signer -/

structure ZecPayoutExecution where
  receipt : BroadcastReceipt
  unsignedDigest : Hex32
  transactionIdBytes : List UInt8
  signedTransaction : List UInt8
  networkFeeZat : ℕ
deriving DecidableEq, Repr

/-- The receipt, the digest and the bytes that a call returns. -/
def execution (record : JournalRecord) (transactionId rawTransaction : Text)
    (networkFeeZat : ℕ) : Except ZecPayoutError ZecPayoutExecution := do
  let transactionIdBytes ← orReject .journalCorrupt
    ((hexDecode transactionId).filter (·.length = 32))
  let signedTransaction ← orReject .journalCorrupt (hexDecode rawTransaction)
  let unsignedDigest ← orReject .journalCorrupt
    (record.consensusEffectsDigest.filter fun digest => ¬ digest.isZero)
  pure ⟨⟨record.batchId, record.portalCommitment, .zec, transactionId, record.outputTotalZat⟩,
    unsignedDigest, transactionIdBytes, signedTransaction, networkFeeZat⟩

/-! ## §5. The loop -/

/-- The node's answer becomes the next stage. -/
def settleBroadcast (record : JournalRecord) (rawTransaction transactionId : Text)
    (networkFeeZat : ℕ) : BroadcastOutcome → ZecM ZecPayoutExecution
  | .accepted | .alreadyKnown => do
    rpcCheckpoint .completed
    persist (record.at (.completed rawTransaction transactionId networkFeeZat))
    check (execution (record.at (.completed rawTransaction transactionId networkFeeZat))
      transactionId rawTransaction networkFeeZat)
  | .rejected => do
    rpcCheckpoint .rejected
    persist (record.at (.rejected transactionId))
    throw .broadcastRejected
  | .ambiguous => do
    rpcCheckpoint .broadcastUnresolved
    persist (record.at (.broadcastUnresolved rawTransaction transactionId networkFeeZat))
    throw .broadcastAmbiguous

/-- On an unresolved record, and on the stage of the older executor. -/
def fromUnresolved (submit : Bool) (record : JournalRecord) (rawTransaction transactionId : Text)
    (networkFeeZat : ℕ) : ZecM ZecPayoutExecution :=
  if submit then do
    let outcome ← broadcast rawTransaction transactionId
    settleBroadcast record rawTransaction transactionId networkFeeZat outcome
  else check (execution record transactionId rawTransaction networkFeeZat)

/-- An ambiguous stage is written before the first node call. -/
def fromPrepared (submit : Bool) (record : JournalRecord) (rawTransaction transactionId : Text)
    (networkFeeZat : ℕ) : ZecM ZecPayoutExecution :=
  if submit then do
    persist (record.at (.broadcastUnresolved rawTransaction transactionId networkFeeZat))
    fromUnresolved submit
      (record.at (.broadcastUnresolved rawTransaction transactionId networkFeeZat))
      rawTransaction transactionId networkFeeZat
  else check (execution record transactionId rawTransaction networkFeeZat)

def fromSignedVerified (submit : Bool) (record : JournalRecord) (pczt : Text) (networkFeeZat : ℕ) :
    ZecM ZecPayoutExecution := do
  let extracted ← turnSignedVerified cfg record pczt networkFeeZat
  fromPrepared submit (record.at (.prepared extracted.hex extracted.txid networkFeeZat))
    extracted.hex extracted.txid networkFeeZat

def fromSigned (submit : Bool) (record : JournalRecord) (pczt privacyPolicy : Text) :
    ZecM ZecPayoutExecution := do
  let networkFeeZat ← turnSigned cfg request record pczt privacyPolicy
  fromSignedVerified cfg submit (record.at (.signedVerified pczt privacyPolicy networkFeeZat)) pczt
    networkFeeZat

def fromProvedVerified (submit : Bool) (record : JournalRecord) (pczt privacyPolicy : Text) :
    ZecM ZecPayoutExecution := do
  let signed ← turnProvedVerified cfg record pczt privacyPolicy
  fromSigned cfg request submit (record.at (.signed signed privacyPolicy)) signed privacyPolicy

def fromProved (submit : Bool) (record : JournalRecord) (pczt privacyPolicy : Text) :
    ZecM ZecPayoutExecution := do
  turnProved cfg request record pczt privacyPolicy
  fromProvedVerified cfg request submit (record.at (.provedVerified pczt privacyPolicy)) pczt
    privacyPolicy

def fromCreatedVerified (submit : Bool) (record : JournalRecord) (pczt privacyPolicy : Text) :
    ZecM ZecPayoutExecution := do
  let proved ← turnCreatedVerified cfg record pczt privacyPolicy
  fromProved cfg request submit (record.at (.proved proved privacyPolicy)) proved privacyPolicy

def fromCreated (submit : Bool) (record : JournalRecord) (pczt privacyPolicy : Text) :
    ZecM ZecPayoutExecution := do
  let effects ← turnCreated cfg request record pczt privacyPolicy
  fromCreatedVerified cfg request submit (record.verified effects pczt privacyPolicy) pczt
    privacyPolicy

def fromReserved (submit : Bool) (record : JournalRecord) : ZecM ZecPayoutExecution := do
  let created ← turnReserved cfg request record
  fromCreated cfg request submit (record.at (.created created.pczt created.privacyPolicy))
    created.pczt created.privacyPolicy

/-- The loop of `execute_locked`, from the stage of the record on. -/
def executeStage (submit : Bool) (record : JournalRecord) : ZecM ZecPayoutExecution :=
  match record.stage with
  | .reserved => fromReserved cfg request submit record
  | .created pczt policy => fromCreated cfg request submit record pczt policy
  | .createdVerified pczt policy => fromCreatedVerified cfg request submit record pczt policy
  | .proved pczt policy => fromProved cfg request submit record pczt policy
  | .provedVerified pczt policy => fromProvedVerified cfg request submit record pczt policy
  | .signed pczt policy => fromSigned cfg request submit record pczt policy
  | .signedVerified pczt _ fee => fromSignedVerified cfg submit record pczt fee
  | .prepared raw txid fee => fromPrepared submit record raw txid fee
  | .extracted raw txid fee => fromUnresolved submit record raw txid fee
  | .broadcastUnresolved raw txid fee => fromUnresolved submit record raw txid fee
  | .rejected _ => throw .broadcastRejected
  | .completed raw txid fee => check (execution record txid raw fee)

/-- Is the record bound to these facts? -/
def JournalRecord.Binds (record : JournalRecord) (validated : ValidatedRequest) : Prop :=
  record.pipelineCommitment = validated.pipelineCommitment ∧
    record.portalCommitment = validated.portalCommitment ∧
    record.outputTotalZat = validated.outputTotalZat

instance (record : JournalRecord) (validated : ValidatedRequest) :
    Decidable (record.Binds validated) :=
  inferInstanceAs (Decidable (_ ∧ _ ∧ _))

/-- The record of a batch that the journal does not hold. -/
def newRecord (validated : ValidatedRequest) : JournalRecord :=
  ⟨request.batch.batchId, validated.pipelineCommitment, validated.portalCommitment,
    validated.outputTotalZat, none, none, .reserved⟩

/-- Load the batch's record, or reserve a new one. -/
def loadOrReserve (validated : ValidatedRequest) : ZecM JournalRecord := do
  match ← loadJournal request.batch.batchId with
  | some record =>
    check (rejectIf (¬ record.Binds validated) .idempotencyConflict)
    pure record
  | none =>
    persist (newRecord request validated)
    pure (newRecord request validated)

/-- Continue from the stage that the record is at. -/
def executeLocked (validated : ValidatedRequest) (submit : Bool) : ZecM ZecPayoutExecution := do
  let record ← loadOrReserve request validated
  executeStage cfg request submit record

/-- What `recover_prepared` makes of a record. -/
def recoverRecord (record : JournalRecord) : Except ZecPayoutError (Option ZecPayoutExecution) :=
  match record.stage with
  | .prepared raw txid fee | .extracted raw txid fee | .broadcastUnresolved raw txid fee
  | .completed raw txid fee => do
    let payout ← execution record txid raw fee
    pure (some payout)
  | .rejected _ => .error .broadcastRejected
  | .reserved | .created _ _ | .createdVerified _ _ | .proved _ _ | .provedVerified _ _
  | .signed _ _ | .signedVerified _ _ _ => .ok none

/-- Read a finished record, and nothing else. -/
def recoverLocked (validated : ValidatedRequest) : ZecM (Option ZecPayoutExecution) := do
  match ← loadJournal request.batch.batchId with
  | none => pure none
  | some record =>
    check (rejectIf (¬ record.Binds validated) .idempotencyConflict)
    check (recoverRecord record)

/-! ## §6. Entry points -/

/-- The three public calls of the signer. -/
inductive EntryPoint
  | execute
  | prepare
  | recoverPrepared
deriving DecidableEq, Repr

structure ZecCommand where
  entry : EntryPoint
  request : ZecPayoutRequest
deriving DecidableEq, Repr

inductive ZecResponse
  | executed (execution : ZecPayoutExecution)
  | recovered (execution : Option ZecPayoutExecution)
deriving DecidableEq, Repr

/-- The body of an entry point, under the journal's lock. -/
def locked (command : ZecCommand) (validated : ValidatedRequest) : ZecM ZecResponse :=
  match command.entry with
  | .execute => do
    let execution ← executeLocked cfg command.request validated true
    pure (.executed execution)
  | .prepare => do
    let execution ← executeLocked cfg command.request validated false
    pure (.executed execution)
  | .recoverPrepared => do
    let execution ← recoverLocked command.request validated
    pure (.recovered execution)

/-- One call: validate, lock, then run the entry point. -/
def perform (command : ZecCommand) : ZecM ZecResponse := do
  validateWalletConfiguration
  let validated ← check (validateRequest cfg command.request)
  lockJournal
  locked cfg command validated

/-! ## §7. The world of the signer -/

/-- How the world answers: files may be unreadable at any time, and wallet and node answer
    anything. -/
def zecAnswers (journal : Journal) : (q : ZecQuery) → ZecAnswer q → Journal → Prop
  | .load batchId, answer, journal' =>
    (answer = journal.load batchId ∨ answer = .error .journalUnavailable ∨
      answer = .error .journalCorrupt) ∧ journal' = journal
  | .store record, answer, journal' =>
    WriteAnswer record.validate .journalUnavailable journal (journal.write record) answer journal'
  | .walletConfiguration, _, journal' => journal' = journal
  | .lock, _, journal' => journal' = journal
  | .checkpoint _, _, journal' => journal' = journal
  | .wallet _, _, journal' => journal' = journal
  | .sendRawTransaction _, _, journal' => journal' = journal

/-- The journal's lock keeps every other signer out. -/
def zecWorld : World Journal ZecQuery ZecAnswer := ⟨zecAnswers, fun _ _ => False⟩

theorem zecWorld_quiet : zecWorld.Quiet := fun _ _ h => h

end WcashPool.ZecSigner
