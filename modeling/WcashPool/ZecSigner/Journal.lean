/-
  WcashPool.ZecSigner.Journal — what the ZEC payout signer writes down
  (`JournalRecord`, `StoredStage`, `Journal::load`, `Journal::store`).

  One record per batch.  It passes through ten stages: the first seven hold the
  partially created transaction (PCZT) that the wallet works on, the later ones
  the exact raw transaction.  From the third stage on the record also holds the
  digest of the transaction's effects and the network fee.
-/
import WcashPool.Lib.Durable
import WcashPool.Portal.Signer

namespace WcashPool.ZecSigner

open Fallible Protocol Store Portal Durable

/-! ## §1. Errors and stages -/

/-- The errors of the pipeline. -/
inductive ZecPayoutError
  | invalidRequest
  | wrongAsset
  | wrongNetwork
  | wrongAccount
  | wrongFundSource
  | unsafeWalletConfiguration
  | idempotencyConflict
  | journalUnavailable
  | journalCorrupt
  | walletRpcUnavailable
  | walletRejected
  | walletProtocolViolation
  | broadcastRejected
  | broadcastAmbiguous
  | interrupted
deriving DecidableEq, Repr

/-- The stages that a checkpoint names. -/
inductive PipelineStage
  | reserved
  | created
  | createdVerified
  | proved
  | provedVerified
  | signed
  | signedVerified
  | extracted
  | broadcastUnresolved
  | rejected
  | completed
deriving DecidableEq, Repr

/-- `extracted` is a stage of an older executor; nothing writes it any more. -/
inductive StoredStage
  | reserved
  | created (pczt privacyPolicy : Text)
  | createdVerified (pczt privacyPolicy : Text)
  | proved (pczt privacyPolicy : Text)
  | provedVerified (pczt privacyPolicy : Text)
  | signed (pczt privacyPolicy : Text)
  | signedVerified (pczt privacyPolicy : Text) (networkFeeZat : ℕ)
  | extracted (rawTransaction transactionId : Text) (networkFeeZat : ℕ)
  | prepared (rawTransaction transactionId : Text) (networkFeeZat : ℕ)
  | broadcastUnresolved (rawTransaction transactionId : Text) (networkFeeZat : ℕ)
  | rejected (transactionId : Text)
  | completed (rawTransaction transactionId : Text) (networkFeeZat : ℕ)
deriving DecidableEq, Repr

def maxPcztBytes : ℕ := 8 * 1024 * 1024

def maxRawTxHexBytes : ℕ := 4 * 1024 * 1024

def isBase64 (byte : UInt8) : Bool :=
  (48 ≤ byte && byte ≤ 57) || (65 ≤ byte && byte ≤ 90) || (97 ≤ byte && byte ≤ 122) ||
    byte == 43 || byte == 47 || byte == 61

/-- The text of a PCZT: bounded, and in the alphabet of base 64. -/
def validPczt (pczt : Text) : Prop :=
  pczt ≠ [] ∧ pczt.length ≤ maxPcztBytes ∧ pczt.all isBase64

instance (pczt : Text) : Decidable (validPczt pczt) := inferInstanceAs (Decidable (_ ∧ _ ∧ _))

def fullPrivacy : Text := ascii "FullPrivacy"

def allowRevealedAmounts : Text := ascii "AllowRevealedAmounts"

def allowRevealedRecipients : Text := ascii "AllowRevealedRecipients"

def validRawTransaction (rawTransaction : Text) : Prop :=
  rawTransaction ≠ [] ∧ rawTransaction.length ≤ maxRawTxHexBytes ∧
    rawTransaction.length % 2 = 0 ∧ rawTransaction.all isLowerHex

instance (rawTransaction : Text) : Decidable (validRawTransaction rawTransaction) :=
  inferInstanceAs (Decidable (_ ∧ _ ∧ _ ∧ _))

def validTransactionId (transactionId : Text) : Prop :=
  transactionId.length = 64 ∧ transactionId.all isLowerHex

instance (transactionId : Text) : Decidable (validTransactionId transactionId) :=
  inferInstanceAs (Decidable (_ ∧ _))

def validateRawTransaction (rawTransaction : Text) : Except ZecPayoutError Unit :=
  rejectIf (¬ validRawTransaction rawTransaction) .journalCorrupt

def validateTransactionId (transactionId : Text) : Except ZecPayoutError Unit :=
  rejectIf (¬ validTransactionId transactionId) .journalCorrupt

namespace StoredStage

/-- The stage that checkpoints report. -/
def publicStage : StoredStage → PipelineStage
  | .reserved => .reserved
  | .created _ _ => .created
  | .createdVerified _ _ => .createdVerified
  | .proved _ _ => .proved
  | .provedVerified _ _ => .provedVerified
  | .signed _ _ => .signed
  | .signedVerified _ _ _ => .signedVerified
  | .extracted _ _ _ | .prepared _ _ _ => .extracted
  | .broadcastUnresolved _ _ _ => .broadcastUnresolved
  | .rejected _ => .rejected
  | .completed _ _ _ => .completed

@[simp] def networkFeeZat : StoredStage → Option ℕ
  | .signedVerified _ _ fee | .extracted _ _ fee | .prepared _ _ fee
  | .broadcastUnresolved _ _ fee | .completed _ _ fee => some fee
  | .reserved | .created _ _ | .createdVerified _ _ | .proved _ _ | .provedVerified _ _
  | .signed _ _ | .rejected _ => none

/-- The checks on what a stage stores. -/
def validate : StoredStage → Except ZecPayoutError Unit
  | .reserved => .ok ()
  | .created pczt policy | .createdVerified pczt policy | .proved pczt policy
  | .provedVerified pczt policy | .signed pczt policy | .signedVerified pczt policy _ =>
    rejectIf (¬ validPczt pczt ∨ policy ∉ [fullPrivacy, allowRevealedAmounts,
      allowRevealedRecipients]) .journalCorrupt
  | .extracted raw txid fee | .prepared raw txid fee | .broadcastUnresolved raw txid fee
  | .completed raw txid fee => do
    rejectIf (fee = 0) .journalCorrupt
    validateRawTransaction raw
    validateTransactionId txid
  | .rejected txid => validateTransactionId txid

/-- Does the stage come before the effects were verified? -/
@[simp] def unverified : StoredStage → Bool
  | .reserved | .created _ _ => true
  | _ => false

end StoredStage

/-! ## §2. Records -/

/-- One batch in the journal. -/
structure JournalRecord where
  batchId : Uuid
  pipelineCommitment : Hex32
  portalCommitment : Hex32
  outputTotalZat : ℕ
  consensusEffectsDigest : Option Hex32
  consensusNetworkFeeZat : Option ℕ
  stage : StoredStage
deriving DecidableEq, Repr

/-- Digest and fee are there from the verification on, and only from then on. -/
def JournalRecord.effectsPresent (record : JournalRecord) : Bool :=
  match record.stage.unverified, record.consensusEffectsDigest, record.consensusNetworkFeeZat with
  | true, none, none => true
  | false, some digest, some fee => decide (¬ digest.isZero ∧ fee ≠ 0)
  | _, _, _ => false

/-- The checks on a record that is read or written. -/
def JournalRecord.validate (record : JournalRecord) : Except ZecPayoutError Unit := do
  rejectIf (¬ record.effectsPresent) .journalCorrupt
  rejectIf (record.stage.networkFeeZat ≠ none ∧
    record.stage.networkFeeZat ≠ record.consensusNetworkFeeZat) .journalCorrupt
  record.stage.validate

/-- The records by batch. -/
abbrev Journal := Records Uuid JournalRecord

/-- What a record must meet to be read as that of `batchId`. -/
def JournalRecord.check (batchId : Uuid) (record : JournalRecord) : Except ZecPayoutError Unit := do
  rejectIf (record.batchId ≠ batchId ∨ record.pipelineCommitment.isZero ∨
    record.portalCommitment.isZero ∨ record.outputTotalZat = 0) .journalCorrupt
  record.validate

theorem JournalRecord.batchId_of_check {batchId : Uuid} {record : JournalRecord}
    (h : record.check batchId = .ok ()) : record.batchId = batchId := by
  obtain ⟨_, hchecks, -⟩ := bind_eq_ok.mp h
  rw [rejectIf_eq_ok, not_or, not_not] at hchecks
  exact hchecks.1

/-- What `load` makes of the file of a batch, where it can be read. -/
def Journal.load (journal : Journal) (batchId : Uuid) :
    Except ZecPayoutError (Option JournalRecord) :=
  Durable.load JournalRecord.check journal batchId

/-- The file of the record's batch is replaced. -/
def Journal.write (journal : Journal) (record : JournalRecord) : Journal :=
  put journal record.batchId record

/-! ## §3. How far a record is -/

@[simp] def StoredStage.rank : StoredStage → ℕ
  | .reserved => 0
  | .created _ _ => 1
  | .createdVerified _ _ => 2
  | .proved _ _ => 3
  | .provedVerified _ _ => 4
  | .signed _ _ => 5
  | .signedVerified _ _ _ => 6
  | .extracted _ _ _ => 7
  | .prepared _ _ _ => 7
  | .broadcastUnresolved _ _ _ => 8
  | .rejected _ => 9
  | .completed _ _ _ => 9

/-- The PCZT of a stage whose effects were verified. -/
@[simp] def StoredStage.approvedPczt : StoredStage → Option Text
  | .createdVerified pczt _ | .proved pczt _ | .provedVerified pczt _ | .signed pczt _
  | .signedVerified pczt _ _ => some pczt
  | _ => none

/-- The raw transaction of a stage, with its identifier and fee. -/
@[simp] def StoredStage.transaction : StoredStage → Option (Text × Text × ℕ)
  | .extracted raw txid fee | .prepared raw txid fee | .broadcastUnresolved raw txid fee
  | .completed raw txid fee => some (raw, txid, fee)
  | _ => none

end WcashPool.ZecSigner
