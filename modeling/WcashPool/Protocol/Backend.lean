/-
  WcashPool.Protocol.Backend — the journal events of the consensus backend and
  their validation (`backend.rs`).

  The projector accepts an event only after `BackendEvent.validate`.  The checks
  are written in the order of the source, so that the first violated one gives
  the reported field and reason.  SHA-256 and the JSON serializer are library
  code of the source; they enter as the parameter `External`.
-/
import WcashPool.Lib.Fallible
import WcashPool.Protocol.Basic

namespace WcashPool.Protocol

open Fallible

/-! ## §1. Wire values -/

/-- Stable worker attribution resolved by the pool edge. -/
structure WorkerIdentity where
  accountId : Uuid
  workerId : Uuid
  label : Text
deriving DecidableEq, Repr

/-- Exact proposal-validated work made available by the local backend. -/
structure JobDescriptor where
  jobId : Hex32
  wcashCandidateHashLe : Hex32
  headerInput : Hex108
  wcashPreviousHashLe : Hex32
  zcashPreviousHashLe : Hex32
  wcashCoinbaseTxidLe : Hex32
  zcashCoinbaseTxidLe : Hex32
  wcashTargetLe : TargetLe
  zcashTargetLe : TargetLe
  wcashHeight : ℕ
  zcashHeight : ℕ
  wcashRewardZat : ℕ
  zcashRewardZat : ℕ
  wcashMaturityConfirmations : ℕ
  zcashMaturityConfirmations : ℕ
  maxAgeMs : ℕ
deriving DecidableEq, Repr

/-- Why the backend stopped accepting new work for a generation. -/
inductive JobInvalidationReason
  | wcashTipChanged
  | zcashTipChanged
  | superseded
  | age
deriving DecidableEq, Repr

/-- Immutable facts about one exact network-target winner. -/
structure WinnerDescriptor where
  chain : MergedChain
  blockHashLe : Hex32
  height : ℕ
  coinbaseTxidLe : Hex32
  rewardZat : ℕ
  maturityConfirmations : ℕ
deriving DecidableEq, Repr

/-- What identifies the block reward. -/
abbrev WinnerDescriptor.key (winner : WinnerDescriptor) : MergedChain × Hex32 :=
  (winner.chain, winner.blockHashLe)

/-- Exact best-chain tip sampled while observing one winner. -/
structure ChainTip where
  blockHashLe : Hex32
  height : ℕ
deriving DecidableEq, Repr

/-- Wire representation of an atomic validate-and-journal result. -/
structure ShareReceipt where
  eventSeq : ℕ
  jobId : Hex32
  shareId : Hex32
  attributionId : Hex32
  parentHashLe : Hex32
  winners : List WinnerDescriptor
deriving DecidableEq, Repr

/-- One immutable record exposed to the PostgreSQL projection. -/
inductive BackendEvent
  | jobActivated (eventSeq : ℕ) (job : JobDescriptor)
  | jobInvalidated (eventSeq : ℕ) (jobId : Hex32) (reason : JobInvalidationReason)
      (acceptForMs : ℕ)
  | generationClosed (eventSeq : ℕ) (jobId : Hex32)
  | shareCommitted (receipt : ShareReceipt) (jobId : Hex32) (identity : WorkerIdentity)
      (targetLe : TargetLe)
  | winnerObserved (eventSeq : ℕ) (shareId jobId : Hex32) (winner : WinnerDescriptor)
      (tip : ChainTip) (confirmations : ℕ)
  | winnerSideChain (eventSeq : ℕ) (shareId jobId : Hex32) (winner : WinnerDescriptor)
      (tip : ChainTip)
  | winnerOrphaned (eventSeq : ℕ) (shareId jobId : Hex32) (winner : WinnerDescriptor)
      (tip : ChainTip)
  | winnerQuarantined (eventSeq : ℕ) (shareId jobId : Hex32) (winner : WinnerDescriptor)
      (tip : ChainTip)
  | winnerRequeued (eventSeq : ℕ) (shareId jobId : Hex32) (winner : WinnerDescriptor)
      (tip : ChainTip)
  | winnerMatured (eventSeq : ℕ) (shareId jobId : Hex32) (winner : WinnerDescriptor)
      (tip : ChainTip) (confirmations : ℕ)
deriving DecidableEq, Repr

/-- The event's authoritative journal sequence. -/
def BackendEvent.eventSeq : BackendEvent → ℕ
  | jobActivated eventSeq _ => eventSeq
  | jobInvalidated eventSeq _ _ _ => eventSeq
  | generationClosed eventSeq _ => eventSeq
  | shareCommitted receipt _ _ _ => receipt.eventSeq
  | winnerObserved eventSeq _ _ _ _ _ => eventSeq
  | winnerSideChain eventSeq _ _ _ _ => eventSeq
  | winnerOrphaned eventSeq _ _ _ _ => eventSeq
  | winnerQuarantined eventSeq _ _ _ _ => eventSeq
  | winnerRequeued eventSeq _ _ _ _ => eventSeq
  | winnerMatured eventSeq _ _ _ _ _ => eventSeq

/-- The library functions that the source calls and this development does not model. -/
structure External where
  /-- The SHA-256 digest. -/
  sha256 : List UInt8 → Hex32
  /-- The canonical JSON bytes of an event. -/
  toJson : BackendEvent → List UInt8

/-! ## §2. Field checks -/

abbrev Check := Except ProtocolError Unit

/-- One field check: reject `bad` with the field's name and the reason. -/
def checkField (bad : Prop) [Decidable bad] (field reason : String) : Check :=
  rejectIf bad (.invalidField field reason)

def requireNonNilUuid (value : Uuid) (field : String) : Check :=
  checkField value.isNil field "must not be the nil UUID"

def requireNonzeroTarget (value : TargetLe) (field : String) : Check :=
  checkField value.isZero field "must be nonzero"

def requireNonzeroHex {n : ℕ} (value : FixedHex n) (field : String) : Check :=
  checkField value.isZero field "must be nonzero"

def validateReward (value : ℕ) (field : String) : Check :=
  checkField (value > maxChainValueZat) field "must be no greater than 2100000000000000 zatoshi"

/-- Defensive wire bound for a chain's coinbase maturity requirement. -/
def maxMaturityConfirmations : ℕ := 1_000_000

def validateMaturity (value : ℕ) (field : String) : Check :=
  checkField (¬ (1 ≤ value ∧ value ≤ maxMaturityConfirmations)) field "must be in 1..=1000000"

/-- ASCII letters, digits, `.`, `-`, `_` and `:`. -/
def labelByte (byte : UInt8) : Bool :=
  (48 ≤ byte && byte ≤ 57) || (65 ≤ byte && byte ≤ 90) || (97 ≤ byte && byte ≤ 122) ||
    byte == 46 || byte == 45 || byte == 95 || byte == 58

def asciiControl (byte : UInt8) : Bool := byte < 32 || byte == 127

def validateWorkerLabel (label : Text) : Check := do
  checkField (¬ (1 ≤ label.length ∧ label.length ≤ 128)) "worker.label"
    "must contain 1..=128 bytes"
  checkField (label.any asciiControl) "worker.label" "must not contain control bytes"
  checkField (¬ label.all labelByte) "worker.label"
    "must use ASCII letters, digits, '.', '-', '_', or ':'"

/-- The checks on a worker. -/
def WorkerIdentity.validate (identity : WorkerIdentity) : Check := do
  requireNonNilUuid identity.accountId "worker.account_id"
  requireNonNilUuid identity.workerId "worker.worker_id"
  validateWorkerLabel identity.label

/-- The bytes of `value` as a big-endian 16-bit integer. -/
def beBytes16 (value : ℕ) : List UInt8 := [UInt8.ofNat (value / 256), UInt8.ofNat value]

/-- `wcash-pool/attribution-id/v1`. -/
def attributionIdDomain : Text :=
  [119, 99, 97, 115, 104, 45, 112, 111, 111, 108, 47, 97, 116, 116, 114, 105, 98, 117, 116, 105,
    111, 110, 45, 105, 100, 47, 118, 49]

/-- The stable attribution bound into every durable share receipt. -/
def canonicalAttributionId (ext : External) (identity : WorkerIdentity) (targetLe : TargetLe) :
    Except ProtocolError Hex32 := do
  identity.validate
  requireNonzeroTarget targetLe "attribution.target_le"
  checkField (identity.label.length ≥ 2 ^ 16) "worker.label"
    "length cannot be represented canonically"
  pure (ext.sha256 (attributionIdDomain ++ identity.accountId.asBytes ++ identity.workerId.asBytes
    ++ beBytes16 identity.label.length ++ identity.label ++ targetLe.asBytes))

def validateV4HeaderInput (headerInput : Hex108) (versionField timeField : String) : Check := do
  checkField (headerInput.slice 0 4 ≠ 4) versionField
    "must be the exact little-endian version bytes 04000000"
  checkField (headerInput.slice 100 4).isZero timeField "must be nonzero"

/-! ## §3. Validation -/

/-- The checks on a job. -/
def JobDescriptor.validate (job : JobDescriptor) : Check := do
  requireNonzeroHex job.jobId "job.job_id"
  requireNonzeroHex job.wcashCandidateHashLe "job.wcash_candidate_hash_le"
  validateV4HeaderInput job.headerInput "job.header_input.version" "job.header_input.time"
  requireNonzeroHex job.wcashPreviousHashLe "job.wcash_previous_hash_le"
  requireNonzeroHex job.zcashPreviousHashLe "job.zcash_previous_hash_le"
  requireNonzeroHex job.wcashCoinbaseTxidLe "job.wcash_coinbase_txid_le"
  requireNonzeroHex job.zcashCoinbaseTxidLe "job.zcash_coinbase_txid_le"
  checkField (job.headerInput.slice 4 32 ≠ job.zcashPreviousHashLe) "job.zcash_previous_hash_le"
    "must match the predecessor bytes in header_input"
  requireNonzeroTarget job.wcashTargetLe "job.wcash_target_le"
  requireNonzeroTarget job.zcashTargetLe "job.zcash_target_le"
  checkField (job.wcashHeight = 0) "job.wcash_height" "must be positive"
  checkField (job.zcashHeight = 0) "job.zcash_height" "must be positive"
  validateReward job.wcashRewardZat "job.wcash_reward_zat"
  validateReward job.zcashRewardZat "job.zcash_reward_zat"
  validateMaturity job.wcashMaturityConfirmations "job.wcash_maturity_confirmations"
  validateMaturity job.zcashMaturityConfirmations "job.zcash_maturity_confirmations"
  checkField (¬ (1 ≤ job.maxAgeMs ∧ job.maxAgeMs ≤ 600_000)) "job.max_age_ms"
    "must be in 1..=600000"

/-- The checks on a winner. -/
def WinnerDescriptor.validate (winner : WinnerDescriptor) : Check := do
  requireNonzeroHex winner.blockHashLe "winner.block_hash_le"
  checkField (winner.height = 0) "winner.height" "must be positive"
  requireNonzeroHex winner.coinbaseTxidLe "winner.coinbase_txid_le"
  validateReward winner.rewardZat "winner.reward_zat"
  validateMaturity winner.maturityConfirmations "winner.maturity_confirmations"

/-- The facts of a job on one of its two chains. -/
structure JobChainFacts where
  height : ℕ
  reward : ℕ
  maturity : ℕ
  coinbaseTxid : Hex32

def JobDescriptor.chainFacts (job : JobDescriptor) : MergedChain → JobChainFacts
  | .wcash => ⟨job.wcashHeight, job.wcashRewardZat, job.wcashMaturityConfirmations,
      job.wcashCoinbaseTxidLe⟩
  | .zcash => ⟨job.zcashHeight, job.zcashRewardZat, job.zcashMaturityConfirmations,
      job.zcashCoinbaseTxidLe⟩

/-- Immutable reward facts must match the generation that produced them. -/
def WinnerDescriptor.validateForJob (winner : WinnerDescriptor) (job : JobDescriptor) : Check := do
  job.validate
  winner.validate
  let facts := job.chainFacts winner.chain
  checkField (winner.chain = .wcash ∧ winner.blockHashLe ≠ job.wcashCandidateHashLe)
    "winner.block_hash_le" "must match the proof-independent Wcash candidate hash in its job"
  checkField (winner.coinbaseTxidLe ≠ facts.coinbaseTxid) "winner.coinbase_txid_le"
    "must match the winning chain coinbase transaction ID in its job"
  checkField (winner.height ≠ facts.height) "winner.height"
    "must match the winning chain height in its job"
  checkField (winner.rewardZat ≠ facts.reward) "winner.reward_zat"
    "must match the winning chain reward in its job"
  checkField (winner.maturityConfirmations ≠ facts.maturity) "winner.maturity_confirmations"
    "must match the winning chain maturity in its job"

def ChainTip.validate (tip : ChainTip) : Check :=
  requireNonzeroHex tip.blockHashLe "winner_tip.block_hash_le"

/-- The loop over a receipt's winners: each valid, chains in strictly increasing order. -/
def validateWinners (parentHashLe : Hex32) :
    Option MergedChain → List WinnerDescriptor → Check
  | _, [] => .ok ()
  | previous, winner :: winners => do
    winner.validate
    checkField (∃ chain ∈ previous, chain.rank ≥ winner.chain.rank) "share_receipt.winners"
      "must be unique and ordered wcash before zcash"
    checkField (winner.chain = .zcash ∧ winner.blockHashLe ≠ parentHashLe) "share_receipt.winners"
      "zcash winner hash must equal the validated parent header hash"
    validateWinners parentHashLe (some winner.chain) winners

/-- The checks on a receipt. -/
def ShareReceipt.validate (receipt : ShareReceipt) : Check := do
  checkField (receipt.eventSeq = 0) "share_receipt.event_seq" "must be positive"
  requireNonzeroHex receipt.jobId "share_receipt.job_id"
  requireNonzeroHex receipt.shareId "share_receipt.share_id"
  requireNonzeroHex receipt.attributionId "share_receipt.attribution_id"
  requireNonzeroHex receipt.parentHashLe "share_receipt.parent_hash_le"
  checkField (receipt.winners.length > 2) "share_receipt.winners"
    "must contain at most one winner per merged chain"
  validateWinners receipt.parentHashLe none receipt.winners

/-- This receipt and all its winners belong to one exact generation. -/
def ShareReceipt.validateForJob (receipt : ShareReceipt) (job : JobDescriptor) : Check := do
  job.validate
  receipt.validate
  checkField (receipt.jobId ≠ job.jobId) "share_receipt.job_id"
    "must match the submitted backend generation"
  receipt.winners.forM (·.validateForJob job)

section WinnerEvents

variable (shareId jobId : Hex32) (winner : WinnerDescriptor)

def validateWinnerReference : Check := do
  requireNonzeroHex shareId "winner_event.share_id"
  requireNonzeroHex jobId "winner_event.job_id"
  winner.validate

def validateWinnerObservation (tip : ChainTip) (confirmations : ℕ) (matured : Bool) : Check := do
  validateWinnerReference shareId jobId winner
  tip.validate
  checkField (¬ (tip.blockHashLe = winner.blockHashLe ↔ tip.height = winner.height))
    "winner_event.tip" "tip hash must equal the winner hash exactly at the winner height"
  -- `checked_sub` then `checked_add(1)`, both in 32 bits
  checkField (tip.height < winner.height ∨ tip.height - winner.height + 1 ≥ 2 ^ 32)
    "winner_event.confirmations" "tip height must be at or above the winner height"
  checkField (confirmations ≠ tip.height - winner.height + 1) "winner_event.confirmations"
    "must equal tip height minus winner height plus one"
  checkField (matured ∧ confirmations < winner.maturityConfirmations) "winner_event.confirmations"
    "matured winner has not reached its immutable confirmation requirement"

def validateZcashWinnerSideChain (tip : ChainTip) : Check := do
  validateWinnerReference shareId jobId winner
  tip.validate
  checkField (winner.chain ≠ .zcash) "winner_event.chain" "side-chain monitoring requires Zcash"
  checkField (tip.blockHashLe = winner.blockHashLe) "winner_event.tip"
    "side-chain tip must not be the candidate block"

def validateWinnerOrphan (tip : ChainTip) : Check := do
  validateWinnerReference shareId jobId winner
  tip.validate
  checkField (tip.blockHashLe = winner.blockHashLe) "winner_event.tip"
    "orphan replacement tip must not be the winning block"

def validateWcashWinnerTransition (tip : ChainTip) : Check := do
  validateWinnerReference shareId jobId winner
  checkField (winner.chain ≠ .wcash) "winner_event.winner.chain"
    "conflicting-witness quarantine is Wcash-only"
  tip.validate

def validateWcashWinnerQuarantine (tip : ChainTip) : Check := do
  validateWcashWinnerTransition shareId jobId winner tip
  checkField (tip.height < winner.height) "winner_event.tip"
    "quarantine tip must be at or above the Wcash winner height"
  checkField (tip.blockHashLe = winner.blockHashLe ∧ tip.height ≠ winner.height) "winner_event.tip"
    "the Wcash winner ID cannot appear at a different tip height"

def validateWcashWinnerRequeue (tip : ChainTip) : Check := do
  validateWcashWinnerTransition shareId jobId winner tip
  checkField (tip.blockHashLe = winner.blockHashLe) "winner_event.tip"
    "requeue tip must not be the quarantined Wcash winner"

end WinnerEvents

/-- Event-specific bounds and nested wire values. -/
def BackendEvent.validate (ext : External) (event : BackendEvent) : Check := do
  checkField (event.eventSeq = 0) "event.event_seq" "must be positive"
  match event with
  | .jobActivated _ job => job.validate
  | .jobInvalidated _ jobId reason acceptForMs => do
    requireNonzeroHex jobId "event.job_id"
    match reason with
    | .wcashTipChanged | .zcashTipChanged =>
      checkField (acceptForMs ≠ 0) "event.accept_for_ms" "tip changes must be immediately stale"
    | .superseded =>
      checkField (¬ (1 ≤ acceptForMs ∧ acceptForMs ≤ 60_000)) "event.accept_for_ms"
        "superseded work needs 1..=60000 milliseconds of grace"
    | .age =>
      checkField (acceptForMs ≠ 0) "event.accept_for_ms"
        "age-expired work must be immediately stale"
  | .generationClosed _ jobId => requireNonzeroHex jobId "event.job_id"
  | .shareCommitted receipt jobId identity targetLe => do
    receipt.validate
    requireNonzeroHex jobId "event.job_id"
    checkField (receipt.jobId ≠ jobId) "event.job_id" "must match share_receipt.job_id"
    let attributionId ← canonicalAttributionId ext identity targetLe
    checkField (receipt.attributionId ≠ attributionId) "event.attribution"
      "must match share_receipt.attribution_id"
    identity.validate
    requireNonzeroTarget targetLe "event.target_le"
  | .winnerObserved _ shareId jobId winner tip confirmations =>
    validateWinnerObservation shareId jobId winner tip confirmations false
  | .winnerSideChain _ shareId jobId winner tip =>
    validateZcashWinnerSideChain shareId jobId winner tip
  | .winnerOrphaned _ shareId jobId winner tip => validateWinnerOrphan shareId jobId winner tip
  | .winnerQuarantined _ shareId jobId winner tip =>
    validateWcashWinnerQuarantine shareId jobId winner tip
  | .winnerRequeued _ shareId jobId winner tip =>
    validateWcashWinnerRequeue shareId jobId winner tip
  | .winnerMatured _ shareId jobId winner tip confirmations =>
    validateWinnerObservation shareId jobId winner tip confirmations true

end WcashPool.Protocol
