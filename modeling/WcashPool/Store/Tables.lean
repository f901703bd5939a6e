/-
  WcashPool.Store.Tables — the durable state of one deployment.

  One `Database` is the content of the database for one deployment: a table per
  table of the schema, each with its primary key, the per-chain policy and
  safety rows, and the ledger in the order of `ledger_sequence`.  The lines of a
  ledger transaction are kept inside it, and so are the items of a payout
  batch: in both cases parent and children are written in one transaction and
  sealed.  A policy row carries the CHECK constraints of its table, so a policy
  that the schema refuses cannot be built.

  Times are whole seconds of the database clock.
-/
import WcashPool.Lib.DoubleEntry
import WcashPool.Lib.Table
import WcashPool.Protocol.Backend
import WcashPool.Store.NetworkFee

namespace WcashPool.Store

open Protocol DoubleEntry

/-! ## §1. One value per chain -/

/-- A value for each of the two chains. -/
structure PerChain (α : Type) where
  wcash : α
  zcash : α
deriving DecidableEq, Repr

namespace PerChain

variable {α : Type}

def get (p : PerChain α) : Chain → α
  | .wcash => p.wcash
  | .zcash => p.zcash

def set (p : PerChain α) (chain : Chain) (a : α) : PerChain α :=
  match chain with
  | .wcash => { p with wcash := a }
  | .zcash => { p with zcash := a }

theorem get_set (p : PerChain α) (chain : Chain) (a : α) (c : Chain) :
    (p.set chain a).get c = if c = chain then a else p.get c := by
  cases chain <;> cases c <;> rfl

end PerChain

/-! ## §2. Policy and safety rows -/

/-- Versioned, chain-specific public accounting policy. -/
structure ChainPolicy where
  pplnsWindowWork : ℕ
  feeBps : ℕ
  payoutThresholdZat : ℕ
  requiredConfirmations : ℕ
  payoutConfirmations : ℕ
  maximumPayoutOutputs : ℕ
  minimumPayoutZat : ℕ
  maximumPayoutZat : ℕ
  payoutSkipBps : ℕ
  maximumNetworkFeeZat : ℕ
  maximumNetworkFeeBps : ℕ
  policyVersion : ℕ
  window_pos : 0 < pplnsWindowWork
  fee_le : feeBps ≤ 1000
  threshold_pos : 0 < payoutThresholdZat
  threshold_fits : payoutThresholdZat < 2 ^ 63
  required_range : 100 ≤ requiredConfirmations ∧ requiredConfirmations ≤ 1_000_000
  payout_range : 1 ≤ payoutConfirmations ∧ payoutConfirmations ≤ requiredConfirmations
  outputs_range : 1 ≤ maximumPayoutOutputs ∧ maximumPayoutOutputs ≤ 200
  minimum_pos : 0 < minimumPayoutZat
  minimum_le : minimumPayoutZat ≤ maximumPayoutZat
  maximum_fits : maximumPayoutZat < 2 ^ 63
  skip_le : payoutSkipBps ≤ 10_000
  networkFee_fits : maximumNetworkFeeZat < 2 ^ 63
  networkFeeBps_range : 1 ≤ maximumNetworkFeeBps ∧ maximumNetworkFeeBps ≤ 1000
  version_pos : 0 < policyVersion
deriving DecidableEq

/-- A small policy: a window of 4 units of work, a fee of 1%, payouts from 1 zatoshi on. -/
def samplePolicy : ChainPolicy where
  pplnsWindowWork := 4
  feeBps := 100
  payoutThresholdZat := 1
  requiredConfirmations := 100
  payoutConfirmations := 1
  maximumPayoutOutputs := 10
  minimumPayoutZat := 1
  maximumPayoutZat := 1_000_000
  payoutSkipBps := 0
  maximumNetworkFeeZat := 10
  maximumNetworkFeeBps := 1000
  policyVersion := 1
  window_pos := by decide
  fee_le := by decide
  threshold_pos := by decide
  threshold_fits := by decide
  required_range := by decide
  payout_range := by decide
  outputs_range := by decide
  minimum_pos := by decide
  minimum_le := by decide
  maximum_fits := by decide
  skip_le := by decide
  networkFee_fits := by decide
  networkFeeBps_range := by decide
  version_pos := by decide

/-- The accepted causes of a payout freeze. -/
inductive FreezeReason
  | walletReconciliationMismatch
  | confirmedPayoutReorg
  | maturedWinnerReorg
  | maturedWinnerDepthRegression
deriving DecidableEq, Repr

/-- The safety row of a chain. -/
structure ChainSafety where
  payoutsFrozen : Bool
  frozenByBackendEventSeq : Option ℕ
  freezeReason : Option FreezeReason
deriving DecidableEq, Repr

/-! ## §3. Projected journal, accounts and shares -/

/-- `backend_events` -/
structure EventRow where
  eventSeq : ℕ
  payload : BackendEvent
  payloadSha256 : Hex32
deriving DecidableEq, Repr

/-- `accounts` -/
structure AccountRow where
  id : Uuid
  login : Text
deriving DecidableEq, Repr

/-- `workers` -/
structure WorkerRow where
  id : Uuid
  accountId : Uuid
  label : Text
  canonicalLogin : Text
deriving DecidableEq, Repr

/-- `jobs` -/
structure JobRow where
  jobId : Hex32
  activationEventSeq : ℕ
  descriptor : JobDescriptor
deriving DecidableEq, Repr

/-- `shares` -/
structure ShareRow where
  shareId : Hex32
  eventSeq : ℕ
  jobId : Hex32
  accountId : Uuid
  workerId : Uuid
  targetLe : TargetLe
  work : ℕ
  parentHashLe : Hex32
deriving DecidableEq, Repr

/-! ## §4. Winners -/

/-- The lifecycle states of a winner and of each of its proofs. -/
inductive WinnerState
  | submitted
  | sideChain
  | observed
  | matured
  | quarantined
  | requeued
  | orphaned
deriving DecidableEq, Repr

/-- `winners`: one row per economic block reward. -/
structure WinnerRow where
  chain : Chain
  blockHashLe : Hex32
  shareId : Hex32
  jobId : Hex32
  height : ℕ
  coinbaseTxidLe : Hex32
  rewardZat : ℕ
  maturityConfirmations : ℕ
  state : WinnerState
  activeProofShareId : Option Hex32
  activeObservationEventSeq : Option ℕ
  activeMaturityEventSeq : Option ℕ
deriving DecidableEq, Repr

abbrev WinnerRow.key (w : WinnerRow) : Chain × Hex32 := (w.chain, w.blockHashLe)

/-- `winner_proofs`: one row per committed proof of a winner. -/
structure WinnerProofRow where
  chain : Chain
  blockHashLe : Hex32
  shareId : Hex32
  jobId : Hex32
  state : WinnerState
deriving DecidableEq, Repr

abbrev WinnerProofRow.key (p : WinnerProofRow) : Chain × Hex32 × Hex32 :=
  (p.chain, p.blockHashLe, p.shareId)

/-- `winner_allocations` -/
structure WinnerAllocationRow where
  chain : Chain
  blockHashLe : Hex32
  observationEventSeq : ℕ
  policyVersion : ℕ
  accountId : Uuid
  selectedWork : ℕ
  amountZat : ℕ
deriving DecidableEq, Repr

abbrev WinnerAllocationRow.key (a : WinnerAllocationRow) : (Chain × Hex32) × ℕ × Uuid :=
  ((a.chain, a.blockHashLe), a.observationEventSeq, a.accountId)

/-! ## §5. The ledger -/

inductive LedgerAccount
  | collectorImmatureAsset
  | collectorSpendableAsset
  | minerImmature
  | minerPayable
  | payoutPending
  | poolFeeUnearned
  | poolEquity
  | networkFeeExpense
  | minerNetworkFeeContribution
deriving DecidableEq, Repr

/-- A place of the chart of accounts.  Three of the ledger accounts are kept per miner; the
    CHECK that a line names a miner exactly there holds by construction. -/
inductive LedgerPlace
  | collectorImmatureAsset
  | collectorSpendableAsset
  | minerImmature (accountId : Uuid)
  | minerPayable (accountId : Uuid)
  | payoutPending (accountId : Uuid)
  | poolFeeUnearned
  | poolEquity
  | networkFeeExpense
  | minerNetworkFeeContribution
deriving DecidableEq, Repr

namespace LedgerPlace

def accountId : LedgerPlace → Option Uuid
  | minerImmature accountId | minerPayable accountId | payoutPending accountId => some accountId
  | _ => none

def ledgerAccount : LedgerPlace → LedgerAccount
  | collectorImmatureAsset => .collectorImmatureAsset
  | collectorSpendableAsset => .collectorSpendableAsset
  | minerImmature _ => .minerImmature
  | minerPayable _ => .minerPayable
  | payoutPending _ => .payoutPending
  | poolFeeUnearned => .poolFeeUnearned
  | poolEquity => .poolEquity
  | networkFeeExpense => .networkFeeExpense
  | minerNetworkFeeContribution => .minerNetworkFeeContribution

end LedgerPlace

/-- The kinds of ledger transactions. -/
inductive LedgerKind
  | winnerObserved
  | winnerMatured
  | winnerDematured
  | winnerOrphaned
  | winnerQuarantined
  | payoutReserved
  | payoutReleased
  | payoutConfirmed
  | operatorCapitalFunded
deriving DecidableEq, Repr

/-- What a ledger transaction is about: the `reference` column, before it is spelled as text. -/
inductive LedgerReference
  | winner (key : Chain × Hex32)
  | payout (batchId : Uuid)
  | openingPoolEquity (chain : Chain)
deriving DecidableEq, Repr

abbrev LedgerEntry := Line LedgerPlace

/-- Lines that may be sealed: some lines, none of them zero, and in balance. -/
abbrev Sealable (entries : List LedgerEntry) : Prop :=
  entries ≠ [] ∧ (∀ e ∈ entries, e.amount ≠ 0) ∧ (entries.map (·.amount)).sum = 0

/-- The content of a ledger transaction, its lines in `line_no` order. -/
structure Posting where
  chain : Chain
  kind : LedgerKind
  backendEventSeq : Option ℕ
  reference : LedgerReference
  entries : List LedgerEntry
deriving DecidableEq, Repr

/-- `ledger_transactions` with its sealed `ledger_entries`. -/
structure LedgerTransaction extends Posting where
  id : Uuid
  ledgerSequence : ℕ
  isSealed : Sealable entries
deriving DecidableEq

/-- The columns of the key `ledger_backend_event_kind_key`, where the event is not null. -/
def Posting.eventKind (t : Posting) : Option (ℕ × LedgerKind) :=
  t.backendEventSeq.map (·, t.kind)

/-- The ledger, in the order of `ledger_sequence`, with its two keys. -/
structure Ledger where
  transactions : List LedgerTransaction
  ids_nodup : (transactions.map (·.id)).Nodup
  eventKinds_nodup : (transactions.filterMap (·.eventKind)).Nodup
deriving DecidableEq

/-- The ledger before the first posting. -/
def Ledger.empty : Ledger := ⟨[], List.nodup_nil, List.nodup_nil⟩

/-! ## §6. Payouts -/

/-- The states of a batch. -/
inductive PayoutBatchState
  | draft
  | signing
  | signed
  | broadcasting
  | broadcast
  | expiryPending
  | expired
  | confirmed
  | reorged
  | cancelled
deriving DecidableEq, Repr

inductive DestinationState
  | pending
  | active
  | disabled
deriving DecidableEq, Repr

/-- `payout_destinations` -/
structure PayoutDestination where
  id : Uuid
  accountId : Uuid
  chain : Chain
  address : Text
  receiverKind : ReceiverKind
  activeAfter : ℕ
  payoutThresholdZat : ℕ
  automatic : Bool
  state : DestinationState
deriving DecidableEq, Repr

/-- Exact best-chain evidence observed for a payout transaction. -/
structure PayoutConfirmation where
  blockHash : Hex32
  blockHeight : ℕ
  confirmations : ℕ
deriving DecidableEq, Repr

/-- `payout_batches` with its `payout_items`.  Address and receiver class of an item are those of
    its destination row, which the schema keeps immutable and undeletable. -/
structure PayoutBatchRow where
  id : Uuid
  chain : Chain
  policyVersion : ℕ
  idempotencyKey : Uuid
  state : PayoutBatchState
  reconciliationId : Uuid
  ledgerRoot : Hex32
  ledgerSequenceCutoff : ℕ
  unsignedDigest : Option Hex32
  transactionId : Option Hex32
  signedTransaction : Option (List UInt8)
  networkFeeZat : Option ℕ
  confirmation : Option PayoutConfirmation
  createdAt : ℕ
  items : List PayoutInstruction
deriving DecidableEq, Repr

inductive ReconciliationStatus
  | matched
  | mismatch
deriving DecidableEq, Repr

/-- `wallet_reconciliations` -/
structure WalletReconciliationRow where
  id : Uuid
  chain : Chain
  ledgerRoot : Hex32
  ledgerTransactionCount : ℕ
  walletStateDigest : Hex32
  walletSpendableZat : ℕ
  ledgerSpendableZat : ℕ
  bestTipHash : Hex32
  bestTipHeight : ℕ
  observedAt : ℕ
  validUntil : ℕ
  status : ReconciliationStatus
  createdAt : ℕ
deriving DecidableEq, Repr

/-- Stable-tip evidence bound to one exact signed payout. -/
structure PayoutExpiryEvidence where
  transactionId : Hex32
  signedTransactionSha256 : Hex32
  expiryHeight : ℕ
  tipHash : Hex32
  tipHeight : ℕ
  observedAt : ℕ
deriving DecidableEq, Repr

inductive ExpiryPhase
  | held
  | finalized
deriving DecidableEq, Repr

/-- `payout_expiry_evidence` -/
structure ExpiryEvidenceRow where
  batchId : Uuid
  phase : ExpiryPhase
  evidence : PayoutExpiryEvidence
  releaseTransactionId : Option Uuid
deriving DecidableEq, Repr

abbrev ExpiryEvidenceRow.key (e : ExpiryEvidenceRow) : Uuid × ExpiryPhase := (e.batchId, e.phase)

/-- Exact evidence that a previously confirmed payout left the best chain. -/
structure PayoutReorg where
  priorConfirmation : PayoutConfirmation
  replacementTipHash : Hex32
  replacementTipHeight : ℕ
  observedAt : ℕ
deriving DecidableEq, Repr

/-- `payout_reorg_events` -/
structure ReorgEventRow where
  id : Uuid
  batchId : Uuid
  reorg : PayoutReorg
deriving DecidableEq, Repr

/-! ## §7. The database -/

/-- The database content of one deployment. -/
structure Database where
  lastEventSeq : ℕ
  backendEvents : Table EventRow.eventSeq
  accounts : Table AccountRow.id
  workers : Table WorkerRow.id
  jobs : Table JobRow.jobId
  shares : Table ShareRow.shareId
  winners : Table WinnerRow.key
  winnerProofs : Table WinnerProofRow.key
  winnerAllocations : Table WinnerAllocationRow.key
  ledger : Ledger
  chainPolicies : PerChain (Option ChainPolicy)
  chainSafety : PerChain (Option ChainSafety)
  payoutDestinations : Table PayoutDestination.id
  payoutBatches : Table PayoutBatchRow.id
  walletReconciliations : Table WalletReconciliationRow.id
  expiryEvidence : Table ExpiryEvidenceRow.key
  reorgEvents : Table ReorgEventRow.id
deriving DecidableEq

/-- A deployment before its first event and its first payout. -/
def Database.bootstrap (lastEventSeq : ℕ) (chainPolicies : PerChain (Option ChainPolicy)) :
    Database where
  lastEventSeq := lastEventSeq
  backendEvents := Table.empty
  accounts := Table.empty
  workers := Table.empty
  jobs := Table.empty
  shares := Table.empty
  winners := Table.empty
  winnerProofs := Table.empty
  winnerAllocations := Table.empty
  ledger := Ledger.empty
  chainPolicies := chainPolicies
  chainSafety := ⟨some ⟨false, none, none⟩, some ⟨false, none, none⟩⟩
  payoutDestinations := Table.empty
  payoutBatches := Table.empty
  walletReconciliations := Table.empty
  expiryEvidence := Table.empty
  reorgEvents := Table.empty

end WcashPool.Store
