/-
  WcashPool.Store.Error — why a store transaction rolls back.

  One constructor per error that a modelled function can return.  `database`
  carries the constraint that a statement violated; the driver reports it
  through the same variant whatever the constraint is.
-/
import WcashPool.Accounting.Pplns
import WcashPool.Core.Nonce

namespace WcashPool.Store

/-- The chain that an account, a policy, a winner or a payout belongs to.  The source keeps a
    second enumeration with the same two members for the store. -/
abbrev Chain := MergedChain

/-- Persistence, projection or accounting failure. -/
inductive StoreError
  | replayBatchTooLarge (events : ℕ)
  | eventSeqOverflow
  | eventSequenceGap (expected actual : ℕ)
  | eventReplayConflict (seq : ℕ)
  | unknownJob
  | unknownWinner
  | winnerFactConflict
  | workerAttributionConflict
  | invalidWinnerTransition
  | prematureWinner (required actual : ℕ)
  | winnerMaturityPolicyMismatch (chain : Chain) (advertised configured : ℕ)
  | missingChainPolicy (chain : Chain)
  | pplnsWindowTooLarge
  | moneyOverflow
  | unbalancedLedger
  | invalidTimestamp
  | invalidChainPolicy
  | invalidPayoutBatch
  | noPayableBalances
  | unknownPayoutBatch
  | invalidPayoutTransition
  | invalidPayoutConfirmation
  | invalidPayoutExpiryEvidence
  | prematurePayoutConfirmation (required actual : ℕ)
  | payoutReplayConflict
  | excessivePayoutFee
  | payoutIdempotencyConflict
  | payoutTransactionConflict
  | payoutsFrozen (chain : Chain)
  | collectorReconciliationFailed
  | invalidWalletObservation
  | walletReconciliationBlocked
  | walletReconciliationStale
  | walletReconciliationPending
  | payoutRandomnessUnavailable
  | invalidPayoutWorkerLease
  | chainPolicyMismatch
  | invalidNonceReservation
  | invalidNonceLeaseDuration
  | nonceNamespaceAlreadyHeld
  | nonceNamespaceLeaseGenerationExhausted
  | nonceNamespaceLeaseLost
  | nonceNamespaceExhausted
  | corruptDatabaseState (what : String)
  | database (constraint : String)
  | protocol (e : ProtocolError)
  | pplns (e : Accounting.PplnsError)
  | noncePrefix (e : Core.NoncePrefixError)
deriving DecidableEq, Repr

end WcashPool.Store
