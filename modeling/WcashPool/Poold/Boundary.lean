/-
  WcashPool.Poold.Boundary — how the pool classifies a failure of a signer or a
  broadcaster (`BoundaryFailure`, `map_wec_error`, `map_zec_error`).

  The class decides what the settlement does: it cancels a batch on a
  rejection, and retries the same batch or stops on everything else.
-/
import WcashPool.WecSigner.Journal
import WcashPool.ZecSigner.Journal

namespace WcashPool.Poold

open WecSigner ZecSigner

inductive BoundaryFailure
  | retryable
  | ambiguous
  | rejected
  | conflict
  | invariant
deriving DecidableEq, Repr

def mapWecError : WecPayoutError → BoundaryFailure
  | .walletUnavailable | .journalUnavailable => .retryable
  | .walletAmbiguous | .broadcastAmbiguous | .interrupted => .ambiguous
  | .walletRejected | .broadcastRejected => .rejected
  | .idempotencyConflict => .conflict
  | .invalidRequest | .wrongAsset | .wrongNetwork | .wrongAccount | .wrongFundSource
  | .unsafeCredential | .journalCorrupt | .walletProtocolViolation => .invariant

def mapZecError : ZecPayoutError → BoundaryFailure
  | .walletRpcUnavailable | .journalUnavailable => .retryable
  | .broadcastAmbiguous | .interrupted => .ambiguous
  | .walletRejected | .broadcastRejected => .rejected
  | .idempotencyConflict => .conflict
  | .invalidRequest | .wrongAsset | .wrongNetwork | .wrongAccount | .wrongFundSource
  | .unsafeWalletConfiguration | .journalCorrupt | .walletProtocolViolation => .invariant

end WcashPool.Poold
