import WcashPool.Store.PplnsWindow
import WcashPool.Store.WinnerHistory
import WcashPool.Store.ChainFacts
import WcashPool.Store.Freeze
import WcashPool.Poold.Nonces
import WcashPool.WecSigner.Cancellation
import WcashPool.ZecSigner.Cancellation
import WcashPool.Store.SignedFacts
import WcashPool.ZecSigner.Accounting
import WcashPool.Core.WinnerRecovery
import WcashPool.Client.Leases
import WcashPool.Edge.CompletionOrder
import WcashPool.Edge.Accounting
import WcashPool.Edge.Suggestions
import WcashPool.Store.PayoutCap
import WcashPool.Store.FeeRoundTrip
import WcashPool.Store.Commitment
import WcashPool.Store.WorkerLease
import WcashPool.Store.Retries
