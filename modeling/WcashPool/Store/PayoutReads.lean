/-
  WcashPool.Store.PayoutReads — what the store hands out about a batch: the
  signed artifact, and the request to the signer.

  The request is a function of the fields that no transition touches, so it is
  the same whenever the store hands it out.

  Main results: `authorizePayoutBroadcast_artifact` and
  `payoutSignerRequest_eq`.
-/
import WcashPool.Store.BatchMoves

namespace WcashPool.Store

open Fallible Protocol

/-! ## §1. The signed artifact -/

/-- The artifact carries what the row has stored. -/
structure SignedPayoutArtifact.Of (artifact : SignedPayoutArtifact) (row : PayoutBatchRow) : Prop where
  batchId : artifact.batchId = row.id
  chain : artifact.chain = row.chain
  unsignedDigest : row.unsignedDigest = some artifact.unsignedDigest
  transactionId : row.transactionId = some artifact.transactionId
  signedTransaction : row.signedTransaction = some artifact.signedTransaction
  networkFeeZat : row.networkFeeZat = some artifact.networkFeeZat

/-- The artifact handed out is the row's own. -/
theorem signedArtifactFromRow_spec {state : PayoutBatchState} {row : PayoutBatchRow}
    {artifact : SignedPayoutArtifact} (h : signedArtifactFromRow state row = .ok artifact) :
    artifact.Of row ∧ artifact.state = state := by
  obtain ⟨digest, hdigest, h⟩ := bind_eq_ok.mp h
  obtain ⟨txid, htxid, h⟩ := bind_eq_ok.mp h
  obtain ⟨bytes, hbytes, h⟩ := bind_eq_ok.mp h
  obtain ⟨fee, hfee, h⟩ := bind_eq_ok.mp h
  injection h with h
  subst h
  rw [orReject_eq_ok] at hdigest htxid hbytes hfee
  exact ⟨⟨rfl, rfl, hdigest, htxid, (Option.filter_eq_some_iff.mp hbytes).1, hfee⟩, rfl⟩

/-- What an authorisation to broadcast hands out, and where it leaves the batch. -/
theorem authorizePayoutBroadcast_artifact {db db' : Database} {batchId : Uuid}
    {artifact : SignedPayoutArtifact}
    (h : authorizePayoutBroadcast db batchId = .ok (db', artifact)) :
    ∃ row, db'.payoutBatches.find batchId = some row ∧ artifact.Of row ∧
      artifact.state = row.state := by
  obtain ⟨row, hrow, h⟩ := bind_eq_ok.mp (passed h)
  rw [orReject_eq_ok] at hrow
  split at h
  · obtain ⟨mid, hupdate, h⟩ := bind_eq_ok.mp (passed h)
    obtain ⟨artifact', hartifact, h⟩ := bind_eq_ok.mp h
    obtain ⟨rfl, rfl⟩ := ok_pair_inj h
    obtain ⟨hof, hstate⟩ := signedArtifactFromRow_spec hartifact
    rw [updatePayoutState_spec hupdate]
    exact ⟨row.enter .broadcasting, Table.find_modify_self hrow (·.enter .broadcasting) fun _ => rfl,
      ⟨hof.1, hof.2, hof.3, hof.4, hof.5, hof.6⟩, hstate⟩
  · split at h
    · obtain ⟨artifact', hartifact, h⟩ := bind_eq_ok.mp h
      obtain ⟨rfl, rfl⟩ := ok_pair_inj h
      exact ⟨row, hrow, signedArtifactFromRow_spec hartifact⟩
    · cases h

/-! ## §2. The request of a batch -/

/-- The one request that a batch stands for. -/
def PayoutBatchRow.request (cfg : Config) (row : PayoutBatchRow) : PayoutBatchRequest where
  batchId := row.id
  asset := assetForChain row.chain
  network := cfg.network
  ledgerRoot := row.ledgerRoot
  reconciliationId := row.reconciliationId
  maximumNetworkFeeZat := liabilityTotal row.outputs - payoutTotal row.outputs
  outputs := row.outputs.map fun o => ⟨o.allocationId, o.address, o.receiverKind, o.amountZat⟩

section Requests

variable {cfg : Config} {db db' : Database} {batchId : Uuid} {request : PayoutBatchRequest}

/-- The request handed out is the batch's own. -/
theorem payoutSignerRequest_eq {row : PayoutBatchRow}
    (h : payoutSignerRequest cfg db row.loaded = .ok request) : request = row.request cfg := by
  obtain ⟨_, -, h⟩ := bind_eq_ok.mp h
  obtain ⟨_, -, h⟩ := bind_eq_ok.mp h
  obtain ⟨_, -, h⟩ := bind_eq_ok.mp h
  obtain ⟨_, -, h⟩ := bind_eq_ok.mp h
  obtain ⟨_, -, h⟩ := bind_eq_ok.mp h
  obtain ⟨_, -, h⟩ := bind_eq_ok.mp h
  obtain ⟨_, -, h⟩ := bind_eq_ok.mp h
  obtain ⟨_, -, h⟩ := bind_eq_ok.mp h
  obtain ⟨_, -, h⟩ := bind_eq_ok.mp h
  exact (Except.ok.inj h).symm

/-- An authorised batch is signing, and the request handed out is its own. -/
theorem authorizePayoutSigning_request {now : ℕ}
    (h : authorizePayoutSigning cfg db now batchId = .ok (db', request)) :
    ∃ row, db'.payoutBatches.find batchId = some row ∧ row.state = .signing ∧
      request = row.request cfg := by
  obtain ⟨row, hrow, h⟩ := loadPayoutBatch_bind (passed h)
  split at h
  · obtain ⟨request', hrequest, h⟩ := bind_eq_ok.mp (passed (passed h))
    obtain ⟨mid, hupdate, h⟩ := bind_eq_ok.mp h
    obtain ⟨rfl, rfl⟩ := ok_pair_inj h
    rw [updatePayoutState_spec hupdate]
    exact ⟨row.enter .signing, Table.find_modify_self hrow (·.enter .signing) fun _ => rfl, rfl,
      payoutSignerRequest_eq hrequest⟩
  · split at h
    · next hsigning =>
      obtain ⟨request', hrequest, h⟩ := bind_eq_ok.mp h
      obtain ⟨rfl, rfl⟩ := ok_pair_inj h
      exact ⟨row, hrow, hsigning, payoutSignerRequest_eq hrequest⟩
    · cases h

end Requests

end WcashPool.Store
