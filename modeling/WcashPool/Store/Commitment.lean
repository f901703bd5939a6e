/-
  WcashPool.Store.Commitment — the commitment binds the payout request
  (`PayoutBatchRequest::commitment`).

  A signer remembers a request by one hash, and answers a retry only for the
  request that the hash names.  What is hashed is a header of fixed width, the
  number of outputs, and one record for each output with its address behind a
  length.  Both lengths are converted to two bytes after the request has been
  checked, where the conversion cannot fail any more.

  Main results: `commitmentBytes_of_valid` and `payout_commitment_binding`.
-/
import WcashPool.Store.LedgerRoot
import WcashPool.Store.PayoutTransitions

namespace WcashPool.Store

open Fallible Protocol Framing

/-! ## §1. What is hashed -/

inductive SignerError
  | invalidRequest
deriving DecidableEq, Repr

def payoutCommitmentDomain : Text := ascii "zecwec/payout-batch/v2"

def Asset.byte : Asset → UInt8
  | .wec => 1
  | .zec => 2

def DeploymentNetwork.byte : DeploymentNetwork → UInt8
  | .testnet => 1
  | .mainnet => 2
  | .regtest => 3

def ReceiverKind.byte : ReceiverKind → UInt8
  | .transparent => 1
  | .ironwood => 2

/-- `u16::try_from` of a length, and its bytes. -/
def u16Bytes (length : ℕ) : Except SignerError (List UInt8) := do
  let length ← narrow 16 .invalidRequest length
  pure (beBytes 2 length)

/-- What the loop adds to the hash for one output. -/
def PayoutOutput.commitmentBytes (output : PayoutOutput) : Except SignerError (List UInt8) := do
  let length ← u16Bytes output.canonicalAddress.length
  pure (output.allocationId.asBytes ++ [output.receiverKind.byte] ++ beBytes 8 output.amountZat
    ++ length ++ output.canonicalAddress)

/-- The bytes that `commitment` hashes. -/
def PayoutBatchRequest.commitmentBytes (request : PayoutBatchRequest) :
    Except SignerError (List UInt8) := do
  request.validate.mapError fun _ => .invalidRequest
  let count ← u16Bytes request.outputs.length
  let outputs ← request.outputs.mapM PayoutOutput.commitmentBytes
  pure (payoutCommitmentDomain ++ request.batchId.asBytes ++ [request.asset.byte]
    ++ [request.network.byte] ++ request.ledgerRoot.asBytes ++ request.reconciliationId.asBytes
    ++ beBytes 8 request.maximumNetworkFeeZat ++ count ++ outputs.flatten)

/-- Commit to every signer-relevant field. -/
def PayoutBatchRequest.commitment (sha256 : List UInt8 → Hex32) (request : PayoutBatchRequest) :
    Except SignerError Hex32 := do
  let bytes ← request.commitmentBytes
  pure (sha256 bytes)

/-- A request that passes `validate`; the fee ceiling is a `u64`. -/
structure PayoutBatchRequest.Valid (request : PayoutBatchRequest) : Prop where
  fee : request.maximumNetworkFeeZat < 2 ^ 64
  validated : request.validate = .ok ()

/-! ## §2. Records of outputs -/

/-- The sizes that the encoding of an output relies on. -/
structure PayoutOutput.Bounded (output : PayoutOutput) : Prop where
  amount : output.amountZat < 2 ^ 64
  address : output.canonicalAddress.length ≤ 512

/-- The record of an output whose address length fits into two bytes. -/
def PayoutOutput.record (output : PayoutOutput) : List UInt8 :=
  output.allocationId.asBytes ++ [output.receiverKind.byte] ++ beBytes 8 output.amountZat
    ++ boundedTextBytes output.canonicalAddress

theorem PayoutOutput.commitmentBytes_eq_ok (output : PayoutOutput) {bytes : List UInt8} :
    output.commitmentBytes = .ok bytes ↔
      output.canonicalAddress.length < 2 ^ 16 ∧ bytes = output.record := by
  unfold PayoutOutput.commitmentBytes u16Bytes PayoutOutput.record boundedTextBytes
  simp only [bind_eq_ok, narrow_eq_ok, pure_eq_ok, Except.ok.injEq, ← List.append_assoc]
  grind

/-- A value written as one byte. -/
theorem byte_delimited {α : Type} {byte : α → UInt8} (h : Function.Injective byte) :
    Delimited (fun _ : α => True) (fun a => [byte a]) :=
  .of_length 1 (fun _ => rfl) fun _ _ _ _ heq => h (List.cons.inj heq).1

/-- **The end of a record can be seen**: the address is behind its length. -/
theorem PayoutOutput.record_delimited : Delimited PayoutOutput.Bounded PayoutOutput.record := by
  have hkind : Function.Injective ReceiverKind.byte := by
    intro a b h
    cases a <;> cases b <;> first | rfl | cases h
  have hfields := ((uuid_delimited.append (byte_delimited hkind)).append
    (beBytes_delimited 8)).append (boundedTextBytes_delimited 512 (by decide))
  let fields (o : PayoutOutput) :=
    (((o.allocationId, o.receiverKind), o.amountZat), o.canonicalAddress)
  have hinjective : Function.Injective fields := by
    rintro ⟨⟩ ⟨⟩ h
    simp only [fields, Prod.mk.injEq] at h
    simp only [PayoutOutput.mk.injEq]
    tauto
  exact (hfields.comap hinjective).mono fun o ho => ⟨⟨⟨trivial, trivial⟩, ho.amount⟩, ho.address⟩

/-! ## §3. The request -/

/-- What `validate` leaves of the sizes: at most two hundred outputs, addresses of at most 512
    bytes, and amounts whose sum is a `u64`. -/
theorem PayoutBatchRequest.Valid.bounded {request : PayoutBatchRequest} (h : request.Valid) :
    request.outputs.length ≤ maxPayoutOutputs ∧ ∀ o ∈ request.outputs, o.Bounded := by
  have hchecks := rejectIf_eq_ok.mp h.validated
  push Not at hchecks
  obtain ⟨-, -, -, -, -, hlength, -, houtput, hsum⟩ := hchecks
  refine ⟨hlength, fun o ho => ⟨?_, (houtput o ho).2.2.2.1⟩⟩
  exact (List.le_sum_of_mem (List.mem_map_of_mem ho)).trans_lt hsum

/-- Everything that is hashed before the first output. -/
def PayoutBatchRequest.header (request : PayoutBatchRequest) : List UInt8 :=
  request.batchId.asBytes ++ [request.asset.byte] ++ [request.network.byte]
    ++ request.ledgerRoot.asBytes ++ request.reconciliationId.asBytes
    ++ beBytes 8 request.maximumNetworkFeeZat ++ beBytes 2 request.outputs.length

/-- **No conversion of a length fails** after the checks. -/
theorem commitmentBytes_of_valid {request : PayoutBatchRequest} (h : request.Valid) :
    request.commitmentBytes = .ok (payoutCommitmentDomain ++ (request.header
      ++ request.outputs.flatMap PayoutOutput.record)) := by
  obtain ⟨hlength, houtputs⟩ := h.bounded
  have hcount : request.outputs.length < 2 ^ 16 := hlength.trans_lt (by decide)
  have hrecords : request.outputs.mapM PayoutOutput.commitmentBytes
      = .ok (request.outputs.map PayoutOutput.record) := by
    refine (mapM_eq_ok fun o => @o.commitmentBytes_eq_ok).mpr ⟨fun o ho => ?_, rfl⟩
    exact (houtputs o ho).address.trans_lt (by decide)
  unfold PayoutBatchRequest.commitmentBytes u16Bytes
  rw [h.validated, narrow_of_lt _ hcount, hrecords]
  show Except.ok _ = Except.ok _
  simp only [PayoutBatchRequest.header, List.append_assoc, List.flatMap_def]

theorem hex32_delimited : Delimited (fun _ : Hex32 => True) FixedHex.asBytes := by
  have hbytes : ∀ h : Hex32, h.asBytes = leBytes 32 h.toNat := fun _ => rfl
  refine .of_length 32 (fun h => by rw [hbytes, length_leBytes]) fun h h' _ _ heq => ?_
  rw [hbytes, hbytes] at heq
  have hmod := mod_eq_of_leBytes_eq heq
  rw [Nat.mod_eq_of_lt h.isLt, Nat.mod_eq_of_lt h'.isLt] at hmod
  exact BitVec.eq_of_toNat_eq hmod

/-- **The binding**: every valid request has a commitment, and requests whose hashed bytes are
    equal are equal in every field, the outputs in their order. -/
theorem payout_commitment_binding (sha256 : List UInt8 → Hex32) :
    (∀ request : PayoutBatchRequest, request.Valid → ∃ bytes,
      request.commitmentBytes = .ok bytes ∧ request.commitment sha256 = .ok (sha256 bytes)) ∧
    ∀ request request' : PayoutBatchRequest, request.Valid → request'.Valid →
      request.commitmentBytes = request'.commitmentBytes → request = request' := by
  constructor
  · intro request hvalid
    refine ⟨_, commitmentBytes_of_valid hvalid, ?_⟩
    unfold PayoutBatchRequest.commitment
    rw [commitmentBytes_of_valid hvalid]
    rfl
  · intro request request' hvalid hvalid' h
    rw [commitmentBytes_of_valid hvalid, commitmentBytes_of_valid hvalid', Except.ok.injEq] at h
    replace h := List.append_cancel_left h
    have hasset : Function.Injective Asset.byte := by
      intro a b h
      cases a <;> cases b <;> first | rfl | cases h
    have hnetwork : Function.Injective DeploymentNetwork.byte := by
      intro a b h
      cases a <;> cases b <;> first | rfl | cases h
    have hheader := (((((uuid_delimited.append (byte_delimited hasset)).append
      (byte_delimited hnetwork)).append hex32_delimited).append uuid_delimited).append
      (beBytes_delimited 8)).append (beBytes_delimited 2)
    -- the header is read first, then the outputs to the end of the string
    let fields (r : PayoutBatchRequest) := ((((((r.batchId, r.asset), r.network), r.ledgerRoot),
      r.reconciliationId), r.maximumNetworkFeeZat), r.outputs.length)
    have hcount (r : PayoutBatchRequest) (hr : r.Valid) : r.outputs.length < 2 ^ (8 * 2) :=
      hr.bounded.1.trans_lt (by decide)
    obtain ⟨hfields, hrest⟩ := hheader (fields request) (fields request')
      ⟨⟨by simp, hvalid.fee⟩, hcount request hvalid⟩
      ⟨⟨by simp, hvalid'.fee⟩, hcount request' hvalid'⟩ _ _ h
    rw [← List.append_nil (request.outputs.flatMap _), ← List.append_nil (request'.outputs.flatMap _)]
      at hrest
    have houtputs : request.outputs = request'.outputs := by
      refine PayoutOutput.record_delimited.stream (fun o _ hnil => ?_) hvalid.bounded.2
        hvalid'.bounded.2 rfl hrest
      have hlength := congrArg List.length hnil
      simp [PayoutOutput.record] at hlength
    cases request
    cases request'
    simp only [fields, Prod.mk.injEq] at hfields
    simp only [PayoutBatchRequest.mk.injEq]
    tauto

/-- Two outputs of a single unit each. -/
def samplePayoutRequest : PayoutBatchRequest where
  batchId := 1
  asset := .wec
  network := .testnet
  ledgerRoot := 1
  reconciliationId := 2
  maximumNetworkFeeZat := 1
  outputs := [⟨3, ascii "address0", .transparent, 1⟩, ⟨4, ascii "address00", .ironwood, 1⟩]

/-- The two outputs in the other order are committed to by other bytes. -/
theorem payout_commitment_binding_sample :
    let swapped := { samplePayoutRequest with outputs := samplePayoutRequest.outputs.reverse }
    (∃ bytes, samplePayoutRequest.commitmentBytes = .ok bytes) ∧
      (∃ bytes, swapped.commitmentBytes = .ok bytes) ∧
      samplePayoutRequest.commitmentBytes ≠ swapped.commitmentBytes := by
  intro swapped
  have hvalid : samplePayoutRequest.Valid := ⟨by decide, rejectIf_of_not _ (by decide +kernel)⟩
  have hvalid' : swapped.Valid := ⟨by decide, rejectIf_of_not _ (by decide +kernel)⟩
  obtain ⟨hhashed, hbinding⟩ := payout_commitment_binding fun _ => 0
  obtain ⟨bytes, hbytes, -⟩ := hhashed samplePayoutRequest hvalid
  obtain ⟨bytes', hbytes', -⟩ := hhashed swapped hvalid'
  refine ⟨⟨bytes, hbytes⟩, ⟨bytes', hbytes'⟩, fun heq => ?_⟩
  exact absurd (hbinding _ _ hvalid hvalid' heq) (by decide)

end WcashPool.Store
