/-
  WcashPool.ZecSigner.Turns — how a record of the ZEC signer moves.

  One turn of the signer's loop moves a record from a stage to the next
  (`Turn`).  The digest and the fee are fixed when the created PCZT is
  verified; every later PCZT has that digest, every later inspection that fee,
  and the one raw transaction the identifier of the approved signed PCZT.

  Main results: `Turn.recordLe`, `Turn.ok`, `Turn.transaction`.
-/
import WcashPool.ZecSigner.Pipeline

namespace WcashPool.ZecSigner

open Fallible Protocol Store Portal Programs Durable

/-! ## §1. Turns and records -/

/-- **One turn of the loop**, as a step of the record. -/
inductive Turn (cfg : ZecSignerConfig) (request : ZecPayoutRequest) :
    JournalRecord → JournalRecord → Prop
  | create {r : JournalRecord} (hstage : r.stage = .reserved) (pczt policy : Text) :
      Turn cfg request r (r.at (.created pczt policy))
  | verify {r : JournalRecord} {pczt policy : Text} (hstage : r.stage = .created pczt policy)
      (wallet : WalletContext) {effects : VerifiedEffects}
      (heffects : verifyCreatedPczt cfg.external cfg.addressNetwork request.batch policy pczt
        wallet = .ok effects) : Turn cfg request r (r.verified effects pczt policy)
  | prove {r : JournalRecord} {pczt policy proved : Text}
      (hstage : r.stage = .createdVerified pczt policy)
      (heffects : verifyConsensusEffects cfg r proved = .ok ()) :
      Turn cfg request r (r.at (.proved proved policy))
  | verifyProof {r : JournalRecord} {pczt policy : Text} (hstage : r.stage = .proved pczt policy) :
      Turn cfg request r (r.at (.provedVerified pczt policy))
  | sign {r : JournalRecord} {pczt policy signed : Text}
      (hstage : r.stage = .provedVerified pczt policy)
      (heffects : verifyConsensusEffects cfg r signed = .ok ()) :
      Turn cfg request r (r.at (.signed signed policy))
  | verifySignature {r : JournalRecord} {pczt policy : Text} {fee : ℕ}
      (hstage : r.stage = .signed pczt policy) (hfee : r.consensusNetworkFeeZat = some fee) :
      Turn cfg request r (r.at (.signedVerified pczt policy fee))
  | extract {r : JournalRecord} {pczt policy approved : Text} {fee : ℕ} {extracted : ExtractResult}
      (hstage : r.stage = .signedVerified pczt policy fee)
      (happroved : extractableConsensusTxid cfg.external pczt = .ok approved)
      (hvalid : extracted.validateAgainst cfg.external approved = .ok ()) :
      Turn cfg request r (r.at (.prepared extracted.hex extracted.txid fee))
  | submit {r : JournalRecord} {raw txid : Text} {fee : ℕ}
      (hstage : r.stage = .prepared raw txid fee) :
      Turn cfg request r (r.at (.broadcastUnresolved raw txid fee))
  | retry {r : JournalRecord} {raw txid : Text} {fee : ℕ}
      (hstage : r.stage = .broadcastUnresolved raw txid fee) :
      Turn cfg request r (r.at (.broadcastUnresolved raw txid fee))
  | reject {r : JournalRecord} {raw txid : Text} {fee : ℕ}
      (hstage : r.stage = .broadcastUnresolved raw txid fee) :
      Turn cfg request r (r.at (.rejected txid))
  | complete {r : JournalRecord} {raw txid : Text} {fee : ℕ}
      (hstage : r.stage = .broadcastUnresolved raw txid fee) :
      Turn cfg request r (r.at (.completed raw txid fee))

/-- **What holds of every record**: its PCZT has the recorded effects digest, its stage the
    recorded fee, both are absent before the verification, and it is not in the stage of the
    older executor. -/
structure RecordOk (ext : ZecExternal) (r : JournalRecord) : Prop where
  digest : ∀ pczt, r.stage.approvedPczt = some pczt → ∃ digest,
    r.consensusEffectsDigest = some digest ∧ consensusEffectsDigest ext pczt = .ok digest
  fee : ∀ fee, r.stage.networkFeeZat = some fee → r.consensusNetworkFeeZat = some fee
  unverified : r.stage.unverified → r.consensusEffectsDigest = none ∧
    r.consensusNetworkFeeZat = none
  current : ∀ raw txid fee, r.stage ≠ .extracted raw txid fee

/-- **A record may be followed by another**: commitments, digest and fee stay once they are there,
    the stage is not earlier, and a raw transaction stays or is given up for good. -/
structure RecordLe (r r' : JournalRecord) : Prop where
  batchId : r'.batchId = r.batchId
  pipelineCommitment : r'.pipelineCommitment = r.pipelineCommitment
  portalCommitment : r'.portalCommitment = r.portalCommitment
  outputTotal : r'.outputTotalZat = r.outputTotalZat
  digest : ∀ digest, r.consensusEffectsDigest = some digest →
    r'.consensusEffectsDigest = some digest
  fee : ∀ fee, r.consensusNetworkFeeZat = some fee → r'.consensusNetworkFeeZat = some fee
  stage : r.stage.rank ≤ r'.stage.rank
  same : r'.stage.rank = r.stage.rank → r'.stage = r.stage
  transaction : ∀ raw txid fee, r.stage.transaction = some (raw, txid, fee) →
    r'.stage.transaction = some (raw, txid, fee) ∨ r'.stage = .rejected txid

theorem RecordLe.refl (r : JournalRecord) : RecordLe r r :=
  ⟨rfl, rfl, rfl, rfl, fun _ h => h, fun _ h => h, le_rfl, fun _ => rfl, fun _ _ _ h => .inl h⟩

theorem StoredStage.rank_le (stage : StoredStage) : stage.rank ≤ 9 := by
  cases stage <;> simp

theorem RecordLe.trans {a b c : JournalRecord} (hab : RecordLe a b) (hbc : RecordLe b c) :
    RecordLe a c where
  batchId := hbc.batchId.trans hab.batchId
  pipelineCommitment := hbc.pipelineCommitment.trans hab.pipelineCommitment
  portalCommitment := hbc.portalCommitment.trans hab.portalCommitment
  outputTotal := hbc.outputTotal.trans hab.outputTotal
  digest := fun d h => hbc.digest d (hab.digest d h)
  fee := fun f h => hbc.fee f (hab.fee f h)
  stage := hab.stage.trans hbc.stage
  same := fun h => by
    have hba : b.stage.rank = a.stage.rank := le_antisymm (h ▸ hbc.stage) hab.stage
    rw [hbc.same (h.trans hba.symm), hab.same hba]
  transaction := fun raw txid fee h => by
    cases hab.transaction raw txid fee h with
    | inl hb => exact hbc.transaction raw txid fee hb
    | inr hrejected =>
      -- a rejected record is final
      have hrank : c.stage.rank = b.stage.rank := by
        have hle := hbc.stage
        have hc := c.stage.rank_le
        rw [hrejected] at hle ⊢
        exact le_antisymm hc hle
      exact .inr ((hbc.same hrank).trans hrejected)

/-! ## §2. What a turn keeps -/

section Turns

variable {cfg : ZecSignerConfig} {request : ZecPayoutRequest} {r r' : JournalRecord}

/-- The verified digest is that of the PCZT itself. -/
theorem digest_of_verifyCreatedPczt {ext : ZecExternal} {network : NetworkType}
    {batch : PayoutBatchRequest} {policy pczt : Text} {wallet : WalletContext}
    {effects : VerifiedEffects}
    (h : verifyCreatedPczt ext network batch policy pczt wallet = .ok effects) :
    consensusEffectsDigest ext pczt = .ok effects.digest := by
  obtain ⟨parsed, hparsed, h⟩ := bind_eq_ok.mp h
  obtain ⟨_, -, h⟩ := bind_eq_ok.mp h
  obtain ⟨_, -, h⟩ := bind_eq_ok.mp h
  obtain ⟨digest, hdigest, h⟩ := bind_eq_ok.mp h
  injection h with h
  subst h
  exact bind_eq_ok.mpr ⟨parsed, hparsed, hdigest⟩

theorem digest_of_verifyConsensusEffects {pczt : Text}
    (h : verifyConsensusEffects cfg r pczt = .ok ()) : ∃ digest,
    r.consensusEffectsDigest = some digest ∧ consensusEffectsDigest cfg.external pczt = .ok digest := by
  obtain ⟨expected, hexpected, h⟩ := bind_eq_ok.mp h
  obtain ⟨_, -, h⟩ := bind_eq_ok.mp h
  obtain ⟨_, -, h⟩ := bind_eq_ok.mp h
  obtain ⟨digest, hdigest, h⟩ := bind_eq_ok.mp h
  rw [rejectIf_eq_ok, not_not] at h
  exact ⟨expected, orReject_eq_ok.mp hexpected, h ▸ hdigest⟩

/-- Along a turn digest and fee stay or are set for the first time. -/
theorem Turn.effects (h : Turn cfg request r r') :
    r'.consensusEffectsDigest = r.consensusEffectsDigest ∧
      r'.consensusNetworkFeeZat = r.consensusNetworkFeeZat ∨
    ∃ pczt policy, r.stage = .created pczt policy := by
  cases h with
  | verify hstage => exact .inr ⟨_, _, hstage⟩
  | _ => exact .inl ⟨rfl, rfl⟩

/-- A turn keeps the batch, both commitments and the total. -/
theorem Turn.bound (h : Turn cfg request r r') :
    r'.batchId = r.batchId ∧ r'.pipelineCommitment = r.pipelineCommitment ∧
      r'.portalCommitment = r.portalCommitment ∧ r'.outputTotalZat = r.outputTotalZat := by
  cases h <;> exact ⟨rfl, rfl, rfl, rfl⟩

/-- **A turn only adds to a record.** -/
theorem Turn.recordLe (h : Turn cfg request r r') (hok : RecordOk cfg.external r) :
    RecordLe r r' := by
  have hrank : r.stage.rank ≤ r'.stage.rank ∧
      (r'.stage.rank = r.stage.rank → r'.stage = r.stage) := by
    cases h with
    | retry hstage => exact ⟨le_of_eq (by rw [hstage]; rfl), fun _ => hstage.symm⟩
    | create hstage | verify hstage | prove hstage | verifyProof hstage | sign hstage
    | verifySignature hstage | extract hstage | submit hstage | reject hstage | complete hstage =>
      rw [hstage]
      simp
  have htransaction : ∀ raw txid fee, r.stage.transaction = some (raw, txid, fee) →
      r'.stage.transaction = some (raw, txid, fee) ∨ r'.stage = .rejected txid := by
    intro raw txid fee hraw
    cases h with
    | create hstage | verify hstage | prove hstage | verifyProof hstage | sign hstage
    | verifySignature hstage | extract hstage =>
      rw [hstage] at hraw
      exact absurd hraw (by simp)
    | submit hstage | retry hstage | complete hstage =>
      rw [hstage] at hraw
      exact .inl hraw
    | reject hstage =>
      rw [hstage] at hraw
      simp only [StoredStage.transaction, Option.some.injEq, Prod.mk.injEq] at hraw
      exact .inr (hraw.2.1 ▸ rfl)
  obtain ⟨hbatch, hpipeline, hportal, htotal⟩ := h.bound
  refine ⟨hbatch, hpipeline, hportal, htotal, ?_, ?_, hrank.1, hrank.2, htransaction⟩
  all_goals
    intro value hvalue
    obtain ⟨hdigest, hfee⟩ | ⟨pczt, policy, hcreated⟩ := h.effects
    · first | rw [hdigest]; exact hvalue | rw [hfee]; exact hvalue
    · have hnone := hok.unverified (by rw [hcreated]; rfl)
      simp [hnone.1, hnone.2] at hvalue

/-- **A turn keeps a record well formed.** -/
theorem Turn.ok (h : Turn cfg request r r') (hok : RecordOk cfg.external r) :
    RecordOk cfg.external r' := by
  cases h with
  | create hstage pczt policy =>
    exact ⟨by simp, by simp, fun _ => hok.unverified (by rw [hstage]; rfl), by simp⟩
  | verify hstage wallet heffects =>
    refine ⟨fun _ h => ?_, by simp, by simp, by simp⟩
    obtain rfl := Option.some.inj h
    exact ⟨_, rfl, digest_of_verifyCreatedPczt heffects⟩
  | prove hstage heffects | sign hstage heffects =>
    refine ⟨fun _ h => ?_, by simp, by simp, by simp⟩
    obtain rfl := Option.some.inj h
    exact digest_of_verifyConsensusEffects heffects
  | verifyProof hstage =>
    exact ⟨fun pczt h => hok.digest pczt (by rw [hstage]; exact h), by simp, by simp, by simp⟩
  | verifySignature hstage hfee =>
    refine ⟨fun pczt h => hok.digest pczt (by rw [hstage]; exact h), fun fee h => ?_, by simp,
      by simp⟩
    obtain rfl := Option.some.inj h
    exact hfee
  | reject hstage => exact ⟨by simp, by simp, by simp, by simp⟩
  | extract hstage | submit hstage | retry hstage | complete hstage =>
    exact ⟨by simp, fun fee h => hok.fee fee (by rw [hstage]; exact h), by simp, by simp⟩

/-- The bytes are those of one canonical transaction with this identifier. -/
def HasTxid (ext : ZecExternal) (rawTransaction transactionId : Text) : Prop :=
  ∃ bytes transaction, hexDecode rawTransaction = some bytes ∧
    ext.readTransaction bytes = some transaction ∧ transaction.txid = transactionId ∧
    transaction.canonical = some bytes

/-- An accepted extraction has the approved identifier. -/
theorem validateAgainst_eq_ok {ext : ZecExternal} {extracted : ExtractResult} {approved : Text}
    (h : extracted.validateAgainst ext approved = .ok ()) :
    extracted.txid = approved ∧ HasTxid ext extracted.hex extracted.txid := by
  obtain ⟨raw, hraw, h⟩ := bind_eq_ok.mp (passed h)
  obtain ⟨transaction, hread, h⟩ := bind_eq_ok.mp h
  obtain ⟨htxid, h⟩ := rejectIf_bind_ok h
  obtain ⟨_, hcanonical, -⟩ := bind_eq_ok.mp h
  rw [not_or, not_or, not_not, not_not, not_not] at htxid
  rw [rejectIf_eq_ok, not_not] at hcanonical
  exact ⟨htxid.2.2, raw, transaction, orReject_eq_ok.mp hraw, orReject_eq_ok.mp hread, htxid.2.1,
    hcanonical⟩

/-- Where a raw transaction comes from. -/
theorem Turn.transaction (h : Turn cfg request r r') {raw txid : Text} {fee : ℕ}
    (hraw : r'.stage.transaction = some (raw, txid, fee)) :
    r.stage.transaction = some (raw, txid, fee) ∨ ∃ pczt policy,
      r.stage = .signedVerified pczt policy fee ∧
      extractableConsensusTxid cfg.external pczt = .ok txid ∧ HasTxid cfg.external raw txid := by
  cases h with
  | extract hstage happroved hvalid =>
    simp only [JournalRecord.at, StoredStage.transaction, Option.some.injEq, Prod.mk.injEq] at hraw
    obtain ⟨rfl, rfl, rfl⟩ := hraw
    obtain ⟨htxid, hhas⟩ := validateAgainst_eq_ok hvalid
    exact .inr ⟨_, _, hstage, htxid ▸ happroved, hhas⟩
  | submit hstage | retry hstage | complete hstage =>
    rw [hstage]
    exact .inl hraw
  | _ => exact absurd hraw (by simp)

end Turns

end WcashPool.ZecSigner
