/-
  WcashPool.Store.ChainFacts — when a mined payout can be recorded.

  A confirmation is a fact about the chain: the transaction was authorised,
  submitted and mined, and the wallet has spent the money.  `confirm_payout`
  therefore ignores a freeze.  It still compares the collector asset with the
  liabilities, and a reward that lost its maturity after the payout was
  broadcast is missing from that asset.  So the fact is recorded exactly while
  the rewards that are still matured cover everything settled before and the
  payout itself; on a chain that was never frozen they always do.

  Main results: `Books.covers_iff_funded`, `mined_payout_recorded_iff` and
  `mined_payout_refused`.
-/
import WcashPool.Store.Solvency

namespace WcashPool.Store

open Fallible DoubleEntry

/-! ## §1. The collateral check -/

/-- The matured rewards cover what was settled and a further payout: the miners' part of them
    covers the settled payouts, and together with the opening equity they cover `totalAsset` on
    top. -/
def Database.Funded (db : Database) (chain : Chain) (totalAsset : ℕ) : Prop :=
  db.paidOut chain ≤ db.minerShares chain ∧
    db.paidOut chain + totalAsset ≤ db.openingEquity chain + db.maturedRewards chain

section Collateral

variable {s : ℕ} {db db' : Database} {row : PayoutBatchRow} {batchId : Uuid} {fee : ℕ}

/-- The collateral check, in terms of rewards and payouts. -/
theorem Books.covers_iff_funded (h : Books s db) (chain : Chain) (totalAsset : ℕ) :
    Covers db chain totalAsset ↔ db.Funded chain totalAsset := by
  have hspendable := h.spendable_eq chain
  have houtstanding := h.outstanding_eq chain
  have hrewards := h.maturedRewards_eq chain
  have hequity := (h.opening.equity chain).1
  have hfees := poolFees_nonneg db chain
  unfold Covers Database.Funded
  omega

/-- The books know everything that a confirmation asks of a submitted batch. -/
theorem Books.submitted (h : Books s db) (hrow : db.payoutBatches.find batchId = some row)
    (hstate : row.state.isMinable) {policy : ChainPolicy}
    (hpolicy : db.chainPolicies.get row.chain = some policy) :
    Submitted db row policy (row.networkFeeZat.getD 0) := by
  have hok := h.batches.batches batchId row hrow
  obtain ⟨fee, hfee, hpos, hle⟩ := hok.sound.fee hstate
  obtain ⟨policy', hpolicy', hversion⟩ := hok.policy
  obtain rfl : policy = policy' := Option.some.inj (hpolicy.symm.trans hpolicy')
  have hid : row.id = batchId := Table.key_of_find hrow
  rw [hfee, Option.getD_some]
  exact ⟨hid ▸ hrow, hok.sound, hstate, hfee, hpos, hle, hpolicy, hversion, hok.safety⟩

/-- A settlement debits the collector by what left the wallet. -/
theorem Settlement.spendable {confirmation : PayoutConfirmation}
    (h : Settlement db db' row fee confirmation) (hsound : row.Sound) :
    db'.spendable row.chain = db.spendable row.chain - (payoutTotal row.items + fee : ℕ) := by
  obtain ⟨hpos, hle, -, ledger, hledger, hdb⟩ := h
  have hposted : db.ledger.Extends db'.ledger (settling row.loaded (charges row.outputs fee) fee) := by
    rw [hdb]
    exact hledger
  have hsum := sumWhere_settled (· = .collectorSpendableAsset) hsound.outputs_le hpos hle
  rw [sumWhere_reservedEntries, splitAt_of_forall_not (by simp), splitAt_of_forall_not (by simp),
    splitAt_of_forall_not (by simp)] at hsum
  unfold Database.spendable
  rw [sumOn_extends hposted, if_pos (by rfl)]
  show _ + sumWhere _ (settledEntries row.outputs (charges row.outputs fee) fee) = _
  rw [← row.payoutTotal_outputs]
  simp only [reduceCtorEq, if_false, if_true] at hsum
  omega

end Collateral

/-! ## §2. The law -/

/-- **When a mined payout is recorded.**  After every run from a fresh deployment, frozen or not:
    evidence deep enough for the policy, about a batch that is broadcast or held, is recorded with
    the debit of what left the wallet exactly if its count fits its column, the rewards that are
    still matured fund the payout, and the collector asset is a 64-bit amount. -/
theorem mined_payout_recorded_iff {cfg : Config} {db : Database} (hfresh : Fresh db)
    (ops : List Operation) {batchId : Uuid} {row : PayoutBatchRow} {policy : ChainPolicy}
    {confirmation : PayoutConfirmation} {draw : LedgerDraw}
    (hrow : (after cfg db ops).payoutBatches.find batchId = some row)
    (hstate : row.state = .broadcast ∨ row.state = .expiryPending)
    (hpolicy : (after cfg db ops).chainPolicies.get row.chain = some policy)
    (hdeep : Deep policy confirmation)
    (hdraw : draw.id ∉ (after cfg db ops).ledger.transactions.map (·.id)) :
    (∃ db', confirmPayout (after cfg db ops) draw batchId confirmation = .ok db' ∧
      db'.spendable row.chain = (after cfg db ops).spendable row.chain
        - (payoutTotal row.items + row.networkFeeZat.getD 0 : ℕ)) ↔
      confirmation.confirmations < 2 ^ 31 ∧
      (after cfg db ops).Funded row.chain (payoutTotal row.items + row.networkFeeZat.getD 0) ∧
      (after cfg db ops).openingEquity row.chain + (after cfg db ops).maturedRewards row.chain
        - (after cfg db ops).paidOut row.chain < i64Limit := by
  have hbooks : Books _ (after cfg db ops) := (after_solvent hfresh ops).toBooks
  have hminable : row.state.isMinable := by
    obtain hstate | hstate := hstate <;> rw [hstate] <;> rfl
  have hsubmitted := hbooks.submitted hrow hminable hpolicy
  obtain rfl : row.id = batchId := Table.key_of_find hrow
  have hiff := confirmPayout_eq_ok_iff hsubmitted hdeep hdraw
  rw [hbooks.covers_iff_funded, hbooks.spendable_eq, row.payoutTotal_outputs] at hiff
  rw [← hiff]
  constructor
  · rintro ⟨db', hok, -⟩
    exact ⟨db', hok⟩
  · rintro ⟨db', hok⟩
    refine ⟨db', hok, ?_⟩
    rw [confirmPayout_eq hsubmitted hdeep] at hok
    have hsettle := passed hok
    exact (settlePayout_spec hsettle).spendable hsubmitted.sound

/-- The worked payout can be recorded as long as its reward is matured. -/
theorem mined_payout_recorded_iff_sample :
    ∃ db', confirmPayout (sampleAfter (sampleReward ++ samplePayout)) ⟨101, 0⟩ 1 sampleConfirmation
        = .ok db' ∧
      db'.spendable .zcash = 1_005 := by
  have hrow : ((sampleAfter (sampleReward ++ samplePayout)).payoutBatches.find 1).map
      (fun b => (b.chain, b.state, payoutTotal b.items, b.networkFeeZat))
        = some (.zcash, .broadcast, 98_990, some 5) := by decide +kernel
  obtain ⟨row, hrow, hfacts⟩ := Option.map_eq_some_iff.mp hrow
  obtain ⟨hchain, hstate, htotal, hfee⟩ : row.chain = .zcash ∧ row.state = .broadcast ∧
      payoutTotal row.items = 98_990 ∧ row.networkFeeZat = some 5 := by
    simpa [Prod.ext_iff] using hfacts
  have hiff := @mined_payout_recorded_iff sampleConfig sampleStart (Fresh.bootstrap _ _)
    (sampleReward ++ samplePayout) 1 row samplePolicy sampleConfirmation ⟨101, 0⟩ hrow
    (Or.inl hstate) (by rw [hchain]; decide +kernel) ⟨by decide, by decide, by decide⟩
    (by decide +kernel)
  rw [hchain, htotal, hfee] at hiff
  obtain ⟨db', hok, hdebit⟩ := hiff.mpr
    ⟨by decide, ⟨by decide +kernel, by decide +kernel⟩, by decide +kernel⟩
  exact ⟨db', hok, hdebit.trans (by decide +kernel)⟩

/-- One confirmation less after the broadcast, and the mined payout is refused: the collector asset
    is gone from the ledger, although the wallet has spent it. -/
theorem mined_payout_refused :
    (sampleAfter (sampleReward ++ samplePayout ++ [sampleRegression])).payoutBatches.rows.map
        (fun b => (b.id, b.chain, b.state)) = [(1, .zcash, .broadcast)] ∧
      (sampleAfter (sampleReward ++ samplePayout ++ [sampleRegression])).chainPolicies.get .zcash
        = some samplePolicy ∧
      samplePolicy.payoutConfirmations ≤ sampleConfirmation.confirmations ∧
      confirmPayout (sampleAfter (sampleReward ++ samplePayout ++ [sampleRegression])) ⟨101, 0⟩ 1
        sampleConfirmation = .error .collectorReconciliationFailed := by
  decide +kernel

end WcashPool.Store
