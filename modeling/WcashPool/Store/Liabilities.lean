/-
  WcashPool.Store.Liabilities — payouts conserve what is owed.

  Whatever calls are made in whatever order, what an account has pending is the
  gross liability of its open batches, a batch that was taken back left no
  trace in any balance, and a settled batch cost each account what was paid to
  it and its share of the real fee, and the collector the sum of that, once.

  Main results: `Books.pendingLiability_eq` and `payouts_conserve_liabilities`.
-/
import WcashPool.Store.Coverage

namespace WcashPool.Store

open DoubleEntry

/-! ## §1. Pending balances -/

/-- What a chain has pending for an account: `-SUM(amount_zat)` over its `payout_pending` lines. -/
def Database.pendingLiability (db : Database) (chain : Chain) (accountId : Uuid) : ℤ :=
  -db.sumOn chain (· = .payoutPending accountId)

/-- The batches of a chain that are not confirmed, reorged, cancelled or expired. -/
def Database.openBatches (db : Database) (chain : Chain) : List PayoutBatchRow :=
  (db.batchesOn chain).filter (·.state.isLive)

section Pending

variable {s : ℕ} {db : Database}

/-- At places of the pending account only the open batches count. -/
theorem Books.pending_eq (h : Books s db) (chain : Chain) {q : LedgerPlace → Prop}
    [DecidablePred q] (hq : ∀ place, q place → ∃ a, place = .payoutPending a) :
    -db.sumOn chain q
      = ((db.openBatches chain).map fun b => splitAt q .payoutPending (owed b.items)).sum := by
  have hother : ∀ {place : LedgerPlace}, (∀ a, place ≠ .payoutPending a) → ¬ q place := by
    intro place hne hplace
    obtain ⟨a, ha⟩ := hq place hplace
    exact hne a ha
  have hwinners : ((db.winnersOn chain).map fun w =>
      sumWhere q (w.effect (firstSplit db w.key))).sum = 0 := by
    refine List.sum_eq_zero fun v hv => ?_
    obtain ⟨w, -, rfl⟩ := List.mem_map.mp hv
    rw [w.sumWhere_effect _ (hother (by simp)) (fun a => hother (by simp)) (hother (by simp)),
      sumWhere_maturedEffect, splitAt_of_forall_not fun a => hother (by simp),
      if_neg (hother (by simp)), if_neg (hother (by simp))]
    simp
  have hbatches : ((db.batchesOn chain).map fun b => sumWhere q b.effect).sum
      = -((db.batchesOn chain).map fun b =>
          if b.state.isLive then splitAt q .payoutPending (owed b.items) else 0).sum := by
    rw [List.sum_neg, List.map_map]
    refine congrArg List.sum (List.map_congr_left fun b hb => ?_)
    have hok := h.batches.batches b.id b (Table.find_of_mem (List.mem_filter.mp hb).1)
    exact hok.sound.sumWhere_pending hq
  unfold Database.openBatches
  rw [h.sumOn_eq, hwinners, hbatches, sumWhere_openingEntries, if_neg (hother (by simp)),
    if_neg (hother (by simp)), List.sum_map_ite]
  simp

/-- The pending balance of an account. -/
theorem Books.pendingLiability_eq (h : Books s db) (chain : Chain) (a : Uuid) :
    db.pendingLiability chain a
      = ((db.openBatches chain).map fun b => (Tally.amountOf (owed b.items) a : ℤ)).sum := by
  unfold Database.pendingLiability
  rw [h.pending_eq chain fun place hplace => ⟨a, hplace⟩]
  refine congrArg List.sum (List.map_congr_left fun b _ => ?_)
  exact splitAt_eq_amountOf (by simp) (owed b.items)

end Pending

/-! ## §2. The law -/

/-- **Payouts conserve liabilities.**  After every run from a fresh deployment:
    what an account has pending is the gross liability of its open batches; a cancelled or expired
    batch has no net effect at any place; and a confirmed or reorged batch lowered the total
    liability towards each account by the amount paid to it and its share of the real fee, and the
    collector asset by what the outputs and the fee took. -/
theorem payouts_conserve_liabilities {cfg : Config} {db : Database} (hfresh : Fresh db)
    (ops : List Operation) :
    (∀ chain a, (after cfg db ops).pendingLiability chain a
      = (((after cfg db ops).openBatches chain).map fun b =>
          (Tally.amountOf (owed b.items) a : ℤ)).sum) ∧
    ∀ b ∈ (after cfg db ops).payoutBatches.rows,
      (b.state = .cancelled ∨ b.state = .expired → ∀ place,
        sumWhere (· = place) ((after cfg db ops).linesUnder (.payout b.id)) = 0) ∧
      (b.state = .confirmed ∨ b.state = .reorged → ∃ fee contributions,
        b.networkFeeZat = some fee ∧ allocateActualNetworkFee b.outputs fee = .ok contributions ∧
        contributions.sum = fee ∧
        (∀ a, sumWhere (fun place => place = .minerPayable a ∨ place = .payoutPending a)
            ((after cfg db ops).linesUnder (.payout b.id))
          = Tally.amountOf (spent (b.outputs.zip contributions)) a) ∧
        sumWhere (· = .collectorSpendableAsset) ((after cfg db ops).linesUnder (.payout b.id))
          = -(payoutTotal b.items + fee : ℕ)) := by
  have hbooks : Books _ (after cfg db ops) := (after_solvent hfresh ops).toBooks
  refine ⟨hbooks.pendingLiability_eq, fun b hb => ?_⟩
  have hok := hbooks.batches.batches b.id b (Table.find_of_mem hb)
  refine ⟨fun hstate place => ?_, fun hstate => ?_⟩
  · have hreleased : b.state.isReleased := by
      obtain hstate | hstate := hstate <;> rw [hstate] <;> rfl
    rw [hok.agrees, b.effect_of_released hreleased, sumWhere_nil]
  · have hsettled : b.state.isSettled := by
      obtain hstate | hstate := hstate <;> rw [hstate] <;> rfl
    obtain ⟨fee, hfee, hpos, hle, hsum⟩ := hok.sound.settled hsettled
    refine ⟨fee, charges b.outputs fee, hfee, (hok.sound.charge hpos hle).1,
      sum_charges (by omega), fun a => ?_, ?_⟩
    · rw [hok.agrees, hsum, splitAt_eq_amountOf (a := a) (by simp)]
      simp
    · rw [hok.agrees, hsum, splitAt_of_forall_not (by simp), b.payoutTotal_outputs]
      simp

/-- The worked payout: pending while it is on its way, and debited once it is confirmed. -/
theorem payouts_conserve_liabilities_sample :
    (sampleAfter (sampleReward ++ samplePayout)).pendingLiability .zcash 1 = 99_000 ∧
      ∃ b ∈ (after sampleConfig sampleStart samplePaid).payoutBatches.rows,
        ∃ fee, b.networkFeeZat = some fee ∧
          sumWhere (· = .collectorSpendableAsset)
              ((after sampleConfig sampleStart samplePaid).linesUnder (.payout b.id))
            = -(payoutTotal b.items + fee : ℕ) := by
  have hpending := (@payouts_conserve_liabilities sampleConfig sampleStart (Fresh.bootstrap _ _)
    (sampleReward ++ samplePayout)).1 .zcash 1
  have hsettled := (@payouts_conserve_liabilities sampleConfig sampleStart (Fresh.bootstrap _ _)
    samplePaid).2
  have hconfirmed : ∃ b ∈ (after sampleConfig sampleStart samplePaid).payoutBatches.rows,
      b.state = .confirmed := by decide +kernel
  refine ⟨hpending.trans (by decide +kernel), ?_⟩
  obtain ⟨b, hb, hstate⟩ := hconfirmed
  obtain ⟨fee, -, hfee, -, -, -, hcollector⟩ := (hsettled b hb).2 (Or.inl hstate)
  exact ⟨b, hb, fee, hfee, hcollector⟩

end WcashPool.Store
