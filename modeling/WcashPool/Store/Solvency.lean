/-
  WcashPool.Store.Solvency — the collector covers what is owed.

  Asset and liability of a chain are explained by three numbers: what matured
  rewards brought in, how much of that is the miners', and what settled batches
  took out.  Their difference is the opening equity and the pool fees of the
  matured winners, after every run and in every order.  On a chain that is not
  frozen no account is overdrawn, and then the collateral check of a
  confirmation cannot fail.

  Main results: `Books.spendable_eq`, `Books.outstanding_eq` and
  `ledger_solvency`.
-/
import WcashPool.Store.Liabilities

namespace WcashPool.Store

open DoubleEntry

/-! ## §1. What matured and what was paid -/

/-- The matured winners of a chain. -/
def Database.maturedWinners (db : Database) (chain : Chain) : List WinnerRow :=
  (db.winnersOn chain).filter (·.state = .matured)

/-- The batches of a chain whose payment is in the ledger. -/
def Database.settledBatches (db : Database) (chain : Chain) : List PayoutBatchRow :=
  (db.batchesOn chain).filter (·.state.isSettled)

/-- The rewards of the matured winners. -/
def Database.maturedRewards (db : Database) (chain : Chain) : ℤ :=
  ((db.maturedWinners chain).map fun w => (w.rewardZat : ℤ)).sum

/-- How much of them the recorded plans give to the miners. -/
def Database.minerShares (db : Database) (chain : Chain) : ℤ :=
  ((db.maturedWinners chain).map fun w => ((((firstSplit db w.key).map (·.2)).sum : ℕ) : ℤ)).sum

/-- The pool fees: what the recorded plans leave of the rewards. -/
def Database.poolFees (db : Database) (chain : Chain) : ℤ :=
  ((db.maturedWinners chain).map fun w => (poolShare w.rewardZat (firstSplit db w.key) : ℤ)).sum

/-- What settled batches took out of the wallet, network fees included. -/
def Database.paidOut (db : Database) (chain : Chain) : ℤ :=
  ((db.settledBatches chain).map fun b =>
    ((payoutTotal b.items + b.networkFeeZat.getD 0 : ℕ) : ℤ)).sum

section Balances

variable {s : ℕ} {db : Database} (chain : Chain)

/-- What a settled batch adds at places where the other batches add nothing. -/
theorem Books.sum_batches (h : Books s db) {q : LedgerPlace → Prop} [DecidablePred q] (sign : ℤ)
    (hlive : ∀ b : PayoutBatchRow, sumWhere q (reservedEntries b.outputs) = 0)
    (hsettled : ∀ b : PayoutBatchRow, b.Sound → b.state.isSettled →
      sumWhere q b.effect = sign * (payoutTotal b.items + b.networkFeeZat.getD 0 : ℕ)) :
    ((db.batchesOn chain).map fun b => sumWhere q b.effect).sum = sign * db.paidOut chain := by
  have hrow : ∀ b ∈ db.batchesOn chain, sumWhere q b.effect
      = if b.state.isSettled then sign * (payoutTotal b.items + b.networkFeeZat.getD 0 : ℕ) else 0 := by
    intro b hb
    have hsound := (h.batches.batches b.id b (Table.find_of_mem (List.mem_filter.mp hb).1)).sound
    by_cases hstate : b.state.isSettled
    · rw [if_pos hstate, hsettled b hsound hstate]
    · rw [if_neg hstate]
      obtain hlive' | hreleased | hsettled' := b.state_cases
      · rw [b.effect_of_live hlive', hlive]
      · rw [b.effect_of_released hreleased, sumWhere_nil]
      · exact absurd hsettled' hstate
  unfold Database.paidOut Database.settledBatches
  rw [List.map_congr_left hrow, List.sum_map_ite, ← List.sum_map_mul_left]
  simp

/-- **The collector asset**: opening equity and matured rewards, less what was paid out. -/
theorem Books.spendable_eq (h : Books s db) :
    db.spendable chain = db.openingEquity chain + db.maturedRewards chain - db.paidOut chain := by
  have hwinner : ∀ w ∈ db.winnersOn chain,
      sumWhere (· = .collectorSpendableAsset) (w.effect (firstSplit db w.key))
        = if w.state = .matured then (w.rewardZat : ℤ) else 0 := by
    intro w _
    rw [w.sumWhere_effect _ (by simp) (by simp) (by simp), sumWhere_maturedEffect,
      splitAt_of_forall_not (by simp)]
    simp
  have hwinners : ((db.winnersOn chain).map fun w =>
      sumWhere (· = .collectorSpendableAsset) (w.effect (firstSplit db w.key))).sum
        = db.maturedRewards chain := by
    unfold Database.maturedRewards Database.maturedWinners
    rw [List.map_congr_left hwinner, List.sum_map_ite]
    simp
  have hbatches := h.sum_batches chain (q := (· = .collectorSpendableAsset)) (-1)
    (fun b => by
      rw [sumWhere_reservedEntries, splitAt_of_forall_not (by simp), splitAt_of_forall_not (by simp)]
      rfl)
    (fun b hsound hstate => by
      obtain ⟨fee, hfee, -, -, hsum⟩ := hsound.settled hstate
      rw [hsum, splitAt_of_forall_not (by simp), hfee, b.payoutTotal_outputs]
      simp)
  unfold Database.spendable
  rw [h.sumOn_eq, hwinners, hbatches, sumWhere_openingEntries]
  simp only [if_true, reduceCtorEq, if_false]
  ring

/-- **The liabilities**: the miners' part of the matured rewards, less what was paid out. -/
theorem Books.outstanding_eq (h : Books s db) :
    db.outstandingLiabilities chain = db.minerShares chain - db.paidOut chain := by
  have hwinner : ∀ w ∈ db.winnersOn chain,
      sumWhere (fun place => place.isLiability = true) (w.effect (firstSplit db w.key))
        = if w.state = .matured then -((((firstSplit db w.key).map (·.2)).sum : ℕ) : ℤ) else 0 := by
    intro w _
    rw [w.sumWhere_effect _ (by simp [LedgerPlace.isLiability])
      (by simp [LedgerPlace.isLiability]) (by simp [LedgerPlace.isLiability]),
      sumWhere_maturedEffect, splitAt_of_forall (by simp [LedgerPlace.isLiability])]
    simp only [LedgerPlace.isLiability, Bool.false_eq_true, if_false, zero_sub, sub_zero]
  have hwinners : ((db.winnersOn chain).map fun w =>
      sumWhere (fun place => place.isLiability = true) (w.effect (firstSplit db w.key))).sum
        = -db.minerShares chain := by
    unfold Database.minerShares Database.maturedWinners
    rw [List.map_congr_left hwinner, List.sum_map_ite, List.sum_neg, List.map_map]
    simp [Function.comp_def]
  have hbatches := h.sum_batches chain (q := fun place => place.isLiability = true) 1
    (fun b => by
      rw [sumWhere_reservedEntries, splitAt_of_forall (by simp [LedgerPlace.isLiability]),
        splitAt_of_forall (by simp [LedgerPlace.isLiability])]
      ring)
    (fun b hsound hstate => by
      obtain ⟨fee, hfee, hpos, hle, hsum⟩ := hsound.settled hstate
      rw [hsum, splitAt_of_forall (by simp [LedgerPlace.isLiability]), sum_spent (by omega), hfee,
        b.payoutTotal_outputs]
      simp [LedgerPlace.isLiability])
  unfold Database.outstandingLiabilities
  rw [h.sumOn_eq, hwinners, hbatches, sumWhere_openingEntries]
  simp only [LedgerPlace.isLiability, Bool.false_eq_true, if_false]
  ring

/-- The recorded plan of a matured winner splits its reward. -/
theorem Books.maturedRewards_eq (h : Books s db) :
    db.maturedRewards chain = db.minerShares chain + db.poolFees chain := by
  unfold Database.maturedRewards Database.minerShares Database.poolFees
  rw [← List.sum_map_add]
  refine congrArg List.sum (List.map_congr_left fun w hw => ?_)
  obtain ⟨hon, hmatured⟩ := List.mem_filter.mp hw
  have hok := h.winners.winners w.key w (Table.find_of_mem (List.mem_filter.mp hon).1)
  obtain ⟨o, m, hactive, -⟩ := hok.matured (by simpa using hmatured)
  have hcovered := hactive.covered
  unfold poolShare
  omega

end Balances

theorem poolFees_nonneg (db : Database) (chain : Chain) : 0 ≤ db.poolFees chain := by
  refine List.sum_nonneg fun v hv => ?_
  obtain ⟨w, -, rfl⟩ := List.mem_map.mp hv
  exact Int.natCast_nonneg _

/-! ## §2. The collateral of a confirmation -/

/-- The pending account. -/
def LedgerPlace.isPending : LedgerPlace → Bool
  | .payoutPending _ => true
  | _ => false

section Collateral

variable {s : ℕ} {db : Database} {row : PayoutBatchRow} {batchId : Uuid}

/-- A live batch is part of what is pending. -/
theorem Books.liabilityTotal_le_pending (h : Books s db)
    (hrow : db.payoutBatches.find batchId = some row) (hlive : row.state.isLive) :
    (liabilityTotal row.items : ℤ)
      ≤ -db.sumOn row.chain fun place => place.isPending = true := by
  have hpending : ∀ b : PayoutBatchRow,
      splitAt (fun place => place.isPending = true) .payoutPending (owed b.items)
        = (liabilityTotal b.items : ℤ) := by
    intro b
    rw [splitAt_of_forall (by simp [LedgerPlace.isPending])]
    unfold owed liabilityTotal
    rw [List.map_map]
    rfl
  have hq : ∀ place : LedgerPlace, place.isPending = true → ∃ a, place = .payoutPending a := by
    intro place hplace
    cases place <;> simp_all [LedgerPlace.isPending]
  have hmem : row ∈ db.openBatches row.chain := by
    unfold Database.openBatches Database.batchesOn
    rw [List.mem_filter, List.mem_filter]
    exact ⟨⟨Table.mem_of_find hrow, by simp⟩, hlive⟩
  rw [h.pending_eq row.chain hq, List.map_congr_left fun b _ => hpending b]
  refine List.single_le_sum (fun v hv => ?_) _ (List.mem_map_of_mem hmem)
  obtain ⟨b, -, rfl⟩ := List.mem_map.mp hv
  exact Int.natCast_nonneg _

/-- On an unfrozen chain what is pending is part of the liabilities, and the collector covers
    those. -/
theorem Solvent.pending_le (h : Solvent s db) {chain : Chain} (hunfrozen : ¬ db.Frozen chain) :
    (-db.sumOn chain fun place => place.isPending = true) ≤ db.outstandingLiabilities chain ∧
      db.outstandingLiabilities chain ≤ db.spendable chain := by
  have hpending : db.sumOn chain (fun place => place.isLiability = true)
      ≤ db.sumOn chain fun place => place.isPending = true := by
    refine sumWhere_le_sumWhere (fun place hplace => ?_) fun place hplace hother => ?_
    · cases place <;> simp_all [LedgerPlace.isPending, LedgerPlace.isLiability]
    · cases place with
      | minerPayable a =>
        have hcovered := h.covered chain hunfrozen a
        unfold Database.payableLiability Database.sumOn at hcovered
        omega
      | _ => simp_all [LedgerPlace.isPending, LedgerPlace.isLiability]
  have hspendable := h.toBooks.spendable_eq chain
  have houtstanding := h.toBooks.outstanding_eq chain
  have hrewards := h.toBooks.maturedRewards_eq chain
  have hequity := (h.opening.equity chain).1
  have hfees := poolFees_nonneg db chain
  have hsum : db.outstandingLiabilities chain
      = -db.sumOn chain fun place => place.isLiability = true := rfl
  constructor <;> omega

/-- **On an unfrozen chain the collateral is there**: what a batch takes is part of what is
    pending. -/
theorem Solvent.covers (h : Solvent s db) (hunfrozen : ¬ db.Frozen row.chain)
    (hrow : db.payoutBatches.find batchId = some row) (hstate : row.state.isMinable) {fee : ℕ}
    (hfee : fee ≤ reserveSum row.outputs) :
    Covers db row.chain (payoutTotal row.outputs + fee) := by
  have hsound := (h.batches.batches batchId row hrow).sound
  have hbatch := h.toBooks.liabilityTotal_le_pending hrow
    (PayoutBatchState.isLive_of_isMinable hstate)
  have htotals := hsound.totals
  rw [row.liabilityTotal_outputs] at htotals
  obtain ⟨hpending, hcovered⟩ := h.pending_le hunfrozen
  refine ⟨?_, ?_, ?_⟩ <;> omega

end Collateral

/-! ## §3. The law -/

/-- **Solvency.**  After every run from a fresh deployment, on each chain: the collector asset less
    everything owed is the opening equity and the pool fees of the matured winners, so never
    negative; and while the chain is not frozen no account is overdrawn and no confirmation of its
    batches fails for want of collateral. -/
theorem ledger_solvency {cfg : Config} {db : Database} (hfresh : Fresh db) (ops : List Operation)
    (chain : Chain) :
    (after cfg db ops).spendable chain - (after cfg db ops).outstandingLiabilities chain
        = (after cfg db ops).openingEquity chain + (after cfg db ops).poolFees chain ∧
      0 ≤ (after cfg db ops).spendable chain - (after cfg db ops).outstandingLiabilities chain ∧
      (¬ (after cfg db ops).Frozen chain →
        (∀ a, 0 ≤ (after cfg db ops).payableLiability chain a) ∧
        ∀ draw batchId confirmation,
          (∀ row, (after cfg db ops).payoutBatches.find batchId = some row → row.chain = chain) →
          confirmPayout (after cfg db ops) draw batchId confirmation
            ≠ .error .collectorReconciliationFailed) := by
  have hsolvent : Solvent _ (after cfg db ops) := after_solvent hfresh ops
  have hspendable := hsolvent.toBooks.spendable_eq chain
  have houtstanding := hsolvent.toBooks.outstanding_eq chain
  have hrewards := hsolvent.toBooks.maturedRewards_eq chain
  have hequity := (hsolvent.opening.equity chain).1
  have hfees := poolFees_nonneg (after cfg db ops) chain
  refine ⟨by omega, by omega, fun hunfrozen => ⟨hsolvent.covered chain hunfrozen, ?_⟩⟩
  intro draw batchId confirmation hchain
  refine confirmPayout_ne_collector (fun row hrow => (hsolvent.batches.batches _ row hrow).sound)
    fun row fee hrow hstate _ hle => ?_
  exact hsolvent.covers (hchain row hrow ▸ hunfrozen) hrow hstate hle

/-- After the worked payout the collector holds the pool's fee more than it owes. -/
theorem ledger_solvency_sample :
    (sampleAfter samplePaid).spendable .zcash - (sampleAfter samplePaid).outstandingLiabilities .zcash
      = 1_000 := by
  have hlaw := (@ledger_solvency sampleConfig sampleStart (Fresh.bootstrap _ _) samplePaid .zcash).1
  exact hlaw.trans (by decide +kernel)

end WcashPool.Store
