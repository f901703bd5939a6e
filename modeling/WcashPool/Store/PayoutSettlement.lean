/-
  WcashPool.Store.PayoutSettlement — the chain speaks about a payout
  (`confirm_payout`, `mark_confirmed_payout_reorged`).

  A confirmation debits the collector by what left the wallet, charges the real
  fee against the reserves and returns the unused part of each reserve.  Before
  it does, it compares the collector asset with the open liabilities.  A
  confirmation that leaves the best chain recreates no liability: the same
  bytes may come back, so only new payouts are frozen.

  Main results: `settledEntries_sealable`, `confirmPayout_spec` and
  `confirmPayout_eq_ok_iff`.
-/
import WcashPool.Store.PayoutTransitions

namespace WcashPool.Store

open Fallible Protocol DoubleEntry

/-! ## §1. The lines of a confirmation -/

/-- The unused part of a reserve goes back to the account. -/
def refundLines (accountId : Uuid) (refund : ℕ) : List LedgerEntry :=
  if 0 < refund then [⟨.minerPayable accountId, -refund⟩] else []

/-- The pending liability of an output is settled, less what is returned. -/
def settledLines (p : PayoutInstruction × ℕ) : List LedgerEntry :=
  ⟨.payoutPending p.1.accountId, p.1.liabilityAmountZat⟩
    :: refundLines p.1.accountId (p.1.reserve - p.2)

/-- The loop over outputs and charges. -/
def settlementLines : List (PayoutInstruction × ℕ) → Except StoreError (List LedgerEntry)
  | [] => .ok []
  | (output, charge) :: rest => do
    requireI64 [output.liabilityAmountZat]
    let reserved ← checkedSub (.corruptDatabaseState "payout fee contribution")
      output.liabilityAmountZat output.amountZat
    let refund ← checkedSub (.corruptDatabaseState "actual payout fee contribution")
      reserved charge
    let rest ← settlementLines rest
    pure (⟨.payoutPending output.accountId, output.liabilityAmountZat⟩
      :: refundLines output.accountId refund ++ rest)

theorem settlementLines_eq_ok {ps : List (PayoutInstruction × ℕ)}
    (h : ∀ p ∈ ps, p.1.liabilityAmountZat < i64Limit ∧ p.1.amountZat ≤ p.1.liabilityAmountZat ∧
      p.2 ≤ p.1.reserve) : settlementLines ps = .ok (ps.flatMap settledLines) := by
  induction ps with
  | nil => rfl
  | cons p ps ih =>
    obtain ⟨hfit, hle, hcharge⟩ := h p List.mem_cons_self
    unfold PayoutInstruction.reserve at hcharge
    unfold settlementLines requireI64
    rw [rejectIf_of_not _ (by simpa using hfit), ok_bind, checkedSub_of_le _ hle, ok_bind,
      checkedSub_of_le _ hcharge, ok_bind, ih fun p hp => h p (List.mem_cons_of_mem _ hp), ok_bind]
    rfl

/-- All lines of a confirmation. -/
def settledEntries (outputs : List PayoutInstruction) (contributions : List ℕ) (feeZat : ℕ) :
    List LedgerEntry :=
  (outputs.zip contributions).flatMap settledLines
    ++ (if 0 < feeZat then
      [⟨.networkFeeExpense, feeZat⟩, ⟨.minerNetworkFeeContribution, -feeZat⟩] else [])
    ++ [⟨.collectorSpendableAsset, -(payoutTotal outputs + feeZat : ℕ)⟩]

def settling (batch : PayoutBatch) (contributions : List ℕ) (feeZat : ℕ) : Posting :=
  { chain := batch.chain
    kind := .payoutConfirmed
    backendEventSeq := none
    reference := .payout batch.id
    entries := settledEntries batch.outputs contributions feeZat }

/-! ## §2. Confirming -/

def PayoutConfirmation.validate (confirmation : PayoutConfirmation) : Except StoreError Unit :=
  rejectIf (confirmation.blockHash.isZero ∨ confirmation.blockHeight = 0 ∨
    confirmation.confirmations = 0) .invalidPayoutConfirmation

/-- Is this the stored evidence?  The count is converted only where the block agrees. -/
def sameConfirmation (stored given : PayoutConfirmation) : Except StoreError Bool :=
  if stored.blockHash = given.blockHash ∧ stored.blockHeight = given.blockHeight then do
    rejectIf (given.confirmations ≥ 2 ^ 31) .invalidPayoutConfirmation
    pure (stored.confirmations = given.confirmations)
  else pure false

/-- The confirmation columns of a row that has them. -/
def storedConfirmation (db : Database) (batchId : Uuid) : Except StoreError PayoutConfirmation :=
  orReject (.database "confirmation_block_hash")
    ((db.payoutBatches.find batchId).bind (·.confirmation))

def replayConfirmation (db : Database) (batchId : Uuid) (confirmation : PayoutConfirmation) :
    Except StoreError Database := do
  let stored ← storedConfirmation db batchId
  let same ← sameConfirmation stored confirmation
  rejectIf (same = false) .payoutReplayConflict
  pure db

/-- The ledger accounts that count as owed to miners. -/
def LedgerPlace.isLiability : LedgerPlace → Bool
  | .minerPayable _ | .payoutPending _ => true
  | _ => false

/-- What the chain owes its miners, payable and pending together. -/
def Database.outstandingLiabilities (db : Database) (chain : Chain) : ℤ :=
  -db.sumOn chain fun place => place.isLiability = true

/-- The collector covers the open liabilities and this payout. -/
def requireCollateral (db : Database) (chain : Chain) (totalAsset : ℕ) : Except StoreError Unit := do
  let available ← collectorSpendable db chain
  let outstanding ← castBigint (db.outstandingLiabilities chain)
  rejectIf (outstanding < 0 ∨ available < outstanding) .collectorReconciliationFailed
  let total ← asI64 totalAsset
  rejectIf (available < total) .collectorReconciliationFailed

/-- The row with its best-chain evidence. -/
def PayoutBatchRow.confirm (row : PayoutBatchRow) (confirmation : PayoutConfirmation) :
    PayoutBatchRow :=
  { row with state := .confirmed, confirmation := some confirmation }

/-- Charge the fee, settle the outputs and debit the collector. -/
def settlePayout (db : Database) (draw : LedgerDraw) (batch : PayoutBatch) (feeZat : ℕ)
    (confirmation : PayoutConfirmation) : Except StoreError Database := do
  let contributions ← allocateActualNetworkFee batch.outputs feeZat
  let _ ← settlementLines (batch.outputs.zip contributions)
  requireI64 [feeZat, batch.payoutTotalZat + feeZat]
  let db ← insertLedgerTransaction db draw (settling batch contributions feeZat)
  rejectIf (confirmation.confirmations ≥ 2 ^ 31) .invalidPayoutConfirmation
  pure { db with
    payoutBatches := db.payoutBatches.modify batch.id (·.confirm confirmation) fun _ => rfl }

/-- The states in which a transaction may be found on the chain. -/
def PayoutBatchState.isMinable : PayoutBatchState → Bool
  | .broadcast | .expiryPending => true
  | _ => false

/-- Confirm a broadcast payout with exact best-chain evidence. -/
def confirmPayout (db : Database) (draw : LedgerDraw) (batchId : Uuid)
    (confirmation : PayoutConfirmation) : Except StoreError Database := do
  confirmation.validate
  let batch ← loadPayoutBatch db batchId
  if batch.state = .confirmed then replayConfirmation db batchId confirmation
  else do
    rejectIf (¬ batch.state.isMinable) .invalidPayoutTransition
    let _ ← lockChainSafetyRow db batch.chain
    let policy ← batchPolicy db batch.chain batch.policyVersion
    rejectIf (confirmation.confirmations < policy.payoutConfirmations)
      (.prematurePayoutConfirmation policy.payoutConfirmations confirmation.confirmations)
    let fee ← orReject (.database "network_fee_zat")
      ((db.payoutBatches.find batchId).bind (·.networkFeeZat))
    let totalAsset ← checkedAdd 64 .moneyOverflow batch.payoutTotalZat fee
    rejectIf (fee > batch.maximumNetworkFeeZat ∨ totalAsset > batch.minerTotalZat ∨
        batch.payoutTotalZat + batch.maximumNetworkFeeZat ≥ 2 ^ 64 ∨
        batch.payoutTotalZat + batch.maximumNetworkFeeZat ≠ batch.minerTotalZat)
      .excessivePayoutFee
    requireCollateral db batch.chain totalAsset
    settlePayout db draw batch fee confirmation

/-- What settling the batch of a row did: the charged fee is positive and within the reserve, the
    count fits its column, and the lines of the confirmation are posted. -/
structure Settlement (db db' : Database) (row : PayoutBatchRow) (fee : ℕ)
    (confirmation : PayoutConfirmation) : Prop where
  fee_pos : 0 < fee
  fee_le : fee ≤ reserveSum row.outputs
  narrow : confirmation.confirmations < 2 ^ 31
  posted : ∃ ledger, db.ledger.Extends ledger (settling row.loaded (charges row.outputs fee) fee) ∧
    db' = { db with
      ledger := ledger
      payoutBatches := db.payoutBatches.modify row.id (·.confirm confirmation) fun _ => rfl }

variable {db db' : Database} {batchId : Uuid} {outputs : List PayoutInstruction}

/-- What a settlement comes to. -/
theorem settlePayout_spec {draw : LedgerDraw} {row : PayoutBatchRow} {fee : ℕ}
    {confirmation : PayoutConfirmation}
    (h : settlePayout db draw row.loaded fee confirmation = .ok db') :
    Settlement db db' row fee confirmation := by
  obtain ⟨contributions, hcharge, h⟩ := bind_eq_ok.mp h
  obtain ⟨posted, hpost, h⟩ := bind_eq_ok.mp (passed (passed h))
  obtain ⟨_, hnarrow, h⟩ := bind_eq_ok.mp h
  injection h with h
  obtain ⟨-, -, hpos, hreserved, rfl⟩ := allocateActualNetworkFee_spec hcharge
  obtain ⟨ledger, hledger, rfl⟩ := insertLedgerTransaction_spec hpost
  exact ⟨hpos, hreserved, not_le.mp (rejectIf_eq_ok.mp hnarrow), ledger, hledger, h.symm⟩

/-- The batch was settled with the fee it was signed with; nothing else changed. -/
def Settled (db db' : Database) (batchId : Uuid) (confirmation : PayoutConfirmation) : Prop :=
  ∃ row fee ledger, db.payoutBatches.find batchId = some row ∧ row.state.isMinable ∧
    row.networkFeeZat = some fee ∧ 0 < fee ∧ fee ≤ reserveSum row.outputs ∧
    db.ledger.Extends ledger (settling row.loaded (charges row.outputs fee) fee) ∧
    db' = { db with
      ledger := ledger
      payoutBatches := db.payoutBatches.modify batchId (·.confirm confirmation) fun _ => rfl }

/-- **What a confirmation did**: nothing, because it is stored already; or it settled the
    batch. -/
theorem confirmPayout_spec {draw : LedgerDraw} {confirmation : PayoutConfirmation}
    (h : confirmPayout db draw batchId confirmation = .ok db') :
    db' = db ∨ Settled db db' batchId confirmation := by
  obtain ⟨row, hrow, h⟩ := loadPayoutBatch_bind (passed h)
  split at h
  · unfold replayConfirmation at h
    obtain ⟨stored, -, h⟩ := bind_eq_ok.mp h
    obtain ⟨same, -, h⟩ := bind_eq_ok.mp h
    replace h := passed h
    injection h with h
    exact Or.inl h.symm
  · obtain ⟨hstate, h⟩ := require_bind_ok h
    obtain ⟨policy, -, h⟩ := bind_eq_ok.mp (passed h)
    obtain ⟨fee, hfee, h⟩ := bind_eq_ok.mp (passed h)
    obtain ⟨totalAsset, -, h⟩ := bind_eq_ok.mp h
    replace h := passed (passed h)
    rw [orReject_eq_ok, hrow] at hfee
    obtain ⟨hpos, hreserved, -, ledger, hledger, hdb⟩ := settlePayout_spec h
    refine Or.inr ⟨row, fee, ledger, hrow, hstate, hfee, hpos, hreserved, hledger, ?_⟩
    have hid : row.id = batchId := Table.key_of_find hrow
    rw [hdb, ← hid]

/-! ## §3. Well-formed batches -/

/-- The states of a batch whose transaction exists. -/
def PayoutBatchState.isSigned : PayoutBatchState → Bool
  | .signed | .broadcasting | .broadcast | .expiryPending | .expired | .confirmed | .reorged => true
  | .draft | .signing | .cancelled => false

theorem PayoutBatchState.isSigned_of_isMinable {state : PayoutBatchState} (h : state.isMinable) :
    state.isSigned := by
  cases state <;> simp_all [isMinable, isSigned]

/-- What every stored batch keeps to. -/
structure PayoutBatchRow.Sound (row : PayoutBatchRow) : Prop where
  nonempty : row.items ≠ []
  amounts : ∀ o ∈ row.items, 0 < o.amountZat ∧ o.amountZat ≤ o.liabilityAmountZat ∧
    o.liabilityAmountZat < i64Limit
  accounts : (row.items.map (·.accountId)).Nodup
  fits : liabilityTotal row.items < 2 ^ 64
  length : row.items.length ≤ 200
  signed : row.state.isSigned → ∃ fee, row.networkFeeZat = some fee ∧ 0 < fee ∧
    fee ≤ reserveSum row.items

namespace PayoutBatchRow

variable {row : PayoutBatchRow}

theorem liabilityTotal_outputs (row : PayoutBatchRow) :
    liabilityTotal row.outputs = liabilityTotal row.items := (row.outputs_perm.map _).sum_eq

theorem payoutTotal_outputs (row : PayoutBatchRow) :
    payoutTotal row.outputs = payoutTotal row.items := (row.outputs_perm.map _).sum_eq

theorem reserveSum_outputs (row : PayoutBatchRow) :
    reserveSum row.outputs = reserveSum row.items := (row.outputs_perm.map _).sum_eq

/-- What the outputs pay and what they reserve is the liability. -/
theorem payoutTotal_add_reserveSum (h : ∀ o ∈ outputs, o.amountZat ≤ o.liabilityAmountZat) :
    payoutTotal outputs + reserveSum outputs = liabilityTotal outputs := by
  unfold payoutTotal reserveSum liabilityTotal
  rw [← List.sum_map_add]
  congr 1
  refine List.map_congr_left fun o ho => ?_
  have hle := h o ho
  unfold PayoutInstruction.reserve
  omega

theorem Sound.amounts_outputs (h : row.Sound) {o : PayoutInstruction} (ho : o ∈ row.outputs) :
    0 < o.amountZat ∧ o.amountZat ≤ o.liabilityAmountZat ∧ o.liabilityAmountZat < i64Limit :=
  h.amounts o (row.outputs_perm.mem_iff.mp ho)

theorem Sound.outputs_le (h : row.Sound) :
    ∀ o ∈ row.outputs, o.amountZat ≤ o.liabilityAmountZat := fun _ ho => (h.amounts_outputs ho).2.1

/-- Payments and reserves make up the liabilities. -/
theorem Sound.totals (h : row.Sound) :
    payoutTotal row.outputs + reserveSum row.outputs = liabilityTotal row.outputs :=
  payoutTotal_add_reserveSum h.outputs_le

/-- Reading back a well-formed batch succeeds. -/
theorem Sound.load (h : row.Sound) (hrow : db.payoutBatches.find row.id = some row) :
    loadPayoutBatch db row.id = .ok row.loaded := by
  refine loadPayoutBatch_eq_ok hrow (fun hnil => ?_) h.outputs_le ?_
  · have hperm := row.outputs_perm
    rw [hnil] at hperm
    exact h.nonempty hperm.nil_eq.symm
  · rw [liabilityTotal_outputs]
    exact h.fits

/-- The fee of a signed batch, in terms of the outputs. -/
theorem Sound.fee (h : row.Sound) (hstate : row.state.isMinable) :
    ∃ fee, row.networkFeeZat = some fee ∧ 0 < fee ∧ fee ≤ reserveSum row.outputs := by
  rw [reserveSum_outputs]
  exact h.signed (PayoutBatchState.isSigned_of_isMinable hstate)

end PayoutBatchRow

/-! ## §4. What the lines add up to -/

/-- The gross liability of every output, by account. -/
def owed (outputs : List PayoutInstruction) : List (Uuid × ℕ) :=
  outputs.map fun o => (o.accountId, o.liabilityAmountZat)

/-- What every output costs its account in the end: the amount paid and its share of the fee. -/
def spent (ps : List (PayoutInstruction × ℕ)) : List (Uuid × ℕ) :=
  ps.map fun p => (p.1.accountId, p.1.amountZat + p.2)

section Sums

variable (q : LedgerPlace → Prop) [DecidablePred q]

theorem reservedEntries_cons (o : PayoutInstruction) (outputs : List PayoutInstruction) :
    reservedEntries (o :: outputs) = ⟨.minerPayable o.accountId, o.liabilityAmountZat⟩
      :: ⟨.payoutPending o.accountId, -o.liabilityAmountZat⟩ :: reservedEntries outputs := rfl

/-- What a reservation adds up to. -/
theorem sumWhere_reservedEntries (outputs : List PayoutInstruction) :
    sumWhere q (reservedEntries outputs)
      = splitAt q .minerPayable (owed outputs) - splitAt q .payoutPending (owed outputs) := by
  induction outputs with
  | nil => rfl
  | cons o outputs ih =>
    have howed : owed (o :: outputs) = (o.accountId, o.liabilityAmountZat) :: owed outputs := rfl
    rw [reservedEntries_cons, howed, sumWhere_cons, sumWhere_cons_neg, ih, splitAt_cons, splitAt_cons]
    ring

/-- A release is the mirror of the reservation. -/
theorem sumWhere_releasedEntries (outputs : List PayoutInstruction) :
    sumWhere q (releasedEntries outputs) = -sumWhere q (reservedEntries outputs) := by
  induction outputs with
  | nil => rfl
  | cons o outputs ih =>
    have hreleased : releasedEntries (o :: outputs)
        = ⟨.payoutPending o.accountId, o.liabilityAmountZat⟩
          :: ⟨.minerPayable o.accountId, -o.liabilityAmountZat⟩ :: releasedEntries outputs := rfl
    rw [hreleased, reservedEntries_cons, sumWhere_cons, sumWhere_cons_neg, sumWhere_cons,
      sumWhere_cons_neg, ih]
    ring

/-- What one settled output adds up to. -/
theorem sumWhere_settledLines (p : PayoutInstruction × ℕ) :
    sumWhere q (settledLines p)
      = (if q (.payoutPending p.1.accountId) then (p.1.liabilityAmountZat : ℤ) else 0)
        - if q (.minerPayable p.1.accountId) then ((p.1.reserve - p.2 : ℕ) : ℤ) else 0 := by
  unfold settledLines refundLines
  rw [sumWhere_cons, sumWhere_fee]
  rfl

/-- **Reservation and settlement together** leave what was paid and charged. -/
theorem sumWhere_reserved_settled {ps : List (PayoutInstruction × ℕ)}
    (h : ∀ p ∈ ps, p.1.amountZat ≤ p.1.liabilityAmountZat ∧ p.2 ≤ p.1.reserve) :
    sumWhere q (reservedEntries (ps.map Prod.fst)) + sumWhere q (ps.flatMap settledLines)
      = splitAt q .minerPayable (spent ps) := by
  induction ps with
  | nil => rfl
  | cons p ps ih =>
    obtain ⟨hle, hcharge⟩ := h p List.mem_cons_self
    have hcons : reservedEntries ((p :: ps).map Prod.fst)
        = ⟨.minerPayable p.1.accountId, p.1.liabilityAmountZat⟩
          :: ⟨.payoutPending p.1.accountId, -p.1.liabilityAmountZat⟩
          :: reservedEntries (ps.map Prod.fst) := rfl
    have hspent : spent (p :: ps) = (p.1.accountId, p.1.amountZat + p.2) :: spent ps := rfl
    rw [hcons, hspent, List.flatMap_cons, sumWhere_append, sumWhere_cons, sumWhere_cons_neg,
      sumWhere_settledLines, splitAt_cons, ← ih fun p hp => h p (List.mem_cons_of_mem _ hp)]
    -- what is not returned of the reserve is the charge
    have hkept : ((p.1.reserve - p.2 : ℕ) : ℤ)
        = p.1.liabilityAmountZat - (p.1.amountZat + p.2 : ℕ) := by
      unfold PayoutInstruction.reserve at hcharge ⊢
      omega
    rw [hkept]
    by_cases hpayable : q (.minerPayable p.1.accountId)
    · simp only [hpayable, if_true]
      ring
    · simp only [hpayable, if_false]
      ring

/-- The charges stay within the reserves. -/
theorem charges_within {fee : ℕ} (hle : ∀ o ∈ outputs, o.amountZat ≤ o.liabilityAmountZat)
    (hpos : 0 < fee) (hfee : fee ≤ reserveSum outputs) : ∀ p ∈ outputs.zip (charges outputs fee),
      p.1.amountZat ≤ p.1.liabilityAmountZat ∧ p.2 ≤ p.1.reserve := by
  intro p hp
  exact ⟨hle p.1 (List.of_mem_zip hp).1, charge_le_reserve (by omega) hfee hp⟩

/-- **The whole life of a settled batch**: each account gave what was paid and charged for it,
    the collector gave what left the wallet, and the fee is an expense that the miners bore. -/
theorem sumWhere_settled {fee : ℕ} (hle : ∀ o ∈ outputs, o.amountZat ≤ o.liabilityAmountZat)
    (hpos : 0 < fee) (hfee : fee ≤ reserveSum outputs) :
    sumWhere q (reservedEntries outputs) + sumWhere q (settledEntries outputs (charges outputs fee) fee)
      = splitAt q .minerPayable (spent (outputs.zip (charges outputs fee)))
        + (if q .networkFeeExpense then (fee : ℤ) else 0)
        - (if q .minerNetworkFeeContribution then (fee : ℤ) else 0)
        - if q .collectorSpendableAsset then ((payoutTotal outputs + fee : ℕ) : ℤ) else 0 := by
  have hfst : (outputs.zip (charges outputs fee)).map Prod.fst = outputs :=
    List.map_fst_zip (by rw [length_charges])
  have hlines := sumWhere_reserved_settled q (charges_within hle hpos hfee)
  rw [hfst] at hlines
  unfold settledEntries
  rw [sumWhere_append, sumWhere_append, sumWhere_feePair, sumWhere_cons_neg, sumWhere_nil,
    ← hlines]
  ring

end Sums

/-- What the outputs and the charges spend in total. -/
theorem sum_spent {fee : ℕ} (hreserve : 0 < reserveSum outputs) :
    ((spent (outputs.zip (charges outputs fee))).map (·.2)).sum = payoutTotal outputs + fee := by
  have hsnd : (outputs.zip (charges outputs fee)).map Prod.snd = charges outputs fee :=
    List.map_snd_zip (by rw [length_charges])
  have hfst : (outputs.zip (charges outputs fee)).map Prod.fst = outputs :=
    List.map_fst_zip (by rw [length_charges])
  calc ((spent (outputs.zip (charges outputs fee))).map (·.2)).sum
      = ((outputs.zip (charges outputs fee)).map fun p => p.1.amountZat + p.2).sum := by
        unfold spent
        rw [List.map_map]
        rfl
    _ = ((outputs.zip (charges outputs fee)).map fun p => p.1.amountZat).sum
          + ((outputs.zip (charges outputs fee)).map Prod.snd).sum := List.sum_map_add
    _ = payoutTotal outputs + fee := by
        rw [hsnd, sum_charges hreserve]
        congr 2
        conv_rhs => rw [← hfst]
        rw [List.map_map]
        rfl

/-- The lines of a confirmation may be sealed. -/
theorem settledEntries_sealable {fee : ℕ}
    (hamounts : ∀ o ∈ outputs, 0 < o.amountZat ∧ o.amountZat ≤ o.liabilityAmountZat)
    (hpos : 0 < fee) (hfee : fee ≤ reserveSum outputs) :
    Sealable (settledEntries outputs (charges outputs fee) fee) := by
  have hle : ∀ o ∈ outputs, o.amountZat ≤ o.liabilityAmountZat := fun o ho => (hamounts o ho).2
  refine ⟨by simp [settledEntries], fun e he => ?_, ?_⟩
  · unfold settledEntries at he
    rw [if_pos hpos] at he
    simp only [List.mem_append, List.mem_flatMap, List.mem_cons, List.not_mem_nil, or_false] at he
    obtain (⟨p, hp, he⟩ | rfl | rfl) | rfl := he
    · obtain ⟨hpaid, hliability⟩ := hamounts p.1 (List.of_mem_zip hp).1
      unfold settledLines refundLines at he
      split at he
      · simp only [List.mem_cons, List.not_mem_nil, or_false] at he
        obtain rfl | rfl := he
        · simp only
          omega
        · simp only
          omega
      · rw [List.mem_singleton] at he
        subst he
        simp only
        omega
    · simp only
      omega
    · simp only
      omega
    · simp only
      omega
  · have hall := sumWhere_settled (fun _ => True) hle hpos hfee
    rw [sumWhere_reservedEntries, splitAt_of_forall fun _ => trivial,
      splitAt_of_forall fun _ => trivial, splitAt_of_forall fun _ => trivial,
      sum_spent (by omega)] at hall
    simp only [if_true] at hall
    have hsum : sumWhere (fun _ => True) (settledEntries outputs (charges outputs fee) fee)
        = ((settledEntries outputs (charges outputs fee) fee).map (·.amount)).sum := by
      simp [sumWhere]
    rw [← hsum]
    omega

/-! ## §5. When a confirmation can be recorded -/

/-- The collector balance that lets a payout of `totalAsset` be settled. -/
def Covers (db : Database) (chain : Chain) (totalAsset : ℕ) : Prop :=
  0 ≤ db.outstandingLiabilities chain ∧ db.outstandingLiabilities chain ≤ db.spendable chain ∧
    (totalAsset : ℤ) ≤ db.spendable chain

instance (db : Database) (chain : Chain) (totalAsset : ℕ) : Decidable (Covers db chain totalAsset) :=
  inferInstanceAs (Decidable (_ ∧ _ ∧ _))

/-- The collateral check, as arithmetic. -/
theorem requireCollateral_eq_ok_iff {chain : Chain} {totalAsset : ℕ} :
    requireCollateral db chain totalAsset = .ok () ↔
      Covers db chain totalAsset ∧ db.spendable chain < i64Limit := by
  unfold requireCollateral collectorSpendable Covers
  simp only [bind_eq_ok, castBigint_eq_ok, rejectIf_eq_ok, asI64_eq_ok]
  constructor
  · rintro ⟨_, ⟨havailable, rfl⟩, _, ⟨houtstanding, rfl⟩, _, hcovered, _, ⟨htotal, rfl⟩, hthis⟩
    omega
  · rintro ⟨⟨hnonneg, hcovered, hthis⟩, hlimit⟩
    exact ⟨_, ⟨⟨by omega, hlimit⟩, rfl⟩, _, ⟨⟨by omega, by omega⟩, rfl⟩, (), by omega, _,
      ⟨by omega, rfl⟩, by omega⟩

theorem requireCollateral_errors {chain : Chain} {totalAsset : ℕ} (h : Covers db chain totalAsset) :
    ErrorsIn (· ≠ .collectorReconciliationFailed) (requireCollateral db chain totalAsset) := by
  obtain ⟨hnonneg, hcovered, hthis⟩ := h
  unfold requireCollateral collectorSpendable
  simp
  omega

section Confirming

variable {db : Database} {draw : LedgerDraw} {row : PayoutBatchRow} {fee : ℕ}
  {confirmation : PayoutConfirmation}

/-- Charging the fee of a well-formed batch succeeds, line by line. -/
theorem PayoutBatchRow.Sound.charge (h : row.Sound) (hpos : 0 < fee)
    (hfee : fee ≤ reserveSum row.outputs) :
    allocateActualNetworkFee row.outputs fee = .ok (charges row.outputs fee) ∧
      settlementLines (row.outputs.zip (charges row.outputs fee))
        = .ok ((row.outputs.zip (charges row.outputs fee)).flatMap settledLines) := by
  have hfit : reserveSum row.outputs < 2 ^ 64 := by
    have htotals := h.totals
    have hall := h.fits
    rw [PayoutBatchRow.liabilityTotal_outputs] at htotals
    omega
  refine ⟨allocateActualNetworkFee_eq_ok h.outputs_le hfit hpos hfee, ?_⟩
  apply settlementLines_eq_ok
  intro p hp
  obtain ⟨hle, hcharge⟩ := charges_within h.outputs_le hpos hfee p hp
  exact ⟨(h.amounts_outputs (List.of_mem_zip hp).1).2.2, hle, hcharge⟩

theorem length_settledEntries_le (outputs : List PayoutInstruction) (contributions : List ℕ)
    (feeZat : ℕ) : (settledEntries outputs contributions feeZat).length ≤ 2 * outputs.length + 3 := by
  have hlines : ∀ ps : List (PayoutInstruction × ℕ),
      (ps.flatMap settledLines).length ≤ 2 * ps.length := by
    intro ps
    induction ps with
    | nil => simp
    | cons p ps ih =>
      have hp : (settledLines p).length ≤ 2 := by
        unfold settledLines refundLines
        split <;> simp
      rw [List.flatMap_cons, List.length_append, List.length_cons]
      omega
  have hzip : (outputs.zip contributions).length ≤ outputs.length := by
    rw [List.length_zip]
    exact min_le_left _ _
  have houtputs := hlines (outputs.zip contributions)
  unfold settledEntries
  rw [List.length_append, List.length_append, List.length_singleton]
  split
  · simp only [List.length_cons, List.length_nil]
    omega
  · simp only [List.length_nil]
    omega

/-- Settling a well-formed batch succeeds with a fresh UUID. -/
theorem settlePayout_eq_ok (h : row.Sound) (hpos : 0 < fee) (hfee : fee ≤ reserveSum row.outputs)
    (htotal : payoutTotal row.outputs + fee < i64Limit)
    (hnarrow : confirmation.confirmations < 2 ^ 31)
    (hfresh : draw.id ∉ db.ledger.transactions.map (·.id)) :
    ∃ db', settlePayout db draw row.loaded fee confirmation = .ok db' := by
  obtain ⟨hcharge, hlines⟩ := h.charge hpos hfee
  have hsealable : Sealable (settledEntries row.outputs (charges row.outputs fee) fee) :=
    settledEntries_sealable (fun o ho => ⟨(h.amounts_outputs ho).1, (h.amounts_outputs ho).2.1⟩)
      hpos hfee
  have hlength : (settledEntries row.outputs (charges row.outputs fee) fee).length < 2 ^ 31 := by
    have hle := length_settledEntries_le row.outputs (charges row.outputs fee) fee
    have hitems := h.length
    rw [← row.outputs_perm.length_eq] at hitems
    omega
  obtain ⟨posted, hpost⟩ : ∃ posted, insertLedgerTransaction db draw
      (settling row.loaded (charges row.outputs fee) fee) = .ok posted :=
    insertLedgerTransaction_of_fresh hsealable rfl hfresh hlength
  have hmoney : ¬ ∃ v ∈ [fee, payoutTotal row.outputs + fee], v ≥ i64Limit := by
    simp only [List.mem_cons, List.not_mem_nil, or_false]
    rintro ⟨v, rfl | rfl, hv⟩ <;> omega
  unfold settlePayout requireI64
  simp only [PayoutBatchRow.loaded_outputs, PayoutBatchRow.loaded_payoutTotalZat]
  rw [hcharge, ok_bind, hlines, ok_bind, rejectIf_of_not _ hmoney, ok_bind, hpost, ok_bind,
    rejectIf_of_not _ (by omega), ok_bind]
  exact ⟨_, rfl⟩

/-- The evidence is well formed and deep enough for the policy. -/
structure Deep (policy : ChainPolicy) (confirmation : PayoutConfirmation) : Prop where
  hash : ¬ confirmation.blockHash.isZero
  height : confirmation.blockHeight ≠ 0
  count : policy.payoutConfirmations ≤ confirmation.confirmations

variable {policy : ChainPolicy}

theorem Deep.validate (h : Deep policy confirmation) : confirmation.validate = .ok () := by
  have hpos := policy.payout_range.1
  have hcount := h.count
  exact rejectIf_of_not _ (by
    rintro (hhash | hheight | hzero)
    · exact h.hash hhash
    · exact h.height hheight
    · omega)

/-- What the store itself guarantees of a submitted batch. -/
structure Submitted (db : Database) (row : PayoutBatchRow) (policy : ChainPolicy) (fee : ℕ) :
    Prop where
  found : db.payoutBatches.find row.id = some row
  sound : row.Sound
  state : row.state.isMinable
  fee_eq : row.networkFeeZat = some fee
  fee_pos : 0 < fee
  fee_le : fee ≤ reserveSum row.outputs
  policy_eq : db.chainPolicies.get row.chain = some policy
  version : policy.policyVersion = row.policyVersion
  safety : (db.chainSafety.get row.chain).isSome

/-- For deep evidence about a submitted batch only the collateral is left to check. -/
theorem confirmPayout_eq (h : Submitted db row policy fee) (hdeep : Deep policy confirmation) :
    confirmPayout db draw row.id confirmation
      = (do
          requireCollateral db row.chain (payoutTotal row.outputs + fee)
          settlePayout db draw row.loaded fee confirmation) := by
  have htotals := h.sound.totals
  have hfits := h.sound.fits
  rw [← PayoutBatchRow.liabilityTotal_outputs] at hfits
  have hfee := h.fee_le
  obtain ⟨safety, hsafety⟩ := Option.isSome_iff_exists.mp h.safety
  have hlock : lockChainSafetyRow db row.chain = .ok safety.payoutsFrozen := by
    unfold lockChainSafetyRow
    rw [hsafety]
    rfl
  have hpolicy : batchPolicy db row.chain row.policyVersion = .ok policy := by
    unfold batchPolicy
    rw [h.policy_eq, Option.filter_some, if_pos (by simpa using h.version)]
    rfl
  have hconfirmed : row.state ≠ .confirmed := by
    intro heq
    have hminable := h.state
    rw [heq] at hminable
    cases hminable
  have hcount := hdeep.count
  unfold confirmPayout
  rw [hdeep.validate, ok_bind, h.sound.load h.found, ok_bind]
  simp only [PayoutBatchRow.loaded_state, PayoutBatchRow.loaded_chain,
    PayoutBatchRow.loaded_policyVersion, PayoutBatchRow.loaded_payoutTotalZat,
    PayoutBatchRow.loaded_minerTotalZat, PayoutBatchRow.loaded_maximumNetworkFeeZat]
  rw [if_neg hconfirmed, rejectIf_of_not _ (not_not.mpr h.state), ok_bind, hlock, ok_bind, hpolicy,
    ok_bind, rejectIf_of_not _ (by omega), ok_bind, h.found, Option.bind_some, h.fee_eq,
    orReject_some, ok_bind, checkedAdd_of_lt _ (by omega), ok_bind, rejectIf_of_not _ (by omega),
    ok_bind]

/-- **When deep evidence about a submitted batch can be recorded**: exactly when its count fits
    its column and the collector covers the batch. -/
theorem confirmPayout_eq_ok_iff (h : Submitted db row policy fee) (hdeep : Deep policy confirmation)
    (hfresh : draw.id ∉ db.ledger.transactions.map (·.id)) :
    (∃ db', confirmPayout db draw row.id confirmation = .ok db') ↔
      confirmation.confirmations < 2 ^ 31 ∧
        Covers db row.chain (payoutTotal row.outputs + fee) ∧ db.spendable row.chain < i64Limit := by
  rw [confirmPayout_eq h hdeep, ← requireCollateral_eq_ok_iff]
  constructor
  · rintro ⟨db', hok⟩
    obtain ⟨_, hcollateral, hsettle⟩ := bind_eq_ok.mp hok
    exact ⟨(settlePayout_spec hsettle).narrow, hcollateral⟩
  · rintro ⟨hnarrow, hcollateral⟩
    obtain ⟨⟨-, -, hthis⟩, hlimit⟩ := requireCollateral_eq_ok_iff.mp hcollateral
    rw [hcollateral, ok_bind]
    exact settlePayout_eq_ok h.sound h.fee_pos h.fee_le (by omega) hnarrow hfresh

/-- **The collector error** has one origin: the collateral check on a submitted batch. -/
theorem confirmPayout_ne_collector
    (hsound : ∀ row, db.payoutBatches.find batchId = some row → row.Sound)
    (hcovers : ∀ row fee, db.payoutBatches.find batchId = some row → row.state.isMinable →
      row.networkFeeZat = some fee → fee ≤ reserveSum row.outputs →
      Covers db row.chain (payoutTotal row.outputs + fee)) :
    confirmPayout db draw batchId confirmation ≠ .error .collectorReconciliationFailed := by
  rw [← errorsIn_ne]
  refine .bind (.rejectIf (by simp)) fun _ => ?_
  cases hrow : db.payoutBatches.find batchId with
  | none =>
    unfold loadPayoutBatch
    rw [hrow]
    simp
  | some row =>
    have hs := hsound row hrow
    obtain rfl : row.id = batchId := Table.key_of_find hrow
    rw [hs.load hrow, ok_bind]
    split
    · unfold replayConfirmation storedConfirmation sameConfirmation
      simp
    · refine errorsIn_bind.mpr ⟨.rejectIf (by simp), fun _ hstate => ?_⟩
      rw [rejectIf_eq_ok, not_not] at hstate
      obtain ⟨fee, hfee, hpos, hle⟩ := hs.fee hstate
      have hcollateral := requireCollateral_errors (hcovers row fee hrow hstate hfee hle)
      -- behind the check only the posting and the count can fail
      obtain ⟨hcharge, hlines⟩ := hs.charge hpos hle
      have hposting : ∀ posting, ErrorsIn (· ≠ .collectorReconciliationFailed)
          (insertLedgerTransaction db draw posting) := fun _ =>
        insertLedgerTransaction_errors (by simp) (by simp) (by simp)
      simp_all [lockChainSafetyRow, batchPolicy, checkedAdd, settlePayout, requireI64]

end Confirming

/-! ## §6. Reorganisation -/

def PayoutReorg.validate (evidence : PayoutReorg) : Except StoreError Unit := do
  evidence.priorConfirmation.validate
  rejectIf (evidence.replacementTipHash.isZero ∨
    evidence.replacementTipHash = evidence.priorConfirmation.blockHash ∨
    evidence.replacementTipHeight = 0 ∨ evidence.observedAt = 0) .invalidPayoutConfirmation

/-- `ORDER BY observed_at DESC,id DESC LIMIT 1` -/
def latestReorg (db : Database) (batchId : Uuid) : Option ReorgEventRow :=
  ((db.reorgEvents.rows.filter (·.batchId = batchId)).insertionSort fun a b =>
    b.reorg.observedAt < a.reorg.observedAt ∨
      (b.reorg.observedAt = a.reorg.observedAt ∧ b.id ≤ a.id)).head?

def sameReorg (stored given : PayoutReorg) : Except StoreError Bool := do
  let same ← sameConfirmation stored.priorConfirmation given.priorConfirmation
  if same ∧ stored.replacementTipHash = given.replacementTipHash ∧
      stored.replacementTipHeight = given.replacementTipHeight then do
    rejectIf (given.observedAt ≥ i64Limit) .invalidTimestamp
    pure (stored.observedAt = given.observedAt)
  else pure false

def replayReorg (db : Database) (batchId : Uuid) (evidence : PayoutReorg) :
    Except StoreError Database := do
  let stored ← orReject (.corruptDatabaseState "payout reorg evidence")
    (latestReorg db batchId)
  let same ← sameReorg stored.reorg evidence
  rejectIf (same = false) .payoutReplayConflict
  pure db

def insertReorgEvent (db : Database) (event : ReorgEventRow) :
    Except StoreError (Table ReorgEventRow.id) := do
  rejectIf (event.reorg.observedAt ≥ i64Limit) .invalidTimestamp
  rejectIf (∃ e ∈ db.reorgEvents.rows, e.batchId = event.batchId ∧
      e.reorg.priorConfirmation.blockHash = event.reorg.priorConfirmation.blockHash ∧
      e.reorg.replacementTipHash = event.reorg.replacementTipHash)
    (.database "payout_reorg_events_batch_hashes_key")
  orReject (.database "payout_reorg_events_pkey") (db.reorgEvents.insert event)

/-- Record that a confirmed payout left the best chain, and freeze new payouts. -/
def markConfirmedPayoutReorged (db : Database) (eventId batchId : Uuid) (evidence : PayoutReorg) :
    Except StoreError Database := do
  evidence.validate
  let batch ← loadPayoutBatch db batchId
  if batch.state = .reorged then replayReorg db batchId evidence
  else do
    rejectIf (batch.state ≠ .confirmed) .invalidPayoutTransition
    let stored ← storedConfirmation db batchId
    let same ← sameConfirmation stored evidence.priorConfirmation
    rejectIf (same = false) .payoutReplayConflict
    let _ ← lockChainSafetyRow db batch.chain
    let reorgEvents ← insertReorgEvent db ⟨eventId, batchId, evidence⟩
    freezeChainPayouts
      { db with
        reorgEvents := reorgEvents
        payoutBatches := db.payoutBatches.modify batchId (·.enter .reorged) fun _ => rfl }
      batch.chain none .confirmedPayoutReorg

/-- A reorganised payout freezes its chain. -/
theorem markConfirmedPayoutReorged_spec {eventId : Uuid} {evidence : PayoutReorg}
    (h : markConfirmedPayoutReorged db eventId batchId evidence = .ok db') :
    db' = db ∨ ∃ row reorgEvents safety, db.payoutBatches.find batchId = some row ∧
      row.state = .confirmed ∧ safety.payoutsFrozen = true ∧ db' = { db with
        reorgEvents := reorgEvents
        payoutBatches := db.payoutBatches.modify batchId (·.enter .reorged) fun _ => rfl
        chainSafety := db.chainSafety.set row.chain (some safety) } := by
  obtain ⟨row, hrow, h⟩ := loadPayoutBatch_bind (passed h)
  split at h
  · unfold replayReorg at h
    obtain ⟨stored, -, h⟩ := bind_eq_ok.mp h
    obtain ⟨same, -, h⟩ := bind_eq_ok.mp h
    replace h := passed h
    injection h with h
    exact Or.inl h.symm
  · obtain ⟨hstate, h⟩ := require_bind_ok h
    obtain ⟨stored, -, h⟩ := bind_eq_ok.mp h
    obtain ⟨same, -, h⟩ := bind_eq_ok.mp h
    obtain ⟨reorgEvents, -, h⟩ := bind_eq_ok.mp (passed (passed h))
    obtain ⟨safety, hfrozen, hdb⟩ := freezeChainPayouts_spec h
    exact Or.inr ⟨row, reorgEvents, safety, hrow, hstate, hfrozen, hdb⟩

end WcashPool.Store
