/-
  WcashPool.Store.PayoutBatches — deriving and reserving a payout batch
  (`create_payout_batch`, `load_payout_batch`).

  A batch is derived from the ledger alone: every account whose payable balance
  reaches its threshold and whose active destination allows automatic payouts,
  the longest unpaid first.  Each output pays at most a random cap; what it pays
  moves from payable to pending in one posting, and the fee reserve is taken
  off the outputs at once.

  Main results: `loadPayoutBatch_spec` and `createPayoutBatch_spec`.
-/
import WcashPool.Store.Wallet

namespace WcashPool.Store

open Fallible Protocol DoubleEntry

/-! ## §1. Reading a batch back -/

/-- A payout batch as its callers see it. -/
structure PayoutBatch where
  id : Uuid
  chain : Chain
  state : PayoutBatchState
  policyVersion : ℕ
  reconciliationId : Uuid
  ledgerRoot : Hex32
  ledgerSequenceCutoff : ℕ
  minerTotalZat : ℕ
  payoutTotalZat : ℕ
  maximumNetworkFeeZat : ℕ
  outputs : List PayoutInstruction
deriving DecidableEq, Repr

/-- A checked 64-bit sum. -/
def sumZat : ℕ → List ℕ → Except StoreError ℕ
  | sum, [] => .ok sum
  | sum, value :: values => do
    let sum ← checkedAdd 64 .moneyOverflow sum value
    sumZat sum values

theorem sumZat_eq_ok {values : List ℕ} {sum total : ℕ} (hsum : sum < 2 ^ 64) :
    sumZat sum values = .ok total ↔ total = sum + values.sum ∧ total < 2 ^ 64 := by
  induction values generalizing sum with
  | nil =>
    simp only [sumZat, List.sum_nil]
    constructor
    · intro h
      injection h with h
      omega
    · intro h
      rw [h.1, Nat.add_zero]
  | cons value values ih =>
    unfold sumZat
    simp only [bind_eq_ok, checkedAdd_eq_ok, List.sum_cons]
    constructor
    · rintro ⟨_, ⟨hfit, rfl⟩, h⟩
      obtain ⟨htotal, hlt⟩ := (ih hfit).mp h
      omega
    · rintro ⟨htotal, hlt⟩
      exact ⟨_, ⟨by omega, rfl⟩, (ih (by omega)).mpr ⟨by omega, hlt⟩⟩

/-- What the outputs pay on the chain. -/
def payoutTotal (outputs : List PayoutInstruction) : ℕ := (outputs.map (·.amountZat)).sum

/-- The totals of a loaded batch; no output may exceed its liability. -/
def batchTotals : ℕ × ℕ → List PayoutInstruction → Except StoreError (ℕ × ℕ)
  | totals, [] => .ok totals
  | totals, output :: outputs => do
    rejectIf (output.liabilityAmountZat < output.amountZat)
      (.corruptDatabaseState "payout liability amount")
    let miner ← checkedAdd 64 .moneyOverflow totals.1 output.liabilityAmountZat
    let payout ← checkedAdd 64 .moneyOverflow totals.2 output.amountZat
    batchTotals (miner, payout) outputs

theorem batchTotals_eq_ok {outputs : List PayoutInstruction} {totals result : ℕ × ℕ}
    (hle : totals.2 ≤ totals.1) (hfit : totals.1 < 2 ^ 64) :
    batchTotals totals outputs = .ok result ↔
      (∀ o ∈ outputs, o.amountZat ≤ o.liabilityAmountZat) ∧
        result.1 = totals.1 + liabilityTotal outputs ∧ result.1 < 2 ^ 64 ∧
        result.2 = totals.2 + payoutTotal outputs := by
  unfold liabilityTotal payoutTotal
  induction outputs generalizing totals with
  | nil =>
    simp only [batchTotals, List.map_nil, List.sum_nil, List.not_mem_nil]
    constructor
    · intro h
      injection h with h
      subst h
      exact ⟨fun o ho => absurd ho (by simp), rfl, hfit, rfl⟩
    · intro h
      obtain ⟨-, h₁, -, h₂⟩ := h
      rw [show result = totals from Prod.ext h₁ h₂]
  | cons o outputs ih =>
    unfold batchTotals
    simp only [bind_eq_ok, rejectIf_eq_ok, checkedAdd_eq_ok, List.map_cons, List.sum_cons,
      List.forall_mem_cons]
    constructor
    · rintro ⟨_, hgross, _, ⟨hminer, rfl⟩, _, ⟨hpayout, rfl⟩, h⟩
      obtain ⟨hall, h₁, hlt, h₂⟩ := (ih (by simp only; omega) hminer).mp h
      simp only at h₁ h₂
      exact ⟨⟨by omega, hall⟩, by omega, hlt, by omega⟩
    · rintro ⟨⟨hgross, hall⟩, h₁, hlt, h₂⟩
      refine ⟨(), by omega, _, ⟨by omega, rfl⟩, _, ⟨by omega, rfl⟩, ?_⟩
      exact (ih (by simp only; omega) (by simp only; omega)).mpr
        ⟨hall, by simp only; omega, hlt, by simp only; omega⟩

namespace PayoutBatchRow

/-- The items in the order in which they are read back. -/
def outputs (row : PayoutBatchRow) : List PayoutInstruction :=
  row.items.insertionSort fun a b => a.key ≤ b.key

theorem outputs_perm (row : PayoutBatchRow) : row.outputs.Perm row.items :=
  List.perm_insertionSort _ row.items

/-- The batch as it is read back, without the checks. -/
@[simps] def loaded (row : PayoutBatchRow) : PayoutBatch :=
  { id := row.id
    chain := row.chain
    state := row.state
    policyVersion := row.policyVersion
    reconciliationId := row.reconciliationId
    ledgerRoot := row.ledgerRoot
    ledgerSequenceCutoff := row.ledgerSequenceCutoff
    minerTotalZat := liabilityTotal row.outputs
    payoutTotalZat := payoutTotal row.outputs
    maximumNetworkFeeZat := liabilityTotal row.outputs - payoutTotal row.outputs
    outputs := row.outputs }

/-- The batch as its creation answers it: the outputs stand as they were selected. -/
def selected (row : PayoutBatchRow) : PayoutBatch := { row.loaded with outputs := row.items }

end PayoutBatchRow

def loadPayoutBatch (db : Database) (batchId : Uuid) : Except StoreError PayoutBatch := do
  let row ← orReject .unknownPayoutBatch (db.payoutBatches.find batchId)
  rejectIf (row.outputs = []) (.corruptDatabaseState "empty payout batch")
  let totals ← batchTotals (0, 0) row.outputs
  let maximumNetworkFeeZat ← checkedSub .moneyOverflow totals.1 totals.2
  pure { row.loaded with
    minerTotalZat := totals.1
    payoutTotalZat := totals.2
    maximumNetworkFeeZat := maximumNetworkFeeZat }

variable {db : Database} {batchId : Uuid}

/-- **What is read back** is the row with its totals. -/
theorem loadPayoutBatch_spec {batch : PayoutBatch} (h : loadPayoutBatch db batchId = .ok batch) :
    ∃ row, db.payoutBatches.find batchId = some row ∧ batch = row.loaded := by
  obtain ⟨row, hrow, h⟩ := bind_eq_ok.mp h
  obtain ⟨totals, htotals, h⟩ := bind_eq_ok.mp (passed h)
  obtain ⟨fee, hfee, h⟩ := bind_eq_ok.mp h
  rw [orReject_eq_ok] at hrow
  obtain ⟨-, hminer, -, hpayout⟩ := (batchTotals_eq_ok (Nat.le_refl 0) (by simp)).mp htotals
  obtain ⟨-, rfl⟩ := checkedSub_eq_ok.mp hfee
  injection h with h
  refine ⟨row, hrow, ?_⟩
  rw [← h, hminer, hpayout, Nat.zero_add, Nat.zero_add]
  rfl

/-- What goes on with a batch goes on with the row read back. -/
theorem loadPayoutBatch_bind {α : Type} {f : PayoutBatch → Except StoreError α} {a : α}
    (h : (loadPayoutBatch db batchId >>= f) = .ok a) :
    ∃ row, db.payoutBatches.find batchId = some row ∧ f row.loaded = .ok a := by
  obtain ⟨batch, hload, h⟩ := bind_eq_ok.mp h
  obtain ⟨row, hrow, rfl⟩ := loadPayoutBatch_spec hload
  exact ⟨row, hrow, h⟩

/-- Reading back succeeds on a batch with outputs below their liabilities. -/
theorem loadPayoutBatch_eq_ok {row : PayoutBatchRow}
    (hrow : db.payoutBatches.find batchId = some row) (hne : row.outputs ≠ [])
    (hle : ∀ o ∈ row.outputs, o.amountZat ≤ o.liabilityAmountZat)
    (hfit : liabilityTotal row.outputs < 2 ^ 64) : loadPayoutBatch db batchId = .ok row.loaded := by
  have hpayout : payoutTotal row.outputs ≤ liabilityTotal row.outputs :=
    List.sum_le_sum hle
  have htotals : batchTotals (0, 0) row.outputs
      = .ok (liabilityTotal row.outputs, payoutTotal row.outputs) :=
    (batchTotals_eq_ok (Nat.le_refl 0) (by simp)).mpr
      ⟨hle, (Nat.zero_add _).symm, hfit, (Nat.zero_add _).symm⟩
  unfold loadPayoutBatch
  rw [hrow, orReject_some, ok_bind, rejectIf_of_not _ hne, ok_bind, htotals, ok_bind,
    checkedSub_of_le _ hpayout, ok_bind]
  rfl

/-! ## §2. Destinations -/

/-- One due replacement takes effect: the account's active destination gives way to it. -/
def promoteDestination (chain : Chain) (destinations : Table PayoutDestination.id)
    (due : PayoutDestination) : Table PayoutDestination.id :=
  destinations.mapRows
    (fun d => { d with
      state := if d.id = due.id then .active
        else if d.accountId = due.accountId ∧ d.chain = chain ∧ d.state = .active then .disabled
        else d.state })
    fun _ => rfl

/-- `activate_due_payout_destinations_v1`, with the number of promotions. -/
def activateDuePayoutDestinations (destinations : Table PayoutDestination.id) (chain : Chain)
    (now : ℕ) : Table PayoutDestination.id × ℕ :=
  let due := (destinations.rows.filter fun d =>
      d.chain = chain ∧ d.state = .pending ∧ d.activeAfter ≤ now).insertionSort
    fun a b => toLex (a.accountId, a.id) ≤ toLex (b.accountId, b.id)
  (due.foldl (promoteDestination chain) destinations, due.length)

/-! ## §3. Who is paid -/

/-- What a chain owes an account: `-SUM(amount_zat)` over its `miner_payable` lines. -/
def Database.payableLiability (db : Database) (chain : Chain) (accountId : Uuid) : ℤ :=
  -db.sumOn chain (· = .minerPayable accountId)

/-- The last batch that paid an account, if it was not taken back. -/
def lastPayoutAt (db : Database) (chain : Chain) (accountId : Uuid) : Option ℕ :=
  ((db.payoutBatches.rows.filter fun b => b.chain = chain ∧ b.state ≠ .cancelled ∧
    b.state ≠ .expired ∧ ∃ i ∈ b.items, i.accountId = accountId).map (·.createdAt)).max?

/-- The joins and filters of the query for one destination. -/
def eligible (cfg : Config) (db : Database) (chain : Chain) (minimumPayoutZat : ℕ)
    (d : PayoutDestination) : Bool :=
  d.chain = chain ∧ d.state = .active ∧ d.automatic ∧
    (chain ≠ .wcash ∨ cfg.wcashTransparentPayoutsEnabled ∨ d.receiverKind = .ironwood) ∧
    (∀ p ∈ db.payoutDestinations.rows, p.accountId = d.accountId → p.chain = chain →
      p.state ≠ .pending) ∧
    (∃ e ∈ db.linesOn chain, e.place = .minerPayable d.accountId) ∧
    db.payableLiability chain d.accountId ≥ max d.payoutThresholdZat minimumPayoutZat

/-- One row of the query. -/
structure PayableRow where
  accountId : Uuid
  amountZat : ℤ
  destinationId : Uuid
  address : Text
  receiverKind : ReceiverKind
  lastPayoutAt : Option ℕ
deriving DecidableEq, Repr

/-- `ORDER BY last_payout_at ASC NULLS FIRST,account_id` -/
def PayableRow.before (a b : PayableRow) : Bool :=
  match a.lastPayoutAt, b.lastPayoutAt with
  | none, none => a.accountId ≤ b.accountId
  | none, some _ => true
  | some _, none => false
  | some s, some t => s < t ∨ (s = t ∧ a.accountId ≤ b.accountId)

def payableRow (db : Database) (chain : Chain) (d : PayoutDestination) :
    Except StoreError PayableRow := do
  let amount ← castBigint (db.payableLiability chain d.accountId)
  pure
    { accountId := d.accountId
      amountZat := amount
      destinationId := d.id
      address := d.address
      receiverKind := d.receiverKind
      lastPayoutAt := lastPayoutAt db chain d.accountId }

/-- A Wcash batch pays one receiver kind, that of the longest unpaid account. -/
def oneReceiverKind (chain : Chain) (rows : List PayableRow) : List PayableRow :=
  match chain, rows with
  | .wcash, first :: _ => rows.filter (·.receiverKind = first.receiverKind)
  | _, _ => rows

def payableRows (cfg : Config) (db : Database) (chain : Chain) (policy : ChainPolicy) :
    Except StoreError (List PayableRow) := do
  rejectIf (policy.minimumPayoutZat ≥ i64Limit) .moneyOverflow
  let rows ← (db.payoutDestinations.rows.filter
    (eligible cfg db chain policy.minimumPayoutZat)).mapM (payableRow db chain)
  pure ((oneReceiverKind chain (rows.insertionSort fun a b => a.before b)).take
    policy.maximumPayoutOutputs)

variable {cfg : Config} {chain : Chain} {policy : ChainPolicy} {rows : List PayableRow}

/-- Every selected row is that of an eligible destination. -/
theorem payableRows_origin (h : payableRows cfg db chain policy = .ok rows) {r : PayableRow}
    (hr : r ∈ rows) :
    ∃ d, eligible cfg db chain policy.minimumPayoutZat d ∧ payableRow db chain d = .ok r := by
  obtain ⟨all, hall, h⟩ := bind_eq_ok.mp (passed h)
  injection h with h
  subst h
  have hkind : r ∈ all.insertionSort fun a b => a.before b := by
    have hr := List.mem_of_mem_take hr
    unfold oneReceiverKind at hr
    split at hr
    · exact (List.mem_filter.mp hr).1
    · exact hr
  have hmem : r ∈ all := (List.perm_insertionSort _ all).mem_iff.mp hkind
  obtain ⟨d, hd, hrow⟩ := exists_of_mem_mapM hall hmem
  exact ⟨d, (List.mem_filter.mp hd).2, hrow⟩

theorem payableRow_spec {d : PayoutDestination} {r : PayableRow}
    (h : payableRow db chain d = .ok r) :
    r.accountId = d.accountId ∧ r.address = d.address ∧
      r.amountZat = db.payableLiability chain d.accountId := by
  obtain ⟨amount, hamount, h⟩ := bind_eq_ok.mp h
  obtain ⟨-, rfl⟩ := castBigint_eq_ok.mp hamount
  injection h with h
  rw [← h]
  exact ⟨rfl, rfl, rfl⟩

/-- Every selected row states the payable balance of its account. -/
theorem payableRows_spec (h : payableRows cfg db chain policy = .ok rows) :
    ∀ r ∈ rows, r.amountZat = db.payableLiability chain r.accountId := by
  intro r hr
  obtain ⟨d, -, hrow⟩ := payableRows_origin h hr
  obtain ⟨haccount, -, hamount⟩ := payableRow_spec hrow
  rw [haccount, hamount]

/-! ## §4. How much is paid -/

/-- A uniform draw from the configured range, skipped with the configured probability. -/
def payoutCapFromDraws (minimumZat maximumZat skipBps : ℕ) (skipDraw amountDraw : UInt64) :
    Except StoreError (Option ℕ) := do
  rejectIf (minimumZat = 0 ∨ minimumZat > maximumZat ∨ skipBps > 10_000) .invalidChainPolicy
  if skipDraw.toNat * 10_000 / 2 ^ 64 < skipBps then pure none
  else do
    let difference ← checkedSub .moneyOverflow maximumZat minimumZat
    let span ← checkedAdd 64 .moneyOverflow difference 1
    let cap ← checkedAdd 64 .moneyOverflow minimumZat (amountDraw.toNat * span / 2 ^ 64)
    pure (some cap)

/-- The draws of the operating system; `none` where it has none to give. -/
def randomPayoutCap (minimumZat maximumZat skipBps : ℕ) (draws : Option (UInt64 × UInt64)) :
    Except StoreError (Option ℕ) :=
  if skipBps = 0 ∧ minimumZat = maximumZat then .ok (some maximumZat)
  else do
    let (skipDraw, amountDraw) ← orReject .payoutRandomnessUnavailable draws
    payoutCapFromDraws minimumZat maximumZat skipBps skipDraw amountDraw

def payoutAmountForLiability (matureUnpaidZat payoutCapZat : ℕ) : ℕ :=
  if matureUnpaidZat < payoutCapZat then matureUnpaidZat else payoutCapZat

theorem payoutAmountForLiability_le (matureUnpaidZat payoutCapZat : ℕ) :
    payoutAmountForLiability matureUnpaidZat payoutCapZat ≤ matureUnpaidZat := by
  unfold payoutAmountForLiability
  split <;> omega

/-- The gross output of a row. -/
def PayableRow.output (payoutCapZat : ℕ) (allocationId : Uuid) (row : PayableRow) :
    PayoutInstruction :=
  let amount := payoutAmountForLiability row.amountZat.toNat payoutCapZat
  { allocationId := allocationId
    accountId := row.accountId
    destinationId := row.destinationId
    receiverKind := row.receiverKind
    address := row.address
    liabilityAmountZat := amount
    amountZat := amount }

/-- The reserve that the policy allows on a batch. -/
def policyFeeReserve (policy : ChainPolicy) (totalZat smallestLiability : ℕ) :
    Except StoreError ℕ := do
  let relative ← narrow 64 .moneyOverflow (totalZat * policy.maximumNetworkFeeBps / 10_000)
  pure (min (min policy.maximumNetworkFeeZat relative) (smallestLiability - 1))

/-- The gross outputs of the selected rows. -/
def grossOutputs (payoutCapZat : ℕ) (allocationIds : ℕ → Uuid) (rows : List PayableRow) :
    List PayoutInstruction :=
  rows.zipIdx.map fun p => p.1.output payoutCapZat (allocationIds p.2)

/-- The gross outputs, then the reserve taken off them. -/
def payoutOutputs (policy : ChainPolicy) (payoutCapZat : ℕ) (allocationIds : ℕ → Uuid)
    (rows : List PayableRow) : Except StoreError (List PayoutInstruction) := do
  rejectIf (∃ r ∈ rows, r.amountZat < 0) .moneyOverflow
  let total ← sumZat 0 ((grossOutputs payoutCapZat allocationIds rows).map (·.liabilityAmountZat))
  let smallest ← orReject (.corruptDatabaseState "empty selected payout outputs")
    ((grossOutputs payoutCapZat allocationIds rows).map (·.liabilityAmountZat)).min?
  let maximumNetworkFeeZat ← policyFeeReserve policy total smallest
  rejectIf (maximumNetworkFeeZat = 0) .excessivePayoutFee
  let outputs ← deductNetworkFeeReserve (grossOutputs payoutCapZat allocationIds rows)
    maximumNetworkFeeZat
  let paid ← sumZat 0 (outputs.map (·.amountZat))
  rejectIf (paid + maximumNetworkFeeZat ≥ 2 ^ 64 ∨ paid + maximumNetworkFeeZat ≠ total)
    (.corruptDatabaseState "payout fee reserve conservation")
  pure outputs

/-- The outputs of a batch that has not been reserved yet: positive, within the payable balance
    of their accounts, and with a positive fee reserve. -/
structure Payable (db : Database) (chain : Chain) (outputs : List PayoutInstruction) : Prop where
  nonempty : outputs ≠ []
  amounts : ∀ o ∈ outputs, 0 < o.amountZat ∧ o.amountZat ≤ o.liabilityAmountZat
  within : ∀ o ∈ outputs, (o.liabilityAmountZat : ℤ) ≤ db.payableLiability chain o.accountId
  fits : liabilityTotal outputs < 2 ^ 64
  reserved : 0 < reserveSum outputs

section Outputs

variable {cap : ℕ} {allocationIds : ℕ → Uuid} {outputs : List PayoutInstruction}

/-- How the outputs came about: the reserve of the policy was taken off the gross outputs. -/
theorem payoutOutputs_cases (h : payoutOutputs policy cap allocationIds rows = .ok outputs) :
    (∀ r ∈ rows, 0 ≤ r.amountZat) ∧ ∃ smallest fee,
      ((grossOutputs cap allocationIds rows).map (·.liabilityAmountZat)).min? = some smallest ∧
      policyFeeReserve policy (liabilityTotal (grossOutputs cap allocationIds rows)) smallest
        = .ok fee ∧
      deductNetworkFeeReserve (grossOutputs cap allocationIds rows) fee = .ok outputs := by
  obtain ⟨hsign, h⟩ := rejectIf_bind_ok h
  obtain ⟨total, htotal, h⟩ := bind_eq_ok.mp h
  obtain ⟨smallest, hsmallest, h⟩ := bind_eq_ok.mp h
  obtain ⟨fee, hfee, h⟩ := bind_eq_ok.mp h
  obtain ⟨reserved, hreserve, h⟩ := bind_eq_ok.mp (passed h)
  obtain ⟨paid, -, h⟩ := bind_eq_ok.mp h
  obtain rfl := Except.ok.inj (passed h)
  rw [orReject_eq_ok] at hsmallest
  obtain ⟨rfl, -⟩ := (sumZat_eq_ok (by simp)).mp htotal
  rw [Nat.zero_add] at hfee
  exact ⟨fun r hr => not_lt.mp fun hlt => hsign ⟨r, hr, hlt⟩, smallest, fee, hsmallest, hfee,
    hreserve⟩

/-- Each output stands for a row, with as much of its balance as the cap allows. -/
theorem payoutOutputs_origin (h : payoutOutputs policy cap allocationIds rows = .ok outputs)
    {o : PayoutInstruction} (ho : o ∈ outputs) :
    ∃ r ∈ rows, 0 ≤ r.amountZat ∧ o.accountId = r.accountId ∧
      o.liabilityAmountZat = payoutAmountForLiability r.amountZat.toNat cap := by
  obtain ⟨hsign, smallest, fee, -, -, hreserve⟩ := payoutOutputs_cases h
  obtain ⟨-, -, -, -, -, rfl⟩ := deductNetworkFeeReserve_spec hreserve
  obtain ⟨g, hg, haccount, hliability⟩ := origin_withReserve ho
  obtain ⟨p, hp, rfl⟩ := List.mem_map.mp hg
  have hrow : p.1 ∈ rows := List.fst_mem_of_mem_zipIdx hp
  exact ⟨p.1, hrow, hsign p.1 hrow, haccount, hliability⟩

theorem payoutOutputs_spec
    (hrows : ∀ r ∈ rows, r.amountZat = db.payableLiability chain r.accountId)
    (h : payoutOutputs policy cap allocationIds rows = .ok outputs) : Payable db chain outputs := by
  have horigin := @payoutOutputs_origin _ _ _ _ _ h
  obtain ⟨-, smallest, fee, -, -, hreserve⟩ := payoutOutputs_cases h
  obtain ⟨hne, hfee, hgross, hfit, hsmall, rfl⟩ := deductNetworkFeeReserve_spec hreserve
  have hpos := liabilityTotal_pos hne (fun o ho => (hgross o ho).1)
  refine ⟨withReserve_ne_nil hne, fun o ho => ?_, fun o ho => ?_, ?_, ?_⟩
  · obtain ⟨-, -, -, -, hamount⟩ := mem_withReserve ho hpos hsmall
    exact hamount
  · obtain ⟨r, hr, hnonneg, haccount, hliability⟩ := horigin ho
    have hle := payoutAmountForLiability_le r.amountZat.toNat cap
    rw [haccount, hliability, ← hrows r hr]
    omega
  · rw [liabilityTotal_withReserve]
    exact hfit
  · unfold reserveSum
    rw [sum_reserves_withReserve hpos hsmall]
    exact hfee

/-- A batch is derived only where the policy allows a fee of at least one zatoshi on it. -/
theorem payoutOutputs_fee (h : payoutOutputs policy cap allocationIds rows = .ok outputs) :
    0 < policy.maximumNetworkFeeZat ∧
      10_000 ≤ liabilityTotal outputs * policy.maximumNetworkFeeBps := by
  obtain ⟨-, smallest, fee, -, hfee, hreserve⟩ := payoutOutputs_cases h
  obtain ⟨-, hpos, -, -, -, rfl⟩ := deductNetworkFeeReserve_spec hreserve
  obtain ⟨relative, hrelative, hfee⟩ := bind_eq_ok.mp hfee
  obtain ⟨-, rfl⟩ := narrow_eq_ok.mp hrelative
  injection hfee with hfee
  rw [liabilityTotal_withReserve]
  omega

end Outputs

/-! ## §5. Reserving -/

/-- What is chosen outside when a batch is created: the database clock, the draws of the cap, and
    the UUIDs of the batch, of its allocations and of the ledger transaction. -/
structure BatchDraw where
  now : ℕ
  cap : Option (UInt64 × UInt64)
  batchId : Uuid
  allocationIds : ℕ → Uuid
  ledger : LedgerDraw

/-- The liabilities move from payable to pending. -/
def reservedEntries (outputs : List PayoutInstruction) : List LedgerEntry :=
  outputs.flatMap fun o =>
    [⟨.minerPayable o.accountId, o.liabilityAmountZat⟩,
      ⟨.payoutPending o.accountId, -o.liabilityAmountZat⟩]

def reservation (chain : Chain) (batchId : Uuid) (outputs : List PayoutInstruction) : Posting :=
  { chain := chain
    kind := .payoutReserved
    backendEventSeq := none
    reference := .payout batchId
    entries := reservedEntries outputs }

def draftRow (draw : BatchDraw) (chain : Chain) (idempotencyKey reconciliationId : Uuid)
    (policyVersion : ℕ) (ledgerRoot : Hex32) (ledgerSequenceCutoff : ℕ)
    (outputs : List PayoutInstruction) : PayoutBatchRow :=
  { id := draw.batchId
    chain := chain
    policyVersion := policyVersion
    idempotencyKey := idempotencyKey
    state := .draft
    reconciliationId := reconciliationId
    ledgerRoot := ledgerRoot
    ledgerSequenceCutoff := ledgerSequenceCutoff
    unsignedDigest := none
    transactionId := none
    signedTransaction := none
    networkFeeZat := none
    confirmation := none
    createdAt := draw.now
    items := outputs }

def lockUnfrozenChain (db : Database) (chain : Chain) : Except StoreError Unit := do
  let frozen ← lockChainSafetyRow db chain
  rejectIf (frozen = true) (.payoutsFrozen chain)

theorem lockUnfrozenChain_spec {u : Unit} (h : lockUnfrozenChain db chain = .ok u) :
    (db.chainSafety.get chain).isSome ∧ ¬ db.Frozen chain := by
  obtain ⟨frozen, hlock, h⟩ := bind_eq_ok.mp h
  obtain ⟨safety, hsafety, hlock⟩ := bind_eq_ok.mp hlock
  injection hlock with hlock
  rw [orReject_eq_ok] at hsafety
  rw [rejectIf_eq_ok, ← hlock] at h
  refine ⟨by rw [hsafety]; rfl, ?_⟩
  rintro ⟨safety', hsafety', hfrozen⟩
  rw [hsafety] at hsafety'
  injection hsafety' with hsafety'
  exact h (hsafety' ▸ hfrozen)

section Creation

variable (cfg : Config) (db : Database) (draw : BatchDraw) (chain : Chain)
  (idempotencyKey reconciliationId : Uuid)

/-- Insert the items, post the reservation and seal the batch against the ledger. -/
def reserveBatch (policyVersion : ℕ) (outputs : List PayoutInstruction) :
    Except StoreError (Database × Except StoreError PayoutBatch) := do
  requireI64 (outputs.map (·.liabilityAmountZat))
  rejectIf (¬ (outputs.map (·.accountId)).Nodup) (.database "payout_items_pkey")
  rejectIf (¬ (outputs.map (·.allocationId)).Nodup) (.database "payout_items_allocation_idx")
  let posted ← insertLedgerTransaction db draw.ledger (reservation chain draw.batchId outputs)
  let snapshot ← ledgerSnapshot cfg posted chain (some posted.ledger.lastSequence)
  rejectIf (∃ b ∈ db.payoutBatches.rows, b.reconciliationId = reconciliationId)
    (.database "payout_batches_one_reconciliation_idx")
  rejectIf (outputs.length > 200) (.database "payout batch seal does not match durable facts")
  let payoutBatches ← orReject (.database "payout_batches_pkey")
    (db.payoutBatches.insert (draftRow draw chain idempotencyKey reconciliationId policyVersion
      snapshot.root posted.ledger.lastSequence outputs))
  pure ({ posted with payoutBatches := payoutBatches },
    .ok (draftRow draw chain idempotencyKey reconciliationId policyVersion snapshot.root
      posted.ledger.lastSequence outputs).selected)

/-- The reservation behind the privacy draw: a skipped cycle leaves nothing behind. -/
def reserveWithCap (policy : ChainPolicy) (rows : List PayableRow) :
    Option ℕ → Except StoreError (Database × Except StoreError PayoutBatch)
  | none => .ok (db, .error .noPayableBalances)
  | some payoutCapZat => do
    let outputs ← payoutOutputs policy payoutCapZat draw.allocationIds rows
    reserveBatch cfg db draw chain idempotencyKey reconciliationId policy.policyVersion outputs

/-- A new batch, once the due destinations are in force. -/
def newPayoutBatch : Except StoreError (Database × Except StoreError PayoutBatch) := do
  lockUnfrozenChain db chain
  let checkpoint ← loadUsableWalletReconciliation db chain reconciliationId draw.now
  let snapshot ← ledgerSnapshot cfg db chain none
  ensureHeldPayoutsExpiredAt db chain checkpoint.bestTipHeight
  rejectIf (checkpoint.ledgerRoot ≠ snapshot.root ∨
    checkpoint.ledgerTransactionCount ≠ snapshot.transactionCount ∨
    checkpoint.walletSpendableZat ≠ snapshot.collectorSpendableZat) .walletReconciliationStale
  let policy ← loadPolicy db chain
  let rows ← payableRows cfg db chain policy
  -- promotions are kept even where nothing is payable
  if rows = [] then pure (db, .error .noPayableBalances)
  else do
    let cap ← randomPayoutCap policy.minimumPayoutZat policy.maximumPayoutZat policy.payoutSkipBps
      draw.cap
    reserveWithCap cfg db draw chain idempotencyKey reconciliationId policy rows cap

/-- The answer to a repeated idempotency key. -/
def replayPayoutBatch (batchId : Uuid) :
    Except StoreError (Database × Except StoreError PayoutBatch) := do
  let batch ← loadPayoutBatch db batchId
  rejectIf (batch.chain ≠ chain ∨ batch.reconciliationId ≠ reconciliationId)
    .payoutIdempotencyConflict
  pure (db, .ok batch)

/-- Reserve all automatic balances at or above their threshold. -/
def createPayoutBatch : Except StoreError (Database × Except StoreError PayoutBatch) := do
  rejectIf (idempotencyKey.isNil ∨ reconciliationId.isNil) .invalidPayoutBatch
  match db.payoutBatches.rows.find? (·.idempotencyKey = idempotencyKey) with
  | some row => replayPayoutBatch db chain reconciliationId row.id
  | none =>
    newPayoutBatch cfg
      { db with
        payoutDestinations :=
          (activateDuePayoutDestinations db.payoutDestinations chain draw.now).1 }
      draw chain idempotencyKey reconciliationId

end Creation

/-- A draft row over payable outputs, at most one output for an account. -/
structure Draft (db : Database) (row : PayoutBatchRow) : Prop where
  state : row.state = .draft
  payable : Payable db row.chain row.items
  accounts : (row.items.map (·.accountId)).Nodup
  narrow : ∀ o ∈ row.items, o.liabilityAmountZat < i64Limit
  length : row.items.length ≤ 200
  policy : ∃ policy, db.chainPolicies.get row.chain = some policy ∧
    policy.policyVersion = row.policyVersion
  safety : (db.chainSafety.get row.chain).isSome

/-- What reserving a batch did: the row that it drafted commits to the ledger just posted. -/
structure Reservation (cfg : Config) (db db' : Database) (row : PayoutBatchRow)
    (answer : Except StoreError PayoutBatch) : Prop where
  accounts : (row.items.map (·.accountId)).Nodup
  allocations : (row.items.map (·.allocationId)).Nodup
  narrow : ∀ o ∈ row.items, o.liabilityAmountZat < i64Limit
  length : row.items.length ≤ 200
  posted : ∃ batches ledger, db.payoutBatches.insert row = some batches ∧
    db.ledger.Extends ledger (reservation row.chain row.id row.items) ∧
    row.ledgerSequenceCutoff = ledger.lastSequence ∧
    db' = { db with payoutBatches := batches, ledger := ledger }
  root : ∃ snapshot, ledgerSnapshot cfg db' row.chain (some row.ledgerSequenceCutoff) = .ok snapshot ∧
    snapshot.root = row.ledgerRoot
  answered : answer = .ok row.selected

variable {db' : Database} {draw : BatchDraw} {idempotencyKey reconciliationId : Uuid}
  {answer : Except StoreError PayoutBatch}

theorem reserveBatch_cases {policyVersion : ℕ} {outputs : List PayoutInstruction}
    (h : reserveBatch cfg db draw chain idempotencyKey reconciliationId policyVersion outputs
      = .ok (db', answer)) :
    ∃ root cutoff, Reservation cfg db db' (draftRow draw chain idempotencyKey reconciliationId
      policyVersion root cutoff outputs) answer := by
  unfold reserveBatch requireI64 at h
  obtain ⟨_, hnarrow, h⟩ := bind_eq_ok.mp h
  obtain ⟨_, haccounts, h⟩ := bind_eq_ok.mp h
  obtain ⟨_, hallocations, h⟩ := bind_eq_ok.mp h
  obtain ⟨posted, hpost, h⟩ := bind_eq_ok.mp h
  obtain ⟨snapshot, hsnapshot, h⟩ := bind_eq_ok.mp h
  obtain ⟨_, hlength, h⟩ := bind_eq_ok.mp (passed h)
  obtain ⟨batches, hinsert, h⟩ := bind_eq_ok.mp h
  obtain ⟨rfl, hanswer⟩ := ok_pair_inj h
  rw [rejectIf_eq_ok] at hnarrow haccounts hallocations hlength
  rw [orReject_eq_ok] at hinsert
  obtain ⟨ledger, hledger, rfl⟩ := insertLedgerTransaction_spec hpost
  refine ⟨snapshot.root, ledger.lastSequence, not_not.mp haccounts, not_not.mp hallocations,
    fun o ho => ?_, not_lt.mp hlength, ⟨batches, ledger, hinsert, hledger, rfl, rfl⟩,
    ⟨snapshot, hsnapshot, rfl⟩, hanswer.symm⟩
  exact not_le.mp fun hle => hnarrow ⟨_, List.mem_map_of_mem ho, hle⟩

theorem reserveBatch_spec {outputs : List PayoutInstruction}
    (hpolicy : db.chainPolicies.get chain = some policy)
    (hsafety : (db.chainSafety.get chain).isSome) (hpayable : Payable db chain outputs)
    (h : reserveBatch cfg db draw chain idempotencyKey reconciliationId policy.policyVersion
      outputs = .ok (db', answer)) :
    ∃ row batches ledger, Draft db row ∧ row.chain = chain ∧
      db.payoutBatches.insert row = some batches ∧
      db.ledger.Extends ledger (reservation chain row.id row.items) ∧
      db' = { db with payoutBatches := batches, ledger := ledger } := by
  obtain ⟨root, cutoff, hreserved⟩ := reserveBatch_cases h
  obtain ⟨batches, ledger, hinsert, hledger, -, hdb⟩ := hreserved.posted
  exact ⟨_, batches, ledger, ⟨rfl, hpayable, hreserved.accounts, hreserved.narrow,
    hreserved.length, ⟨policy, hpolicy, rfl⟩, hsafety⟩, rfl, hinsert, hledger, hdb⟩

/-- What a new batch went through: the chain is not frozen, its ledger could be read, and the
    outputs that the policy allows were reserved. -/
structure Derivation (cfg : Config) (db db' : Database) (draw : BatchDraw) (chain : Chain)
    (idempotencyKey reconciliationId : Uuid) (answer : Except StoreError PayoutBatch)
    (policy : ChainPolicy) (outputs : List PayoutInstruction) : Prop where
  safety : (db.chainSafety.get chain).isSome
  unfrozen : ¬ db.Frozen chain
  snapshot : ∃ snapshot, ledgerSnapshot cfg db chain none = .ok snapshot
  policy_eq : db.chainPolicies.get chain = some policy
  derived : ∃ cap rows, payableRows cfg db chain policy = .ok rows ∧
    randomPayoutCap policy.minimumPayoutZat policy.maximumPayoutZat policy.payoutSkipBps draw.cap
      = .ok (some cap) ∧
    payoutOutputs policy cap draw.allocationIds rows = .ok outputs
  reserved : reserveBatch cfg db draw chain idempotencyKey reconciliationId policy.policyVersion
    outputs = .ok (db', answer)

theorem newPayoutBatch_cases
    (h : newPayoutBatch cfg db draw chain idempotencyKey reconciliationId = .ok (db', answer)) :
    (db' = db ∧ answer = .error .noPayableBalances) ∨ ∃ policy outputs,
      Derivation cfg db db' draw chain idempotencyKey reconciliationId answer policy outputs := by
  obtain ⟨_, hunfrozen, h⟩ := bind_eq_ok.mp h
  obtain ⟨checkpoint, -, h⟩ := bind_eq_ok.mp h
  obtain ⟨snapshot, hsnapshot, h⟩ := bind_eq_ok.mp h
  obtain ⟨policy, hpolicy, h⟩ := bind_eq_ok.mp (passed (passed h))
  obtain ⟨rows, hrows, h⟩ := bind_eq_ok.mp h
  split at h
  · obtain ⟨rfl, rfl⟩ := ok_pair_inj h
    exact Or.inl ⟨rfl, rfl⟩
  · obtain ⟨cap, hcap, h⟩ := bind_eq_ok.mp h
    cases cap with
    | none =>
      obtain ⟨rfl, rfl⟩ := ok_pair_inj h
      exact Or.inl ⟨rfl, rfl⟩
    | some cap =>
      obtain ⟨outputs, houtputs, h⟩ := bind_eq_ok.mp h
      unfold loadPolicy at hpolicy
      rw [orReject_eq_ok] at hpolicy
      obtain ⟨hsafety, hnot⟩ := lockUnfrozenChain_spec hunfrozen
      exact Or.inr ⟨policy, outputs, hsafety, hnot, ⟨snapshot, hsnapshot⟩, hpolicy,
        ⟨cap, rows, hrows, hcap, houtputs⟩, h⟩

theorem newPayoutBatch_spec
    (h : newPayoutBatch cfg db draw chain idempotencyKey reconciliationId = .ok (db', answer)) :
    db' = db ∨ (¬ db.Frozen chain ∧ ∃ row batches ledger, Draft db row ∧ row.chain = chain ∧
      db.payoutBatches.insert row = some batches ∧
      db.ledger.Extends ledger (reservation chain row.id row.items) ∧
      db' = { db with payoutBatches := batches, ledger := ledger }) := by
  obtain ⟨hsame, -⟩ | ⟨policy, outputs, hderived⟩ := newPayoutBatch_cases h
  · exact Or.inl hsame
  · obtain ⟨cap, rows, hrows, -, houtputs⟩ := hderived.derived
    exact Or.inr ⟨hderived.unfrozen, reserveBatch_spec hderived.policy_eq hderived.safety
      (payoutOutputs_spec (payableRows_spec hrows) houtputs) hderived.reserved⟩

/-- A call repeats the answer to its key, or derives a new batch under it. -/
theorem createPayoutBatch_cases
    (h : createPayoutBatch cfg db draw chain idempotencyKey reconciliationId = .ok (db', answer)) :
    (db' = db ∧ ∃ row ∈ db.payoutBatches.rows, row.idempotencyKey = idempotencyKey ∧
      answer = .ok row.loaded ∧ row.chain = chain) ∨
    ∃ destinations, (∀ row ∈ db.payoutBatches.rows, row.idempotencyKey ≠ idempotencyKey) ∧
      newPayoutBatch cfg { db with payoutDestinations := destinations } draw chain idempotencyKey
        reconciliationId = .ok (db', answer) := by
  replace h := passed h
  split at h
  · next row hrow =>
    obtain ⟨batch, hload, h⟩ := bind_eq_ok.mp h
    obtain ⟨hagree, h⟩ := rejectIf_bind_ok h
    obtain ⟨hdb, hanswer⟩ := ok_pair_inj h
    have hmem := List.mem_of_find?_eq_some hrow
    obtain ⟨row', hrow', rfl⟩ := loadPayoutBatch_spec hload
    obtain rfl : row = row' := Option.some.inj ((Table.find_of_mem hmem).symm.trans hrow')
    rw [not_or, not_not] at hagree
    exact Or.inl ⟨hdb.symm, row, hmem, by simpa using List.find?_some hrow, hanswer.symm, hagree.1⟩
  · next hnone =>
    refine Or.inr ⟨_, fun row hrow heq => ?_, h⟩
    exact List.find?_eq_none.mp hnone row hrow (by simpa using heq)

/-- A batch under a new key is derived from the database with the due destinations in force. -/
theorem createPayoutBatch_new {batch : PayoutBatch}
    (h : createPayoutBatch cfg db draw chain idempotencyKey reconciliationId = .ok (db', .ok batch))
    (hnew : ∀ row ∈ db.payoutBatches.rows, row.idempotencyKey ≠ idempotencyKey) :
    ∃ destinations policy outputs, Derivation cfg { db with payoutDestinations := destinations } db'
      draw chain idempotencyKey reconciliationId (.ok batch) policy outputs := by
  obtain ⟨-, row, hrow, hkey, -⟩ | ⟨destinations, -, h⟩ := createPayoutBatch_cases h
  · exact absurd hkey (hnew row hrow)
  obtain ⟨-, hanswer⟩ | hderived := newPayoutBatch_cases h
  · cases hanswer
  · exact ⟨destinations, hderived⟩

/-- **What a committed call did**: it changed destinations at most, or it reserved a new batch
    on a chain that is not frozen. -/
theorem createPayoutBatch_spec
    (h : createPayoutBatch cfg db draw chain idempotencyKey reconciliationId = .ok (db', answer)) :
    ∃ destinations, db' = { db with payoutDestinations := destinations } ∨
      (¬ db.Frozen chain ∧ ∃ row batches ledger,
        Draft { db with payoutDestinations := destinations } row ∧ row.chain = chain ∧
        db.payoutBatches.insert row = some batches ∧
        db.ledger.Extends ledger (reservation chain row.id row.items) ∧
        db' = { db with
          payoutDestinations := destinations
          payoutBatches := batches
          ledger := ledger }) := by
  obtain ⟨hsame, -⟩ | ⟨destinations, -, hnew⟩ := createPayoutBatch_cases h
  · exact ⟨db.payoutDestinations, Or.inl hsame⟩
  · refine ⟨destinations, ?_⟩
    obtain hsame | ⟨hunfrozen, row, batches, ledger, hdraft, hchain, hinsert, hledger, hdb⟩ :=
      newPayoutBatch_spec hnew
    · exact Or.inl hsame
    · exact Or.inr ⟨hunfrozen, row, batches, ledger, hdraft, hchain, hinsert, hledger, hdb⟩

end WcashPool.Store
