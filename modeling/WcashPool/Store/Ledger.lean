/-
  WcashPool.Store.Ledger — posting to the ledger and reading it back
  (`insert_owned_ledger_transaction`, `ledger_snapshot`).

  The ledger is append-only: a transaction is posted once, balanced and sealed,
  and every later figure is a sum over the lines.  What the database or the
  operating system chooses (the transaction's UUID, the next number of the
  ledger sequence) is an explicit input of the modelled call, a `LedgerDraw`.

  Main results: `insertLedgerTransaction_spec` and `agree_postedBy_pair`.
-/
import WcashPool.Store.Tables

namespace WcashPool.Store

open Fallible Protocol DoubleEntry

/-! ## §1. Deployment and texts -/

inductive DeploymentNetwork
  | testnet
  | mainnet
  | regtest
deriving DecidableEq, Repr

/-- The runtime configuration of a deployment, and the library functions it calls. -/
structure Config where
  ext : External
  deploymentId : Uuid
  network : DeploymentNetwork
  wcashTransparentPayoutsEnabled : Bool

/-- The bytes of an ASCII text. -/
def ascii (s : String) : Text := s.toList.map fun c => UInt8.ofNat c.toNat

/-- The `n` big-endian bytes of `value`. -/
def beBytes (n value : ℕ) : List UInt8 :=
  (List.range n).map fun i => UInt8.ofNat (value / 2 ^ (8 * (n - 1 - i)))

/-- The eight big-endian bytes of a signed 64-bit integer. -/
def beBytesI64 (value : ℤ) : List UInt8 := beBytes 8 (value % 2 ^ 64).toNat

def hexDigit (n : ℕ) : UInt8 := UInt8.ofNat (if n < 10 then 48 + n else 87 + n)

/-- Lowercase hexadecimal. -/
def hexText (bytes : List UInt8) : Text :=
  bytes.flatMap fun b => [hexDigit (b.toNat / 16), hexDigit (b.toNat % 16)]

/-- The hyphenated form of a UUID. -/
def uuidText (u : Uuid) : Text :=
  let h := hexText u.asBytes
  h.take 8 ++ [45] ++ (h.drop 8).take 4 ++ [45] ++ (h.drop 12).take 4 ++ [45] ++
    (h.drop 16).take 4 ++ [45] ++ h.drop 20

def chainText : Chain → Text
  | .wcash => ascii "wcash"
  | .zcash => ascii "zcash"

def LedgerKind.text : LedgerKind → Text
  | .winnerObserved => ascii "winner_observed"
  | .winnerMatured => ascii "winner_matured"
  | .winnerDematured => ascii "winner_dematured"
  | .winnerOrphaned => ascii "winner_orphaned"
  | .winnerQuarantined => ascii "winner_quarantined"
  | .payoutReserved => ascii "payout_reserved"
  | .payoutReleased => ascii "payout_released"
  | .payoutConfirmed => ascii "payout_confirmed"
  | .operatorCapitalFunded => ascii "operator_capital_funded"

def LedgerAccount.text : LedgerAccount → Text
  | .collectorImmatureAsset => ascii "collector_immature_asset"
  | .collectorSpendableAsset => ascii "collector_spendable_asset"
  | .minerImmature => ascii "miner_immature"
  | .minerPayable => ascii "miner_payable"
  | .payoutPending => ascii "payout_pending"
  | .poolFeeUnearned => ascii "pool_fee_unearned"
  | .poolEquity => ascii "pool_equity"
  | .networkFeeExpense => ascii "network_fee_expense"
  | .minerNetworkFeeContribution => ascii "miner_network_fee_contribution"

/-- The `reference` column. -/
def LedgerReference.text : LedgerReference → Text
  | .winner key => chainText key.1 ++ ascii ":" ++ hexText key.2.asBytes
  | .payout batchId => uuidText batchId
  | .openingPoolEquity chain => ascii "opening-pool-equity:" ++ chainText chain

/-! ## §2. Posting -/

/-- What is chosen outside when a ledger transaction is posted: its random UUID, and how many
    numbers of the identity sequence were burnt since the last posting. -/
structure LedgerDraw where
  id : Uuid
  burnt : ℕ
deriving DecidableEq, Repr

/-- One more than the greatest `i64`. -/
def i64Limit : ℕ := 2 ^ 63

/-- A signed 64-bit amount. -/
def asI64 (value : ℕ) : Except StoreError ℤ :=
  if value < i64Limit then .ok value else .error .moneyOverflow

/-- `SUM(...)::BIGINT`: the cast fails outside the signed 64-bit range. -/
def castBigint (value : ℤ) : Except StoreError ℤ :=
  if -i64Limit ≤ value ∧ value < i64Limit then .ok value
  else .error (.database "bigint out of range")

@[simp] theorem asI64_eq_ok {value : ℕ} {r : ℤ} :
    asI64 value = .ok r ↔ value < i64Limit ∧ (value : ℤ) = r := by
  unfold asI64
  split
  · next h => simp [h]
  · next h => simp [h]

@[simp] theorem castBigint_eq_ok {value r : ℤ} :
    castBigint value = .ok r ↔ (-i64Limit ≤ value ∧ value < i64Limit) ∧ value = r := by
  unfold castBigint
  split
  · next h => simp [h]
  · next h => simp [h]

variable {bad : StoreError → Prop} {posting : Posting} {db : Database} {draw : LedgerDraw}

@[simp] theorem errorsIn_asI64 {value : ℕ} :
    ErrorsIn bad (asI64 value) ↔ (i64Limit ≤ value → bad .moneyOverflow) := by
  simp [asI64]

@[simp] theorem errorsIn_castBigint {value : ℤ} :
    ErrorsIn bad (castBigint value) ↔
      (¬ (-i64Limit ≤ value ∧ value < i64Limit) → bad (.database "bigint out of range")) := by
  simp only [castBigint, errorsIn_ite, errorsIn_ok, errorsIn_error, implies_true, true_and]

namespace Ledger

/-- The last number of the ledger sequence that is in use. -/
def lastSequence (ledger : Ledger) : ℕ :=
  match ledger.transactions.getLast? with
  | some t => t.ledgerSequence
  | none => 0

/-- Append a transaction, if its two keys are free. -/
def append (ledger : Ledger) (t : LedgerTransaction) : Except StoreError Ledger :=
  if hid : t.id ∈ ledger.transactions.map (·.id) then
    .error (.database "ledger_transactions_pkey")
  else if hkind : ∃ k ∈ t.eventKind, k ∈ ledger.transactions.filterMap (·.eventKind) then
    .error (.database "ledger_backend_event_kind_key")
  else .ok
    { transactions := ledger.transactions ++ [t]
      ids_nodup := Table.nodup_map_concat ledger.ids_nodup hid
      eventKinds_nodup := Table.nodup_filterMap_concat ledger.eventKinds_nodup hkind }

variable {ledger : Ledger} {t : LedgerTransaction} {k : ℕ × LedgerKind}

theorem append_eq_ok {ledger' : Ledger} (h : ledger.append t = .ok ledger') :
    ledger'.transactions = ledger.transactions ++ [t] := by
  unfold append at h
  split at h
  · cases h
  · split at h
    · cases h
    · injection h with h
      subst h
      rfl

/-- Without an event the only obstacle is a UUID that is already in use. -/
theorem append_of_fresh (ledger : Ledger) (t : LedgerTransaction)
    (hid : t.id ∉ ledger.transactions.map (·.id)) (hevent : t.backendEventSeq = none) :
    ∃ ledger', ledger.append t = .ok ledger' := by
  unfold append
  rw [dif_neg hid, dif_neg (by simp [Posting.eventKind, hevent])]
  exact ⟨_, rfl⟩

/-- The lines posted by the given events with the given kinds, in ledger order. -/
def postedBy (ledger : Ledger) (wanted : List (ℕ × LedgerKind)) : List LedgerEntry :=
  (ledger.transactions.filter fun t => ∃ k ∈ t.eventKind, k ∈ wanted).flatMap (·.entries)

theorem postedBy_singleton (ht : t ∈ ledger.transactions) (hk : t.eventKind = some k) :
    ledger.postedBy [k] = t.entries := by
  unfold postedBy
  have hfilter : (ledger.transactions.filter fun t => ∃ k' ∈ t.eventKind, k' ∈ [k])
      = ledger.transactions.filter fun t => t.eventKind = some k := by
    apply List.filter_congr
    intro u _
    simp
  rw [hfilter, Table.filter_eq_singleton ledger.eventKinds_nodup ht hk]
  simp

/-- Looking up two keys at once finds what the two single lookups find. -/
theorem agree_postedBy_cons (ledger : Ledger) {k' : ℕ × LedgerKind} (hne : k ≠ k') :
    Agree (ledger.postedBy [k, k']) (ledger.postedBy [k] ++ ledger.postedBy [k']) := by
  intro p _
  unfold postedBy
  rw [sumWhere_append]
  induction ledger.transactions with
  | nil => rfl
  | cons t ts ih =>
    by_cases hk : t.eventKind = some k
    · simp only [List.filter_cons, hk]
      simp [hne, ih, add_assoc]
    · by_cases hk' : t.eventKind = some k'
      · simp only [List.filter_cons, hk']
        simp [hne.symm, ih, add_left_comm]
      · have hnone : ∀ wanted ⊆ [k, k'], ¬ ∃ k'' ∈ t.eventKind, k'' ∈ wanted := by
          rintro wanted hsub ⟨k'', hmem, hwant⟩
          have := hsub hwant
          simp only [List.mem_cons, List.not_mem_nil, or_false] at this
          rcases this with rfl | rfl
          · exact hk hmem
          · exact hk' hmem
        rw [List.filter_cons_of_neg (by simpa using hnone [k, k'] (by simp)),
          List.filter_cons_of_neg (by simpa using hnone [k] (by simp)),
          List.filter_cons_of_neg (by simpa using hnone [k'] (by simp))]
        exact ih

/-- **The lookup of a reversal** finds exactly the lines of the two transactions it means. -/
theorem agree_postedBy_pair {u : LedgerTransaction} {k' : ℕ × LedgerKind}
    (ht : t ∈ ledger.transactions) (hk : t.eventKind = some k) (hu : u ∈ ledger.transactions)
    (hk' : u.eventKind = some k') (hne : k ≠ k') :
    Agree (ledger.postedBy [k, k']) (t.entries ++ u.entries) := by
  rw [← postedBy_singleton ht hk, ← postedBy_singleton hu hk']
  exact agree_postedBy_cons ledger hne

end Ledger

/-- Post one balanced transaction with its lines and seal it.  The identity number of the new
    row is past every number in use. -/
def insertLedgerTransaction (db : Database) (draw : LedgerDraw) (posting : Posting) :
    Except StoreError Database :=
  if hsealed : Sealable posting.entries then do
    let ledger ← db.ledger.append
      { toPosting := posting
        id := draw.id
        ledgerSequence := db.ledger.lastSequence + 1 + draw.burnt
        isSealed := hsealed }
    rejectIf (posting.entries.length ≥ 2 ^ 31) .moneyOverflow
    pure { db with ledger := ledger }
  else .error .unbalancedLedger

/-- `ledger'` is `ledger` with one more transaction, whose content is `posting`. -/
def Ledger.Extends (ledger ledger' : Ledger) (posting : Posting) : Prop :=
  ∃ t : LedgerTransaction, t.toPosting = posting ∧
    ledger'.transactions = ledger.transactions ++ [t]

/-- A posting is the one new transaction of the ledger. -/
theorem Ledger.Extends.about {ledger ledger' : Ledger} (h : ledger.Extends ledger' posting) :
    ∃ new, ledger'.transactions = ledger.transactions ++ new ∧
      ∀ t ∈ new, t.reference = posting.reference ∧ t.chain = posting.chain := by
  obtain ⟨t, rfl, happend⟩ := h
  refine ⟨[t], happend, fun u hu => ?_⟩
  rw [List.mem_singleton.mp hu]
  exact ⟨rfl, rfl⟩

/-- **A successful posting** appends exactly one transaction and touches nothing else. -/
theorem insertLedgerTransaction_spec {db' : Database}
    (h : insertLedgerTransaction db draw posting = .ok db') :
    ∃ ledger', db.ledger.Extends ledger' posting ∧ db' = { db with ledger := ledger' } := by
  unfold insertLedgerTransaction at h
  split at h
  · obtain ⟨ledger', happend, h⟩ := bind_eq_ok.mp h
    replace h := passed h
    injection h with h
    exact ⟨ledger', ⟨_, rfl, Ledger.append_eq_ok happend⟩, h.symm⟩
  · cases h

/-- A posting without an event succeeds on sealable lines and a fresh UUID. -/
theorem insertLedgerTransaction_of_fresh (hsealed : Sealable posting.entries)
    (hevent : posting.backendEventSeq = none) (hid : draw.id ∉ db.ledger.transactions.map (·.id))
    (hlen : posting.entries.length < 2 ^ 31) :
    ∃ db', insertLedgerTransaction db draw posting = .ok db' := by
  unfold insertLedgerTransaction
  rw [dif_pos hsealed]
  obtain ⟨ledger', happend⟩ := Ledger.append_of_fresh db.ledger
    ⟨posting, draw.id, db.ledger.lastSequence + 1 + draw.burnt, hsealed⟩ hid hevent
  rw [happend, ok_bind, rejectIf_of_not _ (Nat.not_le.mpr hlen)]
  exact ⟨_, rfl⟩

/-- The errors of a posting. -/
theorem insertLedgerTransaction_errors (hdatabase : ∀ constraint, bad (.database constraint))
    (hmoney : bad .moneyOverflow) (hunbalanced : bad .unbalancedLedger) :
    ErrorsIn bad (insertLedgerTransaction db draw posting) := by
  simp [insertLedgerTransaction, Ledger.append, hdatabase, hmoney, hunbalanced]

/-! ## §3. Amounts per account -/

section Splits

variable (p : LedgerPlace → Prop) [DecidablePred p]

/-- What accounts with an amount each hold together at the places that satisfy `p`, every account
    at its own place. -/
def splitAt (place : Uuid → LedgerPlace) (split : List (Uuid × ℕ)) : ℤ :=
  (split.map fun s => if p (place s.1) then (s.2 : ℤ) else 0).sum

variable (place : Uuid → LedgerPlace)

theorem splitAt_cons (s : Uuid × ℕ) (split : List (Uuid × ℕ)) :
    splitAt p place (s :: split)
      = (if p (place s.1) then (s.2 : ℤ) else 0) + splitAt p place split := rfl

variable (split : List (Uuid × ℕ))

/-- The lines of the accounts answer for the split: an account without an amount has no line. -/
theorem sumWhere_split :
    sumWhere p ((split.filter (0 < ·.2)).map fun s => ⟨place s.1, s.2⟩)
      = splitAt p place split := by
  induction split with
  | nil => rfl
  | cons e split ih =>
    rw [splitAt_cons]
    by_cases hpos : 0 < e.2
    · rw [List.filter_cons_of_pos (by simpa using hpos), List.map_cons, sumWhere_cons, ih]
    · have hzero : e.2 = 0 := by omega
      rw [List.filter_cons_of_neg (by simpa using hpos), ih, hzero]
      simp

theorem sumWhere_split_neg :
    sumWhere p ((split.filter (0 < ·.2)).map fun s => ⟨place s.1, -s.2⟩)
      = -splitAt p place split := by
  rw [← sumWhere_split, ← sumWhere_negate]
  unfold negate
  rw [List.map_map]
  rfl

/-- A positive amount has its line, a zero amount has none. -/
theorem sumWhere_fee (place : LedgerPlace) (amount : ℕ) :
    sumWhere p (if 0 < amount then [⟨place, -(amount : ℤ)⟩] else [])
      = -(if p place then (amount : ℤ) else 0) := by
  by_cases hpos : 0 < amount
  · rw [if_pos hpos, sumWhere_cons_neg, sumWhere_nil, add_zero]
  · have hzero : amount = 0 := by omega
    rw [if_neg hpos, hzero]
    simp

theorem sumWhere_feePair (place place' : LedgerPlace) (amount : ℕ) :
    sumWhere p (if 0 < amount
        then [⟨place, (amount : ℤ)⟩, ⟨place', -(amount : ℤ)⟩] else [])
      = (if p place then (amount : ℤ) else 0) - if p place' then (amount : ℤ) else 0 := by
  by_cases hpos : 0 < amount
  · rw [if_pos hpos, sumWhere_cons, sumWhere_cons_neg, sumWhere_nil]
    ring
  · have hzero : amount = 0 := by omega
    rw [if_neg hpos, hzero]
    simp

variable {p}

theorem splitAt_perm {split split' : List (Uuid × ℕ)} (h : split.Perm split') :
    splitAt p place split = splitAt p place split' := (h.map _).sum_eq

theorem splitAt_nonneg :
    0 ≤ splitAt p place split := by
  refine List.sum_nonneg fun v hv => ?_
  obtain ⟨s, -, rfl⟩ := List.mem_map.mp hv
  split <;> omega

theorem splitAt_of_forall {place : Uuid → LedgerPlace} (h : ∀ a, p (place a))
    (split : List (Uuid × ℕ)) : splitAt p place split = ((split.map (·.2)).sum : ℕ) := by
  induction split with
  | nil => rfl
  | cons s split ih =>
    rw [splitAt_cons, if_pos (h s.1), ih, List.map_cons, List.sum_cons]
    push_cast
    rfl

theorem splitAt_of_forall_not {place : Uuid → LedgerPlace} (h : ∀ a, ¬ p (place a))
    (split : List (Uuid × ℕ)) : splitAt p place split = 0 := by
  induction split with
  | nil => rfl
  | cons s split ih =>
    rw [splitAt_cons, if_neg (h s.1), ih]
    rfl

/-- At the place of one account stands what the split has for it. -/
theorem splitAt_eq_amountOf {place : Uuid → LedgerPlace} {a : Uuid}
    (h : ∀ b, p (place b) ↔ b = a) (split : List (Uuid × ℕ)) :
    splitAt p place split = Tally.amountOf split a := by
  induction split with
  | nil => rfl
  | cons s split ih =>
    rw [splitAt_cons, ih, Tally.amountOf_cons]
    by_cases hs : s.1 = a
    · rw [if_pos ((h s.1).mpr hs), if_pos hs]
      push_cast
      rfl
    · rw [if_neg fun hp => hs ((h s.1).mp hp), if_neg hs]
      push_cast
      rfl

end Splits

end WcashPool.Store
