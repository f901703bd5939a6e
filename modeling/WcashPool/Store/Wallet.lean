/-
  WcashPool.Store.Wallet — the ledger against the collector's wallet
  (`ledger_snapshot`, `record_opening_pool_equity`,
  `record_wallet_reconciliation`).

  A snapshot commits to every sealed line of a chain and states the collector
  balance that follows from them.  A checkpoint compares that balance with what
  the wallet really holds; only a fresh, matched checkpoint lets a payout batch
  be derived.  A surplus that was there before the first checkpoint can be
  recognised once as pool equity.

  A call that commits although it reports a failure (a mismatch is durable
  evidence) returns the new database together with the error.
-/
import WcashPool.Store.Winners

namespace WcashPool.Store

open Fallible Protocol DoubleEntry

/-! ## §1. Sums over a chain -/

/-- The ledger lines of a chain. -/
def Database.linesOn (db : Database) (chain : Chain) : List LedgerEntry :=
  (db.ledger.transactions.filter (·.chain = chain)).flatMap (·.entries)

/-- `SUM(amount_zat)` over the lines of a chain at the places that satisfy `p`. -/
def Database.sumOn (db : Database) (chain : Chain) (p : LedgerPlace → Prop) [DecidablePred p] : ℤ :=
  sumWhere p (db.linesOn chain)

/-- The collector's spendable asset. -/
def Database.spendable (db : Database) (chain : Chain) : ℤ :=
  db.sumOn chain (· = .collectorSpendableAsset)

/-- `COALESCE(SUM(amount_zat),0)::BIGINT` over it. -/
def collectorSpendable (db : Database) (chain : Chain) : Except StoreError ℤ :=
  castBigint (db.spendable chain)

/-! ## §2. The ledger snapshot -/

structure LedgerSnapshot where
  root : Hex32
  transactionCount : ℕ
  collectorSpendableZat : ℕ
deriving DecidableEq, Repr

def ledgerSnapshotDomain : Text := ascii "zecwec/ledger-snapshot/v1"

/-- A text behind its length in two bytes. -/
def hashBoundedText (value : Text) (maximumLength : ℕ) : Except StoreError (List UInt8) := do
  rejectIf (value = [] ∨ value.length > maximumLength) (.corruptDatabaseState "ledger text")
  rejectIf (value.length ≥ 2 ^ 16) (.corruptDatabaseState "ledger text length")
  pure (beBytes 2 value.length ++ value)

def eventBytes : Option ℕ → Except StoreError (List UInt8)
  | none => .ok [0]
  | some sequence => do
    rejectIf (sequence = 0) (.corruptDatabaseState "ledger event sequence")
    pure (1 :: beBytes 8 sequence)

def accountBytes : Option Uuid → List UInt8
  | none => [0]
  | some accountId => 1 :: accountId.asBytes

/-- What one ledger line adds to the hash. -/
def lineBytes (t : LedgerTransaction) (lineNo : ℕ) (entry : LedgerEntry) :
    Except StoreError (List UInt8) := do
  rejectIf (t.ledgerSequence = 0) (.corruptDatabaseState "ledger sequence")
  let kind ← hashBoundedText t.kind.text 64
  let event ← eventBytes t.backendEventSeq
  let reference ← hashBoundedText t.reference.text 256
  rejectIf (t.entries.length < 2 ∨ lineNo = 0) (.corruptDatabaseState "ledger seal")
  let account ← hashBoundedText entry.place.ledgerAccount.text 64
  rejectIf (entry.amount = 0) (.corruptDatabaseState "zero ledger line")
  pure (beBytes 8 t.ledgerSequence ++ t.id.asBytes ++ kind ++ event ++ reference
    ++ beBytes 4 t.entries.length ++ beBytes 4 lineNo ++ accountBytes entry.place.accountId
    ++ account ++ beBytesI64 entry.amount)

def transactionBytes (t : LedgerTransaction) : Except StoreError (List UInt8) := do
  let lines ← (t.entries.zipIdx 1).mapM fun p => lineBytes t p.2 p.1
  pure lines.flatten

/-- The sealed transactions of a chain, up to a ledger sequence where one is given. -/
def sealedUpTo (db : Database) (chain : Chain) (sequenceCutoff : Option ℕ) :
    List LedgerTransaction :=
  db.ledger.transactions.filter fun t =>
    t.chain = chain ∧ ∀ cutoff ∈ sequenceCutoff, t.ledgerSequence ≤ cutoff

/-- The rows of a transaction are adjacent in the order of the query, so each transaction is
    counted once. -/
def ledgerSnapshot (cfg : Config) (db : Database) (chain : Chain) (sequenceCutoff : Option ℕ) :
    Except StoreError LedgerSnapshot := do
  rejectIf (∃ cutoff ∈ sequenceCutoff, cutoff ≥ i64Limit) .moneyOverflow
  let lines ← (sealedUpTo db chain sequenceCutoff).mapM transactionBytes
  let count ← narrow 64 .moneyOverflow (sealedUpTo db chain sequenceCutoff).length
  let spendable ← castBigint (sumWhere (· = .collectorSpendableAsset)
    ((sealedUpTo db chain sequenceCutoff).flatMap (·.entries)))
  rejectIf (spendable < 0) .collectorReconciliationFailed
  pure
    { root := cfg.ext.sha256 (ledgerSnapshotDomain ++ cfg.deploymentId.asBytes
        ++ [UInt8.ofNat (chain.rank + 1)] ++ lines.flatten ++ beBytes 8 count)
      transactionCount := count
      collectorSpendableZat := spendable.toNat }

/-- A snapshot of the whole ledger exists only where the collector balance fits its column. -/
theorem ledgerSnapshot_spendable {cfg : Config} {db : Database} {chain : Chain}
    {snapshot : LedgerSnapshot} (h : ledgerSnapshot cfg db chain none = .ok snapshot) :
    db.spendable chain < i64Limit := by
  obtain ⟨lines, -, h⟩ := bind_eq_ok.mp (passed h)
  obtain ⟨count, -, h⟩ := bind_eq_ok.mp h
  obtain ⟨spendable, hspendable, h⟩ := bind_eq_ok.mp h
  obtain ⟨⟨-, hlimit⟩, -⟩ := castBigint_eq_ok.mp hspendable
  have hlines : (sealedUpTo db chain none).flatMap (·.entries) = db.linesOn chain := by
    unfold sealedUpTo Database.linesOn
    simp
  rw [hlines] at hlimit
  exact hlimit

/-! ## §3. Opening equity -/

/-- The funding transactions that the chain has already. -/
def openingFundings (db : Database) (chain : Chain) : List LedgerTransaction :=
  db.ledger.transactions.filter fun t =>
    t.chain = chain ∧ t.kind = .operatorCapitalFunded ∧ t.reference = .openingPoolEquity chain

/-- The surplus enters the collector asset and the pool's equity. -/
def openingEntries (surplusZat : ℤ) : List LedgerEntry :=
  [⟨.collectorSpendableAsset, surplusZat⟩, ⟨.poolEquity, -surplusZat⟩]

/-- The posting that funds a pool from the wallet's surplus. -/
def funding (chain : Chain) (surplusZat : ℤ) : Posting :=
  { chain := chain
    kind := .operatorCapitalFunded
    backendEventSeq := none
    reference := .openingPoolEquity chain
    entries := openingEntries surplusZat }

def fundOpeningPoolEquity (db : Database) (draw : LedgerDraw) (chain : Chain)
    (observedWalletSpendableZat expectedSurplusZat : ℕ) : Except StoreError Database := do
  rejectIf ((openingFundings db chain).length ≠ 0)
    (.corruptDatabaseState "opening pool equity transaction")
  rejectIf ((∃ r ∈ db.walletReconciliations.rows, r.chain = chain) ∨
      ∃ b ∈ db.payoutBatches.rows, b.chain = chain) .collectorReconciliationFailed
  let spendable ← collectorSpendable db chain
  rejectIf (spendable < 0) .collectorReconciliationFailed
  let surplus ← checkedSub .collectorReconciliationFailed observedWalletSpendableZat
    spendable.toNat
  rejectIf (surplus ≠ expectedSurplusZat) .collectorReconciliationFailed
  let amount ← asI64 expectedSurplusZat
  insertLedgerTransaction db draw (funding chain amount)

/-- Recognise one configured pre-accounting collector surplus as pool equity. -/
def recordOpeningPoolEquity (db : Database) (draw : LedgerDraw) (chain : Chain)
    (observedWalletSpendableZat expectedSurplusZat : ℕ) : Except StoreError Database :=
  if expectedSurplusZat = 0 then .ok db
  else do
    let _ ← lockChainSafetyRow db chain
    if (openingFundings db chain).length = 1 then pure db
    else fundOpeningPoolEquity db draw chain observedWalletSpendableZat expectedSurplusZat

/-- **What a success did**: nothing, or the first funding of the chain. -/
theorem recordOpeningPoolEquity_spec {db db' : Database} {draw : LedgerDraw} {chain : Chain}
    {observed expected : ℕ} (h : recordOpeningPoolEquity db draw chain observed expected = .ok db') :
    db' = db ∨ (openingFundings db chain = [] ∧ ∃ ledger,
      db.ledger.Extends ledger (funding chain expected) ∧ db' = { db with ledger := ledger }) := by
  unfold recordOpeningPoolEquity at h
  split at h
  · injection h with h
    exact Or.inl h.symm
  · replace h := passed h
    split at h
    · injection h with h
      exact Or.inl h.symm
    · unfold fundOpeningPoolEquity at h
      obtain ⟨hfirst, h⟩ := require_bind_ok h
      obtain ⟨spendable, -, h⟩ := bind_eq_ok.mp (passed h)
      obtain ⟨surplus, -, h⟩ := bind_eq_ok.mp (passed h)
      obtain ⟨amount, hamount, h⟩ := bind_eq_ok.mp (passed h)
      obtain ⟨-, rfl⟩ := asI64_eq_ok.mp hamount
      exact Or.inr ⟨List.eq_nil_of_length_eq_zero hfirst, insertLedgerTransaction_spec h⟩

/-! ## §4. Held payouts -/

def maxWalletReconciliationAgeSecs : ℕ := 5 * 60

def walletReconciliationMismatchGraceSecs : ℕ := 10 * 60

/-- The expiry height under which a batch is held. -/
def heldExpiryHeight (db : Database) (batchId : Uuid) : Option ℕ :=
  (db.expiryEvidence.find (batchId, .held)).map (·.evidence.expiryHeight)

/-- The batches of a chain that wait for the end of their validity. -/
def heldPayouts (db : Database) (chain : Chain) : List PayoutBatchRow :=
  db.payoutBatches.rows.filter fun b => b.chain = chain ∧ b.state = .expiryPending

/-- Every held artifact has its evidence and is expired at the tip. -/
def ensureHeldPayoutsExpiredAt (db : Database) (chain : Chain) (tipHeight : ℕ) :
    Except StoreError Unit :=
  rejectIf (((heldPayouts db chain).filterMap fun b => heldExpiryHeight db b.id).length
        ≠ (heldPayouts db chain).length ∨
      ((heldPayouts db chain).filterMap fun b => heldExpiryHeight db b.id).foldr max 0 ≥ tipHeight)
    .walletReconciliationBlocked

/-! ## §5. Wallet checkpoints -/

/-- What the wallet reports about one chain. -/
structure WalletObservation where
  chain : Chain
  walletStateDigest : Hex32
  walletSpendableZat : ℕ
  bestTipHash : Hex32
  bestTipHeight : ℕ
  observedAt : ℕ
  validUntil : ℕ
deriving DecidableEq, Repr

/-- A usable checkpoint. -/
structure WalletReconciliation where
  id : Uuid
  chain : Chain
  ledgerRoot : Hex32
  ledgerTransactionCount : ℕ
  walletSpendableZat : ℕ
  bestTipHash : Hex32
  bestTipHeight : ℕ
  observedAt : ℕ
  validUntil : ℕ
deriving DecidableEq, Repr

def WalletReconciliationRow.checkpoint (row : WalletReconciliationRow) : WalletReconciliation :=
  { id := row.id
    chain := row.chain
    ledgerRoot := row.ledgerRoot
    ledgerTransactionCount := row.ledgerTransactionCount
    walletSpendableZat := row.walletSpendableZat
    bestTipHash := row.bestTipHash
    bestTipHeight := row.bestTipHeight
    observedAt := row.observedAt
    validUntil := row.validUntil }

/-- The states in which the wallet's balance is about to move. -/
def PayoutBatchState.isAmbiguous : PayoutBatchState → Bool
  | .signing | .signed | .broadcasting | .broadcast | .reorged => true
  | .draft | .expiryPending | .expired | .confirmed | .cancelled => false

/-- An older checkpoint saw the same two balances over the same ledger. -/
def persistentMismatch (db : Database) (now : ℕ) (observation : WalletObservation)
    (snapshot : LedgerSnapshot) : Bool :=
  db.walletReconciliations.rows.any fun r => r.chain = observation.chain ∧ r.status = .mismatch ∧
    r.ledgerRoot = snapshot.root ∧ r.walletSpendableZat = observation.walletSpendableZat ∧
    r.ledgerSpendableZat = snapshot.collectorSpendableZat ∧
    r.createdAt + walletReconciliationMismatchGraceSecs ≤ now

def reconciliationRow (id : Uuid) (now : ℕ) (observation : WalletObservation)
    (snapshot : LedgerSnapshot) : WalletReconciliationRow :=
  { id := id
    chain := observation.chain
    ledgerRoot := snapshot.root
    ledgerTransactionCount := snapshot.transactionCount
    walletStateDigest := observation.walletStateDigest
    walletSpendableZat := observation.walletSpendableZat
    ledgerSpendableZat := snapshot.collectorSpendableZat
    bestTipHash := observation.bestTipHash
    bestTipHeight := observation.bestTipHeight
    observedAt := observation.observedAt
    validUntil := observation.validUntil
    status := if snapshot.collectorSpendableZat = observation.walletSpendableZat then .matched
      else .mismatch
    createdAt := now }

/-- The answer to a stored checkpoint: a mismatch is reported, and freezes once it persists. -/
def concludeReconciliation (db : Database) (row : WalletReconciliationRow) (persistent : Bool) :
    Except StoreError (Database × Except StoreError WalletReconciliation) :=
  if row.status = .matched then .ok (db, .ok row.checkpoint)
  else if persistent then do
    let db ← freezeChainPayouts db row.chain none .walletReconciliationMismatch
    pure (db, .error .collectorReconciliationFailed)
  else .ok (db, .error .walletReconciliationPending)

/-- Record one short-lived, chain-specific wallet reconciliation. -/
def recordWalletReconciliation (cfg : Config) (db : Database) (id : Uuid) (now : ℕ)
    (observation : WalletObservation) :
    Except StoreError (Database × Except StoreError WalletReconciliation) := do
  rejectIf (observation.walletStateDigest.isZero ∨ observation.bestTipHash.isZero ∨
      observation.bestTipHeight = 0 ∨ observation.observedAt = 0 ∨
      observation.validUntil ≤ observation.observedAt ∨
      observation.validUntil - observation.observedAt > maxWalletReconciliationAgeSecs)
    .invalidWalletObservation
  let _ ← lockChainSafetyRow db observation.chain
  rejectIf (observation.observedAt > now ∨
      now - observation.observedAt > maxWalletReconciliationAgeSecs ∨ observation.validUntil ≤ now)
    .invalidWalletObservation
  rejectIf (∃ b ∈ db.payoutBatches.rows, b.chain = observation.chain ∧ b.state.isAmbiguous)
    .walletReconciliationBlocked
  ensureHeldPayoutsExpiredAt db observation.chain observation.bestTipHeight
  let snapshot ← ledgerSnapshot cfg db observation.chain none
  rejectIf (observation.walletSpendableZat ≥ i64Limit ∨ snapshot.collectorSpendableZat ≥ i64Limit ∨
    snapshot.transactionCount ≥ i64Limit) .moneyOverflow
  rejectIf (observation.observedAt ≥ i64Limit ∨ observation.validUntil ≥ i64Limit) .invalidTimestamp
  rejectIf (db.chainPolicies.get observation.chain).isNone
    (.database "wallet_reconciliations_deployment_id_chain_fkey")
  let walletReconciliations ← orReject (.database "wallet_reconciliations_pkey")
    (db.walletReconciliations.insert (reconciliationRow id now observation snapshot))
  concludeReconciliation { db with walletReconciliations := walletReconciliations }
    (reconciliationRow id now observation snapshot)
    (persistentMismatch db now observation snapshot)

/-- **What a committed checkpoint did**: a row, and possibly a freeze. -/
theorem recordWalletReconciliation_spec {cfg : Config} {db db' : Database} {id : Uuid} {now : ℕ}
    {observation : WalletObservation} {answer : Except StoreError WalletReconciliation}
    (h : recordWalletReconciliation cfg db id now observation = .ok (db', answer)) :
    ∃ walletReconciliations, db' = { db with walletReconciliations := walletReconciliations } ∨
      ∃ safety, safety.payoutsFrozen = true ∧
        db' = { db with
          walletReconciliations := walletReconciliations
          chainSafety := db.chainSafety.set observation.chain (some safety) } := by
  obtain ⟨snapshot, -, h⟩ := bind_eq_ok.mp (passed (passed (passed (passed (passed h)))))
  obtain ⟨walletReconciliations, -, h⟩ := bind_eq_ok.mp (passed (passed (passed h)))
  refine ⟨walletReconciliations, ?_⟩
  unfold concludeReconciliation at h
  split at h
  · injection h with h
    exact Or.inl (Prod.mk.inj h).1.symm
  · split at h
    · obtain ⟨frozen, hfreeze, h⟩ := bind_eq_ok.mp h
      obtain ⟨rfl, -⟩ := ok_pair_inj h
      obtain ⟨safety, hfrozen, rfl⟩ := freezeChainPayouts_spec hfreeze
      exact Or.inr ⟨safety, hfrozen, rfl⟩
    · injection h with h
      exact Or.inl (Prod.mk.inj h).1.symm

/-- A checkpoint that a payout may rest on: of this chain, matched and still valid. -/
def loadUsableWalletReconciliation (db : Database) (chain : Chain) (reconciliationId : Uuid)
    (now : ℕ) : Except StoreError WalletReconciliation := do
  let row ← orReject .walletReconciliationStale
    (db.walletReconciliations.find reconciliationId)
  rejectIf (row.chain ≠ chain ∨ row.status ≠ .matched ∨ row.validUntil ≤ now ∨
    row.walletSpendableZat ≠ row.ledgerSpendableZat) .walletReconciliationStale
  ensureHeldPayoutsExpiredAt db chain row.bestTipHeight
  pure row.checkpoint

end WcashPool.Store
