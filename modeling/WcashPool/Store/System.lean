/-
  WcashPool.Store.System — every call of the store in one machine.

  The projector, the operator, the portal and the payout worker share one
  database, and their transactions are serialised.  An `Operation` is one call
  of any of them; a run is a list of operations, in any order, in which a
  failed call is rolled back.  The laws of the ledger are laws of such runs,
  started on a deployment that has posted nothing yet.

  Main result: `step_cases`.
-/
import WcashPool.Store.ExactlyOnce
import WcashPool.Store.PayoutLifecycle

namespace WcashPool.Store

open Fallible Protocol Machine

/-! ## §1. Operations -/

/-- One call, with everything that is chosen outside: random UUIDs, the database clock and the
    draws of the operating system. -/
inductive Operation
  | projectEvent (call : ProjectionCall)
  | bindChainPolicy (chain : Chain) (policy : ChainPolicy)
  /-- Whatever portal and authentication write into their tables. -/
  | portal (accounts : Table AccountRow.id) (workers : Table WorkerRow.id)
      (payoutDestinations : Table PayoutDestination.id)
  | activateDuePayoutDestinations (chain : Chain) (now : ℕ)
  | recordOpeningPoolEquity (draw : LedgerDraw) (chain : Chain)
      (observedWalletSpendableZat expectedSurplusZat : ℕ)
  | recordWalletReconciliation (id : Uuid) (now : ℕ) (observation : WalletObservation)
  | createPayoutBatch (draw : BatchDraw) (chain : Chain) (idempotencyKey reconciliationId : Uuid)
  | authorizePayoutSigning (now : ℕ) (batchId : Uuid)
  | markPayoutSigned (batchId : Uuid) (facts : SignedTransitionFacts)
  | authorizePayoutBroadcast (batchId : Uuid)
  | markPayoutBroadcast (batchId : Uuid)
  | holdExpiredPayout (now : ℕ) (batchId : Uuid) (evidence : PayoutExpiryEvidence)
  | expireHeldPayout (now : ℕ) (draw : LedgerDraw) (batchId : Uuid)
      (evidence : PayoutExpiryEvidence)
  | confirmPayout (draw : LedgerDraw) (batchId : Uuid) (confirmation : PayoutConfirmation)
  | markConfirmedPayoutReorged (eventId batchId : Uuid) (evidence : PayoutReorg)
  | cancelPayoutDraft (draw : LedgerDraw) (batchId : Uuid)
  | cancelRejectedPayoutSigning (draw : LedgerDraw) (batchId : Uuid)

/-- The database that a call committed; its answer is left out. -/
def committed {α : Type} (result : Except StoreError (Database × α)) :
    Except StoreError (Database × Unit) := result.map fun r => (r.1, ())

/-- The same, for a call without an answer. -/
def silently (result : Except StoreError Database) : Except StoreError (Database × Unit) :=
  result.map fun db => (db, ())

def step (cfg : Config) (db : Database) : Operation → Except StoreError (Database × Unit)
  | .projectEvent call => committed (projectCall cfg db call)
  | .bindChainPolicy chain policy => committed (.ok (bindChainPolicy db chain policy))
  | .portal accounts workers payoutDestinations =>
    silently (.ok { db with
      accounts := accounts, workers := workers, payoutDestinations := payoutDestinations })
  | .activateDuePayoutDestinations chain now =>
    silently (.ok { db with
      payoutDestinations := (activateDuePayoutDestinations db.payoutDestinations chain now).1 })
  | .recordOpeningPoolEquity draw chain observed expected =>
    silently (recordOpeningPoolEquity db draw chain observed expected)
  | .recordWalletReconciliation id now observation =>
    committed (recordWalletReconciliation cfg db id now observation)
  | .createPayoutBatch draw chain idempotencyKey reconciliationId =>
    committed (createPayoutBatch cfg db draw chain idempotencyKey reconciliationId)
  | .authorizePayoutSigning now batchId => committed (authorizePayoutSigning cfg db now batchId)
  | .markPayoutSigned batchId facts => silently (markPayoutSigned db batchId facts)
  | .authorizePayoutBroadcast batchId => committed (authorizePayoutBroadcast db batchId)
  | .markPayoutBroadcast batchId => silently (markPayoutBroadcast db batchId)
  | .holdExpiredPayout now batchId evidence => silently (holdExpiredPayout cfg db now batchId evidence)
  | .expireHeldPayout now draw batchId evidence =>
    silently (expireHeldPayout cfg db now draw batchId evidence)
  | .confirmPayout draw batchId confirmation => silently (confirmPayout db draw batchId confirmation)
  | .markConfirmedPayoutReorged eventId batchId evidence =>
    silently (markConfirmedPayoutReorged db eventId batchId evidence)
  | .cancelPayoutDraft draw batchId => silently (cancelPayoutDraft db draw batchId)
  | .cancelRejectedPayoutSigning draw batchId => silently (cancelRejectedPayoutSigning db draw batchId)

theorem committed_eq_ok {α : Type} {result : Except StoreError (Database × α)} {db : Database}
    {u : Unit} : committed result = .ok (db, u) ↔ ∃ a, result = .ok (db, a) := by
  cases result with
  | error e => simp [committed, Except.map]
  | ok r => simp [committed, Except.map, Prod.ext_iff]

theorem silently_eq_ok {result : Except StoreError Database} {db : Database} {u : Unit} :
    silently result = .ok (db, u) ↔ result = .ok db := by
  cases result with
  | error e => simp [silently, Except.map]
  | ok r => simp [silently, Except.map]

/-- **An operation** is one journal event, or a chain of payout steps. -/
theorem step_cases {cfg : Config} {db db' : Database} {op : Operation} {u : Unit}
    (h : step cfg db op = .ok (db', u)) :
    (∃ call r, op = .projectEvent call ∧ projectCall cfg db call = .ok (db', r)) ∨
      PayoutSteps db db' := by
  cases op with
  | projectEvent call =>
    obtain ⟨r, h⟩ := committed_eq_ok.mp h
    exact Or.inl ⟨call, r, rfl, h⟩
  | bindChainPolicy chain policy =>
    obtain ⟨_, h⟩ := committed_eq_ok.mp h
    injection h with h
    have hsteps := bindChainPolicy_steps db chain policy
    rw [h] at hsteps
    exact Or.inr hsteps
  | portal accounts workers payoutDestinations =>
    obtain rfl := Except.ok.inj (silently_eq_ok.mp h)
    exact Or.inr (.single (.records db accounts workers payoutDestinations
      db.walletReconciliations db.expiryEvidence db.reorgEvents))
  | activateDuePayoutDestinations chain now =>
    obtain rfl := Except.ok.inj (silently_eq_ok.mp h)
    exact Or.inr (activateDuePayoutDestinations_steps db chain now)
  | recordOpeningPoolEquity => exact Or.inr (recordOpeningPoolEquity_steps (silently_eq_ok.mp h))
  | recordWalletReconciliation =>
    obtain ⟨_, h⟩ := committed_eq_ok.mp h
    exact Or.inr (recordWalletReconciliation_steps h)
  | createPayoutBatch =>
    obtain ⟨_, h⟩ := committed_eq_ok.mp h
    exact Or.inr (createPayoutBatch_steps h)
  | authorizePayoutSigning =>
    obtain ⟨_, h⟩ := committed_eq_ok.mp h
    exact Or.inr (authorizePayoutSigning_steps h)
  | markPayoutSigned => exact Or.inr (markPayoutSigned_steps (silently_eq_ok.mp h))
  | authorizePayoutBroadcast =>
    obtain ⟨_, h⟩ := committed_eq_ok.mp h
    exact Or.inr (authorizePayoutBroadcast_steps h)
  | markPayoutBroadcast => exact Or.inr (markPayoutBroadcast_steps (silently_eq_ok.mp h))
  | holdExpiredPayout => exact Or.inr (holdExpiredPayout_steps (silently_eq_ok.mp h))
  | expireHeldPayout => exact Or.inr (expireHeldPayout_steps (silently_eq_ok.mp h))
  | confirmPayout => exact Or.inr (confirmPayout_steps (silently_eq_ok.mp h))
  | markConfirmedPayoutReorged =>
    exact Or.inr (markConfirmedPayoutReorged_steps (silently_eq_ok.mp h))
  | cancelPayoutDraft => exact Or.inr (cancelPayoutDraft_steps (silently_eq_ok.mp h))
  | cancelRejectedPayoutSigning =>
    exact Or.inr (cancelRejectedPayoutSigning_steps (silently_eq_ok.mp h))

/-! ## §2. Runs -/

/-- The database after a run. -/
abbrev after (cfg : Config) (db : Database) (ops : List Operation) : Database :=
  run (step cfg) db ops

/-- A deployment that has posted nothing yet: policies, accounts, shares and checkpoints may be
    there already. -/
structure Fresh (db : Database) : Prop where
  ledger : db.ledger.transactions = []
  winners : db.winners.rows = []
  allocations : db.winnerAllocations.rows = []
  batches : db.payoutBatches.rows = []

theorem Fresh.bootstrap (lastEventSeq : ℕ) (chainPolicies : PerChain (Option ChainPolicy)) :
    Fresh (Database.bootstrap lastEventSeq chainPolicies) := ⟨rfl, rfl, rfl, rfl⟩

/-! ## §3. A worked run

A deployment with one miner, one Zcash reward and one payout; the results on runs are checked
against it. -/

def sampleStart : Database := Database.bootstrap 0 ⟨some samplePolicy, some samplePolicy⟩

/-- Work on both chains; the header names block 1 as the predecessor. -/
def sampleJob : JobDescriptor where
  jobId := 1
  wcashCandidateHashLe := 2
  headerInput := BitVec.ofNat _ (4 + 2 ^ 32 + 2 ^ 800)
  wcashPreviousHashLe := 1
  zcashPreviousHashLe := 1
  wcashCoinbaseTxidLe := 3
  zcashCoinbaseTxidLe := 4
  wcashTargetLe := 1
  zcashTargetLe := 1
  wcashHeight := 10
  zcashHeight := 10
  wcashRewardZat := 100_000
  zcashRewardZat := 100_000
  wcashMaturityConfirmations := 100
  zcashMaturityConfirmations := 100
  maxAgeMs := 1

/-- Block 7 at height 10. -/
def sampleWinner : WinnerDescriptor where
  chain := .zcash
  blockHashLe := 7
  height := 10
  coinbaseTxidLe := 4
  rewardZat := 100_000
  maturityConfirmations := 100

/-- A journal event; its posting gets the event's number as identifier. -/
def journal (event : BackendEvent) : Operation :=
  .projectEvent ⟨event, fun _ => ⟨Fin.ofNat _ event.eventSeq, 0⟩⟩

/-- The miner registers with a payout address. -/
def samplePortal (address : Text) : Operation :=
  .portal ⟨[⟨1, ascii "alice"⟩], by decide⟩ ⟨[⟨1, 1, ascii "rig", ascii "alice.rig"⟩], by decide⟩
    ⟨[⟨1, 1, .zcash, address, .transparent, 0, 1, true, .active⟩], List.nodup_singleton _⟩

/-- The miner registers, and mines a block that matures. -/
def sampleReward : List Operation :=
  [samplePortal (ascii "t-address"),
    journal (.jobActivated 1 sampleJob),
    journal (.shareCommitted ⟨2, 1, 1, 103, 7, [sampleWinner]⟩ 1 ⟨1, 1, ascii "alice.rig"⟩
      (BitVec.allOnes _)),
    journal (.winnerObserved 3 1 1 sampleWinner ⟨7, 10⟩ 1),
    journal (.winnerMatured 4 1 1 sampleWinner ⟨8, 109⟩ 100)]

def sampleDraw : BatchDraw :=
  ⟨1001, some (0, 0xFFFFFFFFFFFFFFFF), 1, fun i => Fin.ofNat _ (i + 1), ⟨100, 0⟩⟩

/-- The payable balance is reserved, signed with a fee of 5 zatoshi and broadcast. -/
def samplePayout : List Operation :=
  [.recordWalletReconciliation 1 1000 ⟨.zcash, 1, 100_000, 8, 109, 1000, 1200⟩,
    .createPayoutBatch sampleDraw .zcash 1 1,
    .authorizePayoutSigning 1002 1,
    .markPayoutSigned 1 ⟨1, 1, [0], 5⟩,
    .authorizePayoutBroadcast 1,
    .markPayoutBroadcast 1]

/-- The transaction of the payout, one block deep. -/
def sampleConfirmation : PayoutConfirmation := ⟨9, 108, 1⟩

/-- The reward and the payout, up to the confirmation. -/
def samplePaid : List Operation :=
  sampleReward ++ samplePayout ++ [.confirmPayout ⟨101, 0⟩ 1 sampleConfirmation]

/-- The sample system after some operations. -/
abbrev sampleAfter (ops : List Operation) : Database := after sampleConfig sampleStart ops

/-- The tip falls back by one block, and the reward is one confirmation short of maturity. -/
def sampleRegression : Operation := journal (.winnerObserved 5 1 1 sampleWinner ⟨9, 108⟩ 99)

end WcashPool.Store
