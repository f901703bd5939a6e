/-
  WcashPool.Store.Winners — the lifecycle of one economic winner
  (`insert_winner` … `update_winner_state`).

  A Wcash block may be proved by several committed shares; the reward belongs
  to ONE winner row, and each proof has a row of its own.  Observation posts the
  PPLNS plan as immature, maturity moves it to spendable and payable, and the
  way back mirrors the very lines that were posted, looked up by event and kind.

  The functions on single rows are followed by the lemma that says what a success
  of them did to the database; later files cite these and never unfold them.

  Main results: `loadWinner_spec`, `updateWinnerState_spec` and
  `firstAllocationPlan_spec`.
-/
import WcashPool.Store.Ledger

namespace WcashPool.Store

open Fallible Protocol DoubleEntry Accounting

/-! ## §1. Chain safety and policy rows -/

/-- `lock_chain_safety_v1`: whether payouts of the chain are frozen. -/
def lockChainSafetyRow (db : Database) (chain : Chain) : Except StoreError Bool := do
  let safety ← orReject (.database "chain safety state not found")
    (db.chainSafety.get chain)
  pure safety.payoutsFrozen

/-- The freeze causes that a backend event carries. -/
def FreezeReason.ofWinner : FreezeReason → Bool
  | .maturedWinnerReorg | .maturedWinnerDepthRegression => true
  | .walletReconciliationMismatch | .confirmedPayoutReorg => false

/-- `freeze_chain_payouts_v1`: the first freeze keeps its cause. -/
def freezeChainPayouts (db : Database) (chain : Chain) (backendEventSeq : Option ℕ)
    (reason : FreezeReason) : Except StoreError Database := do
  rejectIf (reason.ofWinner ≠ backendEventSeq.isSome ∨ backendEventSeq = some 0)
    (.database "invalid payout freeze request")
  let safety ← orReject (.database "chain safety state not found")
    (db.chainSafety.get chain)
  let frozen : ChainSafety :=
    { payoutsFrozen := true
      frozenByBackendEventSeq :=
        if safety.payoutsFrozen then safety.frozenByBackendEventSeq else backendEventSeq
      freezeReason := if safety.payoutsFrozen then safety.freezeReason else some reason }
  pure { db with chainSafety := db.chainSafety.set chain (some frozen) }

/-- Payouts of the chain are frozen. -/
def Database.Frozen (db : Database) (chain : Chain) : Prop :=
  ∃ safety, db.chainSafety.get chain = some safety ∧ safety.payoutsFrozen = true

variable {db db' : Database} {winner : WinnerDescriptor}

/-- A freeze touches one chain's safety only. -/
theorem freezeChainPayouts_spec {chain : Chain} {seq : Option ℕ} {reason : FreezeReason}
    (h : freezeChainPayouts db chain seq reason = .ok db') :
    ∃ safety, safety.payoutsFrozen = true ∧
      db' = { db with chainSafety := db.chainSafety.set chain (some safety) } := by
  obtain ⟨safety, -, h⟩ := bind_eq_ok.mp (passed h)
  injection h with h
  exact ⟨_, rfl, h.symm⟩

/-- A payout batch of the chain that is not cancelled. -/
def payoutExposure (db : Database) (chain : Chain) : Prop :=
  ∃ b ∈ db.payoutBatches.rows, b.chain = chain ∧ b.state ≠ .cancelled

instance (db : Database) (chain : Chain) : Decidable (payoutExposure db chain) :=
  inferInstanceAs (Decidable (∃ b ∈ db.payoutBatches.rows, b.chain = chain ∧ b.state ≠ .cancelled))

def loadPolicy (db : Database) (chain : Chain) : Except StoreError ChainPolicy :=
  orReject (.missingChainPolicy chain) (db.chainPolicies.get chain)

/-! ## §2. Rows of winners and proofs -/

/-- The immutable facts of a row against a descriptor; `&&` stops at the first difference. -/
def winnerFactsMatch (row : WinnerRow) (winner : WinnerDescriptor) : Except StoreError Bool :=
  if row.height = winner.height ∧ row.coinbaseTxidLe = winner.coinbaseTxidLe then do
    rejectIf (winner.rewardZat ≥ i64Limit) .moneyOverflow
    if row.rewardZat = winner.rewardZat then do
      rejectIf (winner.maturityConfirmations ≥ 2 ^ 31) .moneyOverflow
      pure (row.maturityConfirmations = winner.maturityConfirmations)
    else pure false
  else pure false

theorem winnerFactsMatch_spec {row : WinnerRow} (h : winnerFactsMatch row winner = .ok true) :
    row.rewardZat = winner.rewardZat := by
  unfold winnerFactsMatch at h
  split at h
  · replace h := passed h
    split at h
    · next hreward => exact hreward
    · cases h
  · cases h

/-- The row of a reward that nobody claimed before. -/
def newWinnerRow (receipt : ShareReceipt) (jobId : Hex32) (winner : WinnerDescriptor) :
    WinnerRow :=
  { chain := winner.chain
    blockHashLe := winner.blockHashLe
    shareId := receipt.shareId
    jobId := jobId
    height := winner.height
    coinbaseTxidLe := winner.coinbaseTxidLe
    rewardZat := winner.rewardZat
    maturityConfirmations := winner.maturityConfirmations
    state := .submitted
    activeProofShareId := none
    activeObservationEventSeq := none
    activeMaturityEventSeq := none }

/-- The winner row of a claimed reward: the first claim creates it, a further Wcash proof must
    state the same facts. -/
def ensureWinner (winners : Table WinnerRow.key) (receipt : ShareReceipt) (jobId : Hex32)
    (winner : WinnerDescriptor) : Except StoreError (Table WinnerRow.key) :=
  match winners.find winner.key with
  | some row => do
    rejectIf (winner.chain ≠ .wcash) .winnerFactConflict
    let same ← winnerFactsMatch row winner
    rejectIf (same = false) .winnerFactConflict
    pure winners
  | none => do
    rejectIf (winner.rewardZat ≥ i64Limit) .moneyOverflow
    rejectIf (winner.maturityConfirmations ≥ 2 ^ 31) .moneyOverflow
    rejectIf (winner.height = 0 ∨ winner.rewardZat = 0 ∨
        ¬ (1 ≤ winner.maturityConfirmations ∧ winner.maturityConfirmations ≤ 1_000_000))
      (.database "winners_check")
    orReject (.database "winners_pkey")
      (winners.insert (newWinnerRow receipt jobId winner))

/-- A winner is there already, or is new. -/
theorem ensureWinner_spec {winners winners' : Table WinnerRow.key} {receipt : ShareReceipt}
    {jobId : Hex32} (h : ensureWinner winners receipt jobId winner = .ok winners') :
    winners' = winners ∨ winners.insert (newWinnerRow receipt jobId winner) = some winners' := by
  unfold ensureWinner at h
  split at h
  · obtain ⟨same, -, h⟩ := bind_eq_ok.mp (passed h)
    replace h := passed h
    injection h with h
    exact Or.inl h.symm
  · replace h := passed (passed (passed h))
    exact Or.inr (orReject_eq_ok.mp h)

/-- A committed share claims the block reward of `winner`. -/
def insertWinner (db : Database) (receipt : ShareReceipt) (jobId : Hex32)
    (winner : WinnerDescriptor) : Except StoreError Database := do
  let winners ← ensureWinner db.winners receipt jobId winner
  rejectIf (∃ p ∈ db.winnerProofs.rows, p.chain = winner.chain ∧ p.shareId = receipt.shareId)
    (.database "winner_proofs_deployment_id_chain_share_id_key")
  let winnerProofs ← orReject (.database "winner_proofs_pkey") (db.winnerProofs.insert
    { chain := winner.chain
      blockHashLe := winner.blockHashLe
      shareId := receipt.shareId
      jobId := jobId
      state := .submitted })
  pure { db with winners := winners, winnerProofs := winnerProofs }

/-- The columns that a lifecycle event reads. -/
structure LoadedWinner where
  state : WinnerState
  proofState : WinnerState
  activeProofShareId : Option Hex32
  observationEventSeq : Option ℕ
  maturityEventSeq : Option ℕ
  shareEventSeq : ℕ
deriving DecidableEq, Repr

/-- The winner, its proof and its share. -/
def loadWinner (db : Database) (shareId jobId : Hex32) (winner : WinnerDescriptor) :
    Except StoreError LoadedWinner := do
  let row ← orReject .unknownWinner (db.winners.find winner.key)
  let share ← orReject .unknownWinner (db.shares.find row.shareId)
  let proof ← orReject .unknownWinner
    (db.winnerProofs.find (winner.chain, winner.blockHashLe, shareId))
  rejectIf (proof.jobId ≠ jobId) .winnerFactConflict
  let same ← winnerFactsMatch row winner
  rejectIf (same = false) .winnerFactConflict
  pure
    { state := row.state
      proofState := proof.state
      activeProofShareId := row.activeProofShareId
      observationEventSeq := row.activeObservationEventSeq
      maturityEventSeq := row.activeMaturityEventSeq
      shareEventSeq := share.eventSeq }

/-- What loaded columns say about the stored row. -/
structure Loaded (db : Database) (winner : WinnerDescriptor) (row : LoadedWinner)
    (w : WinnerRow) (share : ShareRow) : Prop where
  find : db.winners.find winner.key = some w
  reward : w.rewardZat = winner.rewardZat
  state : row.state = w.state
  observation : row.observationEventSeq = w.activeObservationEventSeq
  maturity : row.maturityEventSeq = w.activeMaturityEventSeq
  claimed : db.shares.find w.shareId = some share
  shareSeq : row.shareEventSeq = share.eventSeq

/-- A loaded winner is the row of its key, with the reward that the event states and with the
    share that first claimed it. -/
theorem loadWinner_spec {shareId jobId : Hex32} {row : LoadedWinner}
    (h : loadWinner db shareId jobId winner = .ok row) :
    ∃ w share, Loaded db winner row w share := by
  obtain ⟨w, hw, h⟩ := bind_eq_ok.mp h
  obtain ⟨share, hshare, h⟩ := bind_eq_ok.mp h
  obtain ⟨proof, -, h⟩ := bind_eq_ok.mp h
  obtain ⟨same, hsame, h⟩ := bind_eq_ok.mp (passed h)
  obtain ⟨htrue, h⟩ := rejectIf_bind_ok h
  rw [orReject_eq_ok] at hw hshare
  rw [Bool.not_eq_false] at htrue
  subst htrue
  injection h with h
  subst h
  exact ⟨w, share, hw, winnerFactsMatch_spec hsame, rfl, rfl, rfl, hshare, rfl⟩

def updateWinnerProofState (db : Database) (winner : WinnerDescriptor) (shareId : Hex32)
    (state : WinnerState) : Except StoreError Database := do
  rejectIf (db.winnerProofs.find (winner.chain, winner.blockHashLe, shareId) = none) .unknownWinner
  rejectIf (state = .sideChain ∧ winner.chain ≠ .zcash) (.database "winner_proofs_check")
  let winnerProofs := db.winnerProofs.modify (winner.chain, winner.blockHashLe, shareId)
    (fun p => { p with state := state }) fun _ => rfl
  pure { db with winnerProofs := winnerProofs }

/-- Only the proofs change. -/
theorem updateWinnerProofState_spec {shareId : Hex32} {state : WinnerState}
    (h : updateWinnerProofState db winner shareId state = .ok db') :
    ∃ proofs, db' = { db with winnerProofs := proofs } := by
  replace h := passed (passed h)
  injection h with h
  exact ⟨_, h.symm⟩

def selectWinnerProof (db : Database) (winner : WinnerDescriptor) (shareId : Hex32) :
    Except StoreError Database := do
  rejectIf (db.winners.find winner.key ≠ none ∧
      db.winnerProofs.find (winner.chain, winner.blockHashLe, shareId) = none)
    (.database "winners_active_proof_fkey")
  let winners := db.winners.modify winner.key
    (fun w => { w with activeProofShareId := some shareId }) fun _ => rfl
  pure { db with winners := winners }

/-- The row after `update_winner_state`: only an active winner keeps its selected proof. -/
def WinnerRow.enter (w : WinnerRow) (state : WinnerState)
    (observationEventSeq maturityEventSeq : Option ℕ) : WinnerRow :=
  { w with
    state := state
    activeObservationEventSeq := observationEventSeq
    activeMaturityEventSeq := maturityEventSeq
    activeProofShareId :=
      if state = .observed ∨ state = .matured then w.activeProofShareId else none }

@[simp] theorem WinnerRow.enter_rewardZat (w : WinnerRow) (state : WinnerState)
    (observation maturity : Option ℕ) :
    (w.enter state observation maturity).rewardZat = w.rewardZat := rfl

def updateWinnerState (db : Database) (winner : WinnerDescriptor) (state : WinnerState)
    (observationEventSeq maturityEventSeq : Option ℕ) : Except StoreError Database := do
  rejectIf (db.winners.find winner.key = none) .unknownWinner
  rejectIf (state = .sideChain ∧ winner.chain ≠ .zcash)
    (.database "winners_side_chain_profile_check")
  let winners := db.winners.modify winner.key
    (·.enter state observationEventSeq maturityEventSeq) fun _ => rfl
  pure { db with winners := winners }

/-- One winner changes its state. -/
theorem updateWinnerState_spec {state : WinnerState} {observation maturity : Option ℕ}
    (h : updateWinnerState db winner state observation maturity = .ok db') :
    db' = { db with
      winners := db.winners.modify winner.key (·.enter state observation maturity)
        fun _ => rfl } := by
  replace h := passed (passed h)
  injection h with h
  exact h.symm

/-! ## §3. The allocation plan -/

/-- The plan of one observation of a winner, by account. -/
def allocationsAt (db : Database) (key : Chain × Hex32) (observationEventSeq : ℕ) :
    List WinnerAllocationRow :=
  (db.winnerAllocations.rows.filter fun a =>
      (a.chain, a.blockHashLe) = key ∧ a.observationEventSeq = observationEventSeq).insertionSort
    fun a b => a.accountId ≤ b.accountId

/-- The event of the first observation of a winner. -/
def firstObservation (db : Database) (key : Chain × Hex32) : Option ℕ :=
  ((db.winnerAllocations.rows.filter fun a => (a.chain, a.blockHashLe) = key).map
    (·.observationEventSeq)).min?

/-- The plan of the first observation. -/
def originalAllocations (db : Database) (key : Chain × Hex32) : List WinnerAllocationRow :=
  match firstObservation db key with
  | some seq => allocationsAt db key seq
  | none => []

/-- The loop over the stored plan: one policy version, and a 64-bit total. -/
def storedMinerTotal (policyVersion : ℕ) : ℕ → List WinnerAllocationRow → Except StoreError ℕ
  | total, [] => .ok total
  | total, row :: rows => do
    rejectIf (row.policyVersion ≠ policyVersion) (.corruptDatabaseState "winner allocation policy")
    let total ← checkedAdd 64 .moneyOverflow total row.amountZat
    storedMinerTotal policyVersion total rows

/-- The stored total is the sum of the rows. -/
theorem storedMinerTotal_spec {policyVersion : ℕ} {rows : List WinnerAllocationRow}
    {total r : ℕ} (h : storedMinerTotal policyVersion total rows = .ok r) :
    r = total + (rows.map (·.amountZat)).sum := by
  induction rows generalizing total with
  | nil =>
    injection h with h
    simp [← h]
  | cons row rows ih =>
    obtain ⟨total', hadd, h⟩ := bind_eq_ok.mp (passed h)
    rw [checkedAdd_eq_ok] at hadd
    rw [ih h, List.map_cons, List.sum_cons, ← hadd.2, Nat.add_assoc]

/-- Bound on the share rows read for one window. -/
def maxPplnsShares : ℕ := 1_000_001

/-- The share rows up to an event, newest first. -/
def sharesUpTo (db : Database) (shareEventSeq : ℕ) : List ShareRow :=
  (db.shares.rows.filter fun s => s.eventSeq ≤ shareEventSeq).insertionSort
    fun a b => a.eventSeq ≥ b.eventSeq

abbrev ShareRow.weighted (s : ShareRow) : WeightedShare := ⟨s.shareId, s.accountId, s.work⟩

/-- The plan of a winner whose reward was never observed before. -/
def firstAllocationPlan (db : Database) (chain : Chain) (rewardZat shareEventSeq : ℕ) :
    Except StoreError (AllocationPlan × ℕ) := do
  let policy ← loadPolicy db chain
  let rows := (sharesUpTo db shareEventSeq).take maxPplnsShares
  let availableWork := (rows.map (·.work)).sum
  rejectIf (rows.length = maxPplnsShares ∧ availableWork < policy.pplnsWindowWork)
    .pplnsWindowTooLarge
  match allocatePplns (rows.map (·.weighted)) policy.pplnsWindowWork rewardZat policy.feeBps with
  | .ok plan => pure (plan, policy.policyVersion)
  | .error e => .error (.pplns e)

/-- **A first plan is the PPLNS plan.** -/
theorem firstAllocationPlan_spec {chain : Chain} {rewardZat shareEventSeq version : ℕ}
    {plan : AllocationPlan}
    (h : firstAllocationPlan db chain rewardZat shareEventSeq = .ok (plan, version)) :
    ∃ policy, db.chainPolicies.get chain = some policy ∧ version = policy.policyVersion ∧
      ¬ (((sharesUpTo db shareEventSeq).take maxPplnsShares).length = maxPplnsShares ∧
        (((sharesUpTo db shareEventSeq).take maxPplnsShares).map (·.work)).sum
          < policy.pplnsWindowWork) ∧
      allocatePplns (((sharesUpTo db shareEventSeq).take maxPplnsShares).map (·.weighted))
        policy.pplnsWindowWork rewardZat policy.feeBps = .ok plan := by
  obtain ⟨policy, hpolicy, h⟩ := bind_eq_ok.mp h
  obtain ⟨hlimit, h⟩ := rejectIf_bind_ok h
  rw [loadPolicy, orReject_eq_ok] at hpolicy
  split at h
  · next hplan =>
    obtain ⟨rfl, rfl⟩ := ok_pair_inj h
    exact ⟨policy, hpolicy, rfl, hlimit, hplan⟩
  · cases h

/-- The plan of an observation: the first one is authoritative for every later one. -/
def winnerAllocationPlan (db : Database) (key : Chain × Hex32) (rewardZat shareEventSeq : ℕ) :
    Except StoreError (AllocationPlan × ℕ) :=
  match originalAllocations db key with
  | [] => firstAllocationPlan db key.1 rewardZat shareEventSeq
  | first :: rest => do
    let minerTotal ← storedMinerTotal first.policyVersion 0 (first :: rest)
    let poolFeeZat ← checkedSub .moneyOverflow rewardZat minerTotal
    let plan : AllocationPlan :=
      { selectedWork := ((first :: rest).map (·.selectedWork)).sum
        poolFeeZat := poolFeeZat
        accounts := (first :: rest).map fun a => ⟨a.accountId, a.selectedWork, a.amountZat⟩ }
    pure (plan, first.policyVersion)

theorem winnerAllocationPlan_of_first {key : Chain × Hex32} (h : originalAllocations db key = [])
    (rewardZat shareEventSeq : ℕ) :
    winnerAllocationPlan db key rewardZat shareEventSeq
      = firstAllocationPlan db key.1 rewardZat shareEventSeq := by
  unfold winnerAllocationPlan
  rw [h]

/-! ## §4. Observation -/

/-- The row that records one account of a plan. -/
abbrev allocationRow (key : Chain × Hex32) (eventSeq policyVersion : ℕ) (a : AccountAllocation) :
    WinnerAllocationRow :=
  { chain := key.1
    blockHashLe := key.2
    observationEventSeq := eventSeq
    policyVersion := policyVersion
    accountId := a.accountId
    selectedWork := a.work
    amountZat := a.amountZat }

def insertAllocations (key : Chain × Hex32) (eventSeq policyVersion : ℕ) :
    Table WinnerAllocationRow.key → List AccountAllocation →
      Except StoreError (Table WinnerAllocationRow.key)
  | table, [] => .ok table
  | table, a :: accounts => do
    rejectIf (a.amountZat ≥ i64Limit) .moneyOverflow
    rejectIf (a.work = 0) (.database "winner_allocations_selected_work_check")
    let table ← orReject (.database "winner_allocations_pkey")
      (table.insert (allocationRow key eventSeq policyVersion a))
    insertAllocations key eventSeq policyVersion table accounts

/-- The accounts of a plan become its rows. -/
theorem insertAllocations_spec {key : Chain × Hex32} {eventSeq policyVersion : ℕ}
    {accounts : List AccountAllocation} {table table' : Table WinnerAllocationRow.key}
    (h : insertAllocations key eventSeq policyVersion table accounts = .ok table') :
    table'.rows = table.rows ++ accounts.map (allocationRow key eventSeq policyVersion) := by
  induction accounts generalizing table with
  | nil =>
    injection h with h
    simp [← h]
  | cons a accounts ih =>
    obtain ⟨mid, hmid, h⟩ := bind_eq_ok.mp (passed (passed h))
    rw [orReject_eq_ok] at hmid
    rw [ih h, (Table.insert_eq_some hmid).2]
    simp

/-- The lines of an observation: the reward is an immature asset, owed to the miners and to
    the pool. -/
def observedEntries (rewardZat : ℕ) (split : List (Uuid × ℕ)) (poolFeeZat : ℕ) :
    List LedgerEntry :=
  [⟨.collectorImmatureAsset, rewardZat⟩]
    ++ (split.filter (0 < ·.2)).map (fun s => ⟨.minerImmature s.1, -s.2⟩)
    ++ if 0 < poolFeeZat then [⟨.poolFeeUnearned, -poolFeeZat⟩] else []

/-- Every amount of a posting fits a signed 64-bit integer. -/
def requireI64 (values : List ℕ) : Except StoreError Unit :=
  rejectIf (∃ v ∈ values, v ≥ i64Limit) .moneyOverflow

/-- The confirmations that the event and the policy both ask for. -/
def requiredWinnerConfirmations (db : Database) (winner : WinnerDescriptor) :
    Except StoreError ℕ := do
  let policy ← loadPolicy db winner.chain
  pure (max winner.maturityConfirmations policy.requiredConfirmations)

/-- Freeze the payouts of a chain that has a batch which is not cancelled. -/
def freezeIfExposed (db : Database) (chain : Chain) (eventSeq : ℕ) (reason : FreezeReason) :
    Except StoreError Database := do
  let _ ← lockChainSafetyRow db chain
  if payoutExposure db chain then freezeChainPayouts db chain (some eventSeq) reason else pure db

/-- The mirror of stored lines, each negated in 64 bits. -/
def mirrorEntries (rows : List LedgerEntry) : Except StoreError (List LedgerEntry) := do
  rejectIf (∃ e ∈ rows, e.amount = -i64Limit) .moneyOverflow
  pure (negate rows)

/-- A reversal mirrors the lines. -/
theorem mirrorEntries_spec {rows entries : List LedgerEntry}
    (h : mirrorEntries rows = .ok entries) : entries = negate rows := by
  replace h := passed h
  injection h with h
  exact h.symm

section Transitions

-- what a transition is given: the database, and the event that it projects
variable (db : Database) (draw : LedgerKind → LedgerDraw) (eventSeq : ℕ) (shareId jobId : Hex32)
  (winner : WinnerDescriptor)

/-- Mirror the maturity of a winner: only its maturity lines are taken back. -/
def dematureWinner (row : LoadedWinner) : Except StoreError Database := do
  let observation ← orReject .invalidWinnerTransition row.observationEventSeq
  let maturity ← orReject .invalidWinnerTransition row.maturityEventSeq
  let db ← freezeIfExposed db winner.chain eventSeq .maturedWinnerDepthRegression
  let rows := db.ledger.postedBy [(maturity, .winnerMatured)]
  rejectIf (rows = []) (.corruptDatabaseState "active winner maturity ledger")
  let entries ← mirrorEntries rows
  let db ← insertLedgerTransaction db (draw .winnerDematured)
    { chain := winner.chain
      kind := .winnerDematured
      backendEventSeq := some eventSeq
      reference := .winner winner.key
      entries := entries }
  updateWinnerState db winner .observed (some observation) none

/-- The states in which a winner holds no ledger lines. -/
def WinnerState.inactive : WinnerState → Bool
  | .submitted | .sideChain | .quarantined | .requeued | .orphaned => true
  | .observed | .matured => false

def observeEconomicWinner (confirmations : ℕ) (row : LoadedWinner) : Except StoreError Database :=
  -- a later observation of an immature winner is an accounting no-op
  if row.state = .observed ∧ row.observationEventSeq.isSome ∧ row.maturityEventSeq = none then
    pure db
  -- a reorganisation above the block can take its depth back below maturity
  else if row.state = .matured ∧ row.observationEventSeq.isSome ∧ row.maturityEventSeq.isSome then
    do
      let required ← requiredWinnerConfirmations db winner
      if confirmations ≥ required then pure db
      else dematureWinner db draw eventSeq winner row
  else do
    rejectIf (¬ row.state.inactive ∨ row.observationEventSeq.isSome ∨ row.maturityEventSeq.isSome)
      .invalidWinnerTransition
    let (plan, policyVersion) ←
      winnerAllocationPlan db winner.key winner.rewardZat row.shareEventSeq
    let winnerAllocations ← insertAllocations winner.key eventSeq policyVersion
      db.winnerAllocations plan.accounts
    requireI64 (winner.rewardZat :: plan.poolFeeZat :: plan.accounts.map (·.amountZat))
    let db ← insertLedgerTransaction { db with winnerAllocations := winnerAllocations }
      (draw .winnerObserved)
      { chain := winner.chain
        kind := .winnerObserved
        backendEventSeq := some eventSeq
        reference := .winner winner.key
        entries := observedEntries winner.rewardZat plan.split plan.poolFeeZat }
    updateWinnerState db winner .observed (some eventSeq) none

/-- `WinnerObserved`. -/
def observeWinner (confirmations : ℕ) : Except StoreError Database := do
  let row ← loadWinner db shareId jobId winner
  rejectIf (confirmations = 0 ∨
      (row.proofState = .matured ∧ confirmations ≥ winner.maturityConfirmations))
    .invalidWinnerTransition
  let db ← observeEconomicWinner db draw eventSeq winner confirmations row
  let db ← updateWinnerProofState db winner shareId .observed
  selectWinnerProof db winner shareId

/-! ## §5. Maturity and reversal -/

/-- The lines of a maturity: the immature asset becomes spendable, what is owed becomes payable
    and the pool fee becomes equity. -/
def maturedEntries (rewardZat : ℕ) (split : List (Uuid × ℕ)) (poolFeeZat : ℕ) :
    List LedgerEntry :=
  [⟨.collectorImmatureAsset, -rewardZat⟩, ⟨.collectorSpendableAsset, rewardZat⟩]
    ++ (split.filter (0 < ·.2)).flatMap
        (fun s => [⟨.minerImmature s.1, s.2⟩, ⟨.minerPayable s.1, -s.2⟩])
    ++ if 0 < poolFeeZat then [⟨.poolFeeUnearned, poolFeeZat⟩, ⟨.poolEquity, -poolFeeZat⟩] else []

def matureEconomicWinner (row : LoadedWinner) : Except StoreError Database :=
  if row.state = .matured ∧ row.observationEventSeq.isSome ∧ row.maturityEventSeq.isSome then
    pure db
  else do
    rejectIf (row.state ≠ .observed ∨ row.maturityEventSeq.isSome) .invalidWinnerTransition
    let observation ← orReject .invalidWinnerTransition row.observationEventSeq
    let allocations := allocationsAt db winner.key observation
    rejectIf (allocations = []) (.corruptDatabaseState "winner allocations")
    let split := allocations.map fun a => (a.accountId, a.amountZat)
    let minerTotal : ℕ := (split.map (·.2)).sum
    requireI64 (winner.rewardZat :: split.map (·.2))
    rejectIf (minerTotal ≥ 2 ^ 64) .moneyOverflow
    let poolFeeZat ← checkedSub .moneyOverflow winner.rewardZat minerTotal
    let db ← insertLedgerTransaction db (draw .winnerMatured)
      { chain := winner.chain
        kind := .winnerMatured
        backendEventSeq := some eventSeq
        reference := .winner winner.key
        entries := maturedEntries winner.rewardZat split poolFeeZat }
    updateWinnerState db winner .matured (some observation) (some eventSeq)

/-- A fresh positive proof may restore a block that another witness invalidated. -/
def restoreWinner (confirmations : ℕ) (row : LoadedWinner) :
    Except StoreError (Database × LoadedWinner) :=
  if row.state = .observed ∨ row.state = .matured then .ok (db, row)
  else do
    let db ← observeEconomicWinner db draw eventSeq winner confirmations row
    let row ← loadWinner db shareId jobId winner
    pure (db, row)

/-- `WinnerMatured`. -/
def matureWinner (confirmations : ℕ) : Except StoreError Database := do
  let row ← loadWinner db shareId jobId winner
  rejectIf (row.proofState ≠ .observed) .invalidWinnerTransition
  let required ← requiredWinnerConfirmations db winner
  rejectIf (confirmations < required) (.prematureWinner required confirmations)
  let (db, row) ← restoreWinner db draw eventSeq shareId jobId winner confirmations row
  let db ← matureEconomicWinner db draw eventSeq winner row
  let db ← updateWinnerProofState db winner shareId .matured
  selectWinnerProof db winner shareId

/-- The two ways in which a proof turns against its winner. -/
inductive WinnerReversal
  | orphaned
  | quarantined
deriving DecidableEq, Repr

def WinnerReversal.ledgerKind : WinnerReversal → LedgerKind
  | .orphaned => .winnerOrphaned
  | .quarantined => .winnerQuarantined

def WinnerReversal.nextState : WinnerReversal → WinnerState
  | .orphaned => .orphaned
  | .quarantined => .quarantined

def WinnerReversal.validFrom : WinnerReversal → WinnerState → Bool
  | .orphaned, proofState => proofState = .observed ∨ proofState = .matured
  | .quarantined, proofState => proofState ≠ .quarantined

/-- A reversal of a matured winner is a payout risk. -/
def freezeIfMatured (chain : Chain) (eventSeq : ℕ) (maturityEventSeq : Option ℕ) :
    Except StoreError Database :=
  if maturityEventSeq.isSome then freezeIfExposed db chain eventSeq .maturedWinnerReorg else .ok db

/-- Take back every line that the winner holds, if it holds any. -/
def reverseEconomicWinner (row : LoadedWinner) (reversal : WinnerReversal) :
    Except StoreError Database :=
  if row.state.inactive then do
    rejectIf (row.observationEventSeq.isSome ∨ row.maturityEventSeq.isSome)
      (.corruptDatabaseState "inactive winner ledger")
    updateWinnerState db winner reversal.nextState none none
  else do
    let db ← freezeIfMatured db winner.chain eventSeq row.maturityEventSeq
    let observation ← orReject (.corruptDatabaseState "active winner ledger")
      row.observationEventSeq
    let rows := db.ledger.postedBy ((observation, .winnerObserved)
      :: (row.maturityEventSeq.map (·, LedgerKind.winnerMatured)).toList)
    rejectIf (rows = []) (.corruptDatabaseState "active winner ledger")
    let entries ← mirrorEntries rows
    let db ← insertLedgerTransaction db (draw reversal.ledgerKind)
      { chain := winner.chain
        kind := reversal.ledgerKind
        backendEventSeq := some eventSeq
        reference := .winner winner.key
        entries := entries }
    updateWinnerState db winner reversal.nextState none none

/-- `WinnerOrphaned` and `WinnerQuarantined`. -/
def reverseWinner (reversal : WinnerReversal) : Except StoreError Database := do
  let row ← loadWinner db shareId jobId winner
  rejectIf (¬ reversal.validFrom row.proofState) .invalidWinnerTransition
  let db ← updateWinnerProofState db winner shareId reversal.nextState
  -- another exact proof is still the selected positive observation
  if reversal = .quarantined ∧ ∃ active ∈ row.activeProofShareId, active ≠ shareId then pure db
  else reverseEconomicWinner db draw eventSeq winner row reversal

/-- A Zcash candidate that was only ever seen on a side chain. -/
def sideChainWinner : Except StoreError Database := do
  let row ← loadWinner db shareId jobId winner
  rejectIf (winner.chain ≠ .zcash ∨ row.proofState ≠ .submitted ∨ row.state ≠ .submitted ∨
      row.observationEventSeq.isSome ∨ row.maturityEventSeq.isSome ∨ row.activeProofShareId.isSome)
    .invalidWinnerTransition
  let db ← updateWinnerProofState db winner shareId .sideChain
  updateWinnerState db winner .sideChain none none

/-- A quarantined proof is submitted again. -/
def requeueWinner : Except StoreError Database := do
  let row ← loadWinner db shareId jobId winner
  rejectIf (row.proofState ≠ .quarantined) .invalidWinnerTransition
  let db ← updateWinnerProofState db winner shareId .requeued
  if row.activeProofShareId = none ∧ row.state = .quarantined then
    updateWinnerState db winner .requeued none none
  else pure db

end Transitions

end WcashPool.Store
