/-
  WcashPool.Store.Projection — one backend event becomes one transaction
  (`project_one`).

  The cursor row serialises the projector: an event below the cursor is
  compared with what is stored, the next event is stored and applied, every
  other event is a gap.  Everything happens in one transaction, so a failure
  anywhere leaves cursor and accounting as they were; the model returns the new
  database only with a success.
-/
import WcashPool.Store.Winners

namespace WcashPool.Store

open Fallible Protocol Accounting

/-! ## §1. Worker attribution -/

/-- A byte of `[a-z0-9_-]`. -/
def loginByte (byte : UInt8) : Bool :=
  (97 ≤ byte && byte ≤ 122) || (48 ≤ byte && byte ≤ 57) || byte == 95 || byte == 45

/-- `^[a-z0-9_-]{1,64}\.[a-z0-9_-]{1,63}$` -/
def projectedLogin (login : Text) : Bool :=
  let account := login.takeWhile (· != 46)
  let worker := login.drop (account.length + 1)
  1 ≤ account.length && account.length ≤ 64 && account.all loginByte &&
    1 ≤ worker.length && worker.length ≤ 63 && worker.all loginByte

/-- `INSERT INTO accounts … ON CONFLICT (deployment_id,id) DO NOTHING` -/
def ensureAccount (accounts : Table AccountRow.id) (accountId : Uuid) :
    Except StoreError (Table AccountRow.id) :=
  match accounts.find accountId with
  | some _ => .ok accounts
  | none => do
    let login := ascii "imported_" ++ (hexText accountId.asBytes).take 16
    rejectIf (∃ a ∈ accounts.rows, a.login = login) (.database "accounts_deployment_id_login_key")
    orReject (.database "accounts_pkey") (accounts.insert ⟨accountId, login⟩)

/-- `INSERT INTO workers … ON CONFLICT (deployment_id,id) DO NOTHING` -/
def ensureWorker (workers : Table WorkerRow.id) (worker : WorkerIdentity) :
    Except StoreError (Table WorkerRow.id) :=
  match workers.find worker.workerId with
  | some _ => .ok workers
  | none => do
    let label := ascii "legacy_" ++ (hexText worker.workerId.asBytes).take 16
    rejectIf (∃ w ∈ workers.rows, w.accountId = worker.accountId ∧ w.label = label)
      (.database "workers_deployment_id_account_id_label_key")
    rejectIf (∃ w ∈ workers.rows, w.canonicalLogin = worker.label)
      (.database "workers_deployment_id_canonical_login_key")
    orReject (.database "workers_pkey")
      (workers.insert ⟨worker.workerId, worker.accountId, label, worker.label⟩)

/-- `ensure_projected_worker_v1`: attribution rows for an identity that the portal may not know
    yet; an existing worker must have this account and login. -/
def importWorker (db : Database) (worker : WorkerIdentity) : Except StoreError Database := do
  rejectIf (worker.accountId.isNil ∨ worker.workerId.isNil ∨ ¬ projectedLogin worker.label)
    (.database "invalid projected worker identity")
  let accounts ← ensureAccount db.accounts worker.accountId
  let workers ← ensureWorker db.workers worker
  rejectIf (¬ ∃ w ∈ workers.rows, w.id = worker.workerId ∧ w.accountId = worker.accountId ∧
      w.canonicalLogin = worker.label)
    (.database "projected worker attribution conflict")
  pure { db with accounts := accounts, workers := workers }

theorem importWorker_spec {db db' : Database} {worker : WorkerIdentity}
    (h : importWorker db worker = .ok db') :
    ∃ accounts workers, db' = { db with accounts := accounts, workers := workers } := by
  obtain ⟨accounts, -, h⟩ := bind_eq_ok.mp (passed h)
  obtain ⟨workers, -, h⟩ := bind_eq_ok.mp h
  replace h := passed h
  injection h with h
  exact ⟨accounts, workers, h.symm⟩

/-! ## §2. The effect of an event -/

def verifyJobMaturityPolicy (db : Database) (chain : Chain) (advertised : ℕ) :
    Except StoreError Unit := do
  let policy ← loadPolicy db chain
  rejectIf (policy.requiredConfirmations ≠ advertised)
    (.winnerMaturityPolicyMismatch chain advertised policy.requiredConfirmations)

def verifyJobMaturityPolicies (db : Database) (job : JobDescriptor) : Except StoreError Unit := do
  verifyJobMaturityPolicy db .wcash job.wcashMaturityConfirmations
  verifyJobMaturityPolicy db .zcash job.zcashMaturityConfirmations

def activateJob (db : Database) (eventSeq : ℕ) (job : JobDescriptor) :
    Except StoreError Database := do
  verifyJobMaturityPolicies db job
  let jobs ← orReject (.database "jobs_pkey") (db.jobs.insert ⟨job.jobId, eventSeq, job⟩)
  pure { db with jobs := jobs }

def insertWinners (receipt : ShareReceipt) (jobId : Hex32) :
    Database → List WinnerDescriptor → Except StoreError Database
  | db, [] => .ok db
  | db, winner :: winners => do
    let db ← insertWinner db receipt jobId winner
    insertWinners receipt jobId db winners

/-- Store an accepted share, its attribution and the block rewards it claims. -/
def commitShare (db : Database) (receipt : ShareReceipt) (jobId : Hex32)
    (worker : WorkerIdentity) (targetLe : TargetLe) : Except StoreError Database := do
  let job ← orReject .unknownJob (db.jobs.find jobId)
  (receipt.validateForJob job.descriptor).mapError .protocol
  let db ← importWorker db worker
  let work ← (targetWork targetLe).mapError .pplns
  rejectIf (work = 0) (.database "shares_work_check")
  rejectIf (∃ s ∈ db.shares.rows, s.eventSeq = receipt.eventSeq)
    (.database "shares_deployment_id_event_seq_key")
  let shares ← orReject (.database "shares_pkey") (db.shares.insert
    { shareId := receipt.shareId
      eventSeq := receipt.eventSeq
      jobId := jobId
      accountId := worker.accountId
      workerId := worker.workerId
      targetLe := targetLe
      work := work
      parentHashLe := receipt.parentHashLe })
  insertWinners receipt jobId { db with shares := shares } receipt.winners

def applyEvent (db : Database) (draw : LedgerKind → LedgerDraw) :
    BackendEvent → Except StoreError Database
  | .jobActivated eventSeq job => activateJob db eventSeq job
  | .jobInvalidated _ _ _ _ => pure db
  | .generationClosed _ _ => pure db
  | .shareCommitted receipt jobId worker targetLe => commitShare db receipt jobId worker targetLe
  | .winnerSideChain _ shareId jobId winner _ => sideChainWinner db shareId jobId winner
  | .winnerObserved eventSeq shareId jobId winner _ confirmations =>
    observeWinner db draw eventSeq shareId jobId winner confirmations
  | .winnerMatured eventSeq shareId jobId winner _ confirmations =>
    matureWinner db draw eventSeq shareId jobId winner confirmations
  | .winnerOrphaned eventSeq shareId jobId winner _ =>
    reverseWinner db draw eventSeq shareId jobId winner .orphaned
  | .winnerQuarantined eventSeq shareId jobId winner _ => do
    rejectIf (winner.chain ≠ .wcash) .invalidWinnerTransition
    reverseWinner db draw eventSeq shareId jobId winner .quarantined
  | .winnerRequeued _ shareId jobId winner _ => requeueWinner db shareId jobId winner

/-! ## §3. One transaction per event -/

inductive ProjectionResult
  | applied
  | replayed
deriving DecidableEq, Repr

def payloadHash (ext : External) (event : BackendEvent) : Hex32 := ext.sha256 (ext.toJson event)

def projectOne (cfg : Config) (db : Database) (draw : LedgerKind → LedgerDraw)
    (event : BackendEvent) : Except StoreError (Database × ProjectionResult) := do
  (event.validate cfg.ext).mapError .protocol
  rejectIf (event.eventSeq ≥ i64Limit) .eventSeqOverflow
  if event.eventSeq ≤ db.lastEventSeq then
    if (db.backendEvents.find event.eventSeq).map (·.payloadSha256)
        = some (payloadHash cfg.ext event) then
      pure (db, .replayed)
    else .error (.eventReplayConflict event.eventSeq)
  else do
    rejectIf (db.lastEventSeq + 1 ≥ i64Limit) .eventSeqOverflow
    rejectIf (event.eventSeq ≠ db.lastEventSeq + 1)
      (.eventSequenceGap (db.lastEventSeq + 1) event.eventSeq)
    let backendEvents ← orReject (.database "backend_events_pkey")
      (db.backendEvents.insert ⟨event.eventSeq, event, payloadHash cfg.ext event⟩)
    let db ← applyEvent { db with backendEvents := backendEvents } draw event
    pure ({ db with lastEventSeq := event.eventSeq }, .applied)

/-- **What a successful call did**: nothing, because the very bytes are stored already; or it
    stored and applied the next event. -/
theorem projectOne_spec {cfg : Config} {db db' : Database} {draw : LedgerKind → LedgerDraw}
    {event : BackendEvent} {r : ProjectionResult}
    (h : projectOne cfg db draw event = .ok (db', r)) :
    (r = .replayed ∧ db' = db ∧ ∃ row, db.backendEvents.find event.eventSeq = some row ∧
      row.payloadSha256 = payloadHash cfg.ext event) ∨
    (r = .applied ∧ event.eventSeq = db.lastEventSeq + 1 ∧ ∃ backendEvents mid,
      db.backendEvents.insert ⟨event.eventSeq, event, payloadHash cfg.ext event⟩
        = some backendEvents ∧
      applyEvent { db with backendEvents := backendEvents } draw event = .ok mid ∧
      db' = { mid with lastEventSeq := event.eventSeq }) := by
  replace h := passed (passed h)
  split at h
  · split at h
    · next hstored =>
      obtain ⟨rfl, rfl⟩ := ok_pair_inj h
      obtain ⟨row, hrow, hhash⟩ := Option.map_eq_some_iff.mp hstored
      exact Or.inl ⟨rfl, rfl, row, hrow, hhash⟩
    · cases h
  · obtain ⟨hnext, h⟩ := require_bind_ok (passed h)
    obtain ⟨backendEvents, hinsert, h⟩ := bind_eq_ok.mp h
    obtain ⟨mid, happly, h⟩ := bind_eq_ok.mp h
    rw [orReject_eq_ok] at hinsert
    obtain ⟨rfl, rfl⟩ := ok_pair_inj h
    exact Or.inr ⟨rfl, hnext, backendEvents, mid, hinsert, happly, rfl⟩

end WcashPool.Store
