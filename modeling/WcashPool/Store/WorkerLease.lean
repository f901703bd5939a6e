/-
  WcashPool.Store.WorkerLease — one payout worker at a time
  (`acquire_payout_worker` … `payout_worker_is_live`).

  A deployment has one row that names its payout worker, with an expiry by the
  database clock.  A worker takes the row over once it has run out, keeps it by
  heartbeats, and publishes its readiness in it; another worker that merely
  TRIES to take it withdraws that readiness.

  What a worker may believe is read off the answers that all workers got
  (`Standing`), not off the row.  The row and the answers are tied together by
  one invariant for each worker: it stands in the row with exactly the lease
  that it last obtained, or whatever it obtained has run out.

  Main results: `Held.step` and `payout_worker_exclusive`.
-/
import WcashPool.Store.NonceFence

namespace WcashPool.Store

open Fallible

/-! ## §1. The calls -/

/-- The row of a deployment in `payout_worker_leases`.  Times are microseconds of the database
    clock; the CHECKs on them cannot fail under a clock that does not go back. -/
structure PayoutWorkerLease where
  workerInstance : Uuid
  acquiredAt : ℕ
  heartbeatAt : ℕ
  readyAt : Option ℕ
  expiresAt : ℕ
  leaseTtlSeconds : ℕ
deriving DecidableEq, Repr

def microsPerSecond : ℕ := 1_000_000

def minPayoutWorkerLeaseSecs : ℕ := 1

def maxPayoutWorkerLeaseSecs : ℕ := 60 * 60

def payoutWorkerReadinessFreshnessSecs : ℕ := 60

def payoutWorkerLeaseSeconds (duration : Duration) : Except StoreError ℕ := do
  rejectIf (duration.subsecNanos ≠ 0 ∨ duration.secs < minPayoutWorkerLeaseSecs ∨
    maxPayoutWorkerLeaseSecs < duration.secs) .invalidPayoutWorkerLease
  narrow 31 .invalidPayoutWorkerLease duration.secs

section Calls

variable (row : Option PayoutWorkerLease) (now : ℕ) (worker : Uuid)

/-- Acquire the lease, or take it over after its expiry.  The first statement withdraws a rival's
    readiness, the second inserts or replaces the row. -/
def acquirePayoutWorker (staleAfter : Duration) :
    Except StoreError (Option PayoutWorkerLease × Bool) := do
  rejectIf worker.isNil .invalidPayoutWorkerLease
  let leaseSeconds ← payoutWorkerLeaseSeconds staleAfter
  let fresh : PayoutWorkerLease :=
    ⟨worker, now, now, none, now + leaseSeconds * microsPerSecond, leaseSeconds⟩
  match row with
  | none => pure (some fresh, true)
  | some lease =>
    if lease.workerInstance = worker ∨ lease.expiresAt ≤ now then pure (some fresh, true)
    else pure (some { lease with readyAt := none }, false)

/-- One statement on the row, if it is the worker's and still `good`; the answer is whether there
    was one. -/
def onOwnLease (good : PayoutWorkerLease → Bool)
    (update : PayoutWorkerLease → Option PayoutWorkerLease) :
    Except StoreError (Option PayoutWorkerLease × Bool) := do
  rejectIf worker.isNil .invalidPayoutWorkerLease
  match row with
  | none => pure (none, false)
  | some lease =>
    if lease.workerInstance = worker ∧ good lease then pure (update lease, true)
    else pure (some lease, false)

def heartbeatPayoutWorker : Except StoreError (Option PayoutWorkerLease × Bool) :=
  onOwnLease row worker (now < ·.expiresAt) fun lease =>
    some { lease with
      heartbeatAt := now
      expiresAt := now + lease.leaseTtlSeconds * microsPerSecond }

def markPayoutWorkerReady : Except StoreError (Option PayoutWorkerLease × Bool) :=
  onOwnLease row worker (now < ·.expiresAt) fun lease => some { lease with readyAt := some now }

def markPayoutWorkerNotReady : Except StoreError (Option PayoutWorkerLease × Bool) :=
  onOwnLease row worker (fun _ => true) fun lease => some { lease with readyAt := none }

def releasePayoutWorker : Except StoreError (Option PayoutWorkerLease × Bool) :=
  onOwnLease row worker (fun _ => true) fun _ => none

def payoutWorkerIsLive : Bool :=
  row.any fun lease => lease.readyAt.isSome ∧ now < lease.expiresAt ∧
    now < lease.heartbeatAt + payoutWorkerReadinessFreshnessSecs * microsPerSecond

end Calls

inductive WorkerCall
  | acquire (staleAfter : Duration)
  | heartbeat
  | ready
  | notReady
  | release
deriving DecidableEq, Repr

/-- Who calls what, and the reading of the clock. -/
structure WorkerTurn where
  now : ℕ
  worker : Uuid
  call : WorkerCall

def WorkerTurn.perform (turn : WorkerTurn) (row : Option PayoutWorkerLease) :
    Except StoreError (Option PayoutWorkerLease × Bool) :=
  match turn.call with
  | .acquire staleAfter => acquirePayoutWorker row turn.now turn.worker staleAfter
  | .heartbeat => heartbeatPayoutWorker row turn.now turn.worker
  | .ready => markPayoutWorkerReady row turn.now turn.worker
  | .notReady => markPayoutWorkerNotReady row turn.worker
  | .release => releasePayoutWorker row turn.worker

/-! ## §2. What the answers say about a worker -/

/-- What a worker may believe. -/
structure Standing where
  /-- The expiry and the length of the lease of its last successful acquire or heartbeat, unless it
      released it. -/
  lease : Option (ℕ × ℕ)
  /-- Has it acquired, and has nobody acquired since, nor has it released? -/
  current : Bool
  /-- Has it marked itself ready after its own last acquire and after the last attempt of every
      other worker? -/
  ready : Bool
deriving DecidableEq, Repr

/-- The standing of `worker` after one more call was answered. -/
def Standing.after (worker : Uuid) (s : Standing) (now : ℕ) (caller : Uuid) :
    WorkerCall → Bool → Standing
  | .acquire staleAfter, true =>
    if caller = worker then
      ⟨some (now + staleAfter.secs * microsPerSecond, staleAfter.secs), true, false⟩
    else { s with current := false, ready := false }
  | .acquire _, false => if caller = worker then s else { s with ready := false }
  | .heartbeat, true =>
    if caller = worker then
      { s with lease := s.lease.map fun lease => (now + lease.2 * microsPerSecond, lease.2) }
    else s
  | .ready, true => if caller = worker then { s with ready := true } else s
  | .release, true => if caller = worker then ⟨none, false, false⟩ else s
  | _, _ => s

/-- The row and the standings after a schedule, the latest turn first; a call that is refused for
    its arguments changes neither. -/
def playTurns : List WorkerTurn → Option PayoutWorkerLease × (Uuid → Standing)
  | [] => (none, fun _ => ⟨none, false, false⟩)
  | turn :: earlier =>
    match turn.perform (playTurns earlier).1 with
    | .error _ => playTurns earlier
    | .ok (row, answer) => (row, fun worker =>
        ((playTurns earlier).2 worker).after worker turn.now turn.worker turn.call answer)

/-! ## §3. The invariant -/

/-- The worker stands in the row as it believes, or what it obtained has run out. -/
structure Held (row : Option PayoutWorkerLease) (clock : ℕ) (worker : Uuid) (s : Standing) :
    Prop where
  inRow : ∀ lease, row = some lease → lease.workerInstance = worker →
    s.lease = some (lease.expiresAt, lease.leaseTtlSeconds) ∧ s.current = true ∧
      (lease.readyAt.isSome → s.ready = true)
  out : (∀ lease, row = some lease → lease.workerInstance ≠ worker) →
    s.current = false ∧ ∀ lease ∈ s.lease, lease.1 ≤ clock

section Invariant

variable {row row' : Option PayoutWorkerLease} {clock now : ℕ} {worker caller : Uuid} {s : Standing}
  {answer : Bool}

theorem Held.acquire {staleAfter : Duration} (h : Held row now worker s)
    (hok : acquirePayoutWorker row now caller staleAfter = .ok (row', answer)) :
    Held row' now worker (s.after worker now caller (.acquire staleAfter) answer) := by
  obtain ⟨seconds, hseconds, hok⟩ := bind_eq_ok.mp (passed hok)
  obtain ⟨-, rfl⟩ := narrow_eq_ok.mp (passed hseconds)
  obtain ⟨hin, hout⟩ := h
  cases row with
  | none =>
    cases hok
    constructor <;> grind [Standing.after]
  | some lease =>
    dsimp only at hok
    split at hok
    · cases hok
      constructor <;> grind [Standing.after]
    · cases hok
      constructor <;> grind [Standing.after]

/-- What a call on the worker's own lease did. -/
theorem onOwnLease_eq_ok {good : PayoutWorkerLease → Bool}
    {update : PayoutWorkerLease → Option PayoutWorkerLease}
    (hok : onOwnLease row caller good update = .ok (row', answer)) :
    (answer = false ∧ row' = row) ∨ ∃ lease, row = some lease ∧ lease.workerInstance = caller ∧
      good lease = true ∧ answer = true ∧ row' = update lease := by
  replace hok := passed hok
  cases row with
  | none =>
    cases hok
    exact .inl ⟨rfl, rfl⟩
  | some lease =>
    dsimp only at hok
    split at hok
    · next howned =>
      cases hok
      exact .inr ⟨lease, rfl, howned.1, howned.2, rfl, rfl⟩
    · cases hok
      exact .inl ⟨rfl, rfl⟩

/-- **One call** keeps the invariant of every worker. -/
theorem Held.step {turn : WorkerTurn} (h : Held row turn.now worker s)
    (hok : turn.perform row = .ok (row', answer)) :
    Held row' turn.now worker (s.after worker turn.now turn.worker turn.call answer) := by
  obtain ⟨now, caller, call⟩ := turn
  cases call with
  | acquire staleAfter => exact h.acquire hok
  | heartbeat | ready | notReady | release =>
    obtain ⟨hin, hout⟩ := h
    obtain ⟨rfl, rfl⟩ | ⟨lease, rfl, hcaller, hgood, rfl, rfl⟩ := onOwnLease_eq_ok hok
    · exact ⟨hin, hout⟩
    · constructor <;> grind [Standing.after]

theorem Held.later (h : Held row clock worker s) (hle : clock ≤ now) : Held row now worker s where
  inRow := h.inRow
  out := fun hrow => (h.out hrow).imp id fun hlease lease hmem => (hlease lease hmem).trans hle

/-- **Every schedule** under a clock that does not go back. -/
theorem playTurns_held (turns : List WorkerTurn)
    (hclock : turns.Pairwise fun later earlier => earlier.now ≤ later.now)
    (hnow : ∀ turn ∈ turns, turn.now ≤ now) (worker : Uuid) :
    Held (playTurns turns).1 now worker ((playTurns turns).2 worker) := by
  induction turns generalizing now with
  | nil => exact ⟨fun _ hrow => (nomatch hrow), fun _ => ⟨rfl, fun _ hmem => nomatch hmem⟩⟩
  | cons turn earlier ih =>
    obtain ⟨hfirst, hrest⟩ := List.pairwise_cons.mp hclock
    have hheld := ih hrest hfirst
    refine Held.later ?_ (hnow turn List.mem_cons_self)
    unfold playTurns
    split
    · exact hheld
    · next hok => exact hheld.step hok

/-- **Payout worker exclusivity**, in every state that a schedule reaches and at every later time:
    leases that have not run out are one worker's; a worker gets `true` from a heartbeat or from
    ready only while it has acquired and was not superseded, and its lease has not run out; and the
    deployment is live only if such a worker is ready. -/
theorem payout_worker_exclusive (turns : List WorkerTurn)
    (hclock : turns.Pairwise fun later earlier => earlier.now ≤ later.now) (now : ℕ)
    (hnow : ∀ turn ∈ turns, turn.now ≤ now) :
    let row := (playTurns turns).1
    let standing := (playTurns turns).2
    (∀ worker worker' lease lease', (standing worker).lease = some lease →
      (standing worker').lease = some lease' → now < lease.1 → now < lease'.1 → worker = worker') ∧
    (∀ worker row', heartbeatPayoutWorker row now worker = .ok (row', true) ∨
        markPayoutWorkerReady row now worker = .ok (row', true) →
      (standing worker).current = true ∧
        ∃ lease, (standing worker).lease = some lease ∧ now < lease.1) ∧
    (payoutWorkerIsLive row now = true →
      ∃ worker, (standing worker).current = true ∧ (standing worker).ready = true) := by
  intro row standing
  have hheld : ∀ worker, Held row now worker (standing worker) := playTurns_held turns hclock hnow
  -- whoever has a lease that has not run out stands in the row
  have hrow : ∀ {worker lease}, (standing worker).lease = some lease → now < lease.1 →
      ∃ lease, row = some lease ∧ lease.workerInstance = worker := by
    intro worker lease hlease hlt
    by_contra hnone
    have hle := ((hheld worker).out fun own hown hworker => hnone ⟨own, hown, hworker⟩).2 lease hlease
    omega
  refine ⟨fun worker worker' lease lease' hlease hlease' hlt hlt' => ?_, fun worker row' hok => ?_,
    fun hlive => ?_⟩
  · obtain ⟨own, hown, rfl⟩ := hrow hlease hlt
    obtain ⟨own', hown', rfl⟩ := hrow hlease' hlt'
    rw [Option.some.inj (hown.symm.trans hown')]
  · have hlease : ∃ lease, row = some lease ∧ lease.workerInstance = worker ∧
        now < lease.expiresAt := by
      obtain hok | hok := hok <;>
        obtain ⟨hfalse, -⟩ | ⟨lease, hown, hworker, hgood, -⟩ := onOwnLease_eq_ok hok
      · cases hfalse
      · exact ⟨lease, hown, hworker, of_decide_eq_true hgood⟩
      · cases hfalse
      · exact ⟨lease, hown, hworker, of_decide_eq_true hgood⟩
    obtain ⟨lease, hown, hworker, hlt⟩ := hlease
    obtain ⟨hsame, hcurrent, -⟩ := (hheld worker).inRow lease hown hworker
    exact ⟨hcurrent, _, hsame, hlt⟩
  · obtain ⟨lease, hown, hgood⟩ := (Option.any_eq_true _ _).mp hlive
    obtain ⟨hready, -⟩ := of_decide_eq_true hgood
    obtain ⟨-, hcurrent, hmarked⟩ := (hheld _).inRow lease hown rfl
    exact ⟨_, hcurrent, hmarked hready⟩

/-- A rival fails while the lease runs, and takes over after it. -/
def sampleTurns : List WorkerTurn :=
  [⟨15_000_000, 2, .acquire ⟨10, 0⟩⟩, ⟨4_000_000, 1, .heartbeat⟩, ⟨3_000_000, 2, .acquire ⟨10, 0⟩⟩,
    ⟨1, 1, .ready⟩, ⟨0, 1, .acquire ⟨10, 0⟩⟩]

theorem payout_worker_exclusive_takeover :
    ((playTurns sampleTurns).2 2).current = true ∧ ∀ worker lease,
      ((playTurns sampleTurns).2 worker).lease = some lease → 16_000_000 < lease.1 → worker = 2 := by
  obtain ⟨honly, -, -⟩ := payout_worker_exclusive sampleTurns (by decide) 16_000_000 (by decide)
  refine ⟨by decide, fun worker lease hlease hlt => ?_⟩
  exact honly worker 2 lease (25_000_000, 10) hlease (by decide) hlt (by decide)

end Invariant

end WcashPool.Store
