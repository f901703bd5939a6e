/-
  WcashPool.Core.Jobs — the job registry of the pool edge
  (`GenerationRegistry`, `jobs.rs`).

  The registry mirrors which generations of work the backend still accepts.  It
  is filled by snapshots and moved on by journal events; both carry relative
  lifetimes, which are anchored to a time read before the message arrived.  One
  generation is current, a bounded list of earlier ones is recent, and a second
  bounded list keeps generations whose Zcash winners may still be forwarded.
  Whatever goes wrong suspends every admission until the next good snapshot.

  A call that fails may have changed the registry before it failed, so every
  call returns its result together with the registry it leaves.  Times and
  sequence numbers are 64-bit; sums of them are checked.
-/
import WcashPool.Lib.Table
import WcashPool.Protocol.Work

namespace WcashPool.Core

open Fallible Protocol

/-! ## §1. Generations -/

/-- Opaque non-zero generation identifier assigned by the backend. -/
structure JobId where
  bytes : Hex32
  nonzero : ¬ bytes.isZero
deriving DecidableEq

/-- The errors of the registry. -/
inductive JobRegistryError
  | zeroJobId
  | invalidLimits
  | invalidDescriptor
  | invalidRemainingLifetime (id : JobId)
  | deadlineOverflow
  | clockMovedBackwards
  | snapshotSequenceRollback (previous received : ℕ)
  | snapshotStateConflict (eventSeq : ℕ)
  | duplicateSnapshotJob (id : JobId)
  | conflictingJobId (id : JobId)
  | resurrectedJob (id : JobId)
  | reusedJobId (id : JobId)
  | recentCapacityExceeded (maximum : ℕ)
  | generationCapacityExceeded (maximum : ℕ)
  | notSynchronized
  | eventSequenceGap (expected received : ℕ)
  | eventSequenceExhausted
  | invalidBackendEvent
  | unknownJob (id : JobId)
  | staleJob (id : JobId)
  | admissionCounterExhausted (id : JobId)
deriving DecidableEq

def JobId.new (bytes : Hex32) : Except JobRegistryError JobId :=
  if h : bytes.isZero then .error .zeroJobId else .ok ⟨bytes, h⟩

/-- A validated job is named. -/
theorem jobId_ne_zero {job : JobDescriptor} (h : job.validate = .ok ()) : ¬ job.jobId.isZero := by
  obtain ⟨_, hid, -⟩ := bind_eq_ok.mp h
  exact rejectIf_eq_ok.mp hid

/-- One exact generation of work: a descriptor that passed validation.  Identifier, predecessors
    and network targets are read off it. -/
structure BackendGeneration where
  descriptor : JobDescriptor
  valid : descriptor.validate = .ok ()
deriving DecidableEq

namespace BackendGeneration

/-- The source then imports identifier and targets, which a valid descriptor never lacks. -/
def fromDescriptor (descriptor : JobDescriptor) : Except JobRegistryError BackendGeneration :=
  if h : descriptor.validate = .ok () then .ok ⟨descriptor, h⟩ else .error .invalidDescriptor

def id (generation : BackendGeneration) : JobId :=
  ⟨generation.descriptor.jobId, jobId_ne_zero generation.valid⟩

def zcashPreviousHashLe (generation : BackendGeneration) : Hex32 :=
  generation.descriptor.zcashPreviousHashLe

def maximumAgeMs (generation : BackendGeneration) : ℕ := generation.descriptor.maxAgeMs

end BackendGeneration

/-! ## §2. Entries -/

/-- The states of a generation. -/
inductive AdmissionState
  | accepting
  | suspended
  | invalidated
  | closed
deriving DecidableEq, Repr

/-- A live generation counts the guards that hold it; a tombstone only remembers it. -/
inductive GenerationStorage
  | live (generation : BackendGeneration) (inFlight : ℕ)
  | tombstone (generation : BackendGeneration)
deriving DecidableEq

namespace GenerationStorage

def generation : GenerationStorage → BackendGeneration
  | live generation _ | tombstone generation => generation

def isLive : GenerationStorage → Bool
  | live _ _ => true
  | tombstone _ => false

def inFlight : GenerationStorage → ℕ
  | live _ count => count
  | tombstone _ => 0

end GenerationStorage

/-- One generation of work, and until when it is accepted. -/
structure RegistryEntry where
  storage : GenerationStorage
  acceptUntilMs : ℕ
  winnerRecoveryUntilMs : ℕ
  state : AdmissionState
deriving DecidableEq

namespace RegistryEntry

variable (entry : RegistryEntry)

def generation : BackendGeneration := entry.storage.generation

def id : JobId := entry.generation.id

/-- A live entry that accepts, before its deadline. -/
def accepting (nowMs : ℕ) : Bool :=
  entry.state = .accepting && entry.storage.isLive && nowMs < entry.acceptUntilMs

def retainedAtWatermark (nowMs : ℕ) : Bool :=
  (entry.state = .accepting || entry.state = .suspended) && entry.storage.isLive &&
    nowMs < entry.acceptUntilMs

/-- The entry with another state. -/
def enter (state : AdmissionState) : RegistryEntry :=
  { entry with state := state }

def suspend : RegistryEntry :=
  if entry.state = .accepting then entry.enter .suspended else entry

def expire (nowMs : ℕ) (entry : RegistryEntry) : RegistryEntry :=
  if (entry.state = .accepting ∨ entry.state = .suspended) ∧ nowMs ≥ entry.acceptUntilMs then
    entry.enter .invalidated
  else entry

/-- What a snapshot makes of an entry that it leaves out. -/
def leaveOut : RegistryEntry :=
  if entry.state = .closed then entry else entry.enter .invalidated

/-- What a superseding event makes of an accepting entry. -/
def supersede (proposedMs anchorMs : ℕ) (entry : RegistryEntry) : RegistryEntry :=
  { entry with
    acceptUntilMs := min entry.acceptUntilMs proposedMs
    state := if min entry.acceptUntilMs proposedMs > anchorMs then .accepting else .invalidated }

/-- One more guard, or one less. -/
def addGuard : RegistryEntry :=
  match entry.storage with
  | .live generation count => { entry with storage := .live generation (count + 1) }
  | .tombstone _ => entry

def release : RegistryEntry :=
  match entry.storage with
  | .live generation count => { entry with storage := .live generation (count - 1) }
  | .tombstone _ => entry

def compact : RegistryEntry :=
  { entry with storage := .tombstone entry.generation }

@[simp] theorem id_enter (state : AdmissionState) :
    (entry.enter state).id = entry.id := rfl

@[simp] theorem id_suspend : entry.suspend.id = entry.id := by
  unfold suspend
  split <;> rfl

@[simp] theorem id_expire (nowMs : ℕ) (entry : RegistryEntry) :
    (entry.expire nowMs).id = entry.id := by
  unfold expire
  split <;> rfl

@[simp] theorem id_leaveOut : entry.leaveOut.id = entry.id := by
  unfold leaveOut
  split <;> rfl

@[simp] theorem id_supersede (proposedMs anchorMs : ℕ) (entry : RegistryEntry) :
    (entry.supersede proposedMs anchorMs).id = entry.id := rfl

@[simp] theorem id_addGuard : entry.addGuard.id = entry.id := by
  unfold addGuard id generation
  split
  · next h => rw [h]; rfl
  · rfl

@[simp] theorem id_release : entry.release.id = entry.id := by
  unfold release id generation
  split
  · next h => rw [h]; rfl
  · rfl

@[simp] theorem id_compact : entry.compact.id = entry.id := rfl

end RegistryEntry

/-! ## §3. The registry -/

/-- Resource limits: some recent work, and room for more than that. -/
structure GenerationRegistryConfig where
  maximumRecent : ℕ
  maximumGenerations : ℕ
  recent : maximumRecent ≠ 0
  generations : maximumRecent < maximumGenerations

def GenerationRegistryConfig.new (maximumRecent maximumGenerations : ℕ) :
    Except JobRegistryError GenerationRegistryConfig :=
  if h : maximumRecent = 0 ∨ maximumGenerations ≤ maximumRecent then .error .invalidLimits
  else .ok ⟨maximumRecent, maximumGenerations, fun hzero => h (.inl hzero),
    not_le.mp fun hle => h (.inr hle)⟩

abbrev Entries := Table RegistryEntry.id

/-- Does the entry of `id` still accept work? -/
def Entries.acceptingAt (entries : Entries) (nowMs : ℕ) (id : JobId) : Bool :=
  (entries.find id).any (·.accepting nowMs)

def Entries.retainedAt (entries : Entries) (nowMs : ℕ) (id : JobId) : Bool :=
  (entries.find id).any (·.retainedAtWatermark nowMs)

/-- **The registry**: entries, roles and clock. -/
structure GenerationRegistry where
  config : GenerationRegistryConfig
  entries : Entries
  current : Option JobId
  recent : List JobId
  winnerRecovery : List JobId
  watermarkCurrent : Option JobId
  watermarkRecent : List JobId
  lastEventSeq : Option ℕ
  lastDeliveryAnchorMs : Option ℕ
  lastMonotonicMs : Option ℕ
  synchronized : Bool

/-- What a call answers, and the registry that it leaves. -/
abbrev Outcome (α : Type) := Except JobRegistryError α × GenerationRegistry

/-- What a share is admitted as. -/
inductive AdmissionRole
  | ordinary
  | historicalZcashRecovery
  | pausedZcashCandidate
deriving DecidableEq, Repr

/-- Proof that one submission passed its bounded job policy. -/
structure GenerationAdmission where
  generation : BackendGeneration
  role : AdmissionRole
deriving DecidableEq

structure AdmissibleJobIds where
  current : Option JobId
  recent : List JobId
deriving DecidableEq

def maxZcashWinnerRecoveryJobs : ℕ := 32

def zcashWinnerRecoveryTailMs : ℕ := 60_000

/-- A deadline of 64 bits. -/
def deadline (anchorMs durationMs : ℕ) : Except JobRegistryError ℕ :=
  checkedAdd 64 .deadlineOverflow anchorMs durationMs

def winnerRecoveryDeadline (originalDeadlineMs : ℕ) : Except JobRegistryError ℕ :=
  checkedAdd 64 .deadlineOverflow originalDeadlineMs zcashWinnerRecoveryTailMs

namespace GenerationRegistry

variable (ext : External) (r : GenerationRegistry)

/-- An empty registry which cannot admit work before a snapshot. -/
def new (config : GenerationRegistryConfig) : GenerationRegistry where
  config := config
  entries := Table.empty
  current := none
  recent := []
  winnerRecovery := []
  watermarkCurrent := none
  watermarkRecent := []
  lastEventSeq := none
  lastDeliveryAnchorMs := none
  lastMonotonicMs := none
  synchronized := false

/-- Suspend every live admission until a fresh authoritative snapshot succeeds. -/
def suspend : GenerationRegistry :=
  { r with
    entries := r.entries.mapRows (·.suspend) RegistryEntry.id_suspend
    current := none
    recent := []
    winnerRecovery := []
    synchronized := false }

/-- Expire what is past its deadline. -/
def expireAt (nowMs : ℕ) : GenerationRegistry :=
  let entries : Entries := r.entries.mapRows (·.expire nowMs) (RegistryEntry.id_expire nowMs)
  { r with
    entries := entries
    current := r.current.filter (entries.acceptingAt nowMs)
    recent := r.recent.filter (entries.acceptingAt nowMs)
    watermarkCurrent := r.watermarkCurrent.filter (entries.retainedAt nowMs)
    watermarkRecent := r.watermarkRecent.filter (entries.retainedAt nowMs) }

theorem find_suspend (id : JobId) :
    r.suspend.entries.find id = (r.entries.find id).map (·.suspend) :=
  Table.find_mapRows _ _ RegistryEntry.id_suspend id

theorem find_expireAt (nowMs : ℕ) (id : JobId) :
    (r.expireAt nowMs).entries.find id = (r.entries.find id).map (·.expire nowMs) :=
  Table.find_mapRows _ _ (RegistryEntry.id_expire nowMs) id

theorem expireAt_back {r : GenerationRegistry} {nowMs : ℕ} {id : JobId} {entry' : RegistryEntry}
    (h : (r.expireAt nowMs).entries.find id = some entry') :
    ∃ entry, r.entries.find id = some entry ∧ entry.expire nowMs = entry' :=
  Option.map_eq_some_iff.mp (find_expireAt r nowMs id ▸ h)

/-- The clock may not run backwards. -/
def checkClock (nowMs : ℕ) : Except JobRegistryError Unit :=
  rejectIf (∃ previous ∈ r.lastMonotonicMs, nowMs < previous) .clockMovedBackwards

def checkDeliveryClock (anchorMs : ℕ) : Except JobRegistryError Unit :=
  rejectIf (∃ previous ∈ r.lastDeliveryAnchorMs, anchorMs < previous) .clockMovedBackwards

def advanceClock (nowMs : ℕ) : Outcome Unit :=
  match r.checkClock nowMs with
  | .error e => (.error e, r.suspend)
  | .ok () => (.ok (), { r.expireAt nowMs with lastMonotonicMs := some nowMs })

/-- The latest time that any caller has seen. -/
def latest (nowMs : ℕ) : ℕ :=
  (r.lastMonotonicMs.map (max · nowMs)).getD nowMs

/-! ## §4. Winner recovery -/

/-- One more job to recover winners of; the oldest makes room. -/
def rememberWinnerRecovery (id : JobId) : GenerationRegistry :=
  if id ∈ r.winnerRecovery then r
  else
    let kept :=
      if r.winnerRecovery.length = maxZcashWinnerRecoveryJobs then r.winnerRecovery.tail
      else r.winnerRecovery
    { r with winnerRecovery := kept ++ [id] }

/-- The winners of everything current or recent may be recovered. -/
def rememberRoles : GenerationRegistry :=
  (r.current.toList ++ r.recent).foldl rememberWinnerRecovery r

/-- The current entry, while it accepts. -/
def currentEntry (nowMs : ℕ) : Option RegistryEntry :=
  (r.current.bind r.entries.find).filter (·.accepting nowMs)

/-- Work on another Zcash parent than the current one is out. -/
def sameParent (current : Option RegistryEntry) (entry : RegistryEntry) : Bool :=
  current.all fun c => entry.generation.zcashPreviousHashLe = c.generation.zcashPreviousHashLe

/-- May a winner of this entry be forwarded at `nowMs`? -/
def recoverable (current : Option RegistryEntry) (nowMs : ℕ) (entry : RegistryEntry) : Bool :=
  entry.state ≠ .closed && nowMs < entry.winnerRecoveryUntilMs && sameParent current entry

def pruneWinnerRecovery (nowMs : ℕ) : GenerationRegistry :=
  { r with
    winnerRecovery := r.winnerRecovery.filter fun id =>
      (r.entries.find id).any (recoverable (r.currentEntry nowMs) nowMs) }

/-! ## §5. Snapshots -/

structure PreparedSnapshot where
  entries : Entries
  current : Option JobId
  recent : List JobId

/-- The entry that a snapshot gives to one of its jobs. -/
def prepareAcceptable (anchorMs : ℕ) (acceptable : AcceptableJob) :
    Except JobRegistryError RegistryEntry := do
  let generation ← BackendGeneration.fromDescriptor acceptable.job
  rejectIf (acceptable.acceptForMs = 0 ∨ acceptable.acceptForMs > generation.maximumAgeMs)
    (.invalidRemainingLifetime generation.id)
  let proposed ← deadline anchorMs acceptable.acceptForMs
  match r.entries.find generation.id with
  | some old => do
    rejectIf (old.generation ≠ generation) (.conflictingJobId generation.id)
    rejectIf (old.state = .invalidated ∨ old.state = .closed ∨ old.storage.isLive = false)
      (.resurrectedJob generation.id)
    rejectIf (min old.acceptUntilMs proposed ≤ anchorMs) (.resurrectedJob generation.id)
    pure ⟨old.storage, min old.acceptUntilMs proposed, old.winnerRecoveryUntilMs, .accepting⟩
  | none => do
    let winnerRecoveryUntil ← winnerRecoveryDeadline proposed
    pure ⟨.live generation 0, proposed, winnerRecoveryUntil, .accepting⟩

/-- One turn of the loop over the recent jobs; `before` are the entries prepared earlier. -/
def prepareRecent (anchorMs : ℕ) (before : List RegistryEntry) (prepared : List RegistryEntry)
    (job : AcceptableJob) : Except JobRegistryError (List RegistryEntry) := do
  let entry ← r.prepareAcceptable anchorMs job
  rejectIf (entry.id ∈ (before ++ prepared).map (·.id)) (.duplicateSnapshotJob entry.id)
  pure (prepared ++ [entry])

/-- The entry of the current job, where there is one. -/
def prepareCurrent (anchorMs : ℕ) :
    Option AcceptableJob → Except JobRegistryError (Option RegistryEntry)
  | none => .ok none
  | some job => (r.prepareAcceptable anchorMs job).map some

/-- Every known entry, with the prepared ones written over it and the omitted ones retired. -/
def installed (prepared : List RegistryEntry) : Entries :=
  (prepared.foldl Table.put r.entries).mapRows
    (fun entry => if entry.id ∈ prepared.map (·.id) then entry else entry.leaveOut)
    fun entry => by split <;> simp

/-- Check a snapshot before anything changes. -/
def prepareSnapshot (eventSeq : ℕ) (current : Option AcceptableJob) (recent : List AcceptableJob)
    (anchorMs : ℕ) : Except JobRegistryError PreparedSnapshot := do
  r.checkDeliveryClock anchorMs
  rejectIf (∃ previous ∈ r.lastEventSeq, eventSeq < previous)
    (.snapshotSequenceRollback (r.lastEventSeq.getD 0) eventSeq)
  rejectIf (recent.length > r.config.maximumRecent) (.recentCapacityExceeded r.config.maximumRecent)
  let currentEntry ← r.prepareCurrent anchorMs current
  let recentEntries ← recent.foldlM (r.prepareRecent anchorMs currentEntry.toList) []
  let currentId := currentEntry.map (·.id)
  let recentIds := recentEntries.map (·.id)
  rejectIf (r.lastEventSeq = some eventSeq ∧
      (currentId ≠ r.watermarkCurrent ∨ recentIds ≠ r.watermarkRecent))
    (.snapshotStateConflict eventSeq)
  let entries := r.installed (currentEntry.toList ++ recentEntries)
  rejectIf (entries.rows.length > r.config.maximumGenerations)
    (.generationCapacityExceeded r.config.maximumGenerations)
  pure ⟨entries, currentId, recentIds⟩

/-- The registry with a prepared snapshot in place, expired at the latest time seen. -/
def install (prepared : PreparedSnapshot) (eventSeq requestStartedMs : ℕ) : GenerationRegistry :=
  expireAt
    { r with
      entries := prepared.entries
      current := prepared.current
      recent := prepared.recent
      watermarkCurrent := prepared.current
      watermarkRecent := prepared.recent
      lastEventSeq := some eventSeq
      lastDeliveryAnchorMs := some requestStartedMs
      lastMonotonicMs := some (r.latest requestStartedMs)
      synchronized := true }
    (r.latest requestStartedMs)

/-- Replace live work from an authoritative snapshot; `requestStartedMs` was read before the
    request was sent. -/
def applySnapshot (eventSeq : ℕ) (current : Option AcceptableJob) (recent : List AcceptableJob)
    (requestStartedMs : ℕ) : Outcome Unit :=
  match r.prepareSnapshot eventSeq current recent requestStartedMs with
  | .error e => (.error e, r.suspend)
  | .ok prepared =>
    (.ok (), (r.install prepared eventSeq requestStartedMs).rememberRoles.pruneWinnerRecovery
      (r.latest requestStartedMs))

/-! ## §6. Events -/

/-- The current job, while it accepts. -/
def priorCurrent (anchorMs : ℕ) : Option JobId :=
  r.current.filter (r.entries.acceptingAt anchorMs)

/-- The checks on a new job. -/
def checkActivation (descriptor : JobDescriptor) (anchorMs : ℕ) :
    Except JobRegistryError (BackendGeneration × ℕ) := do
  let generation ← BackendGeneration.fromDescriptor descriptor
  rejectIf (r.entries.find generation.id).isSome (.reusedJobId generation.id)
  rejectIf ((r.priorCurrent anchorMs).isSome ∧ r.recent.length = r.config.maximumRecent)
    (.recentCapacityExceeded r.config.maximumRecent)
  rejectIf (r.entries.rows.length = r.config.maximumGenerations)
    (.generationCapacityExceeded r.config.maximumGenerations)
  let acceptUntil ← deadline anchorMs generation.maximumAgeMs
  pure (generation, acceptUntil)

/-- The prior current job becomes the most recent one. -/
def extendRecent (anchorMs : ℕ) : GenerationRegistry :=
  { r with recent := (r.priorCurrent anchorMs).toList ++ r.recent }

/-- The new entry becomes current, and its winners may be recovered. -/
def activateEntry (entry : RegistryEntry) (anchorMs : ℕ) : GenerationRegistry :=
  (rememberWinnerRecovery
    { r with entries := r.entries.put entry, current := some entry.id } entry.id).pruneWinnerRecovery
    anchorMs

/-- A new generation becomes current.  The recent jobs are extended before the last deadline is
    computed. -/
def activate (descriptor : JobDescriptor) (anchorMs : ℕ) : Outcome Unit :=
  match r.checkActivation descriptor anchorMs with
  | .error e => (.error e, r)
  | .ok (generation, acceptUntil) =>
    match winnerRecoveryDeadline acceptUntil with
    | .error e => (.error e, r.extendRecent anchorMs)
    | .ok winnerRecoveryUntil =>
      (.ok (), (r.extendRecent anchorMs).activateEntry
        ⟨.live generation 0, acceptUntil, winnerRecoveryUntil, .accepting⟩ anchorMs)

/-- The job leaves the current role, and the recent ones too unless it still accepts. -/
def withdraw (id : JobId) (anchorMs : ℕ) : GenerationRegistry :=
  { r with
    current := r.current.filter (· ≠ id)
    recent := if r.entries.acceptingAt anchorMs id then r.recent else r.recent.filter (· ≠ id) }

/-- Superseded work with some grace left. -/
def supersedeJob (id : JobId) (entry : RegistryEntry) (acceptForMs anchorMs : ℕ) :
    Except JobRegistryError GenerationRegistry := do
  let proposed ← deadline anchorMs acceptForMs
  rejectIf (id ∉ r.recent ∧ r.recent.length = r.config.maximumRecent)
    (.recentCapacityExceeded r.config.maximumRecent)
  let entries : Entries :=
    r.entries.modify id (·.supersede proposed anchorMs) (RegistryEntry.id_supersede _ _)
  let recent :=
    if (entry.supersede proposed anchorMs).state = .accepting ∧ id ∉ r.recent then id :: r.recent
    else r.recent
  pure (withdraw { r with entries := entries, recent := recent } id anchorMs)

/-- Every failure comes before the first change. -/
def invalidateJob (id : JobId) (reason : JobInvalidationReason) (acceptForMs anchorMs : ℕ) :
    Except JobRegistryError GenerationRegistry :=
  match r.entries.find id with
  | none => .ok r
  | some entry =>
    if entry.state ≠ .accepting then
      -- a later event may describe terminal work further; it cannot reopen it
      .ok { r with current := r.current.filter (· ≠ id), recent := r.recent.filter (· ≠ id) }
    else if reason = .superseded ∧ acceptForMs ≠ 0 then r.supersedeJob id entry acceptForMs anchorMs
    else
      .ok (withdraw
        { r with
          entries := r.entries.modify id (·.enter .invalidated) (RegistryEntry.id_enter · _) }
        id anchorMs)

def closeGeneration (id : JobId) : GenerationRegistry :=
  if (r.entries.find id).isSome then
    { r with
      entries := r.entries.modify id (·.enter .closed) (RegistryEntry.id_enter · _)
      current := r.current.filter (· ≠ id)
      recent := r.recent.filter (· ≠ id)
      winnerRecovery := r.winnerRecovery.filter (· ≠ id) }
  else r

/-- The Zcash winners of work on an old Zcash tip are lost. -/
def forgetOnZcashTip (id : JobId) (reason : JobInvalidationReason) : GenerationRegistry :=
  if reason = .zcashTipChanged then
    { r with winnerRecovery := r.winnerRecovery.filter (· ≠ id) }
  else r

/-- What an event changes, apart from clocks and watermarks. -/
def applyBody (event : BackendEvent) (anchorMs : ℕ) : Outcome Unit :=
  match event with
  | .jobActivated _ job => r.activate job anchorMs
  | .jobInvalidated _ jobId reason acceptForMs =>
    match JobId.new jobId with
    | .error e => (.error e, r)
    | .ok id =>
      match (r.forgetOnZcashTip id reason).invalidateJob id reason acceptForMs anchorMs with
      | .error e => (.error e, r.forgetOnZcashTip id reason)
      | .ok invalidated => (.ok (), invalidated)
  | .generationClosed _ jobId =>
    match JobId.new jobId with
    | .error e => (.error e, r)
    | .ok id => (.ok (), r.closeGeneration id)
  | .shareCommitted _ _ _ _ | .winnerObserved _ _ _ _ _ _ | .winnerOrphaned _ _ _ _ _
  | .winnerQuarantined _ _ _ _ _ | .winnerRequeued _ _ _ _ _ | .winnerSideChain _ _ _ _ _
  | .winnerMatured _ _ _ _ _ _ => (.ok (), r)

/-- The checks before anything changes; they give the time at which policy is expired. -/
def checkEvent (event : BackendEvent) (anchorMs policyNowMs : ℕ) : Except JobRegistryError ℕ := do
  rejectIf (r.synchronized = false) .notSynchronized
  r.checkDeliveryClock anchorMs
  r.checkClock policyNowMs
  rejectIf (policyNowMs < anchorMs) .clockMovedBackwards
  (event.validate ext).mapError fun _ => .invalidBackendEvent
  let previous ← orReject .notSynchronized r.lastEventSeq
  let expected ← checkedAdd 64 .eventSequenceExhausted previous 1
  rejectIf (event.eventSeq ≠ expected) (.eventSequenceGap expected event.eventSeq)
  pure (r.latest policyNowMs)

/-- What a successful event writes down last. -/
def advanceWatermark (eventSeq anchorMs nowMs : ℕ) : GenerationRegistry :=
  { r with
    lastEventSeq := some eventSeq
    watermarkCurrent := r.current
    watermarkRecent := r.recent
    lastDeliveryAnchorMs := some anchorMs
    lastMonotonicMs := some nowMs }

/-- Check an event, apply it and move the watermark. -/
def tryApplyEvent (event : BackendEvent) (anchorMs policyNowMs : ℕ) : Outcome Unit :=
  match r.checkEvent ext event anchorMs policyNowMs with
  | .error e => (.error e, r)
  | .ok nowMs =>
    match (r.expireAt nowMs).applyBody event anchorMs with
    | (.error e, changed) => (.error e, changed)
    | (.ok (), changed) =>
      (.ok (), (changed.expireAt nowMs).advanceWatermark event.eventSeq anchorMs nowMs)

/-- One event, with policy expired at a later observation time. -/
def applyEventAt (event : BackendEvent) (deliveryAnchorMs policyNowMs : ℕ) : Outcome Unit :=
  match r.tryApplyEvent ext event deliveryAnchorMs policyNowMs with
  | (.error e, changed) => (.error e, changed.suspend)
  | (.ok (), changed) => (.ok (), changed)

/-- Exactly one next authoritative journal event. -/
def applyEvent (event : BackendEvent) (deliveryAnchorMs : ℕ) : Outcome Unit :=
  r.applyEventAt ext event deliveryAnchorMs (r.latest deliveryAnchorMs)

/-! ## §7. Queries and admissions -/

/-- A call that reads the clock first and needs a synchronised registry. -/
def whenSynchronized {α : Type} (r : GenerationRegistry) (nowMs : ℕ)
    (call : GenerationRegistry → Outcome α) : Outcome α :=
  match r.advanceClock nowMs with
  | (.error e, advanced) => (.error e, advanced)
  | (.ok (), advanced) =>
    if advanced.synchronized = false then (.error .notSynchronized, advanced) else call advanced

/-- The current job and the recent ones. -/
def admissibleJobIds (nowMs : ℕ) : Outcome AdmissibleJobIds :=
  r.whenSynchronized nowMs fun r => (.ok ⟨r.current, r.recent⟩, r)

/-- The current generation only while it remains locally admissible. -/
def currentGeneration (nowMs : ℕ) : Outcome (Option BackendGeneration) :=
  match r.advanceClock nowMs with
  | (.error e, advanced) => (.error e, advanced)
  | (.ok (), advanced) =>
    (.ok (if advanced.synchronized then (advanced.currentEntry nowMs).map (·.generation) else none),
      advanced)

/-- The checks of an ordinary admission. -/
def checkAdmission (id : JobId) (nowMs : ℕ) : Except JobRegistryError BackendGeneration := do
  let entry ← orReject (.unknownJob id) (r.entries.find id)
  rejectIf (entry.accepting nowMs = false) (.staleJob id)
  -- `checked_add` on the guard counter, a machine word
  rejectIf (entry.storage.inFlight + 1 ≥ 2 ^ 64) (.admissionCounterExhausted id)
  pure entry.generation

/-- Begin one admission and retain its exact generation until the guard drops. -/
def beginAdmission (id : JobId) (nowMs : ℕ) : Outcome GenerationAdmission :=
  r.whenSynchronized nowMs fun r =>
    match r.checkAdmission id nowMs with
    | .error e => (.error e, r)
    | .ok generation =>
      (.ok ⟨generation, .ordinary⟩,
        { r with entries := r.entries.modify id (·.addGuard) RegistryEntry.id_addGuard })

/-- The guard of an ordinary admission drops. -/
def dropAdmission (id : JobId) : GenerationRegistry :=
  { r with entries := r.entries.modify id (·.release) RegistryEntry.id_release }

/-- Bounded retained IDs, without reopening ordinary admission. -/
def winnerRecoveryJobIds (nowMs : ℕ) : Outcome (List JobId) :=
  r.whenSynchronized nowMs fun r =>
    (.ok (r.pruneWinnerRecovery nowMs).winnerRecovery, r.pruneWinnerRecovery nowMs)

/-- The checks of a recovery admission, on the pruned list. -/
def checkCandidate (id : JobId) (nonce : Hex32) (solution : Hex1344) (nowMs : ℕ)
    (allowNoCurrent : Bool) : Except JobRegistryError BackendGeneration := do
  rejectIf (allowNoCurrent = false ∧ r.currentEntry nowMs = none) (.staleJob id)
  let entry ← orReject (.staleJob id) ((r.entries.find id).filter fun entry =>
    id ∈ r.winnerRecovery && recoverable (r.currentEntry nowMs) nowMs entry)
  let hash := canonicalParentHeaderHashLe ext entry.generation.descriptor.headerInput nonce solution
  rejectIf (exceedsTarget hash entry.generation.descriptor.zcashTargetLe) (.staleJob id)
  pure entry.generation

section Candidates

variable (id : JobId) (nonce : Hex32) (solution : Hex1344) (nowMs : ℕ)

/-- Retain a generation only for a potential Zcash network winner; the guard owns a resource of
    its own. -/
def beginZcashCandidate (role : AdmissionRole) (allowNoCurrent : Bool) :
    Outcome GenerationAdmission :=
  r.whenSynchronized nowMs fun r =>
    match (r.pruneWinnerRecovery nowMs).checkCandidate ext id nonce solution nowMs allowNoCurrent with
    | .error e => (.error e, r.pruneWinnerRecovery nowMs)
    | .ok generation => (.ok ⟨generation, role⟩, r.pruneWinnerRecovery nowMs)

def beginZcashWinnerRecovery : Outcome GenerationAdmission :=
  r.beginZcashCandidate ext id nonce solution nowMs .historicalZcashRecovery false

def beginHistoricalZcashCandidateDuringPause : Outcome GenerationAdmission :=
  r.beginZcashCandidate ext id nonce solution nowMs .historicalZcashRecovery true

def beginPausedZcashCandidate : Outcome GenerationAdmission :=
  r.beginZcashCandidate ext id nonce solution nowMs .pausedZcashCandidate true

end Candidates

/-- May the resource of this entry be released? -/
def retirable (entry : RegistryEntry) : Bool :=
  (r.current ≠ some entry.id && !r.recent.contains entry.id) &&
    (entry.state = .invalidated || entry.state = .closed) && entry.storage.inFlight = 0 &&
    entry.storage.isLive

def retireEntry (entry : RegistryEntry) : RegistryEntry :=
  if r.retirable entry then entry.compact else entry

theorem id_retireEntry (entry : RegistryEntry) : (r.retireEntry entry).id = entry.id := by
  unfold retireEntry
  split <;> simp

/-- Release heavy non-admitting resources after their final guard drops. -/
def collectRetired (nowMs : ℕ) : Outcome (List JobId) :=
  match r.advanceClock nowMs with
  | (.error e, advanced) => (.error e, advanced)
  | (.ok (), advanced) =>
    (.ok (((advanced.entries.rows.filter advanced.retirable).map (·.id)).insertionSort
        fun a b => a.bytes.asBytes ≤ b.bytes.asBytes),
      { advanced with
        entries := advanced.entries.mapRows advanced.retireEntry advanced.id_retireEntry })

end GenerationRegistry

end WcashPool.Core
