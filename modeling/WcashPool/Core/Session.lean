/-
  WcashPool.Core.Session — one miner session (`session.rs`): authorization, the
  jobs announced to it, and the preparation of its shares.

  A session never changes its identity.  A job announced with one target keeps
  it; a job that is retired from ordinary use stays reachable for late Zcash
  winners only, in a list of bounded length.
-/
import WcashPool.Core.Submission
import WcashPool.Protocol.Zip301

namespace WcashPool.Core

open Fallible Protocol

/-! ## §1. Assignments -/

theorem targets_ne_zero {job : JobDescriptor} (h : job.validate = .ok ()) :
    job.wcashTargetLe ≠ 0 ∧ job.zcashTargetLe ≠ 0 := by
  -- both targets are checked after the eight other identifiers
  replace h := passed (passed (passed (passed (passed (passed (passed (passed h)))))))
  obtain ⟨_, hwcash, h⟩ := bind_eq_ok.mp h
  obtain ⟨_, hzcash, -⟩ := bind_eq_ok.mp h
  exact ⟨rejectIf_eq_ok.mp hwcash, rejectIf_eq_ok.mp hzcash⟩

namespace BackendGeneration

def wcashNetworkTarget (generation : BackendGeneration) : ShareTarget :=
  ⟨generation.descriptor.wcashTargetLe, (targets_ne_zero generation.valid).1⟩

def zcashNetworkTarget (generation : BackendGeneration) : ShareTarget :=
  ⟨generation.descriptor.zcashTargetLe, (targets_ne_zero generation.valid).2⟩

/-- The raw header time sent to miners. -/
def headerTime (generation : BackendGeneration) : Hex4 :=
  generation.descriptor.headerInput.slice 100 4

/-- The predecessors on both chains. -/
def tips (generation : BackendGeneration) : Hex32 × Hex32 :=
  (generation.descriptor.wcashPreviousHashLe, generation.descriptor.zcashPreviousHashLe)

end BackendGeneration

/-- Per-session target of one generation. -/
structure JobAssignment where
  generationId : JobId
  target : TargetBinding
deriving DecidableEq

def JobAssignment.new (generation : BackendGeneration) (target : TargetBinding) :
    Except JobAssignmentError JobAssignment :=
  if target.bounds.wcashNetwork ≠ generation.wcashNetworkTarget ∨
      target.bounds.zcashNetwork ≠ generation.zcashNetworkTarget then
    .error (.networkTargetMismatch generation.id)
  else .ok ⟨generation.id, target⟩

/-! ## §2. Identities -/

def validLogin (login : Text) : Bool :=
  1 ≤ login.length && login.length ≤ 128 && login.all labelByte

/-- **An identity that cannot be switched within a session.**  Shares are counted for the
    attribution login; the canonical login is what the miner repeats. -/
structure AuthenticatedWorker where
  accountId : Uuid
  workerId : Uuid
  canonicalLogin : Text
  attributionLogin : Text
  account : ¬ accountId.isNil
  worker : ¬ workerId.isNil
  canonical : validLogin canonicalLogin = true
  attribution : validLogin attributionLogin = true
deriving DecidableEq

namespace AuthenticatedWorker

def new (accountId workerId : Uuid) (canonicalLogin : Text) :
    Except SessionError AuthenticatedWorker :=
  if hid : accountId.isNil ∨ workerId.isNil then .error .nilIdentity
  else if hlogin : validLogin canonicalLogin = true then
    .ok ⟨accountId, workerId, canonicalLogin, canonicalLogin, fun h => hid (.inl h),
      fun h => hid (.inr h), hlogin, hlogin⟩
  else .error .invalidCanonicalLogin

def backendIdentity (worker : AuthenticatedWorker) : WorkerIdentity where
  accountId := worker.accountId
  workerId := worker.workerId
  label := worker.attributionLogin

end AuthenticatedWorker

/-! ## §3. The session -/

/-- One miner's session. -/
structure MiningSession where
  id : Uuid
  state : SessionState
  noncePrefix : Option NoncePrefix
  worker : Option AuthenticatedWorker
  announcedJobs : List JobAssignment
  winnerRecoveryJobs : List JobAssignment
  maximumAnnouncedJobs : ℕ
deriving DecidableEq

namespace MiningSession

variable (ext : External) (session : MiningSession)

def new (id : Uuid) (maximumAnnouncedJobs : ℕ) : Except SessionError MiningSession := do
  rejectIf id.isNil .nilSessionId
  rejectIf (maximumAnnouncedJobs = 0) .invalidAnnouncedJobLimit
  pure ⟨id, .connected, none, none, [], [], maximumAnnouncedJobs⟩

def require (required : SessionState) : Except SessionError Unit :=
  rejectIf (session.state ≠ required) (.unexpectedState required session.state)

/-- Close the session and clear all authorization and job reachability. -/
def close : MiningSession :=
  { session with
    state := .closed
    worker := none
    noncePrefix := none
    announcedJobs := []
    winnerRecoveryJobs := [] }

/-- Allocate the session's nonce prefix. -/
def subscribe (allocator : NoncePrefixAllocator) :
    Except SessionError (NoncePrefix × MiningSession × NoncePrefixAllocator) := do
  session.require .connected
  let (allocator, nonce1) ← allocator.allocate.mapError .nonce
  pure (nonce1, { session with noncePrefix := some nonce1, state := .subscribed }, allocator)

/-- Bind an authorization result; an exact retry is idempotent. -/
def completeAuthorization (worker : AuthenticatedWorker) : Except SessionError MiningSession :=
  match session.state with
  | .subscribed => .ok { session with worker := some worker, state := .authorized }
  | .authorized => if session.worker = some worker then .ok session else .error .identitySwitch
  | actual => .error (.unexpectedState .subscribed actual)

def rejectAuthorization : Except SessionError MiningSession := do
  session.require .subscribed
  pure session.close

/-- The assignments in the order in which they are searched. -/
def assignments : List JobAssignment :=
  session.announcedJobs ++ session.winnerRecoveryJobs

def assignment (id : JobId) : Option JobAssignment :=
  session.assignments.find? (·.generationId = id)

def announcedTargetBinding (id : JobId) : Option TargetBinding :=
  (session.assignment id).map (·.target)

/-- Record an assignment before its notification is written; nothing valid is evicted. -/
def announceJob (assignment : JobAssignment) : Except SessionError MiningSession := do
  session.require .authorized
  match session.assignment assignment.generationId with
  | some existing =>
    if existing = assignment then pure session
    else .error (.announcedJobConflict assignment.generationId)
  | none => do
    rejectIf (session.announcedJobs.length = session.maximumAnnouncedJobs)
      (.announcedJobCapacity session.maximumAnnouncedJobs)
    pure { session with announcedJobs := assignment :: session.announcedJobs }

/-- Take a job out of ordinary use; its assignment stays for late winners. -/
def retireAnnouncedJob (id : JobId) : MiningSession :=
  match session.announcedJobs.find? (·.generationId = id) with
  | none => session
  | some assignment =>
    { session with
      announcedJobs := session.announcedJobs.eraseP (·.generationId = id)
      winnerRecoveryJobs := assignment ::
        if session.winnerRecoveryJobs.length = maxZcashWinnerRecoveryJobs then
          session.winnerRecoveryJobs.dropLast
        else session.winnerRecoveryJobs }

def retainWinnerRecoveryJobs (ids : List JobId) : MiningSession :=
  { session with
    winnerRecoveryJobs := session.winnerRecoveryJobs.filter fun a => ids.contains a.generationId }

/-! ## §4. Shares -/

/-- What a share needs before the registry is asked. -/
structure SubmissionParts where
  worker : AuthenticatedWorker
  assignment : JobAssignment
  nonce : Hex32

/-- The checks on a submitted share. -/
def checkSubmission (claimedLogin : Text) (jobId : JobId) (nonceSuffix : NonceSuffix) :
    Except SessionError SubmissionParts := do
  session.require .authorized
  let worker ← orReject .missingIdentity session.worker
  let noncePrefix ← orReject .missingNoncePrefix session.noncePrefix
  rejectIf (claimedLogin ≠ worker.canonicalLogin) .loginMismatch
  let assignment ← orReject (.jobNotAnnounced jobId) (session.assignment jobId)
  let nonce ← (joinNonce noncePrefix nonceSuffix).mapError fun _ => .nonceProfileMismatch
  pure ⟨worker, assignment, nonce⟩

/-- The generation has the targets of the assignment and the time of the share. -/
def checkGeneration (generation : BackendGeneration) (target : TargetBinding) (jobId : JobId)
    (submittedTime : Hex4) : Except SessionError Unit := do
  let _ ← (JobAssignment.new generation target).mapError fun _ =>
    .registryAssignmentMismatch jobId
  rejectIf (generation.headerTime ≠ submittedTime) (.headerTimeMismatch jobId)

/-- The generation that the registry retains, checked before a candidate is admitted. -/
def checkRetained (r : GenerationRegistry) (target : TargetBinding) (jobId : JobId)
    (submittedTime : Hex4) : Except SessionError Unit := do
  let entry ← orReject (.registry (.unknownJob jobId)) (r.entries.find jobId)
  checkGeneration entry.generation target jobId submittedTime

/-- A share of a live job is ordinary; one of a stale job may still be a winner. -/
def admitWork (parts : SubmissionParts) (jobId : JobId) (submittedTime : Hex4) (solution : Hex1344)
    (r : GenerationRegistry) (nowMs : ℕ) (pausedOnly : Bool) :
    Except SessionError GenerationAdmission × GenerationRegistry :=
  if pausedOnly then
    match checkRetained r parts.assignment.target jobId submittedTime with
    | .error error => (.error error, r)
    | .ok () =>
      (r.beginPausedZcashCandidate ext jobId parts.nonce solution nowMs).map
        (·.mapError .registry) fun r => r
  else
    match r.beginAdmission jobId nowMs with
    | (.ok admission, r) => (.ok admission, r)
    | (.error (.staleJob _), r) =>
      match checkRetained r parts.assignment.target jobId submittedTime with
      | .error error => (.error error, r)
      | .ok () =>
        (r.beginZcashWinnerRecovery ext jobId parts.nonce solution nowMs).map
          (·.mapError .registry) fun r => r
    | (.error error, r) => (.error (.registry error), r)

section Submission

variable (claimedLogin : Text) (jobId : JobId) (submittedTime : Hex4) (nonceSuffix : NonceSuffix)
  (solution : Hex1344) (r : GenerationRegistry) (nowMs : ℕ)

def prepareSubmissionMode (pausedOnly : Bool) :
    Except SessionError SubmissionContext × GenerationRegistry :=
  match session.checkSubmission claimedLogin jobId nonceSuffix with
  | .error error => (.error error, r)
  | .ok parts =>
    match admitWork ext parts jobId submittedTime solution r nowMs pausedOnly with
    | (.error error, r) => (.error error, r)
    | (.ok admission, r) =>
      match checkGeneration admission.generation parts.assignment.target jobId submittedTime with
      | .error error => (.error error, admission.release r)
      | .ok () =>
        (.ok
          { sessionId := session.id
            identity := parts.worker.backendIdentity
            targetLe := parts.assignment.target.target.toBackend
            time := submittedTime
            nonce := parts.nonce
            solution := solution
            admission := admission }, r)

def prepareSubmission : Except SessionError SubmissionContext × GenerationRegistry :=
  session.prepareSubmissionMode ext claimedLogin jobId submittedTime nonceSuffix solution r nowMs false

/-- Under explicit permission of the backend during a pause. -/
def preparePausedZcashCandidate : Except SessionError SubmissionContext × GenerationRegistry :=
  session.prepareSubmissionMode ext claimedLogin jobId submittedTime nonceSuffix solution r nowMs true

end Submission

end MiningSession

end WcashPool.Core
