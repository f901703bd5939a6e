/-
  WcashPool.Core.Submission — one share on its way to the backend
  (`SubmissionContext` and the errors of a session, `session.rs`).

  A context is a proof with its attribution and the admission that let it in.
  The admission carries the exact generation the proof is for, and the role in
  which it may be forwarded.
-/
import WcashPool.Core.Jobs
import WcashPool.Core.Nonce

namespace WcashPool.Core

open Protocol

/-- The guard of an admission drops: only an ordinary one is counted. -/
def GenerationAdmission.release (admission : GenerationAdmission) (r : GenerationRegistry) :
    GenerationRegistry :=
  match admission.role with
  | .ordinary => r.dropAdmission admission.generation.id
  | _ => r

structure SubmissionContext where
  sessionId : Uuid
  identity : WorkerIdentity
  targetLe : TargetLe
  time : Hex4
  nonce : Hex32
  solution : Hex1344
  admission : GenerationAdmission
deriving DecidableEq

/-- Externally observable phase of a session. -/
inductive SessionState
  | connected
  | subscribed
  | authorized
  | closed
deriving DecidableEq, Repr

inductive JobAssignmentError
  | networkTargetMismatch (id : JobId)
deriving DecidableEq

inductive SessionError
  | nilSessionId
  | nilIdentity
  | invalidCanonicalLogin
  | invalidAnnouncedJobLimit
  | unexpectedState (required actual : SessionState)
  | identitySwitch
  | missingIdentity
  | missingNoncePrefix
  | loginMismatch
  | jobNotAnnounced (id : JobId)
  | announcedJobConflict (id : JobId)
  | announcedJobCapacity (maximum : ℕ)
  | registryAssignmentMismatch (id : JobId)
  | headerTimeMismatch (id : JobId)
  | nonceProfileMismatch
  | nonce (error : NoncePrefixError)
  | registry (error : JobRegistryError)
  | assignment (error : JobAssignmentError)
deriving DecidableEq

namespace SubmissionContext

def generation (context : SubmissionContext) : BackendGeneration := context.admission.generation

def jobId (context : SubmissionContext) : Hex32 := context.generation.id.bytes

/-- Does the context forward only a potential late Zcash winner? -/
def isWinnerRecovery (context : SubmissionContext) : Bool :=
  context.admission.role != .ordinary

def isPausedZcashCandidate (context : SubmissionContext) : Bool :=
  context.admission.role == .pausedZcashCandidate

/-- The admission of a candidate that is checked once more. -/
def admitAgain (ext : External) (context : SubmissionContext) (r : GenerationRegistry) (nowMs : ℕ)
    (recoveryOnly : Bool) : Outcome GenerationAdmission :=
  let id := context.generation.id
  if context.isPausedZcashCandidate ∨ (¬ context.isWinnerRecovery ∧ recoveryOnly) then
    r.beginPausedZcashCandidate ext id context.nonce context.solution nowMs
  else if recoveryOnly then
    r.beginHistoricalZcashCandidateDuringPause ext id context.nonce context.solution nowMs
  else r.beginZcashWinnerRecovery ext id context.nonce context.solution nowMs

/-- Check a candidate once more.  Its old guard drops whatever comes of it, and a new one that is
    for other work drops with it. -/
def refilterZcashCandidate (ext : External) (context : SubmissionContext) (r : GenerationRegistry)
    (nowMs : ℕ) (recoveryOnly : Bool) :
    Except SessionError SubmissionContext × GenerationRegistry :=
  match context.admitAgain ext r nowMs recoveryOnly with
  | (.error error, r') => (.error (.registry error), context.admission.release r')
  | (.ok admission, r') =>
    if admission.generation.descriptor ≠ context.generation.descriptor then
      (.error (.registryAssignmentMismatch context.generation.id),
        context.admission.release (admission.release r'))
    else (.ok { context with admission }, context.admission.release r')

end SubmissionContext

end WcashPool.Core
