/-
  WcashPool.Edge.Connection — one miner connection (`connection.rs`, with
  `error.rs`, `rate_limit.rs` and the limits of `config.rs`).

  The actor is synchronous: a call runs to its end and leaves behind what it
  wrote, also where it fails.  It shares the router with everyone else, so that
  other calls may come before each lock that it takes; these calls are part of
  the surroundings of a call (`Turn`).
-/
import WcashPool.Lib.Tasks
import WcashPool.Core.Vardiff
import WcashPool.Edge.Router

namespace WcashPool.Edge

open Fallible Protocol WcashPool.Core Client Tasks Tasks.Task

/-! ## §1. Limits -/

/-- Fixed-window budget of complete requests. -/
structure RateLimit where
  maximumRequests : ℕ
  windowMs : ℕ
  requests : 1 ≤ maximumRequests ∧ maximumRequests ≤ 65_535
  window : 1 ≤ windowMs ∧ windowMs ≤ 300_000
deriving DecidableEq

inductive RateLimitError
  | clockMovedBackwards
  | exceeded
deriving DecidableEq, Repr

structure RequestRateLimiter where
  policy : RateLimit
  windowStartMs : Millis
  used : ℕ
  lastNowMs : Millis
deriving DecidableEq

namespace RequestRateLimiter

def new (policy : RateLimit) (nowMs : Millis) : RequestRateLimiter := ⟨policy, nowMs, 0, nowMs⟩

/-- Count a request against its window. -/
def admitRequest (limiter : RequestRateLimiter) (nowMs : Millis) :
    Except RateLimitError Unit × RequestRateLimiter :=
  if nowMs < limiter.lastNowMs then (.error .clockMovedBackwards, limiter)
  else
    let limiter := { limiter with lastNowMs := nowMs }
    if nowMs < limiter.windowStartMs then (.error .clockMovedBackwards, limiter)
    else
      let limiter :=
        if limiter.policy.windowMs ≤ (nowMs - limiter.windowStartMs).toNat then
          { limiter with windowStartMs := nowMs, used := 0 }
        else limiter
      if limiter.used = limiter.policy.maximumRequests then (.error .exceeded, limiter)
      else (.ok (), { limiter with used := limiter.used + 1 })

end RequestRateLimiter

/-- The limits that one connection reads. -/
structure EdgeConfig where
  outboundQueueCapacity : ℕ
  maximumAnnouncedJobs : ℕ
  requestRate : RateLimit
  outbound : 1 ≤ outboundQueueCapacity ∧ outboundQueueCapacity ≤ 4_096
  announced : 1 ≤ maximumAnnouncedJobs ∧ maximumAnnouncedJobs ≤ 16
deriving DecidableEq

/-- Vardiff policy of every authorized connection. -/
structure MiningPolicy where
  vardiff : VardiffConfig
  initialTarget : ShareTarget
deriving DecidableEq

/-! ## §2. Errors -/

/-- The error codes that a miner sees. -/
inductive MinerErrorCode
  | other
  | staleJob
  | duplicateShare
  | lowDifficulty
  | unauthorized
  | notSubscribed
deriving DecidableEq, Repr

def MinerErrorCode.asI32 : MinerErrorCode → ℕ
  | other => 20
  | staleJob => 21
  | duplicateShare => 22
  | lowDifficulty => 23
  | unauthorized => 24
  | notSubscribed => 25

/-- What an untrusted miner is told. -/
structure MinerError where
  code : MinerErrorCode
  message : String
  closeConnection : Bool
deriving DecidableEq

namespace MinerError

def messageFor (error : MinerError) (id : Zip301Id) : Zip301ServerMessage :=
  .error id error.code.asI32 error.message

def fromSession : SessionError → MinerError
  | .unexpectedState _ .connected => ⟨.notSubscribed, "not subscribed", false⟩
  | .unexpectedState _ .subscribed | .loginMismatch | .identitySwitch | .missingIdentity =>
    ⟨.unauthorized, "unauthorized", false⟩
  | .jobNotAnnounced _ | .headerTimeMismatch _ | .registry (.unknownJob _)
  | .registry (.staleJob _) | .registry .notSynchronized => ⟨.staleJob, "stale job", false⟩
  | _ => ⟨.other, "invalid request", true⟩

def fromBackend : BackendErrorCode → MinerError
  | .staleJob => ⟨.staleJob, "stale job", false⟩
  | .lowDifficulty => ⟨.lowDifficulty, "low difficulty share", false⟩
  | .attributionConflict => ⟨.duplicateShare, "duplicate share", false⟩
  | .invalidRequest | .invalidEquihash | .targetOutOfRange => ⟨.other, "invalid share", false⟩
  | .overloaded | .backendUnhealthy => ⟨.other, "service unavailable", true⟩
  | .recoveryDeferred => ⟨.other, "service temporarily unavailable", false⟩

end MinerError

inductive AuthenticationError
  | denied
  | unavailable
deriving DecidableEq, Repr

/-- Why a share did not come back as a commit. -/
inductive ShareRouterError
  | backendNotLive
  | backendConnectionMismatch
  | overloaded
  | replayRequiresProjection (receipt : ShareReceipt)
  | unavailable
  | jobStreamUnusable
  | eventConsumerUnusable
  | backendHealthDeadline
  | rejected (code : BackendErrorCode)
  | taskFailed
deriving DecidableEq

/-- The errors of a connection. -/
inductive ConnectionActorError
  | closed
  | outboundQueueFull (maximum : ℕ)
  | responseIdCapacity
  | noPendingAuthorization
  | completionTicketMismatch
  | ticketExhausted
  | missingAssignment (id : JobId)
  | protocol (error : ProtocolError)
  | session (error : SessionError)
  | router (error : JobRouterError)
  | assignment (error : JobAssignmentError)
  | vardiff (error : VardiffError)
deriving DecidableEq

/-! ## §3. The actor -/

/-- Credentials which an external service must resolve. -/
structure AuthenticationTicket where
  sessionId : Uuid
  ticket : ℕ
  worker : Text
  password : Text
deriving DecidableEq

/-- A successful authorization, bound to the credential that must stay live. -/
structure AuthenticationGrant where
  worker : AuthenticatedWorker
  credentialId : Uuid
  credential : ¬ credentialId.isNil

instance : DecidableEq AuthenticationGrant := fun grant grant' =>
  decidable_of_iff (grant.worker = grant'.worker ∧ grant.credentialId = grant'.credentialId) (by
    cases grant
    cases grant'
    simp)

/-- Completion token of one share. -/
structure ShareTicket where
  sessionId : Uuid
  ticket : ℕ
deriving DecidableEq

structure PendingShare where
  ticket : ShareTicket
  context : SubmissionContext
deriving DecidableEq

/-- What a call asks its driver to do. -/
inductive ConnectionAction
  | authenticate (ticket : AuthenticationTicket)
  | submit (share : PendingShare)
deriving DecidableEq

/-- A share that was admitted; `vardiffSample` is set by its completion. -/
structure PendingShareState where
  ticket : ℕ
  responseId : Option ℕ
  target : TargetBinding
  admittedAtMs : Millis
  vardiffSample : Option Bool
  winnerRecovery : Bool
  expectedJobId : Hex32
  expectedShareId : Hex32
  expectedAttributionId : Hex32
deriving DecidableEq

def PendingShareState.matchesReceipt (share : PendingShareState) (receipt : ShareReceipt) : Bool :=
  receipt.jobId = share.expectedJobId && receipt.shareId = share.expectedShareId &&
    receipt.attributionId = share.expectedAttributionId

/-- A replayed share is no sample. -/
def countsTowardVardiff (replayed : Bool) : Bool := !replayed

/-- What telemetry counts. -/
inductive ShareOutcome
  | accepted
  | stale
  | invalid
  | duplicate
deriving DecidableEq, Repr

inductive TelemetryEvent
  | workerConnected (worker : AuthenticatedWorker)
  | workerDisconnected (worker : AuthenticatedWorker)
  | shareOutcome (worker : AuthenticatedWorker) (outcome : ShareOutcome)
deriving DecidableEq

def shareOutcomeForBackend : BackendErrorCode → Option ShareOutcome
  | .staleJob => some .stale
  | .attributionConflict => some .duplicate
  | .invalidRequest | .lowDifficulty | .invalidEquihash | .targetOutOfRange => some .invalid
  | .overloaded | .backendUnhealthy | .recoveryDeferred => none

def shareOutcomeForSession (error : SessionError) : Option ShareOutcome :=
  match (MinerError.fromSession error).code with
  | .staleJob => some .stale
  | .duplicateShare => some .duplicate
  | .lowDifficulty | .other => some .invalid
  | .unauthorized | .notSubscribed => none

/-- **One ordered miner session.**  Both tables keep the order in which their rows came. -/
structure ConnectionActor where
  config : EdgeConfig
  policy : MiningPolicy
  session : MiningSession
  rateLimiter : RequestRateLimiter
  vardiff : Option VardiffController
  assignments : Table JobAssignment.generationId
  advertisedLineage : List JobId
  outbound : List Zip301ServerMessage
  responseIds : List (Option Zip301Id)
  pendingAuthorization : Option (ℕ × ℕ)
  authenticationGrant : Option AuthenticationGrant
  pendingShares : Table PendingShareState.ticket
  timingOrder : List ℕ
  nextTicket : ℕ
  telemetryConnected : Bool
  closed : Bool
deriving DecidableEq

/-- What happens before the next lock: calls of others, and the instant of the lock. -/
structure Turn where
  calls : List RouterCall
  instant : ℕ

/-- The actor and what it shares with others.  `observed` lists the shares that vardiff was told
    of, in order. -/
structure ConnectionWorld where
  actor : ConnectionActor
  router : JobRouter
  allocator : NoncePrefixAllocator
  telemetry : List TelemetryEvent
  observed : List (TargetBinding × Millis)
  turns : List Turn
  instant : ℕ

abbrev Act (α : Type) := Task ConnectionWorld ConnectionActorError α

namespace ConnectionActor

def new (sessionId : Uuid) (config : EdgeConfig) (policy : MiningPolicy) (nowMs : Millis) :
    Except ConnectionActorError ConnectionActor := do
  let session ← (MiningSession.new sessionId config.maximumAnnouncedJobs).mapError .session
  pure
    { config, policy, session
      rateLimiter := .new config.requestRate nowMs
      vardiff := none
      assignments := Table.empty
      advertisedLineage := []
      outbound := []
      responseIds := []
      pendingAuthorization := none
      authenticationGrant := none
      pendingShares := Table.empty
      timingOrder := []
      nextTicket := 1
      telemetryConnected := false
      closed := false }

/-- The terminal state.  (The vardiff controller and the messages still to be written stay.) -/
def closeDown (actor : ConnectionActor) : ConnectionActor :=
  { actor with
    telemetryConnected := false
    closed := true
    session := actor.session.close
    assignments := Table.empty
    advertisedLineage := []
    pendingAuthorization := none
    authenticationGrant := none
    pendingShares := Table.empty
    timingOrder := []
    responseIds := [] }

end ConnectionActor

/-! ## §4. Small steps -/

namespace Act

variable (ext : External)

def setActor (f : ConnectionActor → ConnectionActor) : Act Unit :=
  modify fun w => { w with actor := f w.actor }

/-- A closed connection refuses every call. -/
def requireOpen : Act Unit := do
  let w ← get
  failIf w.actor.closed .closed

/-- Close the connection, and tell telemetry. -/
def close : Act Unit :=
  modify fun w =>
    { w with
      actor := w.actor.closeDown
      telemetry := w.telemetry ++
        if w.actor.telemetryConnected then (w.actor.session.worker.map .workerDisconnected).toList
        else [] }

/-- One call of the router, after those that come before its lock. -/
def locked {α : Type} (ext : External) (call : JobRouter → ℕ → Routed α) : Act α := fun w =>
  let w := match w.turns with
    | [] => w
    | turn :: turns =>
      { w with router := w.router.performAll ext turn.calls, instant := turn.instant, turns }
  match call w.router w.instant with
  | (.ok a, router) => (.done a, { w with router })
  | (.error error, router) => (.failed (.router error), { w with router })

/-- Room for more messages. -/
def ensureOutboundCapacity (additional : ℕ) : Act Unit := do
  let w ← get
  if w.actor.outbound.length + additional > w.actor.config.outboundQueueCapacity then
    close
    fail (.outboundQueueFull w.actor.config.outboundQueueCapacity)

def push (message : Zip301ServerMessage) : Act Unit :=
  setActor fun actor => { actor with outbound := actor.outbound ++ [message] }

def queue (message : Zip301ServerMessage) : Act Unit := do
  ensureOutboundCapacity 1
  push message

def queueError (id : Zip301Id) (error : MinerError) : Act Unit := do
  queue (error.messageFor id)
  if error.closeConnection then close

def queueSessionError (id : Zip301Id) (error : SessionError) : Act Unit :=
  queueError id (.fromSession error)

/-- The first free slot of the table, or a new one. -/
def storeResponseId (id : Zip301Id) : Act ℕ := do
  let w ← get
  let ids := w.actor.responseIds
  match ids.findIdx? (·.isNone) with
  | some index =>
    setActor fun actor => { actor with responseIds := ids.set index (some id) }
    pure index
  | none =>
    if ids.length ≥ w.actor.config.outboundQueueCapacity then
      close
      fail .responseIdCapacity
    else
      setActor fun actor => { actor with responseIds := ids ++ [some id] }
      pure ids.length

def takeResponseId (index : ℕ) : Act Zip301Id := do
  let w ← get
  let id ← ofOption (w.actor.responseIds[index]?.join) .completionTicketMismatch
  setActor fun actor => { actor with responseIds := actor.responseIds.set index none }
  pure id

/-- The next ticket. -/
def allocateTicket : Act ℕ := do
  let w ← get
  failIf (w.actor.nextTicket + 1 ≥ 2 ^ 64) .ticketExhausted
  setActor fun actor => { actor with nextTicket := actor.nextTicket + 1 }
  pure w.actor.nextTicket

def recordShareOutcome (outcome : ShareOutcome) : Act Unit :=
  modify fun w =>
    { w with telemetry := w.telemetry ++
        (w.actor.session.worker.map (.shareOutcome · outcome)).toList }

def recordOutcome? : Option ShareOutcome → Act Unit
  | some outcome => recordShareOutcome outcome
  | none => pure ()

/-- The guard of a context that is not handed out drops. -/
def releaseContext (context : SubmissionContext) : Act Unit :=
  modify fun w => { w with router := w.router.release context }

/-! ## §5. Jobs -/

/-- Drop the jobs that the router no longer admits. -/
def reconcileJobs : Act Unit := do
  requireOpen
  let admissible ← locked ext JobRouter.retainedJobIds
  let recoveryIds ← locked ext JobRouter.winnerRecoveryJobIds
  setActor fun actor =>
    let gone := actor.assignments.rows.filter fun a => !admissible.contains a.generationId
    let session := gone.foldl (fun session a => session.retireAnnouncedJob a.generationId)
      actor.session
    let assignments := actor.assignments.retain fun a => admissible.contains a.generationId
    { actor with
      assignments
      session := session.retainWinnerRecoveryJobs recoveryIds
      advertisedLineage := actor.advertisedLineage.filter fun id => (assignments.find id).isSome }

def currentAssignedTarget : Act (Option ShareTarget) := do
  let current ← locked ext JobRouter.currentGeneration
  let w ← get
  pure (current.bind fun generation =>
    (w.actor.assignments.find generation.id).map (·.target.target))

/-- The binding of a job: its first one, or the controller's present one for a new job. -/
def bindingFor (generation : BackendGeneration) : Act TargetBinding := do
  let w ← get
  match w.actor.assignments.find generation.id, w.actor.vardiff with
  | some assignment, _ => pure assignment.target
  | none, some vardiff =>
    let (answer, vardiff) := vardiff.updateNetworkTargets generation.wcashNetworkTarget
      generation.zcashNetworkTarget
    setActor fun actor => { actor with vardiff := some vardiff }
    ofExcept (answer.mapError .vardiff)
  | none, none => do
    let vardiff ← ofExcept ((VardiffController.new w.actor.policy.vardiff
      generation.wcashNetworkTarget generation.zcashNetworkTarget w.actor.policy.initialTarget
      1).mapError .vardiff)
    setActor fun actor => { actor with vardiff := some vardiff }
    pure vardiff.binding

/-- A clean announcement ends the lineage of the jobs before it. -/
def startLineage (cleanJobs : Bool) : Act Unit :=
  if cleanJobs then setActor fun actor => { actor with advertisedLineage := [] } else pure ()

/-- A clean notification always repeats the target. -/
def needsTarget (cleanJobs : Bool) (binding : TargetBinding) : Act Bool :=
  if cleanJobs then pure true
  else do
    let assigned ← currentAssignedTarget ext
    pure (assigned ≠ some binding.target : Bool)

def pushTarget (sendTarget : Bool) (binding : TargetBinding) : Act Unit :=
  if sendTarget then push (.setTarget binding.target.toZip301) else pure ()

/-- Record the target before any caller can write the notification. -/
def announceBound (generation : BackendGeneration) (cleanJobs : Bool) : Act Unit := do
  let binding ← bindingFor generation
  let sendTarget ← needsTarget ext cleanJobs binding
  ensureOutboundCapacity (sendTarget.toNat + 1)
  let assignment ← ofExcept ((JobAssignment.new generation binding).mapError .assignment)
  let w ← get
  let session ← ofExcept ((w.actor.session.announceJob assignment).mapError .session)
  setActor fun actor =>
    { actor with
      session
      assignments := actor.assignments.put ⟨generation.id, binding⟩
      advertisedLineage := actor.advertisedLineage.insert generation.id }
  pushTarget sendTarget binding
  push (.notify ⟨generation.id.bytes, generation.descriptor.headerInput, cleanJobs⟩)

/-- Announce a job under its target. -/
def announceGeneration (generation : BackendGeneration) (cleanJobs : Bool) : Act Unit := do
  let w ← get
  if w.actor.session.state = .authorized then
    reconcileJobs ext
    let w ← get
    let cleanJobs := cleanJobs || w.actor.advertisedLineage.isEmpty
    startLineage cleanJobs
    if cleanJobs = true ∨ w.actor.assignments.find generation.id = none then
      announceBound ext generation cleanJobs
    else pure ()
  else pure ()

def synchronizeCurrentJob : Act Unit := do
  let current ← locked ext JobRouter.currentGeneration
  match current with
  | some generation => announceGeneration ext generation true
  | none => pure ()

/-- One update of the router. -/
def applyJobUpdate (update : JobUpdate) : Act Unit := do
  requireOpen
  match update with
  | .activated generation cleanJobs => do
    let current ← locked ext JobRouter.currentGeneration
    if current.map (·.id) = some generation.id then announceGeneration ext generation cleanJobs
    else if cleanJobs then
      -- the boundary is kept although the job itself was overtaken
      setActor fun actor => { actor with advertisedLineage := [] }
  | .retired jobId => do
    setActor fun actor =>
      { actor with
        assignments := actor.assignments.erase jobId
        advertisedLineage := actor.advertisedLineage.filter (· ≠ jobId)
        session := actor.session.retireAnnouncedJob jobId }
    let recoveryIds ← locked ext JobRouter.winnerRecoveryJobIds
    setActor fun actor =>
      { actor with session := actor.session.retainWinnerRecoveryJobs recoveryIds }
  | .suspended => close

/-! ## §6. Authorization -/

/-- The worker asks to be let in. -/
def beginAuthorization (id : Zip301Id) (worker password : Text) :
    Act (Option ConnectionAction) := do
  let w ← get
  if w.actor.pendingAuthorization.isSome then
    queueError id ⟨.other, "authorization already pending", true⟩
    pure none
  else if w.actor.session.state ≠ .subscribed then
    queueError id (.fromSession (.unexpectedState .subscribed w.actor.session.state))
    pure none
  else
    let responseId ← storeResponseId id
    let ticket ← allocateTicket
    setActor fun actor => { actor with pendingAuthorization := some (ticket, responseId) }
    pure (some (.authenticate ⟨w.actor.session.id, ticket, worker, password⟩))

/-- The grant of another login is a denial: no later share could repeat it. -/
def acceptGrant (ticket : AuthenticationTicket) (responseId : Zip301Id)
    (grant : AuthenticationGrant) : Act Unit := do
  let w ← get
  if grant.worker.canonicalLogin = ticket.worker then
    let session ← ofExcept ((w.actor.session.completeAuthorization grant.worker).mapError .session)
    setActor fun actor =>
      { actor with session, authenticationGrant := some grant, telemetryConnected := true }
    modify fun w => { w with telemetry := w.telemetry ++ [.workerConnected grant.worker] }
    queue (.boolean responseId true)
    synchronizeCurrentJob ext
  else
    let session ← ofExcept (w.actor.session.rejectAuthorization.mapError .session)
    setActor fun actor => { actor with session }
    queueError responseId ⟨.unauthorized, "unauthorized", true⟩

/-- The verdict on a worker. -/
def completeAuthorization (ticket : AuthenticationTicket)
    (result : Except AuthenticationError AuthenticationGrant) : Act Unit := do
  requireOpen
  let w ← get
  let (expected, index) ← ofOption w.actor.pendingAuthorization .noPendingAuthorization
  setActor fun actor => { actor with pendingAuthorization := none }
  if ticket.sessionId ≠ w.actor.session.id ∨ ticket.ticket ≠ expected then
    close
    fail .completionTicketMismatch
  else
    let responseId ← takeResponseId index
    match result with
    | .ok grant => acceptGrant ext ticket responseId grant
    | .error .denied => do
      let session ← ofExcept (w.actor.session.rejectAuthorization.mapError .session)
      setActor fun actor => { actor with session }
      queueError responseId ⟨.unauthorized, "unauthorized", true⟩
    | .error .unavailable => queueError responseId ⟨.other, "service unavailable", true⟩

/-! ## §7. Shares -/

/-- The pending state of a context that was prepared. -/
def pendingFor (context : SubmissionContext) (jobId : JobId) (nowMs : Millis) :
    Act PendingShareState := do
  let w ← get
  let target ← ofOption (w.actor.session.announcedTargetBinding jobId) (.missingAssignment jobId)
  failIf (context.isWinnerRecovery = false ∧
    (w.actor.assignments.find jobId).map (·.target) ≠ some target) (.missingAssignment jobId)
  let attributionId ← ofExcept
    ((canonicalAttributionId ext context.identity context.targetLe).mapError .protocol)
  pure
    { ticket := 0
      responseId := none
      target
      admittedAtMs := nowMs
      vardiffSample := none
      winnerRecovery := context.isWinnerRecovery
      expectedJobId := context.jobId
      expectedShareId := canonicalShareId ext context.jobId context.time context.nonce
        context.solution
      expectedAttributionId := attributionId }

/-- Admit a prepared context: it gets a response slot, a ticket and its place in the order. -/
def admitShare (id : Zip301Id) (context : SubmissionContext) (jobId : JobId) (nowMs : Millis) :
    Act ConnectionAction := do
  let share ← pendingFor ext context jobId nowMs
  let responseId ← storeResponseId id
  let ticket ← allocateTicket
  setActor fun actor =>
    { actor with
      pendingShares := actor.pendingShares.put { share with ticket, responseId := some responseId }
      timingOrder := actor.timingOrder ++ [ticket] }
  let w ← get
  pure (.submit ⟨⟨w.actor.session.id, ticket⟩, context⟩)

/-- A context that is not admitted drops its guard. -/
def orRelease {α : Type} (context : SubmissionContext) (act : Act α) : Act α := fun w =>
  match act w with
  | (.failed error, w) => (releaseContext context >>= fun _ => fail error) w
  | answer => answer

/-- A refusal by the session is answered; any other failure ends the call. -/
def refusable {α : Type} : Routed α → Routed (Except SessionError α)
  | (.ok a, router) => (.ok (.ok a), router)
  | (.error (.session error), router) => (.ok (.error error), router)
  | (.error error, router) => (.error error, router)

/-- A share, up to the backend. -/
def beginSubmission (id : Zip301Id) (jobId : Hex32) (work : JobRouter.SubmittedWork)
    (nowMs : Millis) : Act (Option ConnectionAction) := do
  let w ← get
  if w.actor.pendingShares.rows.length ≥ w.actor.config.outboundQueueCapacity then
    queueError id ⟨.other, "too many pending shares", true⟩
    pure none
  else
    match JobId.new jobId with
    | .error _ => do
      recordShareOutcome .stale
      queueError id ⟨.staleJob, "stale job", false⟩
      pure none
    | .ok jobId => do
      let prepared ← locked ext fun router instant =>
        refusable (router.prepareSubmission ext w.actor.session jobId work instant)
      match prepared with
      | .error error => do
        recordOutcome? (shareOutcomeForSession error)
        queueSessionError id error
        pure none
      | .ok context => do
        let action ← orRelease context (admitShare ext id context jobId nowMs)
        pure (some action)

abbrev ShareResult := Except ShareRouterError VerifiedShareCommit

/-- Does the completion belong to this share? -/
def completionMatches (share : PendingShareState) : ShareResult → Bool
  | .ok commit => share.vardiffSample.isNone && share.matchesReceipt commit.receipt
  | .error _ => share.vardiffSample.isNone

/-- Does the share count as a timing sample?  Replays and recoveries do not. -/
def sampleOf (share : PendingShareState) : ShareResult → Bool
  | .ok commit => countsTowardVardiff commit.replayed && !share.winnerRecovery
  | .error _ => false

/-- What a completion leaves of its share: the sample, and no response slot. -/
def completed (result : ShareResult) (share : PendingShareState) : PendingShareState :=
  { share with vardiffSample := some (sampleOf share result), responseId := none }

def storeSample (ticket : ℕ) (result : ShareResult) (actor : ConnectionActor) : ConnectionActor :=
  { actor with
    pendingShares := actor.pendingShares.modify ticket (completed result) fun _ => rfl }

/-- The first share of the order leaves it. -/
def popFirst (ticket : ℕ) (actor : ConnectionActor) : ConnectionActor :=
  { actor with
    pendingShares := actor.pendingShares.erase ticket
    timingOrder := actor.timingOrder.tail }

/-- Tell vardiff of one share. -/
def observeShare (target : TargetBinding) (admittedAtMs : Millis) : Act Unit := do
  let w ← get
  match w.actor.vardiff with
  | none => pure ()
  | some vardiff => do
    let (answer, vardiff) := vardiff.observeShare target admittedAtMs
    modify fun w =>
      { w with
        actor := { w.actor with vardiff := some vardiff }
        observed := w.observed ++ [(target, admittedAtMs)] }
    let _ ← ofExcept (answer.mapError .vardiff)

def observeSample (sample : Bool) (share : PendingShareState) : Act Unit :=
  if sample then observeShare share.target share.admittedAtMs else pure ()

/-- The loop over the order in which shares were admitted: it stops at the first one that is not
    completed. -/
def drainFrom : List ℕ → Act Unit
  | [] => pure ()
  | ticket :: rest => do
    let w ← get
    match w.actor.pendingShares.find ticket with
    | none => pure ()
    | some share =>
      match share.vardiffSample with
      | none => pure ()
      | some sample => do
        setActor (popFirst ticket)
        observeSample sample share
        drainFrom rest

/-- Release the completed shares at the head of the queue. -/
def drainCompletedTiming : Act Unit := do
  let w ← get
  drainFrom w.actor.timingOrder

def outcomeOf : ShareResult → Option ShareOutcome
  | .ok commit => some (if commit.replayed then .duplicate else .accepted)
  | .error (.rejected code) => shareOutcomeForBackend code
  | .error (.replayRequiresProjection _) => some .duplicate
  | .error _ => none

def answerShare (responseId : Zip301Id) : ShareResult → Act Unit
  | .ok _ => queue (.boolean responseId true)
  | .error (.rejected code) => queueError responseId (.fromBackend code)
  | .error .overloaded => queueError responseId ⟨.other, "service busy", false⟩
  | .error (.replayRequiresProjection _) =>
    queueError responseId ⟨.other, "share reconciliation pending", false⟩
  | .error _ => queueError responseId ⟨.other, "service unavailable", true⟩

/-- A failure of the drain closes the connection. -/
def drainOrClose : Act Unit := fun w =>
  if w.actor.closed then (.done (), w)
  else
    match drainCompletedTiming w with
    | (.failed error, w) => (close >>= fun _ => fail error) w
    | answer => answer

def mismatch {α : Type} : Act α := do
  close
  fail .completionTicketMismatch

/-- The backend's answer to a share. -/
def completeSubmission (ticket : ShareTicket) (result : ShareResult) : Act Unit := do
  requireOpen
  let w ← get
  if ticket.sessionId ≠ w.actor.session.id then mismatch
  else
    match w.actor.pendingShares.find ticket.ticket with
    | none => mismatch
    | some share =>
      if completionMatches share result = false then mismatch
      else do
        setActor (storeSample ticket.ticket result)
        match share.responseId with
        | none => mismatch
        | some index => do
          let responseId ← takeResponseId index
          recordOutcome? (outcomeOf result)
          answerShare responseId result
          drainOrClose

/-- The clock ticks for the controller. -/
def tickVardiff (nowMs : Millis) : Act Unit := do
  requireOpen
  let w ← get
  match w.actor.vardiff with
  | none => pure ()
  | some vardiff => do
    let (answer, vardiff) := vardiff.tick nowMs
    setActor fun actor => { actor with vardiff := some vardiff }
    let _ ← ofExcept (answer.mapError .vardiff)

/-! ## §8. Requests -/

def suggestTarget (id : Zip301Id) : Act Unit := do
  let w ← get
  match w.actor.session.state with
  | .authorized => do
    let assigned ← currentAssignedTarget ext
    queue (.setTarget (assigned.getD w.actor.policy.initialTarget).toZip301)
  | .connected => queueError id ⟨.notSubscribed, "not subscribed", false⟩
  | _ => queueError id ⟨.unauthorized, "unauthorized", false⟩

def subscribe (id : Zip301Id) : Act Unit := do
  let w ← get
  match w.actor.session.subscribe w.allocator with
  | .ok (nonce1, session, allocator) => do
    modify fun w => { w with actor := { w.actor with session }, allocator }
    queue (.subscribed id nonce1)
  | .error error => queueSessionError id error

/-- Apply one decoded request; the answer is what the driver has to do. -/
def handleRequest (request : Zip301Request) (nowMs : Millis) : Act (Option ConnectionAction) := do
  requireOpen
  let w ← get
  let (admitted, rateLimiter) := w.actor.rateLimiter.admitRequest nowMs
  setActor fun actor => { actor with rateLimiter }
  match admitted with
  | .error _ => do
    queueError request.id ⟨.other, "rate limit exceeded", true⟩
    pure none
  | .ok () =>
    match request with
    | .subscribe id => do
      subscribe id
      pure none
    | .authorize id worker password => beginAuthorization id worker password
    | .suggestTarget id _ => do
      suggestTarget ext id
      pure none
    | .extranonceSubscribe id => do
      queueError id ⟨.other, "extranonce subscription unsupported", false⟩
      pure none
    | .multiVersion _ _ => pure none
    | .submit id worker jobId time nonce2 solution =>
      beginSubmission ext id jobId ⟨worker, time, nonce2, solution⟩ nowMs

/-- The next message to the miner. -/
def popOutbound : Act (Option Zip301ServerMessage) := do
  let w ← get
  setActor fun actor => { actor with outbound := actor.outbound.tail }
  pure w.actor.outbound.head?

end Act

/-! ## §9. Runs -/

/-- **The public calls of a connection.**  (A frame is a message popped and encoded.) -/
inductive ActorCall
  | handleRequest (request : Zip301Request) (nowMs : Millis)
  | completeAuthorization (ticket : AuthenticationTicket)
      (result : Except AuthenticationError AuthenticationGrant)
  | completeSubmission (ticket : ShareTicket) (result : Act.ShareResult)
  | applyJobUpdate (update : JobUpdate)
  | tickVardiff (nowMs : Millis)
  | reconcileJobs
  | popOutbound
  | transportFailed
  | invalidateAuthorization

namespace ActorCall

/-- The time that a call brings, if it does. -/
def time? : ActorCall → Option Millis
  | handleRequest _ nowMs | tickVardiff nowMs => some nowMs
  | _ => none

/-- What a call answers, apart from messages and frames that are popped. -/
def run (ext : External) : ActorCall → Act (Option ConnectionAction)
  | handleRequest request nowMs => Act.handleRequest ext request nowMs
  | completeAuthorization ticket result => do
    Act.completeAuthorization ext ticket result
    pure none
  | completeSubmission ticket result => do
    Act.completeSubmission ticket result
    pure none
  | applyJobUpdate update => do
    Act.applyJobUpdate ext update
    pure none
  | tickVardiff nowMs => do
    Act.tickVardiff nowMs
    pure none
  | reconcileJobs => do
    Act.reconcileJobs ext
    pure none
  | popOutbound => do
    let _ ← Act.popOutbound
    pure none
  | transportFailed | invalidateAuthorization => do
    Act.close
    pure none

end ActorCall

/-- What the others do around one call. -/
structure Surroundings where
  allocator : NoncePrefixAllocator
  turns : List Turn

namespace ConnectionWorld

/-- One call in its surroundings. -/
def perform (ext : External) (w : ConnectionWorld) (step : Surroundings × ActorCall) :
    Tasks.Outcome ConnectionActorError (Option ConnectionAction) × ConnectionWorld :=
  step.2.run ext { w with allocator := step.1.allocator, turns := step.1.turns }

def after (ext : External) (w : ConnectionWorld) (steps : List (Surroundings × ActorCall)) :
    ConnectionWorld :=
  steps.foldl (fun w step => (w.perform ext step).2) w

/-- What the calls of a run answered. -/
def outcomes (ext : External) : ConnectionWorld → List (Surroundings × ActorCall) →
    List (Tasks.Outcome ConnectionActorError (Option ConnectionAction))
  | _, [] => []
  | w, step :: steps => (w.perform ext step).1 :: outcomes ext (w.perform ext step).2 steps

/-- A connection that was just opened. -/
structure Opened (w : ConnectionWorld) : Prop where
  actor : ∃ sessionId config policy nowMs,
    ConnectionActor.new sessionId config policy nowMs = .ok w.actor
  telemetry : w.telemetry = []
  observed : w.observed = []

end ConnectionWorld

end WcashPool.Edge
