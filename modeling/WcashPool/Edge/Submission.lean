/-
  WcashPool.Edge.Submission — the one actor that owns the live backend connection
  (`submission.rs`).

  The actor takes queued shares and heartbeats one at a time.  Each exchange with
  the backend is followed by a drain: the events that arrived are taken from the
  client, acknowledged by the event consumer as one batch and then applied to the
  job registry.  A share is answered only after that.

  What the actor does not decide itself is part of its world: the readings of the
  clock, the bytes of each exchange, the attempts of the consumer, which waits
  are given up and by whom, and the calls of others before each lock of the
  router.  A wait that is given up drops the future that waits; the timeout
  around it either catches this or is itself part of what is dropped.
-/
import WcashPool.Edge.Connection

namespace WcashPool.Edge

open Fallible Protocol WcashPool.Core Client Tasks Tasks.Task

/-! ## §1. Errors and limits -/

/-- Failures of the event consumer that a deployment supplies. -/
inductive BackendEventConsumerError
  | projectionLag (required projected : ℕ)
  | storageUnavailable
  | timedOut
  | authorityMismatch
  | invalidBatch
  | eventConflict
  | storageRejected
deriving DecidableEq

def BackendEventConsumerError.isRetryable : BackendEventConsumerError → Bool
  | projectionLag _ _ | storageUnavailable | timedOut => true
  | authorityMismatch | invalidBatch | eventConflict | storageRejected => false

namespace ShareRouterError

/-- How the errors of the client are reported. -/
def fromClient : ClientError → ShareRouterError
  | .backendRejected code _ => .rejected code
  | .historicalReplayRequiresProjection receipt => .replayRequiresProjection receipt
  | _ => .unavailable

/-- After such an error the connection is not used any more. -/
def isTerminal : ShareRouterError → Bool
  | unavailable | jobStreamUnusable | eventConsumerUnusable | taskFailed
  | backendConnectionMismatch | backendHealthDeadline | rejected .backendUnhealthy => true
  | _ => false

end ShareRouterError

/-! Durations are in nanoseconds. -/

def seconds (n : ℕ) : ℕ := n * 1_000_000_000

def backendHealthGrace : ℕ := seconds 120

def candidateRetryInterval : ℕ := 250_000_000

def candidateRetryBudget : ℕ := seconds 2

def maxDeferredCandidates : ℕ := 8

def eventConsumerRecoveryTimeout : ℕ := seconds 30

/-- Queue and time policy of the actor, with the request timeout of its client. -/
structure ShareRouterConfig where
  queueCapacity : ℕ
  heartbeatInterval : ℕ
  requestTimeout : ℕ
  queue : 1 ≤ queueCapacity ∧ queueCapacity ≤ 4_096
  heartbeat : 0 < heartbeatInterval ∧ heartbeatInterval ≤ seconds 60

/-! ## §2. The world of the actor -/

/-- A command of the queue.  The number stands for the sender of the response. -/
inductive SubmitCommand
  | share (number : ℕ) (context : SubmissionContext)
  | shutdown

/-- What the actor waits for between two commands. -/
inductive Work
  | heartbeat
  | healthDeadline
  | candidateRetry
  | command (command : Option SubmitCommand)

/-- A share with its response; `queued` is the context it came with. -/
structure DeferredCandidate where
  number : ℕ
  queued : SubmissionContext
  context : SubmissionContext
  deadline : ℕ
  nextTry : ℕ

/-- How an attempt of the consumer ended. -/
inductive Attempt
  | answered (result : Except BackendEventConsumerError Unit)
  | elapsed
  | abandoned
deriving DecidableEq

/-- **What happened**, in order. -/
inductive LogEntry
  | popped (delivered : DeliveredBackendEvent)
  | acknowledged (batch : List DeliveredBackendEvent)
  | applied (delivered : DeliveredBackendEvent)
  | answered (number : ℕ) (queued : SubmissionContext) (result : Act.ShareResult)
  /-- A guard was there; the router is as it left it. -/
  | suspended (router : JobRouter)
  | ended

/-- **The world of the actor**: its own state, and what is still to come. -/
structure SubmissionWorld where
  client : BackendClient
  router : JobRouter
  /-- The guard that suspends the router when it is dropped, while it is armed. -/
  armed : Option BackendConnectionBinding
  owner : Option BackendConnectionBinding
  healthDeadline : Option ℕ
  requireHealthBarrier : Bool
  deferred : List DeferredCandidate
  log : List LogEntry
  clock : List ℕ
  now : ℕ
  exchanges : List Io
  attempts : List (Attempt × Bool)
  cancels : List Bool
  turns : List Turn
  instant : ℕ
  backlog : List SubmitCommand

abbrev Submit (α : Type) := Task SubmissionWorld ShareRouterError α

namespace Submit

variable (ext : External) (codec : Codec) (config : ShareRouterConfig)

def note (entry : LogEntry) : Submit Unit := modify fun w => { w with log := w.log ++ [entry] }

/-- A clock that has no more readings stands still. -/
def readClock : Submit ℕ := fun w =>
  match w.clock with
  | [] => (.done w.now, w)
  | now :: clock => (.done now, { w with now, clock })

/-- What the others do before a lock of the router. -/
def nextTurn (w : SubmissionWorld) : SubmissionWorld :=
  match w.turns with
  | [] => w
  | turn :: turns =>
    { w with router := w.router.performAll ext turn.calls, instant := turn.instant, turns }

def locked {α : Type} (ext : External) (call : JobRouter → ℕ → Routed α) :
    Submit (Except JobRouterError α) := fun w =>
  let w := nextTurn ext w
  (.done (call w.router w.instant).1, { w with router := (call w.router w.instant).2 })

/-- A question under the lock. -/
def peek {α : Type} (ext : External) (question : JobRouter → α) : Submit α := fun w =>
  (.done (question (nextTurn ext w).router), nextTurn ext w)

def orUnusable {α : Type} (answer : Except JobRouterError α) : Submit α :=
  ofExcept (answer.mapError fun _ => .jobStreamUnusable)

/-- The guard suspends the router if the connection still owns it. -/
def suspend : Submit Unit := fun w =>
  match w.armed with
  | none => (.done (), w)
  | some binding =>
    let router := ((nextTurn ext w).router.suspendIfBound binding).2
    (.done (), { nextTurn ext w with router, armed := none, log := w.log ++ [.suspended router] })

/-- A call of the client; a dropped exchange drops what waits for it. -/
def onClient {α : Type} (call : Call α) : Submit (Except ClientError α) := fun w =>
  match call w.client with
  | (.done a, client) => (.done (.ok a), { w with client })
  | (.failed error, client) => (.done (.error error), { w with client })
  | (.dropped, client) => (.dropped, { w with client })

/-- One exchange with the backend. -/
def exchange {α : Type} (call : Io → Call α) : Submit (Except ClientError α) := fun w =>
  match w.exchanges with
  | [] => (.dropped, w)
  | io :: exchanges => onClient (call io) { w with exchanges }

/-- The result of a step as a value. -/
def caught {α : Type} (act : Submit α) : Submit (Except ShareRouterError α) := fun w =>
  match act w with
  | (.done a, w) => (.done (.ok a), w)
  | (.failed error, w) => (.done (.error error), w)
  | (.dropped, w) => (.dropped, w)

/-- A timeout.  What was dropped inside is its doing, or that of someone further out. -/
def timeoutAt {α : Type} (act : Submit α) : Submit (Option α) := fun w =>
  match act w with
  | (.done a, w) => (.done (some a), w)
  | (.failed error, w) => (.failed error, w)
  | (.dropped, w) =>
    match w.cancels with
    | [] => (.dropped, w)
    | true :: cancels => (.done none, { w with cancels })
    | false :: cancels => (.dropped, { w with cancels })

/-! ## §3. Draining -/

/-- Take all events from the client. -/
def popEvents (binding : BackendConnectionBinding) :
    List DeliveredBackendEvent → Submit (List DeliveredBackendEvent)
  | [] => pure []
  | delivered :: rest => do
    modify fun w => { w with
      client := w.client.popQueuedEvent.2
      log := w.log ++ [.popped delivered] }
    failIf (delivered.connectionBinding ≠ binding) .backendConnectionMismatch
    let events ← popEvents binding rest
    pure (delivered :: events)

/-- The router and the client must still be on the connection. -/
def stillBound (binding : BackendConnectionBinding) (events : List DeliveredBackendEvent) :
    Submit Unit := do
  let w ← get
  if w.client.isBoundTo binding then
    let matched ← peek ext (·.clientBindingMatches w.client)
    failIf (matched = false ∨ events.any (·.connectionBinding ≠ binding)) .backendConnectionMismatch
  else fail .backendConnectionMismatch

def nextAttempt : Submit (Attempt × Bool) := fun w =>
  match w.attempts with
  | [] => (.dropped, w)
  | attempt :: attempts => (.done attempt, { w with attempts })

/-- The first failure that may be retried pauses admission. -/
def pauseOnce (recovered : Bool) : Submit Unit :=
  if recovered then pure ()
  else do
    let w ← get
    let paused ← locked ext fun router instant => router.pauseForHealth w.client instant
    orUnusable paused

/-- What an attempt says: nothing if the batch is acknowledged in time, or else why it is not. -/
def attemptError (events : List DeliveredBackendEvent) (deadline : ℕ) :
    Attempt → Submit (Option BackendEventConsumerError)
  | .answered (.ok ()) => do
    note (.acknowledged events)
    let now ← readClock
    pure (if now < deadline then none else some .timedOut)
  | .answered (.error error) => pure (some error)
  | .elapsed => pure (some .timedOut)
  | .abandoned => drop

/-- **The loop that acknowledges one batch**, one attempt each. -/
def acknowledgeLoop (binding : BackendConnectionBinding) (events : List DeliveredBackendEvent)
    (deadline : ℕ) : ℕ → Bool → Submit Bool
  | 0, _ => drop
  | fuel + 1, recovered => do
    let now ← readClock
    failIf (now ≥ deadline) .eventConsumerUnusable
    stillBound ext binding events
    let (attempt, sleeps) ← nextAttempt
    let failure ← attemptError events deadline attempt
    match failure with
    | none => pure recovered
    | some error => do
      failIf (error.isRetryable = false) .eventConsumerUnusable
      pauseOnce ext recovered
      let now ← readClock
      failIf (now ≥ deadline) .eventConsumerUnusable
      -- the sleep before the next attempt
      if sleeps then acknowledgeLoop binding events deadline fuel true else drop

/-- Give the events to the consumer until it takes them. -/
def acknowledgeEventBatch (binding : BackendConnectionBinding) (events : List DeliveredBackendEvent) :
    Submit Bool := do
  let now ← readClock
  let w ← get
  acknowledgeLoop ext binding events (now + eventConsumerRecoveryTimeout) (w.attempts.length + 1) false

/-- An event that fails gives the lock back before it suspends the router. -/
def applyEvent (delivered : DeliveredBackendEvent) : Submit Unit := do
  note (.applied delivered)
  let w ← get
  match w.client.connectionBinding with
  | none => fail .jobStreamUnusable
  | some binding => do
    let step ← locked ext fun router instant =>
      (router.lockedEvent ext binding delivered instant).map .ok id
    match step with
    | .ok .applied => pure ()
    | .ok (.refused _) | .error _ => fail .jobStreamUnusable
    | .ok (.failing _) => do
      let _ ← locked ext fun router _ => (.ok (), router.suspend)
      fail .jobStreamUnusable

/-- Apply the events to the router. -/
def applyEvents : List DeliveredBackendEvent → Submit Unit
  | [] => pure ()
  | delivered :: rest => do
    applyEvent ext delivered
    applyEvents rest

/-- A batch is acknowledged before any of it is applied. -/
def settleBatch (binding : BackendConnectionBinding) :
    List DeliveredBackendEvent → Submit Bool
  | [] => pure false
  | delivered :: rest => do
    let recovered ← acknowledgeEventBatch ext binding (delivered :: rest)
    applyEvents ext (delivered :: rest)
    pure recovered

/-- **The drain** after every exchange; it tells whether admission was paused meanwhile. -/
def drainBackendEvents : Submit Bool := do
  let w ← get
  let matched ← peek ext (·.clientBindingMatches w.client)
  failIf (matched = false) .backendConnectionMismatch
  let w ← get
  let binding ← ofOption w.client.connectionBinding .backendConnectionMismatch
  let events ← popEvents binding w.client.queuedEvents
  let recovered ← settleBatch ext binding events
  let w ← get
  let matched ← peek ext (·.clientBindingMatches w.client)
  failIf (matched = false) .backendConnectionMismatch
  let reached ← peek ext (·.clientCursorMatches w.client)
  failIf (reached = false) .jobStreamUnusable
  pure recovered

/-! ## §4. Health -/

/-- An unhealthy status pauses admission before the drain. -/
def pumpUnhealthy (health : HealthSnapshot) (observedAt : ℕ) : Submit (Bool × ℕ) := do
  let w ← get
  let paused ← locked ext fun router instant => router.pauseForHealth w.client instant
  orUnusable paused
  let drained ← timeoutAt (caught (drainBackendEvents ext))
  let now ← readClock
  failIf (now ≥ observedAt + backendHealthGrace) .backendHealthDeadline
  match drained with
  | none => fail .backendHealthDeadline
  | some (.error error) => fail error
  | some (.ok recovered) =>
    if health.recoveryOnly = true ∧ recovered = false then do
      let w ← get
      let allowed ← locked ext fun router instant =>
        router.allowRecoveryOnlyAfterHealth w.client instant
      orUnusable allowed
      pure (false, observedAt)
    else pure (false, observedAt)

/-- Events that came before a failing response are drained as well. -/
def pumpHealth : Submit (Bool × ℕ) := do
  let health ← exchange (BackendClient.health ext codec)
  let observedAt ← readClock
  match health with
  | .error error => do
    let _ ← drainBackendEvents ext
    fail (.fromClient error)
  | .ok health =>
    if health.healthy then do
      let recovered ← drainBackendEvents ext
      pure (!recovered, observedAt)
    else pumpUnhealthy ext health observedAt

/-- Every queued command is answered when the queue is closed. -/
def failCommands : List SubmitCommand → Submit Unit
  | [] => pure ()
  | .share number context :: rest => do
    note (.answered number context (.error .unavailable))
    failCommands rest
  | .shutdown :: rest => failCommands rest

/-- Refuse whatever is still queued. -/
def failPending : Submit Unit := do
  let w ← get
  modify fun w => { w with backlog := [] }
  failCommands w.backlog

/-- The actor gives up. -/
def endWith {α : Type} (ext : External) (error : ShareRouterError) : Submit α := do
  suspend ext
  failPending
  fail error

def pastDeadline : Option ℕ → Submit Bool
  | none => pure false
  | some deadline => do
    let now ← readClock
    pure (now ≥ deadline : Bool)

def withinDeadline {α : Type} (deadline : Option ℕ) (act : Submit (Except ShareRouterError α)) :
    Submit (Except ShareRouterError α) :=
  match deadline with
  | none => act
  | some _ => do
    let answer ← timeoutAt act
    pure (answer.getD (.error .backendHealthDeadline))

/-- The connection is healthy again: admission is reopened. -/
def resume : Submit Unit := do
  let w ← get
  let resumed ← locked ext fun router instant => router.resumeAfterHealth w.client instant
  orUnusable resumed
  modify fun w => { w with healthDeadline := none }

def noteUnhealthy (observedAt : ℕ) : Submit Unit :=
  modify fun w => { w with
    healthDeadline := some (w.healthDeadline.getD (observedAt + backendHealthGrace)) }

def noteHealth (healthy : Bool) (observedAt : ℕ) : Submit Unit :=
  if healthy then pure () else noteUnhealthy observedAt

/-- What a heartbeat makes of the health that was observed. -/
def applyHealth (healthy : Bool) (observedAt : ℕ) : Submit Unit := do
  noteHealth healthy observedAt
  let w ← get
  let late ← pastDeadline w.healthDeadline
  if late then fail .backendHealthDeadline
  else if healthy then resume ext
  else pure ()

/-- One heartbeat. -/
def heartbeat : Submit Unit := do
  let w ← get
  let health ← withinDeadline w.healthDeadline (caught (pumpHealth ext codec))
  let late ← pastDeadline w.healthDeadline
  if late then endWith ext .backendHealthDeadline
  else
    match health with
    | .error error => endWith ext error
    | .ok (healthy, observedAt) => do
      let applied ← caught (applyHealth ext healthy observedAt)
      match applied with
      | .error error => endWith ext error
      | .ok () => pure ()

/-! ## §5. Shares -/

abbrev Submitted := Act.ShareResult × Option SubmissionContext × Bool

/-- What remains of a submission after its drain. -/
def drained (answer : Except ClientError VerifiedShareCommit) (context : SubmissionContext) :
    Except ShareRouterError Bool → Submitted
  | .ok recovered => (answer.mapError .fromClient, some context, recovered)
  | .error error => (.error error, some context, false)

/-- A qualified candidate is submitted under its deadline. -/
def submitRecovery (context : SubmissionContext) : Submit Submitted := do
  let answer ← timeoutAt (exchange (BackendClient.submitRecoveryCandidate ext codec context))
  match answer with
  | none => pure (.error .unavailable, some context, false)
  | some answer => do
    let outcome ← timeoutAt (caught (drainBackendEvents ext))
    match outcome with
    | none => pure (.error .eventConsumerUnusable, some context, false)
    | some outcome => pure (drained answer context outcome)

/-- An ordinary context is kept only where the backend defers it. -/
def submitOrdinary (context : SubmissionContext) : Submit Submitted := do
  let answer ← exchange (BackendClient.submitPreparedShareBorrowed ext codec context)
  let outcome ← caught (drainBackendEvents ext)
  let (result, _, recovered) := drained answer context outcome
  pure (result, if result = .error (.rejected .recoveryDeferred) then some context else none,
    recovered)

/-- Submit a share, then drain the events. -/
def submitContextAndDrain (context : SubmissionContext) : Submit Submitted :=
  if context.isWinnerRecovery then submitRecovery ext codec context
  else submitOrdinary ext codec context

def answer (pending : DeferredCandidate) (result : Act.ShareResult) : Submit Unit :=
  note (.answered pending.number pending.queued result)

/-- Queued contexts predate the pause: a new health barrier comes before the next command. -/
def noteRecovery (recovered : Bool) : Submit Unit :=
  if recovered then do
    let now ← readClock
    noteUnhealthy now
    modify fun w => { w with requireHealthBarrier := true }
  else pure ()

/-- A router that refuses a queued context because of its session has found it stale. -/
def refusal : JobRouterError → ShareRouterError
  | .session _ => .rejected .staleJob
  | _ => .jobStreamUnusable

/-- Qualify a paused candidate again. -/
def requalify (context : SubmissionContext) :
    Submit (Except ShareRouterError SubmissionContext) := do
  let w ← get
  let prepared ← locked ext fun router instant =>
    router.prepareQueuedPausedCandidate ext context w.client instant
  pure (prepared.mapError refusal)

/-- The candidate is qualified once more after the fresh health. -/
def requalifyDeferred (context : SubmissionContext) :
    Submit (Act.ShareResult × Option SubmissionContext) := do
  let prepared ← requalify ext context
  match prepared with
  | .ok candidate => pure (.error (.rejected .recoveryDeferred), some candidate)
  | .error error => pure (.error error, none)

/-- A deferred ordinary share gets one fresh health barrier. -/
def barrierForDeferred (context : SubmissionContext) :
    Submit (Act.ShareResult × Option SubmissionContext) := do
  let health ← timeoutAt (caught (pumpHealth ext codec))
  match health with
  | none => pure (.error .unavailable, some context)
  | some (.error error) => pure (.error error, some context)
  | some (.ok (true, _)) => do
    let resumed ← caught (resume ext)
    match resumed with
    | .error error => pure (.error error, some context)
    | .ok () => requalifyDeferred ext context
  | some (.ok (false, observedAt)) => do
    noteUnhealthy observedAt
    requalifyDeferred ext context

def afterDeferral (pending : DeferredCandidate) (result : Act.ShareResult)
    (retained : Option SubmissionContext) : Submit (Act.ShareResult × Option SubmissionContext) :=
  match result, retained with
  | .error (.rejected .recoveryDeferred), some context =>
    if context.isWinnerRecovery then pure (result, retained)
    else do
      let now ← readClock
      if now < pending.deadline then barrierForDeferred ext codec context
      else pure (result, retained)
  | _, _ => pure (result, retained)

/-- Answer the share; a terminal error ends the actor. -/
def conclude (pending : DeferredCandidate) (result : Act.ShareResult) : Submit Unit := do
  answer pending result
  match result with
  | .ok _ => pure ()
  | .error error =>
    if error.isTerminal then do
      failPending
      fail error
    else pure ()

/-- A deferred candidate waits for its next try, if there is room and time. -/
def keepDeferred (pending : DeferredCandidate) (context : SubmissionContext) : Submit Unit := do
  let now ← readClock
  if now < pending.deadline then do
    let w ← get
    if w.deferred.length < min maxDeferredCandidates config.queueCapacity then do
      let now ← readClock
      modify fun w => { w with
        deferred := w.deferred ++
          [{ pending with context, nextTry := now + candidateRetryInterval }] }
    else answer pending (.error .overloaded)
  else conclude pending (.error (.rejected .recoveryDeferred))

def suspendOnTerminal : Act.ShareResult → Submit Unit
  | .ok _ => pure ()
  | .error error => if error.isTerminal then suspend ext else pure ()

def settlePending (pending : DeferredCandidate) (result : Act.ShareResult)
    (retained : Option SubmissionContext) : Submit Unit := do
  suspendOnTerminal ext result
  match result, retained with
  | .error (.rejected .recoveryDeferred), some context => keepDeferred config pending context
  | _, _ => conclude pending result

/-- A candidate that is out of time is not sent again. -/
def expired (pending : DeferredCandidate) : Submit Bool :=
  if pending.context.isWinnerRecovery then pastDeadline (some pending.deadline) else pure false

/-- One attempt at a candidate. -/
def submitPending (pending : DeferredCandidate) : Submit Unit := do
  let late ← expired pending
  if late then answer pending (.error (.rejected .recoveryDeferred))
  else do
    let (result, retained, recovered) ← submitContextAndDrain ext codec pending.context
    noteRecovery recovered
    let (result, retained) ← afterDeferral ext codec pending result retained
    settlePending ext config pending result retained

/-- A context that is stale is answered so; a router that does not own the client ends the actor. -/
def refusePending (pending : DeferredCandidate) : ShareRouterError → Submit Unit
  | .rejected code => answer pending (.error (.rejected code))
  | error => do
    suspend ext
    answer pending (.error error)
    failPending
    fail error

/-- While the backend is unhealthy, and for every candidate, the queued context is qualified
    anew. -/
def considerPending (pending : DeferredCandidate) : Submit Unit := do
  let w ← get
  if w.healthDeadline.isSome = true ∨ pending.context.isWinnerRecovery = true then do
    let prepared ← requalify ext pending.context
    match prepared with
    | .ok context => submitPending ext codec config { pending with context }
    | .error error => refusePending ext pending error
  else submitPending ext codec config pending

/-! ## §6. The loop -/

def dueAt (entry : DeferredCandidate) : ℕ := min entry.nextTry entry.deadline

/-- The position of the first entry that is due earliest. -/
def earliest : List DeferredCandidate → Option (ℕ × DeferredCandidate)
  | [] => none
  | entry :: entries =>
    match earliest entries with
    | none => some (0, entry)
    | some (index, best) =>
      if dueAt entry ≤ dueAt best then some (0, entry) else some (index + 1, best)

/-- The last entry takes the place of the one that is removed. -/
def swapRemove (index : ℕ) (entries : List DeferredCandidate) : List DeferredCandidate :=
  match entries.getLast? with
  | none => []
  | some last => (entries.set index last).dropLast

/-- The first candidate that is due, taken out. -/
def takeDue (now : ℕ) (entries : List DeferredCandidate) :
    Option (DeferredCandidate × List DeferredCandidate) :=
  match earliest entries with
  | none => none
  | some (index, entry) => if dueAt entry ≤ now then some (entry, swapRemove index entries) else none

/-- One round of the loop; the answer is whether there is another. -/
def round : Work → Submit Bool
  | .heartbeat => do
    heartbeat ext codec
    pure true
  | .healthDeadline => do
    let w ← get
    if w.healthDeadline.isSome then endWith ext .backendHealthDeadline else pure true
  | .candidateRetry => do
    let now ← readClock
    let w ← get
    match takeDue now w.deferred with
    | none => pure true
    | some (pending, deferred) => do
      modify fun w => { w with deferred }
      considerPending ext codec config pending
      pure true
  | .command (some (.share number context)) => do
    let now ← readClock
    considerPending ext codec config
      ⟨number, context, context, now + min candidateRetryBudget config.requestTimeout, now⟩
    pure true
  | .command (some .shutdown) => do
    suspend ext
    failPending
    modify fun w => { w with deferred := [] }
    pure false
  | .command none => pure false

/-- A health barrier that is required comes before anything else. -/
def forcedBarrier : Submit Unit := do
  let w ← get
  if w.requireHealthBarrier then do
    modify fun w => { w with requireHealthBarrier := false }
    heartbeat ext codec
  else pure ()

/-- **The actor.**  Where the work ends, nobody polls it any more. -/
def runSubmissionActor : List Work → Submit Unit
  | [] => do
    forcedBarrier ext codec
    drop
  | work :: works => do
    forcedBarrier ext codec
    let again ← round ext codec config work
    if again then runSubmissionActor works else pure ()

/-- A start that is refused suspends the router. -/
def refuse {α : Type} (ext : External) (error : ShareRouterError) : Submit α := fun w =>
  let router := (nextTurn ext w).router.suspend
  (.failed error, { nextTurn ext w with router, log := w.log ++ [.suspended router] })

/-- The client must be live, usable and the one whose snapshot the router holds. -/
def checkStart : Submit BackendConnectionBinding := do
  let w ← get
  if w.client.phase ≠ .live then refuse ext .backendNotLive
  else if w.client.usable = false then refuse ext .unavailable
  else
    match w.client.connectionBinding with
    | none => refuse ext .backendConnectionMismatch
    | some binding => do
      let matched ← peek ext (·.clientBindingMatches w.client)
      if matched then pure binding else refuse ext .backendConnectionMismatch

/-- **Start**: from here on the guard suspends the router when it is dropped. -/
def spawn : Submit Unit := do
  let binding ← checkStart ext
  modify fun w => { w with armed := some binding }
  let recovered ← drainBackendEvents ext
  let started ← readClock
  let now ← readClock
  modify fun w => { w with
    owner := w.client.connectionBinding
    requireHealthBarrier := recovered || started + config.heartbeatInterval ≤ now }

/-- Candidates that are still deferred suspend the router before their senders are dropped. -/
def dropDeferred : Submit Unit := fun w =>
  if w.deferred.isEmpty then (.done (), w)
  else
    let router := match w.owner with
      | some binding => ((nextTurn ext w).router.suspendIfBound binding).2
      | none => (nextTurn ext w).router.suspend
    (.done (), { nextTurn ext w with router, log := w.log ++ [.suspended router] })

/-- However the actor ended, its guards drop. -/
def finish : Submit Unit := do
  dropDeferred ext
  suspend ext
  note .ended

/-- **A whole life**, from the start to the last guard. -/
def life (works : List Work) (w : SubmissionWorld) : SubmissionWorld :=
  let ran := (spawn ext config >>= fun _ => runSubmissionActor ext codec config works) w
  (finish ext ran.2).2

end Submit

end WcashPool.Edge
