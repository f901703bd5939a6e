/-
  WcashPool.Edge.Router — the generation authority that all miner sessions share
  (`router.rs`).

  Every call takes one lock, so it is one step on the state; the clock is read
  under the lock.  The one exception is an event that fails: its call gives the
  lock back before it suspends, and these are two steps (`lockedEvent`,
  `suspend`).  What was broadcast to the sessions so far is part of the router.
-/
import WcashPool.Client.Timeline
import WcashPool.Core.Session

namespace WcashPool.Edge

open Fallible Protocol WcashPool.Core Client

/-! ## §1. State and updates -/

/-- A lifecycle change which every connected miner must observe in order. -/
inductive JobUpdate
  | activated (generation : BackendGeneration) (cleanJobs : Bool)
  | retired (jobId : JobId)
  | suspended
deriving DecidableEq

/-- (A poisoned lock is not modelled.) -/
inductive JobRouterError
  | invalidEventCapacity (actual maximum : ℕ)
  | recoveryWhileSynchronized
  | backendAuthorityMismatch
  | backendConnectionMismatch
  | missingActivatedGeneration (id : JobId)
  | timeline (error : TimelineError)
  | integration (error : JobStateIntegrationError)
  | registry (error : JobRegistryError)
  | session (error : SessionError)
deriving DecidableEq

/-- The registry, with the router's modes and its connection. -/
structure RouterState where
  registry : GenerationRegistry
  healthPaused : Bool
  recoveryOnly : Bool
  forceCleanJobs : Bool
  backendAuthority : Option BackendAuthority
  connectionBinding : Option BackendConnectionBinding

namespace RouterState

/-- The update that an activation is announced with, if the job may be advertised now. -/
def activationUpdate (s : RouterState) (jobId : Hex32) (nowMs : ℕ) :
    Except JobRouterError (Option JobUpdate) × RouterState :=
  if s.healthPaused then (.ok none, s)
  else
    match JobId.new jobId with
    | .error error => (.error (.registry error), s)
    | .ok id =>
      match s.registry.entries.find id with
      | none => (.error (.missingActivatedGeneration id), s)
      | some entry =>
        match s.registry.admissibleJobIds nowMs with
        | (.error error, registry) => (.error (.registry error), { s with registry })
        | (.ok admissible, registry) =>
          if admissible.current ≠ some id then (.ok none, { s with registry })
          else
            -- earlier work on the same predecessors may go on
            let preservesPriorWork := admissible.recent.any fun prior =>
              (registry.entries.find prior).any (·.generation.tips == entry.generation.tips)
            (.ok (some (.activated entry.generation (s.forceCleanJobs || !preservesPriorWork))),
              { s with registry, forceCleanJobs := false })

def updateFor (s : RouterState) (event : BackendEvent) (nowMs : ℕ) :
    Except JobRouterError (Option JobUpdate) × RouterState :=
  match event with
  | .jobActivated _ job => s.activationUpdate job.jobId nowMs
  | .jobInvalidated _ jobId reason acceptForMs =>
    match JobId.new jobId with
    | .error error => (.error (.registry error), s)
    | .ok id =>
      if reason ≠ .superseded ∨ acceptForMs = 0 then
        (.ok (some (.retired id)), { s with forceCleanJobs := true })
      else (.ok none, s)
  | .generationClosed _ jobId =>
    match JobId.new jobId with
    | .error error => (.error (.registry error), { s with forceCleanJobs := true })
    | .ok id => (.ok (some (.retired id)), { s with forceCleanJobs := true })
  | _ => (.ok none, s)

/-- Is the client the connection whose snapshot the router holds? -/
def owns (s : RouterState) (client : BackendClient) : Bool :=
  s.connectionBinding.any client.isBoundTo

def suspend (s : RouterState) : RouterState :=
  { s with registry := s.registry.suspend, recoveryOnly := false, forceCleanJobs := true }

end RouterState

/-- **The router.**  `updates` is everything that was broadcast, in order. -/
structure JobRouter where
  state : RouterState
  timeline : MonotonicTimeline
  updates : List JobUpdate

abbrev Routed (α : Type) := Except JobRouterError α × JobRouter

def maximumEventCapacity : ℕ := 4_096

namespace JobRouter

variable (ext : External) (router : JobRouter)

def send (update : JobUpdate) : JobRouter :=
  { router with updates := router.updates ++ [update] }

/-! ## §2. Snapshots, events and suspensions -/

def fromSnapshot (snapshot : JobSnapshot) (registryConfig : GenerationRegistryConfig)
    (timeline : MonotonicTimeline) (eventCapacity : ℕ) : Except JobRouterError JobRouter :=
  if ¬ (1 ≤ eventCapacity ∧ eventCapacity ≤ maximumEventCapacity) then
    .error (.invalidEventCapacity eventCapacity maximumEventCapacity)
  else
    match snapshot.applyToRegistry timeline (.new registryConfig) with
    | (.error error, _) => .error (.integration error)
    | (.ok (), registry) =>
      .ok
        { state :=
            { registry
              healthPaused := false
              recoveryOnly := false
              forceCleanJobs := false
              backendAuthority := some snapshot.connectionBinding.authority
              connectionBinding := some snapshot.connectionBinding }
          timeline
          updates := [] }

/-- Suspend admission and tell every miner to close. -/
def suspend : JobRouter :=
  { router with state := router.state.suspend }.send .suspended

/-- The same, only while the binding still owns the router. -/
def suspendIfBound (binding : BackendConnectionBinding) : Bool × JobRouter :=
  if router.state.connectionBinding ≠ some binding then (false, router) else (true, router.suspend)

/-- How an event left the lock. -/
inductive EventStep
  | applied
  | refused (error : JobRouterError)
  /-- The caller still has to suspend the router. -/
  | failing (error : JobRouterError)
deriving DecidableEq

/-- One delivered event, under the lock. -/
def lockedEvent (requiredBinding : BackendConnectionBinding) (delivered : DeliveredBackendEvent)
    (instant : ℕ) : EventStep × JobRouter :=
  if delivered.connectionBinding ≠ requiredBinding ∨
      router.state.connectionBinding ≠ some requiredBinding then
    (.refused .backendConnectionMismatch, router)
  else
    match router.timeline.instantMs instant with
    | .error error => (.refused (.timeline error), router.suspend)
    | .ok nowMs =>
      match delivered.applyToRegistryAt ext router.timeline nowMs router.state.registry with
      | (.error error, registry) =>
        (.failing (.integration error), { router with state := { router.state with registry } })
      | (.ok (), registry) =>
        match { router.state with registry }.updateFor delivered.event nowMs with
        | (.error error, state) => (.failing error, { router with state })
        | (.ok none, state) => (.applied, { router with state })
        | (.ok (some update), state) => (.applied, { router with state }.send update)

def applyEventInner (requiredBinding : BackendConnectionBinding) (delivered : DeliveredBackendEvent)
    (instant : ℕ) : Routed Unit :=
  match router.lockedEvent ext requiredBinding delivered instant with
  | (.applied, router) => (.ok (), router)
  | (.refused error, router) => (.error error, router)
  | (.failing error, router) => (.error error, router.suspend)

def applyEvent (client : BackendClient) (delivered : DeliveredBackendEvent) (instant : ℕ) :
    Routed Unit :=
  match client.connectionBinding with
  | none => (.error .backendConnectionMismatch, router)
  | some binding => router.applyEventInner ext binding delivered instant

/-- Restore a suspended router; the registry and its history are kept. -/
def recoverFromSnapshot (snapshot : JobSnapshot) : Routed Unit :=
  if router.state.registry.synchronized then (.error .recoveryWhileSynchronized, router)
  else if router.state.backendAuthority ≠ some snapshot.connectionBinding.authority then
    (.error .backendAuthorityMismatch, router.send .suspended)
  else
    let state := { router.state with forceCleanJobs := true, recoveryOnly := false }
    match snapshot.applyToRegistry router.timeline state.registry with
    | (.ok (), registry) =>
      (.ok (), { router with
        state := { state with
          registry
          healthPaused := false
          backendAuthority := some snapshot.connectionBinding.authority
          connectionBinding := some snapshot.connectionBinding } })
    | (.error error, registry) =>
      (.error (.integration error),
        { router with state := { state with registry := registry.suspend } }.send .suspended)

/-! ## §3. Health -/

def clientBindingMatches (client : BackendClient) : Bool :=
  router.state.owns client

/-- Have all events of the client reached the registry? -/
def clientCursorMatches (client : BackendClient) : Bool :=
  router.state.registry.lastEventSeq = client.liveEventCursor

/-- A question to the registry at the time of the lock. -/
def asks {α : Type} (router : JobRouter) (instant : ℕ)
    (question : GenerationRegistry → ℕ → Core.Outcome α) : Routed α :=
  match router.timeline.instantMs instant with
  | .error error => (.error (.timeline error), router)
  | .ok nowMs =>
    ((question router.state.registry nowMs).1.mapError .registry,
      { router with
        state := { router.state with registry := (question router.state.registry nowMs).2 } })

def setState (f : RouterState → RouterState) : JobRouter :=
  { router with state := f router.state }

/-- Stop miner admission during a temporary unhealthy status. -/
def pauseForHealth (client : BackendClient) (instant : ℕ) : Routed Unit :=
  if ¬ router.state.owns client then (.error .backendConnectionMismatch, router)
  else
    match router.asks instant GenerationRegistry.admissibleJobIds with
    | (.error error, router) => (.error error, router)
    | (.ok _, router) =>
      (.ok (), router.setState fun s =>
        { s with
          recoveryOnly := false
          healthPaused := true
          forceCleanJobs := s.forceCleanJobs || !s.healthPaused })

/-- Reopen admission after the owning client reports healthy and all its events were applied. -/
def resumeAfterHealth (client : BackendClient) (instant : ℕ) : Routed Unit :=
  if ¬ router.state.owns client ∨ ¬ router.clientCursorMatches client then
    (.error .backendConnectionMismatch, router)
  else
    match router.asks instant GenerationRegistry.currentGeneration with
    | (.error error, router) => (.error error, router)
    | (.ok current, router) =>
      if router.state.healthPaused then
        match current with
        | some generation =>
          (.ok (), (router.setState fun s =>
            { s with recoveryOnly := false, healthPaused := false, forceCleanJobs := false }).send
              (.activated generation true))
        | none =>
          (.ok (), router.setState fun s =>
            { s with recoveryOnly := false, healthPaused := false, forceCleanJobs := true })
      else (.ok (), router.setState fun s => { s with recoveryOnly := false })

/-- Grant candidate-only forwarding after the health barrier. -/
def allowRecoveryOnlyAfterHealth (client : BackendClient) (instant : ℕ) : Routed Unit :=
  if ¬ router.state.healthPaused ∨ ¬ router.state.owns client ∨
      ¬ router.clientCursorMatches client then
    (.error .backendConnectionMismatch, router)
  else
    match router.asks instant GenerationRegistry.winnerRecoveryJobIds with
    | (.error error, router) => (.error error, router)
    | (.ok _, router) => (.ok (), router.setState fun s => { s with recoveryOnly := true })

/-! ## §4. Questions and shares -/

/-- The current generation, while admission is open. -/
def currentGeneration (instant : ℕ) : Routed (Option BackendGeneration) :=
  match router.asks instant GenerationRegistry.currentGeneration with
  | (.error error, router) => (.error error, router)
  | (.ok current, router) => (.ok (if router.state.healthPaused then none else current), router)

def listIds (ids : AdmissibleJobIds) : List JobId := ids.current.toList ++ ids.recent

def admissibleJobIds (instant : ℕ) : Routed (List JobId) :=
  match router.asks instant GenerationRegistry.admissibleJobIds with
  | (.error error, router) => (.error error, router)
  | (.ok ids, router) =>
    (.ok (if router.state.healthPaused then [] else listIds ids), router)

/-- For reconciliation only: a health pause does not revoke an assignment. -/
def retainedJobIds (instant : ℕ) : Routed (List JobId) :=
  match router.asks instant GenerationRegistry.admissibleJobIds with
  | (.error error, router) => (.error error, router)
  | (.ok ids, router) => (.ok (listIds ids), router)

def winnerRecoveryJobIds (instant : ℕ) : Routed (List JobId) :=
  router.asks instant GenerationRegistry.winnerRecoveryJobIds

/-- A share as the miner sent it. -/
structure SubmittedWork where
  worker : Text
  time : Hex4
  nonce2 : NonceSuffix
  solution : Hex1344
deriving DecidableEq

/-- The answer of a session together with the registry it leaves. -/
def settle {α : Type} (router : JobRouter) (answer : Except SessionError α × GenerationRegistry) :
    Routed α :=
  (answer.1.mapError .session, router.setState fun s => { s with registry := answer.2 })

/-- A share of a session, up to its context. -/
def prepareSubmission (session : MiningSession) (jobId : JobId) (work : SubmittedWork) (instant : ℕ) :
    Routed SubmissionContext :=
  match router.timeline.instantMs instant with
  | .error error => (.error (.timeline error), router)
  | .ok nowMs =>
    if router.state.healthPaused then
      match router.asks instant GenerationRegistry.admissibleJobIds with
      | (.error error, router) => (.error error, router)
      | (.ok _, router) =>
        if router.state.recoveryOnly then
          router.settle (session.preparePausedZcashCandidate ext work.worker jobId work.time
            work.nonce2 work.solution router.state.registry nowMs)
        else (.error (.session (.registry (.staleJob jobId))), router)
    else
      router.settle (session.prepareSubmission ext work.worker jobId work.time work.nonce2
        work.solution router.state.registry nowMs)

/-- The guard of a context drops; this needs no lock. -/
def release (context : SubmissionContext) : JobRouter :=
  router.setState fun s => { s with registry := context.admission.release s.registry }

/-- Check queued work once more, with its original assignment.  The context is moved in: where it is
    refused, its guard drops. -/
def prepareQueuedPausedCandidate (context : SubmissionContext) (client : BackendClient)
    (instant : ℕ) : Routed SubmissionContext :=
  if router.state.healthPaused ∧ ¬ router.state.recoveryOnly then
    (.error (.session (.registry (.staleJob context.generation.id))), router.release context)
  else if ¬ router.state.owns client ∨ ¬ router.clientCursorMatches client then
    (.error .backendConnectionMismatch, router.release context)
  else
    match router.timeline.instantMs instant with
    | .error error => (.error (.timeline error), router.release context)
    | .ok nowMs =>
      router.settle (context.refilterZcashCandidate ext router.state.registry nowMs
        (router.state.healthPaused && router.state.recoveryOnly))

end JobRouter

/-! ## §5. Calls -/

/-- **What anyone may do to the router**, with the instant at which the lock was held. -/
inductive RouterCall
  | suspend
  | suspendIfBound (binding : BackendConnectionBinding)
  | lockedEvent (binding : BackendConnectionBinding) (delivered : DeliveredBackendEvent)
      (instant : ℕ)
  | recoverFromSnapshot (snapshot : JobSnapshot)
  | pauseForHealth (client : BackendClient) (instant : ℕ)
  | resumeAfterHealth (client : BackendClient) (instant : ℕ)
  | allowRecoveryOnlyAfterHealth (client : BackendClient) (instant : ℕ)
  | prepareQueuedPausedCandidate (context : SubmissionContext) (client : BackendClient)
      (instant : ℕ)
  | currentGeneration (instant : ℕ)
  | admissibleJobIds (instant : ℕ)
  | winnerRecoveryJobIds (instant : ℕ)
  | prepareSubmission (session : MiningSession) (jobId : JobId) (work : JobRouter.SubmittedWork)
      (instant : ℕ)
  | release (context : SubmissionContext)

namespace JobRouter

/-- The router that a call leaves. -/
def perform (ext : External) (router : JobRouter) : RouterCall → JobRouter
  | .suspend => router.suspend
  | .suspendIfBound binding => (router.suspendIfBound binding).2
  | .lockedEvent binding delivered instant => (router.lockedEvent ext binding delivered instant).2
  | .recoverFromSnapshot snapshot => (router.recoverFromSnapshot snapshot).2
  | .pauseForHealth client instant => (router.pauseForHealth client instant).2
  | .resumeAfterHealth client instant => (router.resumeAfterHealth client instant).2
  | .allowRecoveryOnlyAfterHealth client instant =>
    (router.allowRecoveryOnlyAfterHealth client instant).2
  | .prepareQueuedPausedCandidate context client instant =>
    (router.prepareQueuedPausedCandidate ext context client instant).2
  | .currentGeneration instant => (router.currentGeneration instant).2
  | .admissibleJobIds instant => (router.admissibleJobIds instant).2
  | .winnerRecoveryJobIds instant => (router.winnerRecoveryJobIds instant).2
  | .prepareSubmission session jobId work instant =>
    (router.prepareSubmission ext session jobId work instant).2
  | .release context => router.release context

def performAll (ext : External) (router : JobRouter) (calls : List RouterCall) : JobRouter :=
  calls.foldl (·.perform ext) router

end JobRouter

end WcashPool.Edge
