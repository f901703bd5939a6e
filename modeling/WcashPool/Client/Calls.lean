/-
  WcashPool.Client.Calls — the calls of the backend client (`unix.rs`) and the
  runs they make up.

  `connect` opens a connection behind a cursor; afterwards any calls may be made
  in any order.  A run is a list of calls, each with the behaviour of the socket
  during it.
-/
import WcashPool.Lib.Transcripts
import WcashPool.Client.Connection

namespace WcashPool.Client

open Fallible Protocol WcashPool.Core Tasks Tasks.Task

/-! ## §1. What the calls return -/

/-- One share submitted with immutable pool-side attribution. -/
structure ShareSubmission where
  jobId : Hex32
  identity : WorkerIdentity
  targetLe : TargetLe
  time : Hex4
  nonce : Hex32
  solution : Hex1344
deriving DecidableEq

/-- Correlated but job-unbound reply to a share. -/
structure UnverifiedShareCommit where
  receipt : ShareReceipt
  replayed : Bool
deriving DecidableEq

/-- A commit whose receipt was checked against the generation of the share. -/
structure VerifiedShareCommit where
  receipt : ShareReceipt
  replayed : Bool
deriving DecidableEq

structure JobSnapshot where
  eventSeq : ℕ
  current : Option AcceptableJob
  recent : List AcceptableJob
  replayedThroughEventSeq : ℕ
  anchor : ℕ
  connectionBinding : BackendConnectionBinding
deriving DecidableEq

structure EventPage where
  afterEventSeq : ℕ
  nextEventSeq : ℕ
  complete : Bool
  events : List BackendEvent
deriving DecidableEq

structure HealthSnapshot where
  eventSeq : ℕ
  healthy : Bool
  recoveryOnly : Bool
  pendingWcash : ℕ
  quarantinedWcash : ℕ
  pendingZcash : ℕ
deriving DecidableEq

namespace BackendClient

variable (ext : External) (codec : Codec)

/-! ## §2. Connecting -/

def checkIdentity (matched : Prop) [Decidable matched] (field : String) : Call Unit :=
  invalidateIf (¬ matched) (.identityMismatch field)

def verifyHello (hello : HelloOk) (lastEventSeq : ℕ) : Call Unit := do
  let c ← get
  let expected := c.config.expected
  checkIdentity (hello.wcashGenesis = expected.wcashGenesis) "Wcash genesis"
  checkIdentity (hello.zcashGenesis = expected.zcashGenesis) "Zcash genesis"
  checkIdentity (hello.chainId = expected.chainId) "Wcash chain ID"
  checkIdentity (hello.wcashPayoutCommitment = expected.wcashPayoutCommitment)
    "Wcash payout commitment"
  checkIdentity (hello.zcashPayoutCommitment = expected.zcashPayoutCommitment)
    "Zcash payout commitment"
  checkIdentity (hello.shareTargetCeilingBe = expected.shareTargetCeilingBe) "share target ceiling"
  checkIdentity (expected.backendInstance.all (· == hello.backendInstance)) "backend instance"
  checkIdentity (expected.journalStream.all (· == hello.journalStream)) "journal stream"
  invalidateIf (lastEventSeq > hello.currentEventSeq)
    (.eventCursorAhead lastEventSeq hello.currentEventSeq)

/-- The connection before its first exchange. -/
def opened (config : BackendClientConfig) (poolInstance : Uuid) (lastEventSeq token : ℕ) :
    BackendClient where
  stream := []
  config := config
  identity := ⟨poolInstance, poolInstance, poolInstance, [], 0⟩
  connectionToken := token
  nextRequestId := 1
  queuedEvents := []
  observedEvents := []
  historicalEvents := []
  phase := .replay
  replayCursor := lastEventSeq
  replayComplete := false
  observedEventHighWatermark := 0
  liveEventCursor := none
  subscribedSnapshotEventSeq := none
  liveEventAnchorFloor := none
  usable := true

/-- The first exchange. -/
def sayHello (poolInstance : Uuid) (lastEventSeq : ℕ) (io : Io) : Call Unit := do
  let requestId ← allocateRequestId
  let (response, _) ← exchange ext codec
    (.hello backendProtocolVersion requestId poolInstance lastEventSeq) "hello" false io
  match response with
  | .helloOk _ _ hello => do
    verifyHello hello lastEventSeq
    modify fun c => { c with
      identity := ⟨hello.backendSession, hello.backendInstance, hello.journalStream,
        hello.capabilities, hello.currentEventSeq⟩
      observedEventHighWatermark := hello.currentEventSeq
      replayComplete := lastEventSeq = hello.currentEventSeq }
  | .error _ _ code message => fail (.backendRejected code message)
  | other => invalidate (.unexpectedResponse "hello_ok" (messageKind other))

/-- **Connect**: the client, if the hello exchange succeeds.  (The socket itself opens.) -/
def connect (config : BackendClientConfig) (poolInstance : Uuid) (lastEventSeq token : ℕ)
    (io : Io) : Outcome ClientError BackendClient :=
  match config.validate with
  | .error error => .failed (.config error)
  | .ok () =>
    if lastEventSeq ≠ 0 ∧ config.expected.journalStream = none then .failed .missingJournalIdentity
    else
      match sayHello ext codec poolInstance lastEventSeq io
          (opened config poolInstance lastEventSeq token) with
      | (.done (), c) => .done c
      | (.failed error, _) => .failed error
      | (.dropped, _) => .dropped

/-! ## §3. Replay and subscription -/

/-- Ask for the job snapshot and go live. -/
def subscribeJobs (afterEventSeq : ℕ) (io : Io) : Call JobSnapshot := do
  ensurePhase "subscribe_jobs" .replay
  let c ← get
  failIf (afterEventSeq ≠ c.replayCursor) (.replayCursorMismatch c.replayCursor afterEventSeq)
  failIf (c.replayComplete = false) (.replayIncomplete c.replayCursor)
  let requestId ← allocateRequestId
  let (response, anchor) ← exchange ext codec
    (.subscribeJobs backendProtocolVersion requestId afterEventSeq) "subscribe_jobs" false io
  match response with
  | .jobSnapshot _ _ eventSeq current recent => do
    invalidateIf (eventSeq < afterEventSeq) (.snapshotCursorBehind afterEventSeq eventSeq)
    observeWatermark "job snapshot" eventSeq
    -- a live event may already wait in the socket: the anchor of this request bounds its lease
    modify fun c => { c with
      liveEventCursor := some eventSeq
      subscribedSnapshotEventSeq := some eventSeq
      liveEventAnchorFloor := some anchor
      phase := .live }
    let c ← get
    pure ⟨eventSeq, current, recent, afterEventSeq, anchor,
      ⟨c.authority, c.connectionToken, eventSeq⟩⟩
  | .error _ _ code message => fail (.backendRejected code message)
  | other => invalidate (.unexpectedResponse "job_snapshot" (messageKind other))

/-- What the client takes from a page. -/
def acceptPage (nextEventSeq : ℕ) (complete : Bool) (events : List BackendEvent) : Call Unit := do
  if complete then observeWatermark "completed event replay" nextEventSeq
  else modify fun c => { c with
    observedEventHighWatermark := max c.observedEventHighWatermark nextEventSeq }
  modify fun c => { c with
    replayCursor := nextEventSeq
    replayComplete := complete
    historicalEvents :=
      events.foldl (remember c.config.eventQueueCapacity) c.historicalEvents }

/-- Ask for a page of past events. -/
def readEvents (afterEventSeq limit : ℕ) (io : Io) : Call EventPage := do
  ensurePhase "read_events" .replay
  failIf (¬ (1 ≤ limit ∧ limit ≤ maxEventPageItems))
    (.invalidField "read_events.limit" "must be in 1..=1024")
  let c ← get
  failIf (afterEventSeq ≠ c.replayCursor) (.replayCursorMismatch c.replayCursor afterEventSeq)
  let requestId ← allocateRequestId
  let (response, _) ← exchange ext codec
    (.readEvents backendProtocolVersion requestId afterEventSeq limit) "read_events" false io
  match response with
  | .eventsPage _ _ responseCursor nextEventSeq complete events => do
    invalidateIf (responseCursor ≠ afterEventSeq)
      (.eventPageCursorMismatch afterEventSeq responseCursor)
    invalidateIf (events.length > limit) (.eventPageLimitExceeded limit events.length)
    acceptPage nextEventSeq complete events
    pure ⟨responseCursor, nextEventSeq, complete, events⟩
  | .error _ _ code message => fail (.backendRejected code message)
  | other => invalidate (.unexpectedResponse "events_page" (messageKind other))

def health (io : Io) : Call HealthSnapshot := do
  let c ← get
  let requestId ← allocateRequestId
  let (response, _) ← exchange ext codec (.health backendProtocolVersion requestId) "health"
    (c.phase = .live) io
  match response with
  | .healthStatus _ _ eventSeq healthy recoveryOnly pendingWcash quarantinedWcash pendingZcash => do
    observeWatermark "health" eventSeq
    requireLiveEventsThrough "health" eventSeq
    pure ⟨eventSeq, healthy, recoveryOnly, pendingWcash, quarantinedWcash, pendingZcash⟩
  | .error _ _ code message => fail (.backendRejected code message)
  | other => invalidate (.unexpectedResponse "health_status" (messageKind other))

/-! ## §4. Shares -/

/-- Is this the exact event of the receipt, with this worker and target? -/
def shareEventMatches (event : BackendEvent) (receipt : ShareReceipt) (identity : WorkerIdentity)
    (targetLe : TargetLe) : Bool :=
  event = .shareCommitted receipt receipt.jobId identity targetLe

/-- The events that were delivered live and are still held. -/
def liveEvents (c : BackendClient) : List BackendEvent :=
  c.queuedEvents.map (·.event) ++ c.observedEvents

/-- Every event that is still held. -/
def retainedEvents (c : BackendClient) : List BackendEvent := c.liveEvents ++ c.historicalEvents

/-- The loop over the retained events stops at the first conflict. -/
def shareConflict (receipt : ShareReceipt) (identity : WorkerIdentity) (targetLe : TargetLe) :
    List BackendEvent → Option ClientError
  | [] => none
  | event :: events =>
    if event.eventSeq = receipt.eventSeq ∧ ¬ shareEventMatches event receipt identity targetLe then
      some (.shareCommitEventMismatch receipt.eventSeq)
    else
      match event with
      | .shareCommitted recorded _ _ _ =>
        if recorded.shareId = receipt.shareId ∧
            ¬ shareEventMatches event receipt identity targetLe then
          some (.shareCommitHistoryConflict recorded.eventSeq receipt.eventSeq)
        else shareConflict receipt identity targetLe events
      | _ => shareConflict receipt identity targetLe events

def requireConsistentShareHistory (receipt : ShareReceipt) (identity : WorkerIdentity)
    (targetLe : TargetLe) : Call Unit := do
  let c ← get
  match shareConflict receipt identity targetLe c.retainedEvents with
  | some error => invalidate error
  | none => pure ()

/-- **The receipt is bound to the exact event delivered on this stream.**  A replayed commit whose
    event is no longer held is handed to the durable projection instead. -/
def requireMatchingShareEvent (receipt : ShareReceipt) (identity : WorkerIdentity)
    (targetLe : TargetLe) (liveCursorBefore : ℕ) (replayed : Bool) : Call Unit := do
  let c ← get
  if c.liveEvents.any fun event =>
      event.eventSeq = receipt.eventSeq && shareEventMatches event receipt identity targetLe then
    pure ()
  else if replayed ∧ receipt.eventSeq ≤ liveCursorBefore then
    fail (.historicalReplayRequiresProjection receipt)
  else invalidate (.shareCommitEventMismatch receipt.eventSeq)

/-- The number of a retained event that commits this very share. -/
def matchingShareEventSeq (c : BackendClient) (jobId shareId attributionId : Hex32)
    (identity : WorkerIdentity) (targetLe : TargetLe) : Option ℕ :=
  c.retainedEvents.findSome? fun
    | .shareCommitted receipt eventJobId eventIdentity eventTargetLe =>
      if eventJobId = jobId ∧ receipt.jobId = jobId ∧ receipt.shareId = shareId ∧
          receipt.attributionId = attributionId ∧ eventIdentity = identity ∧
          eventTargetLe = targetLe then
        some receipt.eventSeq
      else none
    | _ => none

/-- The checks on the receipt of a share. -/
def acceptReceipt (submission : ShareSubmission) (shareId attributionId : Hex32)
    (liveCursorBefore : ℕ) (receipt : ShareReceipt) (replayed : Bool) :
    Call UnverifiedShareCommit := do
  invalidateIf (receipt.jobId ≠ submission.jobId)
    (.invalidField "share_receipt.job_id" "must match the submitted backend generation")
  invalidateIf (receipt.shareId ≠ shareId)
    (.invalidField "share_receipt.share_id" "must match the canonical submitted proof identity")
  invalidateIf (receipt.attributionId ≠ attributionId)
    (.invalidField "share_receipt.attribution_id"
      "must match the submitted worker identity and target")
  invalidateIf (replayed = false ∧ receipt.eventSeq ≤ liveCursorBefore)
    (.freshShareCommitDidNotAdvance receipt.eventSeq liveCursorBefore)
  requireLiveEventsThrough "share commit" receipt.eventSeq
  requireConsistentShareHistory receipt submission.identity submission.targetLe
  requireMatchingShareEvent receipt submission.identity submission.targetLe liveCursorBefore replayed
  pure ⟨receipt, replayed⟩

/-- A rejection must not contradict an event that already commits the share. -/
def acceptRejection (submission : ShareSubmission) (shareId attributionId : Hex32)
    (code : BackendErrorCode) (message : Text) : Call UnverifiedShareCommit := do
  let c ← get
  match c.matchingShareEventSeq submission.jobId shareId attributionId submission.identity
      submission.targetLe with
  | some eventSeq => invalidate (.contradictoryShareOutcome eventSeq)
  | none => fail (.backendRejected code message)

/-- Submit a share and wait for its receipt. -/
def submitShare (submission : ShareSubmission) (io : Io) : Call UnverifiedShareCommit := do
  ensurePhase "submit_share" .live
  let c ← get
  match c.liveEventCursor with
  | none => invalidate (.unexpectedResponse "job_snapshot" "live share submission")
  | some liveCursorBefore => do
    let attributionId ← ofExcept
      ((canonicalAttributionId ext submission.identity submission.targetLe).mapError
        (.protocol ∘ .field))
    let shareId := canonicalShareId ext submission.jobId submission.time submission.nonce
      submission.solution
    let requestId ← allocateRequestId
    let (response, _) ← exchange ext codec
      (.submitShare backendProtocolVersion requestId submission.jobId submission.identity
        submission.targetLe submission.time submission.nonce submission.solution)
      "submit_share" true io
    match response with
    | .shareCommitted _ _ receipt replayed =>
      acceptReceipt submission shareId attributionId liveCursorBefore receipt replayed
    | .error _ _ code message => acceptRejection submission shareId attributionId code message
    | other => invalidate (.unexpectedResponse "share_committed" (messageKind other))

/-- A replayed or paused recovery has a Zcash winner; a fresh one has nothing else. -/
def recoveryRoleMatches (receipt : ShareReceipt) (pausedZcashCandidate replayed : Bool) : Bool :=
  if replayed || pausedZcashCandidate then
    receipt.winners.any fun winner => winner.chain = .zcash
  else
    match receipt.winners with
    | [winner] => winner.chain = .zcash
    | _ => false

def validateReceiptForJob (receipt : ShareReceipt) (descriptor : JobDescriptor)
    (expectedParentHashLe : Hex32) (winnerRecovery pausedZcashCandidate replayed : Bool) :
    Call Unit := do
  match receipt.validateForJob descriptor with
  | .error error => invalidate (.protocol (.field error))
  | .ok () => do
    invalidateIf (winnerRecovery ∧ ¬ recoveryRoleMatches receipt pausedZcashCandidate replayed)
      (.invalidField "share_receipt.winners"
        ("historical fresh recovery must create only a Zcash winner; " ++
          "paused candidates and replay must contain Zcash"))
    invalidateIf (receipt.parentHashLe ≠ expectedParentHashLe)
      (.invalidField "share_receipt.parent_hash_le" "must match the exact submitted parent header")

/-- The share of a context. -/
def submissionOf (context : SubmissionContext) : ShareSubmission where
  jobId := context.jobId
  identity := context.identity
  targetLe := context.targetLe
  time := context.time
  nonce := context.nonce
  solution := context.solution

/-- The check of a receipt against the context that was submitted. -/
def validateReceiptForContext (context : SubmissionContext) (receipt : ShareReceipt)
    (replayed : Bool) : Call Unit :=
  let descriptor := context.generation.descriptor
  validateReceiptForJob receipt descriptor
    (canonicalParentHeaderHashLe ext descriptor.headerInput context.nonce context.solution)
    context.isWinnerRecovery context.isPausedZcashCandidate replayed

/-- The receipt must be one for the context. -/
def verifyCommit (context : SubmissionContext) (commit : UnverifiedShareCommit) :
    Call VerifiedShareCommit := do
  validateReceiptForContext ext context commit.receipt commit.replayed
  pure ⟨commit.receipt, commit.replayed⟩

/-- A replay that the projection must confirm is checked in the same way before it is reported. -/
def verifyHistoricalReplay (context : SubmissionContext) (receipt : ShareReceipt) :
    Call VerifiedShareCommit := do
  validateReceiptForContext ext context receipt true
  fail (.historicalReplayRequiresProjection receipt)

/-- **Submit a share and bind its receipt to the generation it was made for.** -/
def submitPreparedShareBorrowed (context : SubmissionContext) (io : Io) :
    Call VerifiedShareCommit := fun c =>
  match submitShare ext codec (submissionOf context) io c with
  | (.done commit, c') => verifyCommit ext context commit c'
  | (.failed (.historicalReplayRequiresProjection receipt), c') =>
    verifyHistoricalReplay ext context receipt c'
  | (.failed error, c') => (.failed error, c')
  | (.dropped, c') => (.dropped, c')

def submitPreparedShare (context : SubmissionContext) (io : Io) : Call VerifiedShareCommit :=
  submitPreparedShareBorrowed ext codec context io

def submitRecoveryCandidate (context : SubmissionContext) (io : Io) : Call VerifiedShareCommit := do
  failIf (context.isWinnerRecovery = false)
    (.invalidField "submission.role" "bounded retries require a qualified Zcash candidate")
  submitPreparedShareBorrowed ext codec context io

end BackendClient

/-! ## §5. Runs -/

/-- A call on an open connection, with the behaviour of the socket during it. -/
inductive ClientCall
  | popQueuedEvent
  | subscribeJobs (afterEventSeq : ℕ) (io : Io)
  | readEvents (afterEventSeq limit : ℕ) (io : Io)
  | health (io : Io)
  | submitShare (submission : ShareSubmission) (io : Io)
  | submitPreparedShare (context : SubmissionContext) (io : Io)
  | submitRecoveryCandidate (context : SubmissionContext) (io : Io)
deriving DecidableEq

inductive ClientAnswer
  | event (delivered : Option DeliveredBackendEvent)
  | snapshot (outcome : Outcome ClientError JobSnapshot)
  | page (outcome : Outcome ClientError EventPage)
  | health (outcome : Outcome ClientError HealthSnapshot)
  | unverified (outcome : Outcome ClientError UnverifiedShareCommit)
  | verified (outcome : Outcome ClientError VerifiedShareCommit)
deriving DecidableEq

namespace BackendClient

variable (ext : External) (codec : Codec)

def perform (c : BackendClient) : ClientCall → ClientAnswer × BackendClient
  | .popQueuedEvent => (c.popQueuedEvent.map .event id)
  | .subscribeJobs afterEventSeq io => (subscribeJobs ext codec afterEventSeq io c).map .snapshot id
  | .readEvents afterEventSeq limit io =>
    (readEvents ext codec afterEventSeq limit io c).map .page id
  | .health io => (health ext codec io c).map .health id
  | .submitShare submission io => (submitShare ext codec submission io c).map .unverified id
  | .submitPreparedShare context io => (submitPreparedShare ext codec context io c).map .verified id
  | .submitRecoveryCandidate context io =>
    (submitRecoveryCandidate ext codec context io c).map .verified id

/-- The connection after a list of calls. -/
def after (c : BackendClient) (calls : List ClientCall) : BackendClient :=
  Transcripts.final (perform ext codec) c calls

/-- The calls of a run, each with the connection before and after it. -/
def history (c : BackendClient) (calls : List ClientCall) :
    List (Transcripts.Transition BackendClient ClientCall ClientAnswer) :=
  Transcripts.transcript (perform ext codec) c calls

end BackendClient

end WcashPool.Client
