/-
  WcashPool.Client.Connection — one connection to the consensus backend
  (`BackendClient`, `unix.rs`).

  A connection first replays pages of the journal and then, after one
  subscription, receives live events.  It keeps four cursors: the last replayed
  number, the highest number ever heard of, the number of the snapshot it
  subscribed at and the number of the last live event.  Every exchange marks the
  connection unusable before it writes its first byte and usable again only when
  the correlated reply has been read, so that an error, a timeout or a dropped
  exchange leaves it unusable for good.

  The socket is modelled by the bytes written to it; what comes back is part of
  the environment of each exchange (`Io`).
-/
import WcashPool.Lib.Tasks
import WcashPool.Client.Wire
import WcashPool.Core.Submission

namespace WcashPool.Client

open Fallible Protocol Tasks Tasks.Task

/-! ## §1. Configuration and identity -/

structure ExpectedBackend where
  wcashGenesis : Hex32
  zcashGenesis : Hex32
  chainId : ℕ
  wcashPayoutCommitment : Hex32
  zcashPayoutCommitment : Hex32
  shareTargetCeilingBe : TargetBe
  backendInstance : Option Uuid
  journalStream : Option Uuid
deriving DecidableEq, Repr

structure BackendClientConfig where
  expected : ExpectedBackend
  eventQueueCapacity : ℕ
deriving DecidableEq, Repr

def maxEventQueueCapacity : ℕ := 4_096

def BackendClientConfig.validate (config : BackendClientConfig) :
    Except ClientConfigError Unit := do
  rejectIf (¬ (1 ≤ config.eventQueueCapacity ∧ config.eventQueueCapacity ≤ maxEventQueueCapacity))
    (ClientConfigError.invalidEventQueueCapacity config.eventQueueCapacity maxEventQueueCapacity)
  rejectIf (config.expected.backendInstance.isSome ∧
      config.expected.backendInstance = config.expected.journalStream)
    ClientConfigError.duplicatePersistentIdentity

structure BackendIdentity where
  backendSession : Uuid
  backendInstance : Uuid
  journalStream : Uuid
  capabilities : List BackendCapability
  currentEventSeq : ℕ
deriving DecidableEq, Repr

/-- Persistent chain, payout-recipient and journal authority of a connection. -/
structure BackendAuthority where
  wcashGenesis : Hex32
  zcashGenesis : Hex32
  chainId : ℕ
  wcashPayoutCommitment : Hex32
  zcashPayoutCommitment : Hex32
  shareTargetCeilingBe : TargetBe
  backendInstance : Uuid
  journalStream : Uuid
deriving DecidableEq, Repr

/-- **Binding between one snapshot and the live client that produced it.**  The token stands for
    the pointer identity of the connection: no two connections share one. -/
structure BackendConnectionBinding where
  authority : BackendAuthority
  connectionToken : ℕ
  snapshotEventSeq : ℕ
deriving DecidableEq, Repr

/-- One unsolicited event tied to the exchange that delivered it. -/
structure DeliveredBackendEvent where
  event : BackendEvent
  anchor : ℕ
  connectionBinding : BackendConnectionBinding
deriving DecidableEq, Repr

abbrev DeliveredBackendEvent.eventSeq (delivered : DeliveredBackendEvent) : ℕ :=
  delivered.event.eventSeq

/-! ## §2. The connection -/

/-- **The client**: its connection, its cursors and its queues. -/
structure BackendClient where
  /-- The bytes written to the socket so far. -/
  stream : List UInt8
  config : BackendClientConfig
  identity : BackendIdentity
  connectionToken : ℕ
  nextRequestId : ℕ
  queuedEvents : List DeliveredBackendEvent
  observedEvents : List BackendEvent
  historicalEvents : List BackendEvent
  phase : BackendStreamPhase
  replayCursor : ℕ
  replayComplete : Bool
  observedEventHighWatermark : ℕ
  liveEventCursor : Option ℕ
  subscribedSnapshotEventSeq : Option ℕ
  liveEventAnchorFloor : Option ℕ
  usable : Bool
deriving DecidableEq, Repr

/-- A call on the connection. -/
abbrev Call (α : Type) := Task BackendClient ClientError α

namespace BackendClient

def authority (c : BackendClient) : BackendAuthority where
  wcashGenesis := c.config.expected.wcashGenesis
  zcashGenesis := c.config.expected.zcashGenesis
  chainId := c.config.expected.chainId
  wcashPayoutCommitment := c.config.expected.wcashPayoutCommitment
  zcashPayoutCommitment := c.config.expected.zcashPayoutCommitment
  shareTargetCeilingBe := c.config.expected.shareTargetCeilingBe
  backendInstance := c.identity.backendInstance
  journalStream := c.identity.journalStream

def isBoundTo (c : BackendClient) (binding : BackendConnectionBinding) : Bool :=
  c.phase = .live && c.authority = binding.authority &&
    c.subscribedSnapshotEventSeq = some binding.snapshotEventSeq &&
    c.connectionToken = binding.connectionToken

def connectionBinding (c : BackendClient) : Option BackendConnectionBinding :=
  match c.subscribedSnapshotEventSeq with
  | some snapshotEventSeq =>
    if c.phase = .live then some ⟨c.authority, c.connectionToken, snapshotEventSeq⟩ else none
  | none => none

/-- A bounded cache: a full one drops its oldest event. -/
def remember (capacity : ℕ) (cache : List BackendEvent) (event : BackendEvent) :
    List BackendEvent :=
  (if cache.length = capacity then cache.drop 1 else cache) ++ [event]

/-- The next event that was delivered. -/
def popQueuedEvent (c : BackendClient) : Option DeliveredBackendEvent × BackendClient :=
  match c.queuedEvents with
  | [] => (none, c)
  | delivered :: rest =>
    (some delivered,
      { c with
        queuedEvents := rest
        observedEvents := remember c.config.eventQueueCapacity c.observedEvents delivered.event })

/-! ## §3. Guards -/

/-- The connection is given up. -/
def giveUp (c : BackendClient) : BackendClient := { c with usable := false }

/-- Give up the connection. -/
def invalidate {α : Type} (error : ClientError) : Call α := do
  modify giveUp
  fail error

def invalidateIf (bad : Prop) [Decidable bad] (error : ClientError) : Call Unit :=
  if bad then invalidate error else pure ()

def ensureUsable : Call Unit := do
  let c ← get
  failIf (c.usable = false) .connectionUnusable

def ensurePhase (operation : String) (required : BackendStreamPhase) : Call Unit := do
  ensureUsable
  let c ← get
  failIf (c.phase ≠ required) (.invalidStreamPhase operation required c.phase)

def allocateRequestId : Call ℕ := do
  ensureUsable
  let c ← get
  -- `checked_add`, in 64 bits
  invalidateIf (c.nextRequestId + 1 ≥ 2 ^ 64) .requestIdExhausted
  modify fun c => { c with nextRequestId := c.nextRequestId + 1 }
  pure c.nextRequestId

/-- The watermark may not fall. -/
def observeWatermark (operation : String) (received : ℕ) : Call Unit := do
  let c ← get
  invalidateIf (received < c.observedEventHighWatermark)
    (.eventWatermarkRollback operation c.observedEventHighWatermark received)
  modify fun c => { c with
    observedEventHighWatermark := received
    replayComplete :=
      if c.phase = .replay ∧ received > c.replayCursor then false else c.replayComplete }

/-- A live reply must follow every event up to the number it names. -/
def requireLiveEventsThrough (operation : String) (required : ℕ) : Call Unit := do
  let c ← get
  if c.phase = .live then
    match c.liveEventCursor with
    | none => invalidate (.unexpectedResponse "job_snapshot" "live response")
    | some delivered =>
      invalidateIf (delivered < required)
        (.liveEventFlushIncomplete operation required delivered)

/-! ## §4. One exchange -/

def expectedResponseKind (operation : String) : String :=
  if operation = "hello" then "hello_ok"
  else if operation = "subscribe_jobs" then "job_snapshot"
  else if operation = "submit_share" then "share_committed"
  else if operation = "read_events" then "events_page"
  else if operation = "health" then "health_status"
  else "correlated response"

def messageKind : BackendMessage → String
  | .helloOk _ _ _ => "hello_ok"
  | .jobSnapshot _ _ _ _ _ => "job_snapshot"
  | .shareCommitted _ _ _ _ => "share_committed"
  | .eventsPage _ _ _ _ _ _ => "events_page"
  | .healthStatus _ _ _ _ _ _ _ _ => "health_status"
  | .error _ _ _ _ => "error"
  | .event _ _ => "event"

/-- The parameters of the reading loop. -/
structure Awaited where
  operation : String
  requestId : ℕ
  allowEvents : Bool
  eventAnchor : ℕ
  eventBinding : Option BackendConnectionBinding

/-- An unsolicited event must be the next one and find room in the queue. -/
def acceptEvent (awaited : Awaited) (event : BackendEvent) : Call Unit := do
  failIf (awaited.allowEvents = false)
    (.unexpectedResponse (expectedResponseKind awaited.operation) "event")
  let c ← get
  let previous ← ofOption c.liveEventCursor (.unexpectedResponse "job_snapshot" "event")
  failIf (previous + 1 ≥ 2 ^ 64) (.invalidField "event.event_seq" "journal sequence exhausted")
  failIf (event.eventSeq ≠ previous + 1)
    (.liveEventSequenceMismatch (previous + 1) event.eventSeq)
  failIf (c.queuedEvents.length = c.config.eventQueueCapacity)
    (.eventQueueFull c.config.eventQueueCapacity)
  modify fun c => { c with
    liveEventCursor := some event.eventSeq
    observedEventHighWatermark := max c.observedEventHighWatermark event.eventSeq }
  let binding ← ofOption awaited.eventBinding
    (.unexpectedResponse "job_snapshot" "unbound live event")
  modify fun c => { c with queuedEvents := c.queuedEvents ++ [⟨event, awaited.eventAnchor, binding⟩] }

/-- The reply must carry the identifier of the request. -/
def acceptReply (awaited : Awaited) (message : BackendMessage) : Call BackendMessage := do
  let responseId ← ofOption message.correlationId
    (.unexpectedResponse "correlated response" (messageKind message))
  failIf (responseId ≠ awaited.requestId) (.wrongResponseId awaited.requestId responseId)
  pure message

/-- How an exchange ends whose bytes are used up. -/
def endOfBytes {α : Type} (operation : String) (received : List UInt8) : Ending → Call α
  | .closed => fail (truncated received)
  | .failed => fail (.io "read response")
  | .elapsed => fail (.timeout operation)
  | .abandoned => drop

/-- **The reading loop.**  `received` holds the bytes of the frame that is being read.  Events are
    taken up as they come; the first other message ends the loop. -/
def readReply (ext : External) (codec : Codec) (awaited : Awaited) (ending : Ending) :
    List UInt8 → List UInt8 → Call BackendMessage
  | received, [] => endOfBytes awaited.operation received ending
  | received, byte :: bytes =>
    match frameOf (received ++ [byte]) with
    | .incomplete => readReply ext codec awaited ending (received ++ [byte]) bytes
    | .refused error => fail error
    | .complete payload =>
      match decodeMessage ext codec payload with
      | .error error => fail error
      | .ok (.event _ event) => do
        acceptEvent awaited event
        readReply ext codec awaited ending [] bytes
      | .ok message => acceptReply awaited message

/-- The write of a request: whole, or cut after some bytes. -/
def writeRequest (operation : String) (frame : List UInt8) : Option (ℕ × Ending) → Call Unit
  | none => modify fun c => { c with stream := c.stream ++ frame }
  | some (count, ending) => do
    modify fun c => { c with stream := c.stream ++ frame.take count }
    match ending with
    | .closed | .failed => fail (.io "write request")
    | .elapsed => fail (.timeout operation)
    | .abandoned => drop

/-- The anchor and the binding of the events that an exchange delivers. -/
def eventSource (allowEvents : Bool) (anchor : ℕ) :
    Call (ℕ × Option BackendConnectionBinding) := do
  let c ← get
  match allowEvents, c.liveEventAnchorFloor, c.connectionBinding with
  | false, _, _ => pure (anchor, none)
  | true, some floor, some binding => pure (floor, some binding)
  | true, _, _ => invalidate (.unexpectedResponse "job_snapshot" "live event exchange")

/-- Write the request and wait for the reply.  From the first byte on, a dropped exchange must
    leave the connection unusable. -/
def transmit (ext : External) (codec : Codec) (awaited : Awaited) (frame : List UInt8) (io : Io) :
    Call BackendMessage := do
  modify giveUp
  writeRequest awaited.operation frame io.cut
  let message ← readReply ext codec awaited io.ending [] io.bytes
  modify fun c => { c with
    liveEventAnchorFloor := if awaited.allowEvents then some io.anchor else c.liveEventAnchorFloor
    usable := true }
  pure message

/-- One request and its reply. -/
def exchange (ext : External) (codec : Codec) (request : BackendRequest) (operation : String)
    (allowEvents : Bool) (io : Io) : Call (BackendMessage × ℕ) := do
  ensureUsable
  let frame ← ofExcept ((encodeBackendRequest codec request).mapError .protocol)
  let (eventAnchor, eventBinding) ← eventSource allowEvents io.anchor
  let message ← transmit ext codec ⟨operation, request.id, allowEvents, eventAnchor, eventBinding⟩
    frame io
  pure (message, io.anchor)

end BackendClient

end WcashPool.Client
