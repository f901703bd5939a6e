/-
  WcashPool.Protocol.Messages — requests to the consensus backend, its replies,
  and what makes them well formed (`backend.rs`).

  A reply carries the identifier of its request; an event of the journal comes
  unasked and carries none.  A page of the journal is valid only if its events
  carry the numbers right after the page's cursor, without a gap, and end at the
  cursor the page hands back.

  Main results: `validateEvents_eq_ok` and `BackendMessage.page_follows`.
-/
import WcashPool.Lib.Sequence
import WcashPool.Protocol.Work

namespace WcashPool

/-- A proof-of-work target in big-endian byte order. -/
abbrev TargetBe := FixedHex 32

end WcashPool

namespace WcashPool.Protocol

open Fallible Sequence

/-! ## §1. Requests -/

def backendProtocolVersion : ℕ := 2

def backendLengthPrefixBytes : ℕ := 4

def maxBackendPayloadBytes : ℕ := 64 * 1024

def maxEventPageItems : ℕ := 1_024

/-- What the frame codec reports. -/
inductive WireError
  | emptyFrame
  | frameTooLarge (maximum actual : ℕ)
  | json
  | field (error : ProtocolError)
deriving DecidableEq, Repr

/-- The requests of the pool. -/
inductive BackendRequest
  | hello (version id : ℕ) (poolInstance : Uuid) (lastEventSeq : ℕ)
  | subscribeJobs (version id afterEventSeq : ℕ)
  | submitShare (version id : ℕ) (jobId : Hex32) (identity : WorkerIdentity) (targetLe : TargetLe)
      (time : Hex4) (nonce : Hex32) (solution : Hex1344)
  | readEvents (version id afterEventSeq limit : ℕ)
  | health (version id : ℕ)
deriving DecidableEq, Repr

namespace BackendRequest

def version : BackendRequest → ℕ
  | hello version _ _ _ | subscribeJobs version _ _ | submitShare version _ _ _ _ _ _ _
  | readEvents version _ _ _ | health version _ => version

/-- The connection-local correlation identifier. -/
def id : BackendRequest → ℕ
  | hello _ id _ _ | subscribeJobs _ id _ | submitShare _ id _ _ _ _ _ _ | readEvents _ id _ _
  | health _ id => id

end BackendRequest

def requireNonzeroId (id : ℕ) : Check := checkField (id = 0) "backend.id" "must be nonzero"

def validateBackendHeader (version id : ℕ) : Check := do
  checkField (version ≠ backendProtocolVersion) "backend.v" "must equal 2"
  requireNonzeroId id

def BackendRequest.validate (request : BackendRequest) : Check := do
  validateBackendHeader request.version request.id
  match request with
  | .hello _ _ poolInstance _ => requireNonNilUuid poolInstance "hello.pool_instance"
  | .submitShare _ _ jobId identity targetLe time _ _ => do
    requireNonzeroHex jobId "submit_share.job_id"
    identity.validate
    requireNonzeroTarget targetLe "submit_share.target_le"
    requireNonzeroHex time "submit_share.time"
  | .readEvents _ _ _ limit =>
    checkField (¬ (1 ≤ limit ∧ limit ≤ maxEventPageItems)) "read_events.limit" "must be in 1..=1024"
  | .subscribeJobs _ _ _ | .health _ _ => .ok ()

/-! ## §2. Replies and events -/

/-- Stable machine-readable failure category of a request. -/
inductive BackendErrorCode
  | invalidRequest
  | staleJob
  | lowDifficulty
  | invalidEquihash
  | targetOutOfRange
  | attributionConflict
  | overloaded
  | backendUnhealthy
  | recoveryDeferred
deriving DecidableEq, Repr

inductive BackendCapability
  | jobStreamV1
  | durableShareReceiptsV1
  | eventReplayV1
  | dualTargetV1
  | winnerLifecycleV1
  | winnerSideChainV1
deriving DecidableEq, Repr

def requiredBackendCapabilities : List BackendCapability :=
  [.jobStreamV1, .durableShareReceiptsV1, .eventReplayV1, .dualTargetV1, .winnerLifecycleV1,
    .winnerSideChainV1]

/-- What the backend says of itself in the first reply. -/
structure HelloOk where
  backendSession : Uuid
  backendInstance : Uuid
  journalStream : Uuid
  capabilities : List BackendCapability
  wcashGenesis : Hex32
  zcashGenesis : Hex32
  wcashPayoutCommitment : Hex32
  zcashPayoutCommitment : Hex32
  shareTargetCeilingBe : TargetBe
  chainId : ℕ
  currentEventSeq : ℕ
deriving DecidableEq, Repr

/-- The replies and events of the backend. -/
inductive BackendMessage
  | helloOk (version id : ℕ) (hello : HelloOk)
  | jobSnapshot (version id eventSeq : ℕ) (current : Option AcceptableJob)
      (recent : List AcceptableJob)
  | shareCommitted (version id : ℕ) (receipt : ShareReceipt) (replayed : Bool)
  | eventsPage (version id afterEventSeq nextEventSeq : ℕ) (complete : Bool)
      (events : List BackendEvent)
  | healthStatus (version id eventSeq : ℕ) (healthy recoveryOnly : Bool)
      (pendingWcash quarantinedWcash pendingZcash : ℕ)
  | error (version id : ℕ) (code : BackendErrorCode) (message : Text)
  | event (version : ℕ) (event : BackendEvent)
deriving DecidableEq, Repr

namespace BackendMessage

def version : BackendMessage → ℕ
  | helloOk version _ _ | jobSnapshot version _ _ _ _ | shareCommitted version _ _ _
  | eventsPage version _ _ _ _ _ | healthStatus version _ _ _ _ _ _ _ | error version _ _ _
  | event version _ => version

/-- The identifier of the request that the message answers. -/
def correlationId : BackendMessage → Option ℕ
  | helloOk _ id _ | jobSnapshot _ id _ _ _ | shareCommitted _ id _ _ | eventsPage _ id _ _ _ _
  | healthStatus _ id _ _ _ _ _ _ | error _ id _ _ => some id
  | event _ _ => none

end BackendMessage

/-! ## §3. Validation of replies -/

def HelloOk.validate (hello : HelloOk) : Check := do
  requireNonNilUuid hello.backendSession "hello_ok.backend_session"
  requireNonNilUuid hello.backendInstance "hello_ok.backend_instance"
  requireNonNilUuid hello.journalStream "hello_ok.journal_stream"
  checkField (hello.backendSession = hello.backendInstance ∨
      hello.backendSession = hello.journalStream ∨ hello.backendInstance = hello.journalStream)
    "hello_ok identities" "session, backend instance, and journal stream must be distinct"
  checkField (hello.capabilities.length ≠ requiredBackendCapabilities.length ∨
      ¬ hello.capabilities.Nodup ∨
      ∃ required ∈ requiredBackendCapabilities, required ∉ hello.capabilities)
    "hello_ok.capabilities" "must contain every required capability exactly once"
  requireNonzeroHex hello.wcashGenesis "hello_ok.wcash_genesis"
  requireNonzeroHex hello.zcashGenesis "hello_ok.zcash_genesis"
  requireNonzeroHex hello.wcashPayoutCommitment "hello_ok.wcash_payout_commitment"
  requireNonzeroHex hello.zcashPayoutCommitment "hello_ok.zcash_payout_commitment"
  requireNonzeroHex hello.shareTargetCeilingBe "hello_ok.share_target_ceiling_be"
  checkField (hello.chainId = 0) "hello_ok.chain_id" "must be nonzero"

def validateJobSnapshot (current : Option AcceptableJob) (recent : List AcceptableJob) : Check := do
  checkField (recent.length > 2) "job_snapshot.recent" "must contain at most two jobs"
  current.toList.forM AcceptableJob.validate
  recent.forM AcceptableJob.validate
  checkField (¬ ((current.toList ++ recent).map (·.job.jobId)).Nodup) "job_snapshot"
    "contains the same job more than once"

/-- The loop over a page's events.  It returns the number of the last one. -/
def validateEvents (ext : External) : ℕ → List BackendEvent → Except ProtocolError ℕ
  | previous, [] => .ok previous
  | previous, event :: events => do
    event.validate ext
    -- `checked_add`, in 64 bits
    checkField (previous + 1 ≥ 2 ^ 64) "events_page.events"
      "event sequence overflowed after the cursor"
    checkField (event.eventSeq ≠ previous + 1) "events_page.events"
      "event sequences must be contiguous after the cursor"
    validateEvents ext event.eventSeq events

def validateEventsPage (ext : External) (afterEventSeq nextEventSeq : ℕ) (complete : Bool)
    (events : List BackendEvent) : Check := do
  checkField (events.length > maxEventPageItems) "events_page.events"
    "must contain at most 1024 events"
  checkField (¬ complete ∧ events = []) "events_page.events"
    "an incomplete page must advance with at least one event"
  let previous ← validateEvents ext afterEventSeq events
  checkField (nextEventSeq ≠ previous) "events_page.next_event_seq"
    "must equal the final event sequence or the empty-page cursor"

def validateErrorMessage (message : Text) : Check := do
  checkField (¬ (1 ≤ message.length ∧ message.length ≤ 512)) "error.message"
    "must contain 1..=512 bytes"
  checkField (message.any asciiControl) "error.message" "must not contain control bytes"

def BackendMessage.validate (ext : External) (message : BackendMessage) : Check := do
  checkField (message.version ≠ backendProtocolVersion) "backend.v" "must equal 2"
  match message with
  | .helloOk _ id hello => do
    requireNonzeroId id
    hello.validate
  | .jobSnapshot _ id _ current recent => do
    requireNonzeroId id
    validateJobSnapshot current recent
  | .shareCommitted _ id receipt _ => do
    requireNonzeroId id
    receipt.validate
  | .eventsPage _ id afterEventSeq nextEventSeq complete events => do
    requireNonzeroId id
    validateEventsPage ext afterEventSeq nextEventSeq complete events
  | .healthStatus _ id _ healthy recoveryOnly pendingWcash quarantinedWcash _ => do
    requireNonzeroId id
    checkField (healthy ∧ recoveryOnly) "health_status.recovery_only"
      "cannot be combined with ordinary healthy admission"
    checkField (quarantinedWcash > pendingWcash) "health_status.quarantined_wcash"
      "must not exceed pending_wcash"
  -- the identifier of an error may be zero
  | .error _ _ _ message => validateErrorMessage message
  | .event _ journaled => journaled.validate ext

/-! ## §4. The journal in a page -/

/-- The events of a valid page follow its cursor. -/
theorem validateEvents_eq_ok {ext : External} {previous last : ℕ} {events : List BackendEvent}
    (h : validateEvents ext previous events = .ok last) :
    Follows BackendEvent.eventSeq previous events ∧ last = previous + events.length := by
  induction events generalizing previous with
  | nil =>
    injection h with hlast
    exact ⟨Follows.nil, hlast.symm⟩
  | cons event events ih =>
    obtain ⟨_, hnext, h⟩ := bind_eq_ok.mp (passed (passed h))
    obtain ⟨hfollows, hlast⟩ := ih h
    have hseq : event.eventSeq = previous + 1 := not_not.mp (rejectIf_eq_ok.mp hnext)
    rw [hseq] at hfollows hlast
    refine ⟨⟨hseq, hfollows⟩, ?_⟩
    rw [hlast, List.length_cons]
    omega

/-- **A valid page goes on where its cursor stands** and hands back the cursor of its last event. -/
theorem BackendMessage.page_follows {ext : External} {version id after next : ℕ} {complete : Bool}
    {events : List BackendEvent}
    (h : (BackendMessage.eventsPage version id after next complete events).validate ext = .ok ()) :
    Follows BackendEvent.eventSeq after events ∧ next = after + events.length := by
  obtain ⟨last, hevents, h⟩ := bind_eq_ok.mp (passed (passed (passed (passed h))))
  obtain ⟨hfollows, hlast⟩ := validateEvents_eq_ok hevents
  exact ⟨hfollows, (not_not.mp (rejectIf_eq_ok.mp h)).trans hlast⟩

end WcashPool.Protocol
