/-
  WcashPool.Client.Wire — the bytes between the pool and its consensus backend
  (`unix.rs`).

  A frame is four bytes of length, big-endian, and a JSON payload of at most
  65536 bytes.  The reader takes the bytes as they come: it asks after each byte
  whether a frame is complete, so that a frame may arrive in pieces of any size
  and the stream may end anywhere inside one.

  JSON is library code of the source; it enters as the parameter `Codec`.
-/
import WcashPool.Protocol.Messages

namespace WcashPool.Client

open Fallible Protocol

/-! ## §1. Errors -/

/-- One-way stream state of a connection. -/
inductive BackendStreamPhase
  | replay
  | live
deriving DecidableEq, Repr

inductive ClientConfigError
  | invalidEventQueueCapacity (actual maximum : ℕ)
  | duplicatePersistentIdentity
deriving DecidableEq, Repr

/-- What a call reports.  (The operating system's own errors carry no data here.) -/
inductive ClientError
  | config (error : ClientConfigError)
  | timeout (operation : String)
  | io (operation : String)
  | cleanEof
  | truncatedFrame (frameSection : String) (expected actual : ℕ)
  | frameTooLarge (actual maximum : ℕ)
  | protocol (error : WireError)
  | versionMismatch (expected actual : ℕ)
  | wrongResponseId (expected actual : ℕ)
  | unexpectedResponse (expected actual : String)
  | identityMismatch (field : String)
  | eventCursorAhead (requested backend : ℕ)
  | snapshotCursorBehind (requested snapshot : ℕ)
  | missingJournalIdentity
  | eventPageCursorMismatch (expected actual : ℕ)
  | eventPageLimitExceeded (requested actual : ℕ)
  | invalidStreamPhase (operation : String) (required actual : BackendStreamPhase)
  | replayCursorMismatch (expected actual : ℕ)
  | replayIncomplete (cursor : ℕ)
  | eventWatermarkRollback (operation : String) (previous received : ℕ)
  | liveEventSequenceMismatch (expected actual : ℕ)
  | liveEventFlushIncomplete (operation : String) (required delivered : ℕ)
  | shareCommitEventMismatch (eventSeq : ℕ)
  | shareCommitHistoryConflict (recordedEventSeq claimedEventSeq : ℕ)
  | historicalReplayRequiresProjection (receipt : ShareReceipt)
  | freshShareCommitDidNotAdvance (eventSeq previousEventSeq : ℕ)
  | contradictoryShareOutcome (eventSeq : ℕ)
  | eventQueueFull (capacity : ℕ)
  | backendRejected (code : BackendErrorCode) (message : Text)
  | connectionUnusable
  | requestIdExhausted
deriving DecidableEq, Repr

/-- A field check of the protocol that failed. -/
def ClientError.invalidField (field reason : String) : ClientError :=
  .protocol (.field (.invalidField field reason))

/-- Does the error hand a receipt over to the durable projection? -/
def ClientError.isReplay : ClientError → Bool
  | .historicalReplayRequiresProjection _ => true
  | _ => false

/-! ## §2. JSON and frames -/

/-- The JSON library of the source, as far as the client calls it. -/
structure Codec where
  /-- The JSON text of a request. -/
  request : BackendRequest → List UInt8
  /-- The number under the key `v` of a JSON text, if there is one; `none` if it is no JSON. -/
  envelopeVersion : List UInt8 → Option (Option ℕ)
  /-- The strict reading of a JSON text as a message. -/
  message : List UInt8 → Option BackendMessage

/-- The number that big-endian bytes spell. -/
def beValue (bytes : List UInt8) : ℕ := bytes.foldl (fun value byte => value * 256 + byte.toNat) 0

/-- The four big-endian bytes of a length. -/
def beBytes32 (value : ℕ) : List UInt8 :=
  [UInt8.ofNat (value / 2 ^ 24), UInt8.ofNat (value / 2 ^ 16), UInt8.ofNat (value / 2 ^ 8),
    UInt8.ofNat value]

def encodeBackendRequest (codec : Codec) (request : BackendRequest) :
    Except WireError (List UInt8) := do
  request.validate.mapError .field
  let payload := codec.request request
  rejectIf (payload = []) WireError.emptyFrame
  rejectIf (payload.length > maxBackendPayloadBytes)
    (WireError.frameTooLarge maxBackendPayloadBytes payload.length)
  pure (beBytes32 payload.length ++ payload)

/-- What the bytes read since the last frame amount to. -/
inductive Frame
  | incomplete
  | refused (error : ClientError)
  | complete (payload : List UInt8)
deriving DecidableEq, Repr

/-- The length that a frame declares. -/
def declaredLength (received : List UInt8) : ℕ := beValue (received.take backendLengthPrefixBytes)

/-- The checks on the length are made as soon as its four bytes are there. -/
def frameOf (received : List UInt8) : Frame :=
  if received.length < backendLengthPrefixBytes then .incomplete
  else if declaredLength received = 0 then .refused (.protocol .emptyFrame)
  else if declaredLength received > maxBackendPayloadBytes then
    .refused (.frameTooLarge (declaredLength received) maxBackendPayloadBytes)
  else if received.length < backendLengthPrefixBytes + declaredLength received then .incomplete
  else .complete (received.drop backendLengthPrefixBytes)

/-- The stream ended inside a frame, or between two. -/
def truncated (received : List UInt8) : ClientError :=
  if received = [] then .cleanEof
  else if received.length < backendLengthPrefixBytes then
    .truncatedFrame "length prefix" backendLengthPrefixBytes received.length
  else .truncatedFrame "payload" (declaredLength received)
    (received.length - backendLengthPrefixBytes)

/-- What `read_backend_message` makes of a payload. -/
def decodeMessage (ext : External) (codec : Codec) (payload : List UInt8) :
    Except ClientError BackendMessage := do
  let version : Option ℕ ← orReject (.protocol .json) (codec.envelopeVersion payload)
  rejectIf (∃ actual ∈ version, actual ≠ backendProtocolVersion)
    (.versionMismatch backendProtocolVersion (version.getD 0))
  let message ← orReject (.protocol .json) (codec.message payload)
  (message.validate ext).mapError (.protocol ∘ .field)
  pure message

variable {codec : Codec} {ext : External} {message : BackendMessage}

theorem decodeMessage_validate {payload : List UInt8}
    (h : decodeMessage ext codec payload = .ok message) : message.validate ext = .ok () := by
  obtain ⟨_, -, h⟩ := bind_eq_ok.mp h
  obtain ⟨_, -, h⟩ := bind_eq_ok.mp h
  obtain ⟨_, -, h⟩ := bind_eq_ok.mp h
  obtain ⟨_, hvalid, h⟩ := bind_eq_ok.mp h
  injection h with heq
  exact heq ▸ mapError_eq_ok.mp hvalid

theorem decodeMessage_isReplay {payload : List UInt8} {error : ClientError}
    (h : decodeMessage ext codec payload = .error error) : error.isReplay = false := by
  rcases bind_eq_error.mp h with h | ⟨version, -, h⟩
  · rw [← (orReject_eq_error.mp h).2]
    rfl
  rcases bind_eq_error.mp h with h | ⟨_, -, h⟩
  · rw [← (rejectIf_eq_error.mp h).2]
    rfl
  rcases bind_eq_error.mp h with h | ⟨message, -, h⟩
  · rw [← (orReject_eq_error.mp h).2]
    rfl
  rcases bind_eq_error.mp h with h | ⟨_, -, h⟩
  · cases hvalid : message.validate ext with
    | ok _ =>
      rw [hvalid] at h
      cases h
    | error _ =>
      rw [hvalid] at h
      injection h with h
      rw [← h]
      rfl
  · cases h

theorem frameOf_isReplay {received : List UInt8} {error : ClientError}
    (h : frameOf received = .refused error) : error.isReplay = false := by
  unfold frameOf at h
  split_ifs at h
  · injection h with h
    rw [← h]
    rfl
  · injection h with h
    rw [← h]
    rfl

theorem truncated_isReplay (received : List UInt8) : (truncated received).isReplay = false := by
  unfold truncated
  split_ifs
  · rfl
  · rfl
  · rfl

/-- **One frame**: the bytes carry this message, and no part of them is a frame before. -/
structure Carries (ext : External) (codec : Codec) (frame : List UInt8) (message : BackendMessage) :
    Prop where
  first : ∀ front, front <+: frame → front ≠ frame → frameOf front = .incomplete
  decoded : ∃ payload, frameOf frame = .complete payload ∧
    decodeMessage ext codec payload = .ok message

/-- Two frames at the start of the same bytes are the same frame. -/
theorem Carries.unique {frame frame' bytes : List UInt8} {message' : BackendMessage}
    (h : Carries ext codec frame message) (h' : Carries ext codec frame' message')
    (hbytes : frame <+: bytes) (hbytes' : frame' <+: bytes) :
    frame = frame' ∧ message = message' := by
  obtain ⟨payload, hframe, hdecode⟩ := h.decoded
  obtain ⟨payload', hframe', hdecode'⟩ := h'.decoded
  have hsame : frame = frame' := by
    by_contra hne
    -- the shorter of the two would be incomplete
    obtain hle | hle := List.prefix_or_prefix_of_prefix hbytes hbytes'
    · rw [h'.first frame hle hne] at hframe
      cases hframe
    · rw [h.first frame' hle (Ne.symm hne)] at hframe'
      cases hframe'
  subst hsame
  rw [hframe] at hframe'
  injection hframe' with hpayload
  rw [← hpayload, hdecode] at hdecode'
  injection hdecode' with hmessage
  exact ⟨rfl, hmessage⟩

/-- Read frame by frame, the bytes come to this message past nothing but events. -/
def Holds (ext : External) (codec : Codec) (bytes : List UInt8) (message : BackendMessage) : Prop :=
  ∃ (earlier : List (List UInt8)) (frame : List UInt8), earlier.flatten ++ frame <+: bytes ∧
    (∀ front ∈ earlier, ∃ version event, Carries ext codec front (.event version event)) ∧
    Carries ext codec frame message

theorem Holds.of_carries {frame : List UInt8} (h : Carries ext codec frame message)
    (rest : List UInt8) : Holds ext codec (frame ++ rest) message :=
  ⟨[], frame, List.prefix_append frame rest, fun _ h => absurd h List.not_mem_nil, h⟩

theorem Holds.widen {front bytes : List UInt8} {version : ℕ} {event : BackendEvent}
    (h : Holds ext codec bytes message) (hfront : Carries ext codec front (.event version event)) :
    Holds ext codec (front ++ bytes) message := by
  obtain ⟨earlier, frame, hbytes, hearlier, hframe⟩ := h
  refine ⟨front :: earlier, frame, ?_, ?_, hframe⟩
  · rw [List.flatten_cons, List.append_assoc]
    exact (List.prefix_append_right_inj front).mpr hbytes
  · intro other hmem
    cases List.mem_cons.mp hmem with
    | inl heq => exact heq ▸ ⟨version, event, hfront⟩
    | inr hmem => exact hearlier other hmem

/-- The journal event stands in the bytes. -/
def Arrives (ext : External) (codec : Codec) (bytes : List UInt8) (event : BackendEvent) : Prop :=
  ∃ version, Holds ext codec bytes (.event version event)

/-! ## §3. What a socket does during one exchange -/

/-- How the bytes stop. -/
inductive Ending
  /-- The peer closed the stream. -/
  | closed
  /-- The operating system reported an error. -/
  | failed
  /-- The deadline of the request passed. -/
  | elapsed
  /-- The caller dropped the exchange. -/
  | abandoned
deriving DecidableEq, Repr

/-- **One exchange as the socket sees it**: the moment before it, how far the request was
    written if it was not written whole, the bytes that arrive while the client reads, and what
    comes when they are used up.  Bytes that the client does not read in this exchange are left to
    a later one. -/
structure Io where
  anchor : ℕ
  cut : Option (ℕ × Ending)
  bytes : List UInt8
  ending : Ending
deriving DecidableEq, Repr

end WcashPool.Client
