/-
  WcashPool.Client.Exchanges — what one exchange can do to a connection.

  However an exchange ends, it has only taken up live events, each the next one
  after the live cursor, and left every other part of the journal's state alone
  (`Receives`).  Each event it took up stood as a frame in the bytes that
  arrived and carries the anchor and the binding of the connection.  A
  connection that is unusable is not touched at all.

  Main results: `readReply_spec`, `exchange_spec` and `request_rule`.
-/
import WcashPool.Client.Calls

namespace WcashPool.Client

open Fallible Protocol Sequence Tasks Tasks.Task

namespace BackendClient

/-! ## §1. The effect on the journal -/

/-- **The connection received `news`** and nothing else happened to its journal state. -/
structure Receives (c c' : BackendClient) (news : List DeliveredBackendEvent) : Prop where
  config : c'.config = c.config
  identity : c'.identity = c.identity
  connectionToken : c'.connectionToken = c.connectionToken
  observed : c'.observedEvents = c.observedEvents
  historical : c'.historicalEvents = c.historicalEvents
  phase : c'.phase = c.phase
  replayCursor : c'.replayCursor = c.replayCursor
  subscribed : c'.subscribedSnapshotEventSeq = c.subscribedSnapshotEventSeq
  queued : c'.queuedEvents = c.queuedEvents ++ news
  cursor : c'.liveEventCursor = c.liveEventCursor.map (· + news.length)
  follows : ∀ cursor ∈ c.liveEventCursor, Follows DeliveredBackendEvent.eventSeq cursor news
  quiet : c.liveEventCursor = none → news = []
  watermark : c.observedEventHighWatermark ≤ c'.observedEventHighWatermark
  reached : news ≠ [] → ∀ cursor ∈ c'.liveEventCursor, cursor ≤ c'.observedEventHighWatermark

namespace Receives

variable {c c' c'' : BackendClient} {news more : List DeliveredBackendEvent}

/-- Outside the journal anything may have changed. -/
theorem aside (c : BackendClient) (stream : List UInt8) (nextRequestId : ℕ) (replayComplete : Bool)
    (floor : Option ℕ) (usable : Bool) :
    Receives c { c with
      stream := stream
      nextRequestId := nextRequestId
      replayComplete := replayComplete
      liveEventAnchorFloor := floor
      usable := usable } [] where
  config := rfl
  identity := rfl
  connectionToken := rfl
  observed := rfl
  historical := rfl
  phase := rfl
  replayCursor := rfl
  subscribed := rfl
  queued := (List.append_nil _).symm
  cursor := by cases c.liveEventCursor <;> rfl
  follows := fun _ _ => Follows.nil
  quiet := fun _ => rfl
  watermark := le_rfl
  reached := fun h => absurd rfl h

theorem refl (c : BackendClient) : Receives c c [] := aside c _ _ _ _ _

/-- A higher watermark was heard of. -/
theorem raise (c : BackendClient) {watermark : ℕ} (h : c.observedEventHighWatermark ≤ watermark)
    (replayComplete : Bool) :
    Receives c { c with
      observedEventHighWatermark := watermark
      replayComplete := replayComplete } [] :=
  { refl c with watermark := h, reached := fun hne => absurd rfl hne }

/-- Receptions in a row. -/
theorem trans (h : Receives c c' news) (h' : Receives c' c'' more) :
    Receives c c'' (news ++ more) where
  config := h'.config.trans h.config
  identity := h'.identity.trans h.identity
  connectionToken := h'.connectionToken.trans h.connectionToken
  observed := h'.observed.trans h.observed
  historical := h'.historical.trans h.historical
  phase := h'.phase.trans h.phase
  replayCursor := h'.replayCursor.trans h.replayCursor
  subscribed := h'.subscribed.trans h.subscribed
  queued := by rw [h'.queued, h.queued, List.append_assoc]
  cursor := by
    rw [h'.cursor, h.cursor, Option.map_map, List.length_append]
    congr 1
    funext n
    exact Nat.add_assoc n _ _
  follows := by
    intro cursor hcursor
    refine follows_append.mpr ⟨h.follows cursor hcursor, h'.follows _ ?_⟩
    rw [h.cursor, Option.mem_def.mp hcursor]
    rfl
  quiet := by
    intro hnone
    rw [h.quiet hnone, h'.quiet (by rw [h.cursor, hnone]; rfl)]
    rfl
  watermark := h.watermark.trans h'.watermark
  reached := by
    intro hne cursor hcursor
    by_cases hmore : more = []
    · subst hmore
      rw [List.append_nil] at hne
      have hcursor' : cursor ∈ c'.liveEventCursor := by
        rw [h'.cursor] at hcursor
        simpa using hcursor
      exact (h.reached hne cursor hcursor').trans h'.watermark
    · exact h'.reached hmore cursor hcursor

end Receives

/-! ## §2. Taking up one event -/

/-- The connection with one more event in its queue. -/
def deliver (c : BackendClient) (delivered : DeliveredBackendEvent) : BackendClient :=
  { c with
    liveEventCursor := some delivered.eventSeq
    observedEventHighWatermark := max c.observedEventHighWatermark delivered.eventSeq
    queuedEvents := c.queuedEvents ++ [delivered] }

/-- A delivery is the reception of one event. -/
theorem deliver_receives {c : BackendClient} {delivered : DeliveredBackendEvent} {previous : ℕ}
    (hcursor : c.liveEventCursor = some previous) (hnext : delivered.eventSeq = previous + 1) :
    Receives c (c.deliver delivered) [delivered] where
  config := rfl
  identity := rfl
  connectionToken := rfl
  observed := rfl
  historical := rfl
  phase := rfl
  replayCursor := rfl
  subscribed := rfl
  queued := rfl
  cursor := by
    rw [hcursor]
    exact congrArg some hnext
  follows := by
    intro cursor hmem
    rw [hcursor, Option.mem_def, Option.some.injEq] at hmem
    exact ⟨hmem ▸ hnext, trivial⟩
  quiet := fun hnone => by simp [hcursor] at hnone
  watermark := le_max_left _ _
  reached := by
    intro _ cursor hmem
    obtain rfl : delivered.eventSeq = cursor := Option.some.inj hmem
    exact le_max_right _ _

/-- Events are let in only where they can be bound to the connection. -/
def Awaited.Bound (awaited : Awaited) : Prop :=
  awaited.allowEvents = true → awaited.eventBinding.isSome

/-- **An event is taken up or refused**; a refusal changes nothing. -/
theorem acceptEvent_cases {awaited : Awaited} (hbound : Awaited.Bound awaited)
    (event : BackendEvent) (c : BackendClient) :
    (∃ binding previous, awaited.allowEvents = true ∧ awaited.eventBinding = some binding ∧
      c.liveEventCursor = some previous ∧ event.eventSeq = previous + 1 ∧
      acceptEvent awaited event c =
        (.done (), c.deliver ⟨event, awaited.eventAnchor, binding⟩)) ∨
    ∃ error, error.isReplay = false ∧ acceptEvent awaited event c = (.failed error, c) := by
  unfold acceptEvent
  rw [failIf_bind]
  split
  · exact .inr ⟨_, rfl, rfl⟩
  next hallow =>
  rw [get_bind]
  cases hcursor : c.liveEventCursor with
  | none => exact .inr ⟨_, rfl, rfl⟩
  | some previous =>
    rw [ofOption_some, pure_bind', failIf_bind]
    split
    · exact .inr ⟨_, rfl, rfl⟩
    rw [failIf_bind]
    split
    · exact .inr ⟨_, rfl, rfl⟩
    next hseq =>
    rw [failIf_bind]
    split
    · exact .inr ⟨_, rfl, rfl⟩
    have hallow : awaited.allowEvents = true := by simpa using hallow
    obtain ⟨binding, hbinding⟩ := Option.isSome_iff_exists.mp (hbound hallow)
    refine .inl ⟨binding, previous, hallow, hbinding, rfl, not_not.mp hseq, ?_⟩
    rw [modify_bind, hbinding]
    rfl

/-- A reply is the awaited one, or an error. -/
theorem acceptReply_cases (awaited : Awaited) (message : BackendMessage) (c : BackendClient) :
    acceptReply awaited message c = (.done message, c) ∨
    ∃ error, error.isReplay = false ∧ acceptReply awaited message c = (.failed error, c) := by
  unfold acceptReply
  cases message.correlationId with
  | none => exact .inr ⟨_, rfl, rfl⟩
  | some responseId =>
    rw [ofOption_some, pure_bind', failIf_bind]
    split
    · exact .inr ⟨_, rfl, rfl⟩
    · exact .inl rfl

/-! ## §3. The reading loop -/

section Reading

variable (ext : External) (codec : Codec)

/-- What a delivered event owes to the exchange that delivered it. -/
structure Stamped (awaited : Awaited) (bytes : List UInt8) (delivered : DeliveredBackendEvent) :
    Prop where
  binding : awaited.eventBinding = some delivered.connectionBinding
  anchor : delivered.anchor = awaited.eventAnchor
  arrives : Arrives ext codec bytes delivered.event

variable {ext codec} {awaited : Awaited} {bytes : List UInt8}

theorem Stamped.widen {delivered : DeliveredBackendEvent}
    (h : Stamped ext codec awaited bytes delivered) {front : List UInt8} {version : ℕ}
    {event : BackendEvent} (hfront : Carries ext codec front (.event version event)) :
    Stamped ext codec awaited (front ++ bytes) delivered := by
  obtain ⟨version', hholds⟩ := h.arrives
  exact ⟨h.binding, h.anchor, version', hholds.widen hfront⟩

/-- The reply is valid and stood in the bytes, and an error is none of the replay's. -/
abbrev Replies (ext : External) (codec : Codec) (bytes : List UInt8) :
    Outcome ClientError BackendMessage × BackendClient → Prop :=
  Ends (fun message _ => message.validate ext = .ok () ∧ Holds ext codec bytes message)
    (fun error _ => error.isReplay = false) fun _ => True

/-- What the reading loop leaves behind. -/
structure Reads (ext : External) (codec : Codec) (awaited : Awaited) (bytes : List UInt8)
    (c : BackendClient) (result : Outcome ClientError BackendMessage × BackendClient)
    (news : List DeliveredBackendEvent) : Prop where
  receives : Receives c result.2 news
  stream : result.2.stream = c.stream
  floor : result.2.liveEventAnchorFloor = c.liveEventAnchorFloor
  stamped : ∀ delivered ∈ news, Stamped ext codec awaited bytes delivered
  allowed : news ≠ [] → awaited.allowEvents = true
  replies : Replies ext codec bytes result

variable {c : BackendClient}

/-- A loop that ends here has taken up nothing more. -/
theorem Reads.of_unchanged {outcome : Outcome ClientError BackendMessage}
    (h : Replies ext codec bytes (outcome, c)) : Reads ext codec awaited bytes c (outcome, c) [] where
  receives := Receives.refl c
  stream := rfl
  floor := rfl
  stamped := fun _ h => absurd h List.not_mem_nil
  allowed := fun h => absurd rfl h
  replies := h

theorem endOfBytes_reads (awaited : Awaited) (received bytes : List UInt8) (ending : Ending)
    (c : BackendClient) :
    Reads ext codec awaited bytes c (endOfBytes awaited.operation received ending c) [] := by
  cases ending with
  | closed => exact .of_unchanged (truncated_isReplay received)
  | failed => exact .of_unchanged rfl
  | elapsed => exact .of_unchanged rfl
  | abandoned => exact .of_unchanged trivial

/-- A reply stands in the bytes that were read. -/
theorem acceptReply_reads {message : BackendMessage} (hvalid : message.validate ext = .ok ())
    (hholds : Holds ext codec bytes message) (c : BackendClient) :
    Reads ext codec awaited bytes c (acceptReply awaited message c) [] := by
  obtain haccept | ⟨error, herror, haccept⟩ := acceptReply_cases awaited message c
  · rw [haccept]
    exact .of_unchanged ⟨hvalid, hholds⟩
  · rw [haccept]
    exact .of_unchanged herror

/-- No frame is complete yet in these bytes. -/
def Unfinished (received : List UInt8) : Prop :=
  ∀ front, front <+: received → frameOf front = .incomplete

theorem Unfinished.nil : Unfinished [] := by
  intro front hfront
  rw [List.prefix_nil.mp hfront]
  rfl

theorem Unfinished.concat {received : List UInt8} (h : Unfinished received) {byte : UInt8}
    (hframe : frameOf (received ++ [byte]) = .incomplete) : Unfinished (received ++ [byte]) := by
  intro front hfront
  obtain rfl | hshort := List.prefix_concat_iff.mp hfront
  · exact hframe
  · exact h front hshort

/-- The byte that completes a frame. -/
theorem Unfinished.carries {received : List UInt8} (h : Unfinished received) {byte : UInt8}
    {payload : List UInt8} {message : BackendMessage}
    (hframe : frameOf (received ++ [byte]) = .complete payload)
    (hdecode : decodeMessage ext codec payload = .ok message) :
    Carries ext codec (received ++ [byte]) message where
  first := by
    intro front hfront hne
    obtain heq | hshort := List.prefix_concat_iff.mp hfront
    · exact absurd heq hne
    · exact h front hshort
  decoded := ⟨payload, hframe, hdecode⟩

/-- **The reading loop** takes up consecutive events that stood in the bytes, and ends with a valid
    reply to the request or without one. -/
theorem readReply_spec (ext : External) (codec : Codec) (hbound : Awaited.Bound awaited)
    (ending : Ending) (received bytes : List UInt8) (hunfinished : Unfinished received)
    (c : BackendClient) :
    ∃ news, Reads ext codec awaited (received ++ bytes) c
      (readReply ext codec awaited ending received bytes c) news := by
  -- along the bytes; a complete frame starts the next one with nothing received
  induction bytes generalizing received c with
  | nil => exact ⟨[], endOfBytes_reads awaited received _ ending c⟩
  | cons byte bytes ih =>
    have hbytes : received ++ byte :: bytes = received ++ [byte] ++ bytes := by simp
    rw [hbytes]
    unfold readReply
    cases hframe : frameOf (received ++ [byte]) with
    | incomplete => exact ih (received ++ [byte]) (hunfinished.concat hframe) c
    | refused error => exact ⟨[], .of_unchanged (frameOf_isReplay hframe)⟩
    | complete payload =>
      dsimp only
      cases hdecode : decodeMessage ext codec payload with
      | error error => exact ⟨[], .of_unchanged (decodeMessage_isReplay hdecode)⟩
      | ok message =>
        have hcarries := hunfinished.carries hframe hdecode
        have hholds := Holds.of_carries hcarries bytes
        cases message with
        | event version event =>
          show ∃ news, Reads ext codec awaited _ c ((acceptEvent awaited event >>= fun _ =>
            readReply ext codec awaited ending [] bytes) c) news
          rw [bind_apply]
          obtain ⟨binding, previous, hallow, hbinding, hcursor, hnext, haccept⟩ |
            ⟨error, herror, haccept⟩ := acceptEvent_cases hbound event c
          · rw [haccept]
            obtain ⟨news, hnews⟩ := ih [] Unfinished.nil
              (c.deliver ⟨event, awaited.eventAnchor, binding⟩)
            refine ⟨_ :: news, (deliver_receives hcursor hnext).trans hnews.receives, hnews.stream,
              hnews.floor, ?_, fun _ => hallow, ?_⟩
            · refine List.forall_mem_cons.mpr ⟨⟨hbinding, rfl, version, hholds⟩, ?_⟩
              exact fun delivered hmem => (hnews.stamped delivered hmem).widen hcarries
            · exact hnews.replies.imp fun _ _ ⟨hvalid, hreply⟩ => ⟨hvalid, hreply.widen hcarries⟩
          · rw [haccept]
            exact ⟨[], .of_unchanged herror⟩
        | _ => exact ⟨[], acceptReply_reads (decodeMessage_validate hdecode) hholds c⟩

/-! ## §4. The exchange -/

variable {io : Io} {allowEvents : Bool}

/-- Nothing came, and nothing was written or anchored. -/
structure Calm (c c' : BackendClient) : Prop where
  receives : Receives c c' []
  floor : c'.liveEventAnchorFloor = c.liveEventAnchorFloor
  stream : c'.stream = c.stream

theorem Calm.refl (c : BackendClient) : Calm c c := ⟨Receives.refl c, rfl, rfl⟩

variable {c' : BackendClient}

theorem Calm.raise (c : BackendClient) {watermark : ℕ} (h : c.observedEventHighWatermark ≤ watermark)
    (replayComplete : Bool) :
    Calm c { c with
      observedEventHighWatermark := watermark
      replayComplete := replayComplete } :=
  ⟨Receives.raise c h replayComplete, rfl, rfl⟩

theorem giveUp_calm (c : BackendClient) : Calm c c.giveUp :=
  ⟨Receives.aside c _ _ _ _ _, rfl, rfl⟩

/-- **The connection received `news` in one exchange.**  The floor of the anchors moves only to the
    anchor of a request that was written. -/
structure News (ext : External) (codec : Codec) (allowEvents : Bool) (io : Io)
    (c c' : BackendClient) (news : List DeliveredBackendEvent) : Prop where
  receives : Receives c c' news
  stamped : ∀ delivered ∈ news, c.connectionBinding = some delivered.connectionBinding ∧
    c.liveEventAnchorFloor = some delivered.anchor ∧ Arrives ext codec io.bytes delivered.event
  allowed : news ≠ [] → allowEvents = true
  written : news ≠ [] → c.stream.length < c'.stream.length
  floor : c'.liveEventAnchorFloor = c.liveEventAnchorFloor ∨
    (allowEvents = true ∧ c'.liveEventAnchorFloor = some io.anchor ∧
      c.stream.length < c'.stream.length)

/-- Only news came in. -/
abbrev Heard (ext : External) (codec : Codec) (allowEvents : Bool) (io : Io)
    (c c' : BackendClient) : Prop :=
  ∃ news, News ext codec allowEvents io c c' news

theorem Heard.nothing (hreceives : Receives c c' [])
    (hfloor : c'.liveEventAnchorFloor = c.liveEventAnchorFloor) :
    Heard ext codec allowEvents io c c' :=
  ⟨[], hreceives, fun _ h => absurd h List.not_mem_nil, fun h => absurd rfl h,
    fun h => absurd rfl h, .inl hfloor⟩

theorem Heard.of_calm (h : Calm c c') : Heard ext codec allowEvents io c c' :=
  .nothing h.receives h.floor

/-- A calm change may follow. -/
theorem Heard.calm {c'' : BackendClient} (h : Heard ext codec allowEvents io c c')
    (h' : Calm c' c'') : Heard ext codec allowEvents io c c'' := by
  obtain ⟨news, h⟩ := h
  exact ⟨news, by simpa using h.receives.trans h'.receives, h.stamped, h.allowed,
    by rw [h'.stream]; exact h.written, by rw [h'.floor, h'.stream]; exact h.floor⟩

theorem Heard.gaveUp (h : Heard ext codec allowEvents io c c') :
    Heard ext codec allowEvents io c c'.giveUp := h.calm (giveUp_calm c')

/-- An exchange that lets no events in brings none and anchors none. -/
theorem Heard.quiet (h : Heard ext codec false io c c') :
    Receives c c' [] ∧ c'.liveEventAnchorFloor = c.liveEventAnchorFloor := by
  obtain ⟨news, h⟩ := h
  have hnil : news = [] := by
    by_contra hne
    cases h.allowed hne
  obtain hfloor | ⟨hfalse, -⟩ := h.floor
  · exact ⟨hnil ▸ h.receives, hfloor⟩
  · cases hfalse

/-- Where events may be delivered from. -/
theorem eventSource_cases (allowEvents : Bool) (anchor : ℕ) (c : BackendClient) :
    (allowEvents = false ∧ eventSource allowEvents anchor c = (.done (anchor, none), c)) ∨
    (allowEvents = true ∧ ∃ floor binding, c.liveEventAnchorFloor = some floor ∧
      c.connectionBinding = some binding ∧
      eventSource allowEvents anchor c = (.done (floor, some binding), c)) ∨
    ∃ error, error.isReplay = false ∧
      eventSource allowEvents anchor c = (.failed error, c.giveUp) := by
  unfold eventSource
  rw [get_bind]
  cases allowEvents with
  | false => exact .inl ⟨rfl, rfl⟩
  | true =>
    cases hfloor : c.liveEventAnchorFloor with
    | none => exact .inr (.inr ⟨_, rfl, rfl⟩)
    | some floor =>
      cases hbinding : c.connectionBinding with
      | none => exact .inr (.inr ⟨_, rfl, rfl⟩)
      | some binding => exact .inr (.inl ⟨rfl, floor, binding, rfl, rfl, rfl⟩)

/-- A request is written whole, or cut. -/
theorem writeRequest_cases (operation : String) (frame : List UInt8) (cut : Option (ℕ × Ending))
    (c : BackendClient) :
    writeRequest operation frame cut c = (.done (), { c with stream := c.stream ++ frame }) ∨
    ∃ count, (∃ error, error.isReplay = false ∧ writeRequest operation frame cut c =
        (.failed error, { c with stream := c.stream ++ frame.take count })) ∨
      writeRequest operation frame cut c =
        (.dropped, { c with stream := c.stream ++ frame.take count }) := by
  cases cut with
  | none => exact .inl rfl
  | some cut =>
    obtain ⟨count, ending⟩ := cut
    refine .inr ⟨count, ?_⟩
    cases ending with
    | closed => exact .inl ⟨_, rfl, rfl⟩
    | failed => exact .inl ⟨_, rfl, rfl⟩
    | elapsed => exact .inl ⟨_, rfl, rfl⟩
    | abandoned => exact .inr rfl

/-- A request is never empty. -/
theorem encodeBackendRequest_ne_nil {request : BackendRequest} {frame : List UInt8}
    (h : encodeBackendRequest codec request = .ok frame) : frame ≠ [] := by
  replace h := passed (passed (passed h))
  injection h with h
  rw [← h]
  exact List.append_ne_nil_of_left_ne_nil (List.cons_ne_nil _ _) _

/-- The reply to a request that was written. -/
structure Answered (ext : External) (codec : Codec) (allowEvents : Bool) (io : Io)
    (c : BackendClient) (message : BackendMessage) (c' : BackendClient) : Prop where
  heard : Heard ext codec allowEvents io c c'
  written : c.stream.length < c'.stream.length
  valid : message.validate ext = .ok ()
  holds : Holds ext codec io.bytes message

/-- How an exchange ends. -/
abbrev Exchanged (ext : External) (codec : Codec) (allowEvents : Bool) (io : Io)
    (c : BackendClient) : Outcome ClientError (BackendMessage × ℕ) × BackendClient → Prop :=
  Ends (fun reply c' => reply.2 = io.anchor ∧ Answered ext codec allowEvents io c reply.1 c')
    (fun error c' => error.isReplay = false ∧ Heard ext codec allowEvents io c c')
    (Heard ext codec allowEvents io c)

/-- **The transmission** brings consecutive events that stood in the bytes, and a valid reply or
    none. -/
theorem transmit_spec (ext : External) (codec : Codec) (hbound : Awaited.Bound awaited)
    (hsource : awaited.allowEvents = true → c.liveEventAnchorFloor = some awaited.eventAnchor ∧
      awaited.eventBinding = c.connectionBinding)
    {frame : List UInt8} (hframe : frame ≠ []) (io : Io) :
    Exchanged ext codec awaited.allowEvents io c
      ((transmit ext codec awaited frame io >>= fun message => pure (message, io.anchor)) c) := by
  rw [bind_apply]
  unfold transmit
  rw [modify_bind, bind_apply]
  obtain hwrite | ⟨count, ⟨error, herror, hwrite⟩ | hwrite⟩ :=
    writeRequest_cases awaited.operation frame io.cut c.giveUp
  · rw [hwrite]
    dsimp only
    obtain ⟨news, hread⟩ := readReply_spec ext codec hbound io.ending [] io.bytes Unfinished.nil
      { c.giveUp with stream := c.giveUp.stream ++ frame }
    have hbefore : Receives c { c.giveUp with stream := c.giveUp.stream ++ frame } [] :=
      Receives.aside c _ _ _ _ _
    rw [bind_apply]
    generalize readReply ext codec awaited io.ending [] io.bytes _ = result at hread ⊢
    have hwritten : c.stream.length < result.2.stream.length := by
      rw [show result.2.stream = c.stream ++ frame from hread.stream, List.length_append]
      exact Nat.lt_add_of_pos_right (List.length_pos_of_ne_nil hframe)
    have hstamped : ∀ delivered ∈ news, c.connectionBinding = some delivered.connectionBinding ∧
        c.liveEventAnchorFloor = some delivered.anchor ∧
        Arrives ext codec io.bytes delivered.event := by
      intro delivered hmem
      obtain ⟨hfloor, hbinding⟩ := hsource (hread.allowed (List.ne_nil_of_mem hmem))
      have hstamp := hread.stamped delivered hmem
      exact ⟨hbinding ▸ hstamp.binding, hstamp.anchor ▸ hfloor, hstamp.arrives⟩
    -- the floor moves with the reply only, and only where events are let in
    have hheard : ∀ floor usable, floor = c.liveEventAnchorFloor ∨
          awaited.allowEvents = true ∧ floor = some io.anchor →
        Heard ext codec awaited.allowEvents io c
          { result.2 with liveEventAnchorFloor := floor, usable := usable } :=
    fun floor usable hmoved =>
      ⟨news, by simpa using
          (hbefore.trans hread.receives).trans (Receives.aside result.2 _ _ _ floor usable),
        hstamped, hread.allowed, fun _ => hwritten,
        hmoved.imp id fun ⟨hallow, hfloor⟩ => ⟨hallow, hfloor, hwritten⟩⟩
    have hfloor : result.2.liveEventAnchorFloor = c.liveEventAnchorFloor := hread.floor
    obtain ⟨message | error | _, c'⟩ := result
    · obtain ⟨hvalid, hholds⟩ := hread.replies
      refine ⟨rfl, hheard _ _ ?_, hwritten, hvalid, hholds⟩
      split
      · next hallow => exact .inr ⟨hallow, rfl⟩
      · exact .inl hfloor
    · exact ⟨hread.replies, hheard _ c'.usable (.inl hfloor)⟩
    · exact hheard _ c'.usable (.inl hfloor)
  · rw [hwrite]
    exact ⟨herror, .nothing (Receives.aside c _ _ _ _ _) rfl⟩
  · rw [hwrite]
    exact .nothing (Receives.aside c _ _ _ _ _) rfl

theorem ensureUsable_apply (c : BackendClient) :
    ensureUsable c = if c.usable = false then (.failed .connectionUnusable, c) else (.done (), c) := by
  unfold ensureUsable
  rw [get_bind, failIf_apply]

/-- **The exchange**: consecutive events that stood in the bytes, bound to this connection, and a
    valid reply or none. -/
theorem exchange_spec (ext : External) (codec : Codec) (request : BackendRequest)
    (operation : String) (allowEvents : Bool) (io : Io) (c : BackendClient) :
    Exchanged ext codec allowEvents io c
      (exchange ext codec request operation allowEvents io c) := by
  unfold exchange
  rw [bind_apply, ensureUsable_apply]
  split_ifs
  · exact ⟨rfl, .of_calm (Calm.refl c)⟩
  cases hencode : encodeBackendRequest codec request with
  | error error => exact ⟨rfl, .of_calm (Calm.refl c)⟩
  | ok frame =>
    have hframe := encodeBackendRequest_ne_nil hencode
    show Exchanged ext codec allowEvents io c ((eventSource allowEvents io.anchor >>= _) c)
    rw [bind_apply]
    obtain ⟨rfl, hsource⟩ | ⟨rfl, floor, binding, hfloor, hbinding, hsource⟩ |
      ⟨error, herror, hsource⟩ := eventSource_cases allowEvents io.anchor c
    · rw [hsource]
      have hbound : Awaited.Bound ⟨operation, request.id, false, io.anchor, none⟩ := nofun
      exact transmit_spec ext codec hbound nofun hframe io
    · rw [hsource]
      have hbound : Awaited.Bound ⟨operation, request.id, true, floor, some binding⟩ := fun _ => rfl
      exact transmit_spec ext codec hbound (fun _ => ⟨hfloor, hbinding.symm⟩) hframe io
    · rw [hsource]
      exact ⟨herror, .of_calm (giveUp_calm c)⟩

/-! ## §5. A request with its reply -/

section Rules

variable {α : Type} {post : α → BackendClient → Prop} {bad : ClientError → BackendClient → Prop}
  {lost : BackendClient → Prop}

/-- A check that gives the connection up where it fails. -/
theorem invalidateIf_ends {refused : Prop} [Decidable refused] (hbad : bad error c.giveUp) :
    Ends (fun _ c' => c' = c ∧ ¬ refused) bad lost (invalidateIf refused error c) := by
  unfold invalidateIf
  split_ifs with hrefused
  · exact hbad
  · exact ⟨rfl, hrefused⟩

theorem invalidateIf_rule {refused : Prop} [Decidable refused] {f : Unit → Call α}
    (hbad : bad error c.giveUp) (hf : ¬ refused → Ends post bad lost (f () c)) :
    Ends post bad lost ((invalidateIf refused error >>= f) c) :=
  Ends.bind (invalidateIf_ends hbad) fun _ _ ⟨hsame, hpassed⟩ => hsame ▸ hf hpassed

/-- Only the number of the next request changes, or the connection is given up. -/
theorem allocateRequestId_ends
    (hbad : ∀ error c', error.isReplay = false → Calm c c' → bad error c') :
    Ends (fun id c' => id = c.nextRequestId ∧ c' = { c with nextRequestId := c.nextRequestId + 1 })
      bad lost (allocateRequestId c) := by
  unfold allocateRequestId
  rw [bind_apply, ensureUsable_apply]
  split_ifs
  · exact hbad _ _ rfl (Calm.refl c)
  · show Ends _ _ _ ((get >>= fun c => _) c)
    rw [get_bind]
    exact invalidateIf_rule (hbad _ _ rfl (giveUp_calm c)) fun _ => ⟨rfl, rfl⟩

variable {operation : String}

/-- **The rule of a request**: it ends without a reply, or goes on with a valid one. -/
theorem request_rule {mk : ℕ → BackendRequest} {f : BackendMessage × ℕ → Call α}
    (hbad : ∀ error c', error.isReplay = false → Heard ext codec allowEvents io c c' → bad error c')
    (hlost : ∀ c', Heard ext codec allowEvents io c c' → lost c')
    (hreply : ∀ message c', Answered ext codec allowEvents io c message c' →
      Ends post bad lost (f (message, io.anchor) c')) :
    Ends post bad lost ((allocateRequestId >>= fun id =>
      exchange ext codec (mk id) operation allowEvents io >>= f) c) := by
  refine Ends.bind (allocateRequestId_ends fun error c' herror hcalm =>
    hbad error c' herror (.of_calm hcalm)) ?_
  rintro _ _ ⟨rfl, rfl⟩
  -- the number of the request is all that has changed so far
  have hheard : ∀ {c'}, Heard ext codec allowEvents io
      { c with nextRequestId := c.nextRequestId + 1 } c' → Heard ext codec allowEvents io c c' :=
    fun ⟨news, hnews⟩ => ⟨news, { hnews with
      receives := (Receives.aside c _ (c.nextRequestId + 1) _ _ _).trans hnews.receives }⟩
  refine Ends.bind ((exchange_spec ext codec (mk c.nextRequestId) operation allowEvents io _).mono
    (fun _ _ => id) (fun error c' ⟨herror, h⟩ => hbad error c' herror (hheard h))
    fun c' h => hlost c' (hheard h)) ?_
  rintro ⟨message, anchor⟩ c' ⟨rfl, hanswered⟩
  exact hreply message c' { hanswered with heard := hheard hanswered.heard }

/-! ## §6. Guards on the cursors -/

/-- Watermarks never fall. -/
theorem observeWatermark_ends {received : ℕ}
    (hbad : ∀ error, error.isReplay = false → bad error c.giveUp) :
    Ends (fun _ c' => c.observedEventHighWatermark ≤ received ∧ ∃ complete, c' = { c with
        observedEventHighWatermark := received
        replayComplete := complete })
      bad lost (observeWatermark operation received c) := by
  unfold observeWatermark
  rw [get_bind]
  exact invalidateIf_rule (hbad _ rfl) fun hback => ⟨not_lt.mp hback, _, rfl⟩

/-- A live client has reached what is required. -/
theorem requireLiveEventsThrough_ends {required : ℕ}
    (hbad : ∀ error, error.isReplay = false → bad error c.giveUp) :
    Ends (fun _ c' => c' = c ∧
        (c.phase = .live → ∃ cursor, c.liveEventCursor = some cursor ∧ required ≤ cursor))
      bad lost (requireLiveEventsThrough operation required c) := by
  unfold requireLiveEventsThrough
  rw [get_bind]
  split_ifs with hlive
  · cases hcursor : c.liveEventCursor with
    | none => exact hbad _ rfl
    | some delivered =>
      refine (invalidateIf_ends (hbad _ rfl)).imp fun _ _ ⟨hsame, hshort⟩ => ?_
      exact ⟨hsame, fun _ => ⟨delivered, rfl, not_lt.mp hshort⟩⟩
  · exact ⟨rfl, fun h => absurd h hlive⟩

end Rules

end Reading

end BackendClient

end WcashPool.Client
