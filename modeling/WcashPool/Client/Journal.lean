/-
  WcashPool.Client.Journal — what a connection hands out is the journal.

  Whatever the backend sends and whichever calls are made in whichever order,
  the pages hand out the journal from the initial cursor on, the live events go
  on from the snapshot, and the two never overlap.  The four cursors of the
  connection carry the argument: the replay cursor counts the replayed events,
  the live cursor counts the events that were handed out live or still wait in
  the queue, the snapshot lies between the two, and the watermark is above them
  all.

  Main results: `health_spec`, `submitShare_spec`, `readEvents_spec`,
  `subscribeJobs_spec`, `Inv.step` and `journal_stream_integrity`.
-/
import WcashPool.Client.Shares

namespace WcashPool.Client

open Fallible Protocol WcashPool.Core Sequence Tasks Tasks.Task Transcripts

namespace BackendClient

variable {ext : External} {codec : Codec}

/-! ## §1. What each call does -/

/-- How a call ends, with what is said of its value; otherwise only news came in. -/
abbrev CallEnds (ext : External) (codec : Codec) (allowEvents : Bool) (io : Io) (c : BackendClient)
    {α : Type} (post : α → BackendClient → Prop) : Outcome ClientError α × BackendClient → Prop :=
  Ends post (fun _ => Heard ext codec allowEvents io c) (Heard ext codec allowEvents io c)

/-- What a health reply says. -/
structure HealthChecked (c : BackendClient) (snapshot : HealthSnapshot) (c' : BackendClient) :
    Prop where
  highest : c.observedEventHighWatermark ≤ snapshot.eventSeq
  raised : c'.observedEventHighWatermark = snapshot.eventSeq
  flushed : c.phase = .live →
    ∃ cursor, c'.liveEventCursor = some cursor ∧ snapshot.eventSeq ≤ cursor

/-- What a health call does to the cursors. -/
theorem health_spec (ext : External) (codec : Codec) (io : Io) (c : BackendClient) :
    CallEnds ext codec (c.phase = .live) io c (fun snapshot c' =>
        Heard ext codec (c.phase = .live) io c c' ∧ HealthChecked c snapshot c')
      (health ext codec io c) := by
  unfold health
  rw [get_bind]
  refine request_rule (fun _ _ _ => id) (fun _ => id) fun message c' hanswered => ?_
  have hheard := hanswered.heard
  cases message with
  | healthStatus version id eventSeq healthy recoveryOnly pendingWcash quarantined pendingZcash =>
    refine Ends.bind (observeWatermark_ends fun _ _ => hheard.gaveUp) ?_
    rintro _ _ ⟨hle, complete, rfl⟩
    have hraised := hheard.calm (Calm.raise c' hle complete)
    refine Ends.bind (requireLiveEventsThrough_ends fun _ _ => hraised.gaveUp) ?_
    rintro _ _ ⟨rfl, hflushed⟩
    obtain ⟨news, hnews⟩ := hheard
    exact ⟨hraised, hnews.receives.watermark.trans hle, rfl, fun hlive =>
      hflushed (hnews.receives.phase.trans hlive)⟩
  | error version id code text => exact hheard
  | _ => exact hheard.gaveUp

/-- **A page was taken**: the replay goes on behind it. -/
structure PageTaken (c : BackendClient) (page : EventPage) (c' : BackendClient) : Prop where
  before : c.phase = .replay
  follows : Follows BackendEvent.eventSeq c.replayCursor page.events
  next : page.nextEventSeq = c.replayCursor + page.events.length
  config : c'.config = c.config
  identity : c'.identity = c.identity
  connectionToken : c'.connectionToken = c.connectionToken
  phase : c'.phase = c.phase
  observed : c'.observedEvents = c.observedEvents
  queued : c'.queuedEvents = c.queuedEvents
  cursor : c'.liveEventCursor = c.liveEventCursor
  subscribed : c'.subscribedSnapshotEventSeq = c.subscribedSnapshotEventSeq
  replayCursor : c'.replayCursor = page.nextEventSeq
  watermark : c.observedEventHighWatermark ≤ c'.observedEventHighWatermark
  reached : page.nextEventSeq ≤ c'.observedEventHighWatermark
  completed : page.complete = true → c.observedEventHighWatermark ≤ page.nextEventSeq
  floor : c'.liveEventAnchorFloor = c.liveEventAnchorFloor

/-- A page is taken whole, or refused. -/
theorem acceptPage_ends {nextEventSeq : ℕ} {complete : Bool} {events : List BackendEvent}
    {c : BackendClient} {bad : ClientError → BackendClient → Prop} {lost : BackendClient → Prop}
    (hbad : ∀ error, error.isReplay = false → bad error c.giveUp) :
    Ends (fun _ c' => ∃ watermark historical, c.observedEventHighWatermark ≤ watermark ∧
        nextEventSeq ≤ watermark ∧ (complete = true → c.observedEventHighWatermark ≤ nextEventSeq) ∧
        c' = { c with
          observedEventHighWatermark := watermark
          replayCursor := nextEventSeq
          replayComplete := complete
          historicalEvents := historical })
      bad lost (acceptPage nextEventSeq complete events c) := by
  unfold acceptPage
  cases complete with
  | false =>
    exact ⟨max c.observedEventHighWatermark nextEventSeq, _, le_max_left _ _, le_max_right _ _,
      nofun, rfl⟩
  | true =>
    rw [if_pos rfl]
    refine Ends.bind (observeWatermark_ends hbad) ?_
    rintro _ _ ⟨hle, finished, rfl⟩
    exact ⟨nextEventSeq, _, hle, le_rfl, fun _ => hle, rfl⟩

/-- What a page of events does to the cursors. -/
theorem readEvents_spec (ext : External) (codec : Codec) (afterEventSeq limit : ℕ) (io : Io)
    (c : BackendClient) :
    CallEnds ext codec false io c (PageTaken c) (readEvents ext codec afterEventSeq limit io c) := by
  have hrefused : Heard ext codec false io c c := .of_calm (Calm.refl c)
  refine Ends.bind (ensurePhase_ends fun _ _ => hrefused) ?_
  rintro _ c ⟨rfl, hphase⟩
  refine Ends.failIf hrefused fun _ => ?_
  rw [get_bind]
  refine Ends.failIf hrefused fun hafter => ?_
  refine request_rule (fun _ _ _ => id) (fun _ => id) fun message c' hanswered => ?_
  have hheard := hanswered.heard
  obtain ⟨hsame, hfloor⟩ := hheard.quiet
  cases message with
  | eventsPage version id responseCursor nextEventSeq complete events =>
    obtain ⟨hfollows, hnext⟩ := BackendMessage.page_follows hanswered.valid
    refine invalidateIf_rule hheard.gaveUp fun hcursor => ?_
    obtain rfl : responseCursor = c.replayCursor := (not_not.mp hcursor).trans (not_not.mp hafter)
    refine invalidateIf_rule hheard.gaveUp fun _ => ?_
    refine Ends.bind (acceptPage_ends fun _ _ => hheard.gaveUp) ?_
    rintro _ _ ⟨watermark, historical, hold, hreached, hcompleted, rfl⟩
    exact {
      before := hphase
      follows := hfollows
      next := hnext
      config := hsame.config
      identity := hsame.identity
      connectionToken := hsame.connectionToken
      phase := hsame.phase
      observed := hsame.observed
      queued := by simpa using hsame.queued
      cursor := by simpa using hsame.cursor
      subscribed := hsame.subscribed
      replayCursor := rfl
      watermark := hsame.watermark.trans hold
      reached := hreached
      completed := fun hcomplete => hsame.watermark.trans (hcompleted hcomplete)
      floor := hfloor }
  | error version id code text => exact hheard
  | _ => exact hheard.gaveUp

/-- **The subscription**: the connection goes live at the snapshot. -/
structure WentLive (c : BackendClient) (snapshot : JobSnapshot) (c' : BackendClient) (io : Io) :
    Prop where
  before : c.phase = .replay
  behind : c.replayCursor ≤ snapshot.eventSeq
  highest : c.observedEventHighWatermark ≤ snapshot.eventSeq
  config : c'.config = c.config
  identity : c'.identity = c.identity
  connectionToken : c'.connectionToken = c.connectionToken
  phase : c'.phase = .live
  observed : c'.observedEvents = c.observedEvents
  queued : c'.queuedEvents = c.queuedEvents
  cursor : c'.liveEventCursor = some snapshot.eventSeq
  subscribed : c'.subscribedSnapshotEventSeq = some snapshot.eventSeq
  replayCursor : c'.replayCursor = c.replayCursor
  watermark : c'.observedEventHighWatermark = snapshot.eventSeq
  floor : c'.liveEventAnchorFloor = some snapshot.anchor
  anchor : snapshot.anchor = io.anchor
  written : c.stream.length < c'.stream.length
  binding : c'.connectionBinding = some snapshot.connectionBinding

/-- What the subscription does to the cursors. -/
theorem subscribeJobs_spec (ext : External) (codec : Codec) (afterEventSeq : ℕ) (io : Io)
    (c : BackendClient) :
    CallEnds ext codec false io c (fun snapshot c' => WentLive c snapshot c' io)
      (subscribeJobs ext codec afterEventSeq io c) := by
  have hrefused : Heard ext codec false io c c := .of_calm (Calm.refl c)
  refine Ends.bind (ensurePhase_ends fun _ _ => hrefused) ?_
  rintro _ c ⟨rfl, hphase⟩
  rw [get_bind]
  refine Ends.failIf hrefused fun hafter => ?_
  refine Ends.failIf hrefused fun _ => ?_
  refine request_rule (fun _ _ _ => id) (fun _ => id) fun message c' hanswered => ?_
  have hheard := hanswered.heard
  obtain ⟨hsame, -⟩ := hheard.quiet
  cases message with
  | jobSnapshot version id eventSeq current recent =>
    refine invalidateIf_rule hheard.gaveUp fun hbehind => ?_
    refine Ends.bind (observeWatermark_ends fun _ _ => hheard.gaveUp) ?_
    rintro _ _ ⟨hle, complete, rfl⟩
    exact {
      before := hphase
      behind := not_not.mp hafter ▸ not_lt.mp hbehind
      highest := hsame.watermark.trans hle
      config := hsame.config
      identity := hsame.identity
      connectionToken := hsame.connectionToken
      phase := rfl
      observed := hsame.observed
      queued := by simpa using hsame.queued
      cursor := rfl
      subscribed := rfl
      replayCursor := hsame.replayCursor
      watermark := rfl
      floor := rfl
      anchor := rfl
      written := hanswered.written
      binding := rfl }
  | error version id code text => exact hheard
  | _ => exact hheard.gaveUp

/-- **A connection that was opened** stands behind its cursor with an empty queue. -/
structure Connected (lastEventSeq : ℕ) (c : BackendClient) : Prop where
  phase : c.phase = .replay
  replayCursor : c.replayCursor = lastEventSeq
  watermark : c.observedEventHighWatermark = c.identity.currentEventSeq
  behind : lastEventSeq ≤ c.identity.currentEventSeq
  cursor : c.liveEventCursor = none
  queued : c.queuedEvents = []
  observed : c.observedEvents = []
  historical : c.historicalEvents = []
  floor : c.liveEventAnchorFloor = none

variable {c : BackendClient} {lastEventSeq : ℕ}

/-- The backend is at least as far as the cursor. -/
theorem verifyHello_ends {hello : HelloOk} :
    Ends (fun _ c' => c' = c ∧ lastEventSeq ≤ hello.currentEventSeq) (fun _ _ => True)
      (fun _ => True) (verifyHello hello lastEventSeq c) := by
  unfold verifyHello
  simp only [get_bind]
  repeat refine invalidateIf_rule trivial fun _ => ?_
  refine (invalidateIf_ends trivial).imp ?_
  rintro _ _ ⟨hsame, hahead⟩
  exact ⟨hsame, not_lt.mp hahead⟩

/-- A connection starts at the requested cursor. -/
theorem connect_spec {config : BackendClientConfig} {poolInstance : Uuid} {token : ℕ} {io : Io}
    (h : connect ext codec config poolInstance lastEventSeq token io = .done c) :
    Connected lastEventSeq c := by
  have hhello : Ends (fun _ => Connected lastEventSeq) (fun _ _ => True) (fun _ => True)
      (sayHello ext codec poolInstance lastEventSeq io
        (opened config poolInstance lastEventSeq token)) := by
    refine request_rule (fun _ _ _ _ => trivial) (fun _ _ => trivial) fun message c' hanswered => ?_
    obtain ⟨hsame, hfloor⟩ := hanswered.heard.quiet
    cases message with
    | helloOk version id hello =>
      refine Ends.bind verifyHello_ends ?_
      rintro _ _ ⟨rfl, hle⟩
      exact {
        phase := hsame.phase
        replayCursor := hsame.replayCursor
        watermark := rfl
        behind := hle
        cursor := by simpa [opened] using hsame.cursor
        queued := by simpa [opened] using hsame.queued
        observed := hsame.observed
        historical := hsame.historical
        floor := hfloor }
    | _ => trivial
  unfold connect at h
  split at h
  · cases h
  split_ifs at h
  split at h
  · next c' heq =>
    rw [heq] at hhello
    injection h with h
    exact h ▸ hhello
  · cases h
  · cases h

/-- The socket during a call. -/
def ClientCall.io : ClientCall → Option Io
  | .popQueuedEvent => none
  | .subscribeJobs _ io | .readEvents _ _ io | .health io | .submitShare _ io
  | .submitPreparedShare _ io | .submitRecoveryCandidate _ io => some io

/-- Did the call end without a value? -/
def ClientAnswer.ended : ClientAnswer → Prop
  | .event _ => False
  | .snapshot outcome => outcome.value? = none
  | .page outcome => outcome.value? = none
  | .health outcome => outcome.value? = none
  | .unverified outcome => outcome.value? = none
  | .verified outcome => outcome.value? = none

variable {submission : ShareSubmission} {α : Type}

/-- The receipt of a live share lies below the live cursor. -/
theorem Submitted.flushed {c' : BackendClient} {news : List DeliveredBackendEvent}
    {receipt : ShareReceipt} {replayed : Bool} (h : Submitted ext submission c c' receipt replayed)
    (hnews : Receives c c' news) :
    ∃ cursor, c'.liveEventCursor = some cursor ∧ receipt.eventSeq ≤ cursor := by
  obtain ⟨_, _, -, -, hchecked⟩ := h.checked
  exact hchecked.flushed (hnews.phase.trans h.phase)

/-- **Everything a call can do.** -/
inductive CallStep (ext : External) (codec : Codec) (c : BackendClient) (call : ClientCall) :
    ClientAnswer → BackendClient → Prop
  | empty (hqueue : c.queuedEvents = []) : CallStep ext codec c call (.event none) c
  | popped {delivered : DeliveredBackendEvent} {rest : List DeliveredBackendEvent}
      (hqueue : c.queuedEvents = delivered :: rest) :
      CallStep ext codec c call (.event (some delivered)) { c with
        queuedEvents := rest
        observedEvents := remember c.config.eventQueueCapacity c.observedEvents delivered.event }
  | page {page : EventPage} {c' : BackendClient} (htaken : PageTaken c page c') :
      CallStep ext codec c call (.page (.done page)) c'
  | subscribed {snapshot : JobSnapshot} {c' : BackendClient} {io : Io}
      (hio : ClientCall.io call = some io) (hlive : WentLive c snapshot c' io) :
      CallStep ext codec c call (.snapshot (.done snapshot)) c'
  | health {snapshot : HealthSnapshot} {c' : BackendClient} {io : Io} {allowEvents : Bool}
      {news : List DeliveredBackendEvent} (hio : ClientCall.io call = some io)
      (hnews : News ext codec allowEvents io c c' news)
      (hold : c.observedEventHighWatermark ≤ snapshot.eventSeq)
      (hraised : c'.observedEventHighWatermark = snapshot.eventSeq)
      (hflushed : c.phase = .live →
        ∃ cursor, c'.liveEventCursor = some cursor ∧ snapshot.eventSeq ≤ cursor) :
      CallStep ext codec c call (.health (.done snapshot)) c'
  | unverified {submission : ShareSubmission} {commit : UnverifiedShareCommit}
      {c' : BackendClient} {io : Io} {news : List DeliveredBackendEvent}
      (hio : ClientCall.io call = some io) (hnews : News ext codec true io c c' news)
      (hsubmitted : Submitted ext submission c c' commit.receipt commit.replayed)
      (hmem : commitEvent commit.receipt submission.identity submission.targetLe ∈ c'.liveEvents) :
      CallStep ext codec c call (.unverified (.done commit)) c'
  | verified {context : SubmissionContext} {commit : VerifiedShareCommit} {c' : BackendClient}
      {io : Io} {news : List DeliveredBackendEvent} (hio : ClientCall.io call = some io)
      (hnews : News ext codec true io c c' news)
      (hsubmitted : Submitted ext (submissionOf context) c c' commit.receipt commit.replayed)
      (hmem : commitEvent commit.receipt context.identity context.targetLe ∈ c'.liveEvents)
      (hbound : ReceiptBound ext context commit.receipt commit.replayed) :
      CallStep ext codec c call (.verified (.done commit)) c'
  | ended {answer : ClientAnswer} {c' : BackendClient} {io : Io} {allowEvents : Bool}
      {news : List DeliveredBackendEvent} (hio : ClientCall.io call = some io)
      (hnews : News ext codec allowEvents io c c' news) (hended : ClientAnswer.ended answer) :
      CallStep ext codec c call answer c'

/-- A call that ends as calls do. -/
theorem CallStep.of_ends (answer : Outcome ClientError α → ClientAnswer) {call : ClientCall}
    {io : Io} {allowEvents : Bool} {post : α → BackendClient → Prop}
    {result : Outcome ClientError α × BackendClient} (hio : ClientCall.io call = some io)
    (h : CallEnds ext codec allowEvents io c post result)
    (hended : ∀ outcome, outcome.value? = none → ClientAnswer.ended (answer outcome))
    (hdone : ∀ value c', post value c' → CallStep ext codec c call (answer (.done value)) c') :
    CallStep ext codec c call (answer result.1) result.2 := by
  obtain ⟨value | error | _, c'⟩ := result
  · exact hdone value c' h
  · obtain ⟨news, hnews⟩ := h
    exact .ended hio hnews (hended _ rfl)
  · obtain ⟨news, hnews⟩ := h
    exact .ended hio hnews (hended _ rfl)

theorem ShareEnds.callEnds {io : Io} {also : ShareReceipt → Bool → Prop}
    {receipt : α → ShareReceipt} {replayed : α → Bool}
    {result : Outcome ClientError α × BackendClient}
    (h : ShareEnds ext codec submission io c also receipt replayed result) :
    CallEnds ext codec true io c (fun commit c' => Heard ext codec true io c c' ∧
      Passed ext codec submission io c also c' (receipt commit) (replayed commit) ∧
      commitEvent (receipt commit) submission.identity submission.targetLe ∈ c'.liveEvents) result :=
  h.mono (fun _ _ => id) (fun _ _ => Fails.heard) fun _ => id

/-- **All that one call can do.** -/
theorem perform_cases (ext : External) (codec : Codec) (c : BackendClient) (call : ClientCall) :
    CallStep ext codec c call (c.perform ext codec call).1 (c.perform ext codec call).2 := by
  -- the two calls that submit a context
  have hprepared : ∀ {context io result}, ClientCall.io call = some io →
      PreparedEnds ext codec context io c result →
      CallStep ext codec c call (.verified result.1) result.2 := fun hio h =>
    .of_ends .verified hio h.callEnds (fun _ => id) fun _ _ ⟨⟨_, hnews⟩, hpassed, hmem⟩ =>
      .verified hio hnews hpassed.submitted hmem hpassed.besides
  cases call with
  | popQueuedEvent =>
    show CallStep ext codec c _ (.event c.popQueuedEvent.1) c.popQueuedEvent.2
    unfold popQueuedEvent
    cases hqueue : c.queuedEvents with
    | nil => exact .empty hqueue
    | cons delivered rest => exact .popped hqueue
  | subscribeJobs afterEventSeq io =>
    exact .of_ends .snapshot rfl (subscribeJobs_spec ext codec afterEventSeq io c) (fun _ => id)
      fun _ _ => .subscribed rfl
  | readEvents afterEventSeq limit io =>
    exact .of_ends .page rfl (readEvents_spec ext codec afterEventSeq limit io c) (fun _ => id)
      fun _ _ => .page
  | health io =>
    exact .of_ends .health rfl (health_spec ext codec io c) (fun _ => id)
      fun _ _ ⟨⟨_, hnews⟩, hchecked⟩ =>
        .health rfl hnews hchecked.highest hchecked.raised hchecked.flushed
  | submitShare submission io =>
    exact .of_ends .unverified rfl (submitShare_spec ext codec submission io c).callEnds
      (fun _ => id) fun _ _ ⟨⟨_, hnews⟩, hpassed, hmem⟩ =>
        .unverified rfl hnews hpassed.submitted hmem
  | submitPreparedShare context io =>
    exact hprepared rfl (submitPreparedShareBorrowed_spec ext codec context io c)
  | submitRecoveryCandidate context io =>
    exact hprepared rfl (submitRecoveryCandidate_spec ext codec context io c)

/-! ## §2. What a run hands out -/

abbrev Entry := Transition BackendClient ClientCall ClientAnswer

/-- The events that a call handed out in a page. -/
def pageEvents (t : Entry) : List BackendEvent :=
  match t.answer with
  | .page (.done page) => page.events
  | _ => []

/-- The live event that a call handed out. -/
def handedLive (t : Entry) : List DeliveredBackendEvent :=
  match t.answer with
  | .event (some delivered) => [delivered]
  | _ => []

/-- The snapshot that a call returned. -/
def snapshotOf (t : Entry) : List JobSnapshot :=
  match t.answer with
  | .snapshot (.done snapshot) => [snapshot]
  | _ => []

/-- The watermark that a call accepted in a completed page, a snapshot or a health reply. -/
def acceptedWatermark (t : Entry) : Option ℕ :=
  match t.answer with
  | .page (.done page) => if page.complete then some page.nextEventSeq else none
  | .snapshot (.done snapshot) => some snapshot.eventSeq
  | .health (.done health) => some health.eventSeq
  | _ => none

/-- Every journal number that a call has heard of: the one of its reply, and the last live event. -/
def watermarksSeen (t : Entry) : List ℕ :=
  (match t.answer with
    | .page (.done page) => [page.nextEventSeq]
    | .snapshot (.done snapshot) => [snapshot.eventSeq]
    | .health (.done health) => [health.eventSeq]
    | .unverified (.done commit) => [commit.receipt.eventSeq]
    | .verified (.done commit) => [commit.receipt.eventSeq]
    | _ => []) ++ t.after.liveEventCursor.toList

/-- The journal number that a live health or share reply reports. -/
def reportedLive (t : Entry) : Option ℕ :=
  match t.answer with
  | .health (.done health) => if t.before.phase = .live then some health.eventSeq else none
  | .unverified (.done commit) => some commit.receipt.eventSeq
  | .verified (.done commit) => some commit.receipt.eventSeq
  | _ => none

/-- A call that ended without a value handed out nothing. -/
theorem ended_says_nothing {t : Entry} {answer : ClientAnswer} (hanswer : t.answer = answer)
    (h : ClientAnswer.ended answer) :
    pageEvents t = [] ∧ handedLive t = [] ∧ snapshotOf t = [] ∧
      watermarksSeen t = [] ++ t.after.liveEventCursor.toList ∧ acceptedWatermark t = none ∧
      reportedLive t = none := by
  unfold pageEvents handedLive snapshotOf watermarksSeen acceptedWatermark reportedLive
  rw [hanswer]
  cases answer with
  | event delivered => cases h
  | snapshot outcome | page outcome | health outcome | unverified outcome | verified outcome =>
    cases outcome with
    | done value => cases h
    | failed error => exact ⟨rfl, rfl, rfl, rfl, rfl, rfl⟩
    | dropped => exact ⟨rfl, rfl, rfl, rfl, rfl, rfl⟩

/-! ## §3. The invariant of a run -/

/-- Nothing has come live yet. -/
structure Replaying (h : List Entry) (c : BackendClient) : Prop where
  phase : c.phase = .replay
  cursor : c.liveEventCursor = none
  queued : c.queuedEvents = []
  observed : c.observedEvents = []
  handed : h.flatMap handedLive = []
  snapshots : h.flatMap snapshotOf = []

/-- **The live stream**: what was handed out and what waits in the queue go on from the snapshot. -/
structure Streaming (h : List Entry) (c : BackendClient) (snapshot : JobSnapshot) : Prop where
  phase : c.phase = .live
  snapshots : h.flatMap snapshotOf = [snapshot]
  binding : c.connectionBinding = some snapshot.connectionBinding
  cursor : c.liveEventCursor =
    some (snapshot.eventSeq + (h.flatMap handedLive ++ c.queuedEvents).length)
  follows : Follows DeliveredBackendEvent.eventSeq snapshot.eventSeq
    (h.flatMap handedLive ++ c.queuedEvents)
  behind : c.replayCursor ≤ snapshot.eventSeq

structure Inv (lastEventSeq : ℕ) (start : BackendClient) (h : List Entry) (c : BackendClient) :
    Prop where
  replay : Follows BackendEvent.eventSeq lastEventSeq (h.flatMap pageEvents)
  replayCursor : c.replayCursor = lastEventSeq + (h.flatMap pageEvents).length
  behind : c.replayCursor ≤ c.observedEventHighWatermark
  start : start.observedEventHighWatermark ≤ c.observedEventHighWatermark
  seen : ∀ t ∈ h, ∀ watermark ∈ watermarksSeen t, watermark ≤ c.observedEventHighWatermark
  live : ∀ cursor ∈ c.liveEventCursor, cursor ≤ c.observedEventHighWatermark
  phase : Replaying h c ∨ ∃ snapshot, Streaming h c snapshot

/-- The invariant of a new connection. -/
theorem Connected.inv (h : Connected lastEventSeq c) :
    Inv lastEventSeq c [] c where
  replay := Follows.nil
  replayCursor := h.replayCursor
  behind := by
    rw [h.replayCursor, h.watermark]
    exact h.behind
  start := le_rfl
  seen := fun _ hmem => absurd hmem List.not_mem_nil
  live := fun _ hmem => by
    rw [h.cursor] at hmem
    cases hmem
  phase := .inl ⟨h.phase, h.cursor, h.queued, h.observed, rfl, rfl⟩

section Step

variable {lastEventSeq : ℕ} {start c c' : BackendClient} {h : List Entry} {t : Entry}

theorem flatMap_concat (f : Entry → List α) (h : List Entry) (t : Entry) :
    (h ++ [t]).flatMap f = h.flatMap f ++ f t := by
  rw [List.flatMap_append, List.flatMap_singleton]

theorem flatMap_silent {f : Entry → List α} (ht : f t = []) :
    (h ++ [t]).flatMap f = h.flatMap f := by
  rw [flatMap_concat, ht, List.append_nil]

theorem Inv.seen_concat (hinv : Inv lastEventSeq start h c)
    (hle : c.observedEventHighWatermark ≤ c'.observedEventHighWatermark)
    (ht : ∀ watermark ∈ watermarksSeen t, watermark ≤ c'.observedEventHighWatermark) :
    ∀ t' ∈ h ++ [t], ∀ watermark ∈ watermarksSeen t',
      watermark ≤ c'.observedEventHighWatermark := by
  intro t' hmem watermark hwatermark
  cases List.mem_append.mp hmem with
  | inl hmem => exact (hinv.seen t' hmem watermark hwatermark).trans hle
  | inr hmem => exact ht watermark (List.mem_singleton.mp hmem ▸ hwatermark)

variable {news : List DeliveredBackendEvent}

/-- The binding depends only on what an exchange leaves alone. -/
theorem Receives.connectionBinding (h : Receives c c' news) :
    c'.connectionBinding = c.connectionBinding := by
  unfold BackendClient.connectionBinding BackendClient.authority
  rw [h.subscribed, h.phase, h.config, h.identity, h.connectionToken]

section

variable (hinv : Inv lastEventSeq start h c)

include hinv

theorem Inv.reached (hnews : Receives c c' news) :
    ∀ cursor ∈ c'.liveEventCursor, cursor ≤ c'.observedEventHighWatermark := by
  intro cursor hcursor
  by_cases hnil : news = []
  · rw [hnews.cursor, hnil] at hcursor
    exact (hinv.live cursor (by simpa using hcursor)).trans hnews.watermark
  · exact hnews.reached hnil cursor hcursor

/-- A call that only received events, and perhaps reported a number that it reached. -/
theorem Inv.receive (hnews : Receives c c' news) (hpage : pageEvents t = [])
    (hlive : handedLive t = []) (hsnapshot : snapshotOf t = []) {reported : List ℕ}
    (hseen : watermarksSeen t = reported ++ c'.liveEventCursor.toList)
    (hreported : ∀ watermark ∈ reported, watermark ≤ c'.observedEventHighWatermark) :
    Inv lastEventSeq start (h ++ [t]) c' := by
  refine ⟨?_, ?_, ?_, hinv.start.trans hnews.watermark, ?_, hinv.reached hnews, ?_⟩
  · rw [flatMap_silent hpage]
    exact hinv.replay
  · rw [flatMap_silent hpage, hnews.replayCursor]
    exact hinv.replayCursor
  · rw [hnews.replayCursor]
    exact hinv.behind.trans hnews.watermark
  · refine hinv.seen_concat hnews.watermark fun watermark hmem => ?_
    rw [hseen, List.mem_append, Option.mem_toList] at hmem
    exact hmem.elim (hreported watermark) (hinv.reached hnews watermark)
  · obtain hreplaying | ⟨snapshot, hstreaming⟩ := hinv.phase
    · have hquiet := hnews.quiet hreplaying.cursor
      left
      exact {
        phase := hnews.phase.trans hreplaying.phase
        cursor := by rw [hnews.cursor, hreplaying.cursor]; rfl
        queued := by rw [hnews.queued, hreplaying.queued, hquiet]; rfl
        observed := hnews.observed.trans hreplaying.observed
        handed := (flatMap_silent hlive).trans hreplaying.handed
        snapshots := (flatMap_silent hsnapshot).trans hreplaying.snapshots }
    · right
      have hfollows := hnews.follows _ hstreaming.cursor
      refine ⟨snapshot, ?_⟩
      exact {
        phase := hnews.phase.trans hstreaming.phase
        snapshots := (flatMap_silent hsnapshot).trans hstreaming.snapshots
        binding := hnews.connectionBinding.trans hstreaming.binding
        cursor := by
          rw [hnews.cursor, hstreaming.cursor, flatMap_silent hlive, hnews.queued]
          simp [Nat.add_assoc]
        follows := by
          rw [flatMap_silent hlive, hnews.queued, ← List.append_assoc]
          exact follows_append.mpr ⟨hstreaming.follows, hfollows⟩
        behind := by rw [hnews.replayCursor]; exact hstreaming.behind }

/-- The number of a receipt was reached. -/
theorem Inv.submitted {receipt : ShareReceipt} {replayed : Bool}
    (hsubmitted : Submitted ext submission c c' receipt replayed) (hnews : Receives c c' news) :
    receipt.eventSeq ≤ c'.observedEventHighWatermark := by
  obtain ⟨cursor, hcursor, hle⟩ := hsubmitted.flushed hnews
  exact hle.trans (hinv.reached hnews cursor hcursor)

/-- A page was handed out. -/
theorem Inv.page {page : EventPage} (htaken : PageTaken c page c')
    (hpage : t.answer = .page (.done page)) (hafter : t.after = c') :
    Inv lastEventSeq start (h ++ [t]) c' := by
  have hevents : pageEvents t = page.events := by rw [pageEvents, hpage]
  have hlive : handedLive t = [] := by rw [handedLive, hpage]
  have hsnapshot : snapshotOf t = [] := by rw [snapshotOf, hpage]
  -- only a connection that still replays takes a page
  have hreplaying : Replaying h c := by
    obtain hreplaying | ⟨snapshot, hstreaming⟩ := hinv.phase
    · exact hreplaying
    · cases htaken.before.symm.trans hstreaming.phase
  have hcursor : c'.liveEventCursor = none := htaken.cursor.trans hreplaying.cursor
  refine ⟨?_, ?_, ?_, hinv.start.trans htaken.watermark, ?_, ?_, .inl ?_⟩
  · rw [flatMap_concat, hevents]
    exact follows_append.mpr ⟨hinv.replay, hinv.replayCursor ▸ htaken.follows⟩
  · rw [flatMap_concat, hevents, htaken.replayCursor, htaken.next, hinv.replayCursor,
      List.length_append, Nat.add_assoc]
  · rw [htaken.replayCursor]
    exact htaken.reached
  · refine hinv.seen_concat htaken.watermark fun watermark hmem => ?_
    have heq : watermark = page.nextEventSeq := by
      simpa [watermarksSeen, hpage, hafter, hcursor] using hmem
    exact heq ▸ htaken.reached
  · intro cursor hmem
    rw [hcursor] at hmem
    cases hmem
  · exact {
      phase := htaken.phase.trans hreplaying.phase
      cursor := hcursor
      queued := htaken.queued.trans hreplaying.queued
      observed := htaken.observed.trans hreplaying.observed
      handed := (flatMap_silent hlive).trans hreplaying.handed
      snapshots := (flatMap_silent hsnapshot).trans hreplaying.snapshots }

/-- The connection went live. -/
theorem Inv.subscribed {snapshot : JobSnapshot} {io : Io} (hlive : WentLive c snapshot c' io)
    (hsnapshot : t.answer = .snapshot (.done snapshot)) (hafter : t.after = c') :
    Inv lastEventSeq start (h ++ [t]) c' := by
  have hpage : pageEvents t = [] := by rw [pageEvents, hsnapshot]
  have hhanded : handedLive t = [] := by rw [handedLive, hsnapshot]
  have hsnapshots : snapshotOf t = [snapshot] := by rw [snapshotOf, hsnapshot]
  have hreplaying : Replaying h c := by
    obtain hreplaying | ⟨snapshot, hstreaming⟩ := hinv.phase
    · exact hreplaying
    · cases hlive.before.symm.trans hstreaming.phase
  have hqueued : c'.queuedEvents = [] := hlive.queued.trans hreplaying.queued
  refine ⟨?_, ?_, ?_, ?_, ?_, ?_, .inr ⟨snapshot, ?_⟩⟩
  · rw [flatMap_silent hpage]
    exact hinv.replay
  · rw [flatMap_silent hpage, hlive.replayCursor]
    exact hinv.replayCursor
  · rw [hlive.replayCursor, hlive.watermark]
    exact hlive.behind
  · rw [hlive.watermark]
    exact hinv.start.trans hlive.highest
  · refine hinv.seen_concat (hlive.highest.trans_eq hlive.watermark.symm) fun watermark hmem => ?_
    have heq : watermark = snapshot.eventSeq := by
      simpa [watermarksSeen, hsnapshot, hafter, hlive.cursor] using hmem
    exact (heq.trans hlive.watermark.symm).le
  · intro cursor hmem
    rw [hlive.cursor, Option.mem_def, Option.some.injEq] at hmem
    rw [hlive.watermark, hmem]
  · have hhandedNil : (h ++ [t]).flatMap handedLive = [] := by
      rw [flatMap_silent hhanded, hreplaying.handed]
    exact {
      phase := hlive.phase
      snapshots := by rw [flatMap_concat, hsnapshots, hreplaying.snapshots]; rfl
      binding := hlive.binding
      cursor := by rw [hhandedNil, hqueued, hlive.cursor]; rfl
      follows := by rw [hhandedNil, hqueued]; exact Follows.nil
      behind := by rw [hlive.replayCursor]; exact hlive.behind }

/-- A queued event was handed out. -/
theorem Inv.popped {delivered : DeliveredBackendEvent} {rest : List DeliveredBackendEvent}
    (hqueue : c.queuedEvents = delivered :: rest) {observed : List BackendEvent}
    (hafter : c' = { c with queuedEvents := rest, observedEvents := observed })
    (hevent : t.answer = .event (some delivered)) (htafter : t.after = c') :
    Inv lastEventSeq start (h ++ [t]) c' := by
  have hpage : pageEvents t = [] := by rw [pageEvents, hevent]
  have hhanded : handedLive t = [delivered] := by rw [handedLive, hevent]
  have hsnapshot : snapshotOf t = [] := by rw [snapshotOf, hevent]
  obtain ⟨snapshot, hstreaming⟩ : ∃ snapshot, Streaming h c snapshot := by
    obtain hreplaying | hstreaming := hinv.phase
    · rw [hreplaying.queued] at hqueue
      cases hqueue
    · exact hstreaming
  -- the event moves from the head of the queue to the end of what was handed out
  have hmoved : (h ++ [t]).flatMap handedLive ++ c'.queuedEvents =
      h.flatMap handedLive ++ c.queuedEvents := by
    rw [flatMap_concat, hhanded, hqueue, hafter, List.append_assoc]
    rfl
  refine ⟨?_, ?_, ?_, ?_, ?_, ?_, .inr ⟨snapshot, ?_⟩⟩
  · rw [flatMap_silent hpage]
    exact hinv.replay
  · rw [flatMap_silent hpage, hafter]
    exact hinv.replayCursor
  · rw [hafter]
    exact hinv.behind
  · rw [hafter]
    exact hinv.start
  · refine hinv.seen_concat (by rw [hafter]) fun watermark hmem => ?_
    rw [watermarksSeen, hevent, htafter, List.nil_append, Option.mem_toList, hafter] at hmem
    rw [hafter]
    exact hinv.live watermark hmem
  · rw [hafter]
    exact hinv.live
  · exact {
      phase := by rw [hafter]; exact hstreaming.phase
      snapshots := (flatMap_silent hsnapshot).trans hstreaming.snapshots
      binding := by rw [hafter]; exact hstreaming.binding
      cursor := by rw [hmoved, hafter]; exact hstreaming.cursor
      follows := by rw [hmoved]; exact hstreaming.follows
      behind := by rw [hafter]; exact hstreaming.behind }

end

end Step

/-! ## §4. One call -/

variable {start : BackendClient}

/-- **One call further.** -/
theorem Inv.step {h : List Entry} (hinv : Inv lastEventSeq start h c) (call : ClientCall) :
    Inv lastEventSeq start (h ++ [entry (perform ext codec) c call])
      (c.perform ext codec call).2 := by
  have hstep := perform_cases ext codec c call
  generalize ht : entry (perform ext codec) c call = t
  have hanswer : (c.perform ext codec call).1 = t.answer := ht ▸ rfl
  have hafter : (c.perform ext codec call).2 = t.after := ht ▸ rfl
  rw [hanswer, hafter] at hstep
  rw [hafter]
  generalize hc' : t.after = c' at hstep ⊢
  generalize hthe : t.answer = answer at hstep
  cases hstep with
  | empty hqueue =>
    exact hinv.receive (Receives.refl c) (by rw [pageEvents, hthe]) (by rw [handedLive, hthe])
      (by rw [snapshotOf, hthe]) (by rw [watermarksSeen, hthe, hc'])
      fun _ hmem => absurd hmem List.not_mem_nil
  | popped hqueue => exact hinv.popped hqueue rfl hthe hc'
  | page htaken => exact hinv.page htaken hthe hc'
  | subscribed _ hlive => exact hinv.subscribed hlive hthe hc'
  | health _ hnews hold hraised _ =>
    exact hinv.receive hnews.receives (by rw [pageEvents, hthe]) (by rw [handedLive, hthe])
      (by rw [snapshotOf, hthe]) (by rw [watermarksSeen, hthe, hc'])
      fun _ hmem => (List.mem_singleton.mp hmem).trans_le hraised.ge
  | unverified _ hnews hsubmitted _ | verified _ hnews hsubmitted _ _ =>
    exact hinv.receive hnews.receives (by rw [pageEvents, hthe]) (by rw [handedLive, hthe])
      (by rw [snapshotOf, hthe]) (by rw [watermarksSeen, hthe, hc'])
      fun _ hmem => (List.mem_singleton.mp hmem).trans_le (hinv.submitted hsubmitted hnews.receives)
  | ended _ hnews hended =>
    obtain ⟨hpage, hlive, hsnapshot, hseen, -⟩ := ended_says_nothing hthe hended
    exact hinv.receive hnews.receives hpage hlive hsnapshot (hc' ▸ hseen)
      fun _ hmem => absurd hmem List.not_mem_nil

/-- **After a live health or share reply the cursor has reached the number it reports.** -/
theorem perform_flushed (ext : External) (codec : Codec) (c : BackendClient) (call : ClientCall) :
    ∀ seq ∈ reportedLive (entry (perform ext codec) c call),
      ∃ cursor, (c.perform ext codec call).2.liveEventCursor = some cursor ∧ seq ≤ cursor := by
  have hstep := perform_cases ext codec c call
  intro seq hseq
  unfold entry at hseq
  generalize (c.perform ext codec call).2 = c' at hstep hseq ⊢
  generalize (c.perform ext codec call).1 = answer at hstep hseq
  cases hstep with
  | empty _ => cases hseq
  | popped _ => cases hseq
  | page _ => cases hseq
  | subscribed _ _ => cases hseq
  | health _ _ _ _ hflushed =>
    obtain ⟨hlive, heq⟩ := Option.ite_none_right_eq_some.mp hseq
    exact Option.some.inj heq ▸ hflushed hlive
  | unverified _ hnews hsubmitted _ =>
    exact Option.some.inj hseq ▸ hsubmitted.flushed hnews.receives
  | verified _ hnews hsubmitted _ _ =>
    exact Option.some.inj hseq ▸ hsubmitted.flushed hnews.receives
  | ended _ _ hended =>
    obtain ⟨-, -, -, -, -, hnone⟩ := ended_says_nothing (t := ⟨c, call, answer, c'⟩) rfl hended
    cases hnone.symm.trans hseq

/-- **An accepted watermark is above the highest one before.** -/
theorem perform_accepted (ext : External) (codec : Codec) (c : BackendClient) (call : ClientCall) :
    ∀ watermark ∈ acceptedWatermark (entry (perform ext codec) c call),
      c.observedEventHighWatermark ≤ watermark := by
  have hstep := perform_cases ext codec c call
  intro watermark hmem
  unfold entry at hmem
  generalize (c.perform ext codec call).2 = c' at hstep hmem
  generalize (c.perform ext codec call).1 = answer at hstep hmem
  cases hstep with
  | empty _ => cases hmem
  | popped _ => cases hmem
  | page htaken =>
    obtain ⟨hcomplete, heq⟩ := Option.ite_none_right_eq_some.mp hmem
    exact Option.some.inj heq ▸ htaken.completed hcomplete
  | subscribed _ hlive =>
    exact Option.some.inj hmem ▸ hlive.highest
  | health _ _ hold _ _ =>
    exact Option.some.inj hmem ▸ hold
  | unverified _ _ _ _ => cases hmem
  | verified _ _ _ _ _ => cases hmem
  | ended _ _ hended =>
    obtain ⟨-, -, -, -, hnone, -⟩ := ended_says_nothing (t := ⟨c, call, answer, c'⟩) rfl hended
    cases hnone.symm.trans hmem

theorem allocateRequestId_of_unusable (h : c.usable = false) :
    allocateRequestId c = (.failed .connectionUnusable, c) := by
  unfold allocateRequestId
  rw [bind_apply, ensureUsable_apply, if_pos h]

theorem ensurePhase_of_unusable {operation : String} {required : BackendStreamPhase}
    (h : c.usable = false) :
    ensurePhase operation required c = (.failed .connectionUnusable, c) := by
  unfold ensurePhase
  rw [bind_apply, ensureUsable_apply, if_pos h]

theorem submitPreparedShareBorrowed_of_unusable {context : SubmissionContext} {io : Io}
    (h : c.usable = false) :
    submitPreparedShareBorrowed ext codec context io c = (.failed .connectionUnusable, c) := by
  unfold submitPreparedShareBorrowed submitShare
  rw [bind_apply, ensurePhase_of_unusable h]

theorem refused_keeps (h : c.usable = false) {r : Outcome ClientError α × BackendClient}
    (hr : r = (.failed .connectionUnusable, c)) : r.2.usable = false ∧ r.2.stream = c.stream := by
  rw [hr]
  exact ⟨h, rfl⟩

/-- **An unusable connection stays unusable and nothing is written to it.** -/
theorem perform_of_unusable (ext : External) (codec : Codec) (h : c.usable = false)
    (call : ClientCall) :
    (c.perform ext codec call).2.usable = false ∧
      (c.perform ext codec call).2.stream = c.stream := by
  cases call with
  | popQueuedEvent =>
    show c.popQueuedEvent.2.usable = false ∧ c.popQueuedEvent.2.stream = c.stream
    unfold popQueuedEvent
    split
    · exact ⟨h, rfl⟩
    · exact ⟨h, rfl⟩
  | subscribeJobs afterEventSeq io =>
    refine refused_keeps h (r := subscribeJobs ext codec afterEventSeq io c) ?_
    unfold subscribeJobs
    rw [bind_apply, ensurePhase_of_unusable h]
  | readEvents afterEventSeq limit io =>
    refine refused_keeps h (r := readEvents ext codec afterEventSeq limit io c) ?_
    unfold readEvents
    rw [bind_apply, ensurePhase_of_unusable h]
  | health io =>
    refine refused_keeps h (r := health ext codec io c) ?_
    unfold health
    rw [get_bind, bind_apply, allocateRequestId_of_unusable h]
  | submitShare submission io =>
    refine refused_keeps h (r := submitShare ext codec submission io c) ?_
    unfold submitShare
    rw [bind_apply, ensurePhase_of_unusable h]
  | submitPreparedShare context io =>
    exact refused_keeps h (submitPreparedShareBorrowed_of_unusable h)
  | submitRecoveryCandidate context io =>
    show (submitRecoveryCandidate ext codec context io c).2.usable = false ∧
      (submitRecoveryCandidate ext codec context io c).2.stream = c.stream
    unfold submitRecoveryCandidate
    rw [failIf_bind, submitPreparedShareBorrowed_of_unusable h]
    split
    · exact ⟨h, rfl⟩
    · exact ⟨h, rfl⟩

/-! ## §5. The law of every run -/

/-- **The journal as a connection hands it out.** -/
structure StreamLaw (lastEventSeq : ℕ) (start : BackendClient) (h : List Entry) : Prop where
  /-- Pages hand out exactly the numbers after the initial cursor. -/
  replay : (h.flatMap pageEvents).map BackendEvent.eventSeq =
    List.range' (lastEventSeq + 1) (h.flatMap pageEvents).length
  /-- Live events are exactly the numbers after the snapshot's. -/
  live : ∀ snapshot ∈ h.flatMap snapshotOf,
    (h.flatMap handedLive).map DeliveredBackendEvent.eventSeq =
      List.range' (snapshot.eventSeq + 1) (h.flatMap handedLive).length
  subscribed : h.flatMap snapshotOf = [] → h.flatMap handedLive = []
  /-- No number is handed out twice. -/
  once : ((h.flatMap pageEvents).map BackendEvent.eventSeq ++
    (h.flatMap handedLive).map DeliveredBackendEvent.eventSeq).Nodup
  /-- The hello is not behind the initial cursor, and an accepted watermark is not below any number
      heard of before. -/
  hello : lastEventSeq ≤ start.identity.currentEventSeq
  watermarks : ∀ front t back, h = front ++ t :: back →
    ∀ watermark ∈ acceptedWatermark t, start.identity.currentEventSeq ≤ watermark ∧
      ∀ t' ∈ front, ∀ earlier ∈ watermarksSeen t', earlier ≤ watermark
  /-- A live health or share reply comes after the events up to the number it reports. -/
  flushed : ∀ t ∈ h, ∀ seq ∈ reportedLive t,
    ∃ cursor, t.after.liveEventCursor = some cursor ∧ seq ≤ cursor
  /-- Once unusable, always unusable, and not another byte is written. -/
  unusable : ∀ front t back, h = front ++ t :: back → t.after.usable = false →
    ∀ t' ∈ back, t'.after.usable = false ∧ t'.after.stream = t.after.stream

/-- **Every history** keeps the invariant. -/
theorem inv_history (h : Connected lastEventSeq start) (calls : List ClientCall) :
    Inv lastEventSeq start (start.history ext codec calls) (start.after ext codec calls) :=
  transcript_invariant (P := Inv lastEventSeq start) (fun _ _ call hinv => hinv.step call)
    h.inv calls

/-- A client that gave up writes nothing more. -/
theorem unusable_history (h : c.usable = false) (calls : List ClientCall) :
    ∀ t ∈ c.history ext codec calls, t.after.usable = false ∧ t.after.stream = c.stream := by
  induction calls generalizing c with
  | nil => exact fun _ hmem => absurd hmem List.not_mem_nil
  | cons call calls ih =>
    obtain ⟨hnext, hstream⟩ := perform_of_unusable ext codec h call
    intro t hmem
    cases List.mem_cons.mp hmem with
    | inl heq => exact heq ▸ ⟨hnext, hstream⟩
    | inr hmem =>
      obtain ⟨husable, hsame⟩ := ih hnext t hmem
      exact ⟨husable, hsame.trans hstream⟩

/-- No event is handed out twice. -/
theorem Inv.once {h : List Entry} (hinv : Inv lastEventSeq start h c) :
    ((h.flatMap pageEvents).map BackendEvent.eventSeq ++
      (h.flatMap handedLive).map DeliveredBackendEvent.eventSeq).Nodup := by
  obtain hreplaying | ⟨snapshot, hstreaming⟩ := hinv.phase
  · rw [hreplaying.handed, List.map_nil, List.append_nil]
    exact hinv.replay.nodup
  · have hlive := (follows_append.mp hstreaming.follows).1
    refine List.Nodup.append hinv.replay.nodup hlive.nodup ?_
    -- replayed numbers are at most the snapshot's, live ones above it
    intro seq hreplay hhanded
    obtain ⟨event, hevent, rfl⟩ := List.mem_map.mp hreplay
    obtain ⟨delivered, hdelivered, heq⟩ := List.mem_map.mp hhanded
    have hbelow := (hinv.replay.bounds hevent).2
    have habove := (hlive.bounds hdelivered).1
    have hbehind := hstreaming.behind
    rw [hinv.replayCursor] at hbehind
    omega

/-- **Journal stream integrity**, for every sequence of calls and every byte stream. -/
theorem journal_stream_integrity (ext : External) (codec : Codec) (config : BackendClientConfig)
    (poolInstance : Uuid) (lastEventSeq token : ℕ) (io : Io) (start : BackendClient)
    (hconnect : connect ext codec config poolInstance lastEventSeq token io = .done start)
    (calls : List ClientCall) :
    StreamLaw lastEventSeq start (start.history ext codec calls) := by
  have hconnected := connect_spec hconnect
  have hinv : ∀ calls, Inv lastEventSeq start (start.history ext codec calls)
      (start.after ext codec calls) := inv_history hconnected
  exact {
    replay := follows_iff_range.mp (hinv calls).replay
    live := by
      intro snapshot hmem
      obtain hreplaying | ⟨snapshot', hstreaming⟩ := (hinv calls).phase
      · rw [hreplaying.snapshots] at hmem
        cases hmem
      · rw [hstreaming.snapshots, List.mem_singleton] at hmem
        subst hmem
        exact follows_iff_range.mp (follows_append.mp hstreaming.follows).1
    subscribed := by
      intro hnone
      obtain hreplaying | ⟨snapshot, hstreaming⟩ := (hinv calls).phase
      · exact hreplaying.handed
      · rw [hstreaming.snapshots] at hnone
        cases hnone
    once := (hinv calls).once
    hello := hconnected.behind
    watermarks := by
      intro front t back heq watermark hmem
      obtain ⟨earlier, call, later, -, hfront, ht, -⟩ := transcript_split heq
      have hbefore := hinv earlier
      rw [ht] at hmem
      have hhighest := perform_accepted ext codec (start.after ext codec earlier) call watermark hmem
      refine ⟨?_, ?_⟩
      · rw [← hconnected.watermark]
        exact hbefore.start.trans hhighest
      · intro t' ht' seen hseen
        rw [hfront] at ht'
        exact (hbefore.seen t' ht' seen hseen).trans hhighest
    flushed := by
      intro t hmem
      obtain ⟨front, back, heq⟩ := List.append_of_mem hmem
      obtain ⟨earlier, call, later, -, -, ht, -⟩ := transcript_split heq
      rw [ht]
      exact perform_flushed ext codec (start.after ext codec earlier) call
    unusable := by
      intro front t back heq husable
      obtain ⟨earlier, call, later, -, -, -, hback⟩ := transcript_split heq
      rw [hback]
      exact unusable_history husable later }

/-! ### A session in which the law is met -/

/-- A JSON library for one session: the payload of a reply is the number of a message. -/
def sessionCodec (messages : List BackendMessage) : Codec where
  request := fun _ => [0]
  envelopeVersion := fun _ => some (some backendProtocolVersion)
  message := fun payload => messages[(payload.headD 0).toNat]?

/-- The frame of the message with this number. -/
def sessionFrame (index : UInt8) : List UInt8 := [0, 0, 0, 1, index]

/-- An exchange in which these messages arrive. -/
def sessionIo (indices : List UInt8) : Io where
  anchor := 0
  cut := none
  bytes := indices.flatMap sessionFrame
  ending := .elapsed

def sessionExternal : External where
  sha256 := fun _ => 1
  toJson := fun _ => []

def sessionConfig : BackendClientConfig where
  expected := ⟨1, 1, 1, 1, 1, 1, none, none⟩
  eventQueueCapacity := 2

/-- Hello, snapshot, an event, and a health reply that names the event. -/
def sessionMessages : List BackendMessage :=
  [.helloOk 2 1 ⟨1, 2, 3, requiredBackendCapabilities, 1, 1, 1, 1, 1, 1, 0⟩,
    .jobSnapshot 2 2 0 none [],
    .event 2 (.generationClosed 1 1),
    .healthStatus 2 3 1 true false 0 0 0]

def sessionStart : Outcome ClientError BackendClient :=
  connect sessionExternal (sessionCodec sessionMessages) sessionConfig 9 0 0 (sessionIo [0])

def sessionCalls : List ClientCall :=
  [.subscribeJobs 0 (sessionIo [1]), .health (sessionIo [2, 3]), .popQueuedEvent]

/-- The session connects, the law holds of it, and it hands out the first event live. -/
theorem journal_stream_integrity_session :
    ∃ start, sessionStart = .done start ∧
      StreamLaw 0 start (start.history sessionExternal (sessionCodec sessionMessages)
        sessionCalls) ∧
      (start.history sessionExternal (sessionCodec sessionMessages) sessionCalls).flatMap
        (fun t => (handedLive t).map (·.eventSeq)) = [1] := by
  have hlive : (sessionStart.value?.map fun start =>
      (start.history sessionExternal (sessionCodec sessionMessages) sessionCalls).flatMap
        fun t => (handedLive t).map (·.eventSeq)) = some [1] := by
    decide +kernel
  cases hstart : sessionStart with
  | done start =>
    rw [hstart] at hlive
    exact ⟨start, rfl, journal_stream_integrity _ _ _ _ _ _ _ start hstart sessionCalls,
      Option.some.inj hlive⟩
  | failed e =>
    rw [hstart] at hlive
    cases hlive
  | dropped =>
    rw [hstart] at hlive
    cases hlive

end BackendClient

end WcashPool.Client
