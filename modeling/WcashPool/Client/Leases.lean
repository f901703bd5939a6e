/-
  WcashPool.Client.Leases — no local lease outlives the backend's.

  The backend answers each request in one turn: first every event that it
  journaled before it took the request up, then the reply.  Events may wait
  unread in the socket for any time, through any number of idle periods, until
  some later request is made.  Whatever an exchange reads behind the reply to an
  earlier request was journaled after that request was taken up, and so after
  the anchor of that request, which is the floor that the connection keeps.

  Moments are nanoseconds on one axis: the clocks of both sides run at the same
  rate.

  Main results: `Punctual.step`, `snapshot_anchor_le`,
  `local_leases_within_backend` and `local_leases_outlive_unread`.
-/
import WcashPool.Core.JobLeases
import WcashPool.Client.Commits
import WcashPool.Client.Timeline

namespace WcashPool.Client

open Fallible Protocol WcashPool.Core Tasks Transcripts

namespace BackendClient

/-! ## §1. A backend that answers in turn -/

/-- An event as it was sent. -/
structure SentEvent where
  frame : List UInt8
  version : ℕ
  event : BackendEvent

/-- What the backend sends for one request, and when it took the request up and made the reply. -/
structure Turn where
  events : List SentEvent
  replyFrame : List UInt8
  reply : BackendMessage
  takenUpAt : ℕ
  repliedAt : ℕ

def Turn.bytes (turn : Turn) : List UInt8 := (turn.events.map (·.frame)).flatten ++ turn.replyFrame

/-- The calls of a connection, each with the turn of the backend. -/
def served (ext : External) (codec : Codec) (c : BackendClient) :
    List (ClientCall × Turn) → List (Entry × Turn)
  | [] => []
  | (call, turn) :: rest =>
    (entry (perform ext codec) c call, turn) :: served ext codec (c.perform ext codec call).2 rest

/-- Did the call write a request, or part of one? -/
def wrote (t : Entry) : Prop := t.before.stream.length < t.after.stream.length

/-- **One turn**: the bytes that a call reads are the events and the reply of the backend, up to
    any point and with anything behind them; the request is taken up after it was sent. -/
structure Answers (ext : External) (codec : Codec) (io : Io) (turn : Turn) : Prop where
  events : ∀ sent ∈ turn.events, Carries ext codec sent.frame (.event sent.version sent.event)
  reply : Carries ext codec turn.replyFrame turn.reply
  noEvent : ∀ version event, turn.reply ≠ .event version event
  bytes : ∃ more, io.bytes <+: turn.bytes ++ more
  causal : io.anchor ≤ turn.takenUpAt
  replied : turn.takenUpAt ≤ turn.repliedAt

/-- **A FIFO connection to a backend with this journal**: what is sent behind a reply was journaled
    after the request was taken up. -/
structure Fifo (ext : External) (codec : Codec) (journaledAt : ℕ → ℕ) (run : List (Entry × Turn)) :
    Prop where
  answers : ∀ p ∈ run, wrote p.1 → ∀ io ∈ ClientCall.io p.1.call, Answers ext codec io p.2
  behind : run.Pairwise fun p q => wrote p.1 →
    ∀ sent ∈ q.2.events, p.2.takenUpAt ≤ journaledAt sent.event.eventSeq

variable {ext : External} {codec : Codec}

/-- Frames of events at the start of a turn are the first frames of the turn. -/
theorem event_frames {reply : BackendMessage} {replyFrame more : List UInt8}
    (hreply : Carries ext codec replyFrame reply)
    (hnoEvent : ∀ version event, reply ≠ .event version event) {events : List SentEvent}
    (hevents : ∀ sent ∈ events, Carries ext codec sent.frame (.event sent.version sent.event))
    {frames : List (List UInt8)}
    (hframes : ∀ frame ∈ frames, ∃ version event, Carries ext codec frame (.event version event))
    (hbytes : frames.flatten <+: (events.map (·.frame)).flatten ++ (replyFrame ++ more)) :
    frames <+: events.map (·.frame) := by
  induction frames generalizing events with
  | nil => exact List.nil_prefix
  | cons frame frames ih =>
    obtain ⟨version, event, hframe⟩ := hframes frame List.mem_cons_self
    rw [List.flatten_cons] at hbytes
    have hstart := (List.prefix_append frame frames.flatten).trans hbytes
    cases events with
    | nil =>
      -- the reply stands where the event should
      obtain ⟨-, heq⟩ := hreply.unique hframe (List.prefix_append replyFrame more) hstart
      exact absurd heq (hnoEvent version event)
    | cons sent events =>
      rw [List.map_cons, List.flatten_cons, List.append_assoc] at hbytes hstart
      obtain ⟨hsame, -⟩ := (hevents sent List.mem_cons_self).unique hframe
        (List.prefix_append _ _) hstart
      rw [hsame, List.prefix_append_right_inj] at hbytes
      rw [List.map_cons, hsame, List.prefix_cons_inj]
      exact ih (fun sent hmem => hevents sent (List.mem_cons_of_mem _ hmem))
        (fun frame hmem => hframes frame (List.mem_cons_of_mem _ hmem)) hbytes

/-- What is read as an event was sent as an event. -/
theorem Answers.sent {io : Io} {turn : Turn} (h : Answers ext codec io turn) {event : BackendEvent}
    (harrives : Arrives ext codec io.bytes event) : ∃ sent ∈ turn.events, sent.event = event := by
  obtain ⟨version, earlier, frame, hbytes, hearlier, hframe⟩ := harrives
  obtain ⟨more, hmore⟩ := h.bytes
  have hpre := hbytes.trans hmore
  have hframes : ∀ front ∈ earlier ++ [frame],
      ∃ version event, Carries ext codec front (.event version event) := by
    intro front hmem
    cases List.mem_append.mp hmem with
    | inl hmem => exact hearlier front hmem
    | inr hmem => exact List.mem_singleton.mp hmem ▸ ⟨version, event, hframe⟩
  have hflat : (earlier ++ [frame]).flatten <+:
      (turn.events.map (·.frame)).flatten ++ (turn.replyFrame ++ more) := by
    rw [List.flatten_append, List.flatten_singleton, ← List.append_assoc]
    exact hpre
  have hfirst := event_frames h.reply h.noEvent h.events hframes hflat
  have hmem : frame ∈ turn.events.map (·.frame) :=
    hfirst.subset (List.mem_append_right _ (List.mem_singleton.mpr rfl))
  obtain ⟨sent, hsent, rfl⟩ := List.mem_map.mp hmem
  obtain ⟨-, heq⟩ := (h.events sent hsent).unique hframe (List.prefix_refl _) (List.prefix_refl _)
  injection heq with _ hevent
  exact ⟨sent, hsent, hevent⟩

/-! ## §2. The anchors of a connection -/

/-- **On time**: nothing in the queue is anchored after it was journaled, and the floor lies below
    everything that is still to be read. -/
structure Punctual (journaledAt : ℕ → ℕ) (c : BackendClient) (rest : List (Entry × Turn)) : Prop where
  queued : ∀ delivered ∈ c.queuedEvents, delivered.anchor ≤ journaledAt delivered.eventSeq
  floor : ∀ anchor ∈ c.liveEventAnchorFloor, ∀ p ∈ rest, ∀ sent ∈ p.2.events,
    anchor ≤ journaledAt sent.event.eventSeq

section Step

variable {journaledAt : ℕ → ℕ} {c c' : BackendClient} {call : ClientCall} {answer : ClientAnswer}
  {turn : Turn} {rest : List (Entry × Turn)}

/-- An exchange that takes up its turn. -/
theorem Punctual.receive {io : Io} {allowEvents : Bool} {news : List DeliveredBackendEvent}
    (hfifo : Fifo ext codec journaledAt ((⟨c, call, answer, c'⟩, turn) :: rest))
    (hpunctual : Punctual journaledAt c ((⟨c, call, answer, c'⟩, turn) :: rest))
    (hio : ClientCall.io call = some io) (hnews : News ext codec allowEvents io c c' news) :
    Punctual journaledAt c' rest := by
  have hanswers := hfifo.answers _ List.mem_cons_self
  have hbehind := (List.pairwise_cons.mp hfifo.behind).1
  constructor
  · intro delivered hmem
    rw [hnews.receives.queued, List.mem_append] at hmem
    cases hmem with
    | inl hmem => exact hpunctual.queued delivered hmem
    | inr hmem =>
      obtain ⟨-, hfloor, harrives⟩ := hnews.stamped delivered hmem
      obtain ⟨sent, hsent, heq⟩ :=
        (hanswers (hnews.written (List.ne_nil_of_mem hmem)) io hio).sent harrives
      have hle := hpunctual.floor _ hfloor _ List.mem_cons_self sent hsent
      rw [heq] at hle
      exact hle
  · obtain hfloor | ⟨-, hfloor, hwritten⟩ := hnews.floor
    · rw [hfloor]
      exact fun anchor hanchor p hp => hpunctual.floor anchor hanchor p (List.mem_cons_of_mem _ hp)
    · -- the new floor is the anchor of a request that was taken up before the rest was journaled
      intro anchor hanchor p hp sent hsent
      rw [hfloor, Option.mem_def, Option.some.injEq] at hanchor
      have hcausal := (hanswers hwritten io hio).causal
      have htaken := hbehind p hp hwritten sent hsent
      omega

/-- **One call further.** -/
theorem Punctual.step {call : ClientCall}
    (hfifo : Fifo ext codec journaledAt ((entry (perform ext codec) c call, turn) :: rest))
    (hpunctual : Punctual journaledAt c ((entry (perform ext codec) c call, turn) :: rest)) :
    Punctual journaledAt (c.perform ext codec call).2 rest := by
  have hstep := perform_cases ext codec c call
  unfold entry at hfifo hpunctual
  generalize (c.perform ext codec call).2 = c' at *
  generalize (c.perform ext codec call).1 = answer at *
  have hlater : ∀ anchor ∈ c.liveEventAnchorFloor, ∀ p ∈ rest, ∀ sent ∈ p.2.events,
      anchor ≤ journaledAt sent.event.eventSeq :=
    fun anchor hanchor p hp => hpunctual.floor anchor hanchor p (List.mem_cons_of_mem _ hp)
  cases hstep with
  | empty hqueue => exact ⟨hpunctual.queued, hlater⟩
  | popped hqueue =>
    refine ⟨fun delivered hmem => hpunctual.queued delivered ?_, hlater⟩
    rw [hqueue]
    exact List.mem_cons_of_mem _ hmem
  | page htaken =>
    refine ⟨?_, ?_⟩
    · rw [htaken.queued]
      exact hpunctual.queued
    · rw [htaken.floor]
      exact hlater
  | subscribed hio hlive =>
    refine ⟨?_, ?_⟩
    · rw [hlive.queued]
      exact hpunctual.queued
    · intro anchor hanchor p hp sent hsent
      rw [hlive.floor, Option.mem_def, Option.some.injEq, hlive.anchor] at hanchor
      have hcausal := (hfifo.answers _ List.mem_cons_self hlive.written _ hio).causal
      have htaken := (List.pairwise_cons.mp hfifo.behind).1 p hp hlive.written sent hsent
      omega
  | health hio hnews _ _ _ => exact hpunctual.receive hfifo hio hnews
  | unverified hio hnews _ _ => exact hpunctual.receive hfifo hio hnews
  | verified hio hnews _ _ _ => exact hpunctual.receive hfifo hio hnews
  | ended hio hnews _ => exact hpunctual.receive hfifo hio hnews

end Step

section Run

variable {journaledAt : ℕ → ℕ} {c : BackendClient} {run : List (ClientCall × Turn)}

theorem Fifo.tail {p : Entry × Turn} {rest : List (Entry × Turn)}
    (h : Fifo ext codec journaledAt (p :: rest)) : Fifo ext codec journaledAt rest :=
  ⟨fun q hq => h.answers q (List.mem_cons_of_mem _ hq), (List.pairwise_cons.mp h.behind).2⟩

/-- **Whole runs**: whatever waits in the queue, before a call or after it, is anchored in time. -/
theorem queue_punctual (hfifo : Fifo ext codec journaledAt (served ext codec c run))
    (hpunctual : Punctual journaledAt c (served ext codec c run)) :
    ∀ p ∈ served ext codec c run, ∀ delivered ∈ p.1.before.queuedEvents ++ p.1.after.queuedEvents,
      delivered.anchor ≤ journaledAt delivered.eventSeq := by
  induction run generalizing c with
  | nil => exact fun _ h => absurd h List.not_mem_nil
  | cons head run ih =>
    obtain ⟨call, turn⟩ := head
    have hnext := Punctual.step hfifo hpunctual
    intro p hp delivered hmem
    cases List.mem_cons.mp hp with
    | inl heq =>
      subst heq
      cases List.mem_append.mp hmem with
      | inl hmem => exact hpunctual.queued delivered hmem
      | inr hmem => exact hnext.queued delivered hmem
    | inr hp => exact ih hfifo.tail hnext p hp delivered hmem

/-- Every call of a run was made on some connection, with its turn. -/
theorem served_entry : ∀ p ∈ served ext codec c run,
    ∃ c' call, p.1 = entry (perform ext codec) c' call ∧ (call, p.2) ∈ run := by
  induction run generalizing c with
  | nil => exact fun _ h => absurd h List.not_mem_nil
  | cons head run ih =>
    obtain ⟨call, turn⟩ := head
    intro p hp
    cases List.mem_cons.mp hp with
    | inl heq => exact ⟨c, call, heq ▸ rfl, heq ▸ List.mem_cons_self⟩
    | inr hp =>
      obtain ⟨c', call', heq, hmem⟩ := ih p hp
      exact ⟨c', call', heq, List.mem_cons_of_mem _ hmem⟩

/-- Turns that are in order whatever was written make a FIFO connection. -/
theorem Fifo.of_run
    (hanswers : ∀ p ∈ run, ∀ io ∈ ClientCall.io p.1, Answers ext codec io p.2)
    (hbehind : run.Pairwise fun p q =>
      ∀ sent ∈ q.2.events, p.2.takenUpAt ≤ journaledAt sent.event.eventSeq) :
    Fifo ext codec journaledAt (served ext codec c run) := by
  constructor
  · intro p hp _ io hio
    obtain ⟨c', call, heq, hmem⟩ := served_entry p hp
    rw [heq] at hio
    exact hanswers _ hmem io hio
  · induction run generalizing c with
    | nil => exact List.Pairwise.nil
    | cons head run ih =>
      obtain ⟨hfirst, hrest⟩ := List.pairwise_cons.mp hbehind
      refine List.pairwise_cons.mpr ⟨?_, ih (fun p hp => hanswers p (List.mem_cons_of_mem _ hp)) hrest⟩
      intro q hq _
      obtain ⟨c', call, -, hmem⟩ := served_entry q hq
      exact hfirst _ hmem

/-- An event that was handed out came from the queue. -/
theorem mem_queue_of_handed {p : Entry × Turn} (hp : p ∈ served ext codec c run)
    {delivered : DeliveredBackendEvent} (h : delivered ∈ handedLive p.1) :
    delivered ∈ p.1.before.queuedEvents := by
  obtain ⟨c', call, heq, -⟩ := served_entry p hp
  rw [heq] at h ⊢
  have hstep := perform_cases ext codec c' call
  unfold handedLive entry at h
  show delivered ∈ c'.queuedEvents
  generalize (c'.perform ext codec call).2 = c'' at hstep
  generalize (c'.perform ext codec call).1 = answer at hstep h
  cases hstep with
  | popped hqueue =>
    rw [List.mem_singleton.mp h, hqueue]
    exact List.mem_cons_self
  | ended _ _ hended =>
    cases answer with
    | event delivered => cases hended
    | snapshot | page | health | unverified | verified => cases h
  | empty | page | subscribed | health | unverified | verified => cases h

/-- **The snapshot is anchored before it was taken.** -/
theorem snapshot_anchor_le (hfifo : Fifo ext codec journaledAt (served ext codec c run))
    {p : Entry × Turn} (hp : p ∈ served ext codec c run) {snapshot : JobSnapshot}
    (h : snapshot ∈ snapshotOf p.1) : snapshot.anchor ≤ p.2.repliedAt := by
  obtain ⟨c', call, heq, -⟩ := served_entry p hp
  have hanswers := hfifo.answers p hp
  rw [heq] at h hanswers
  have hstep := perform_cases ext codec c' call
  unfold snapshotOf entry at h
  unfold wrote entry at hanswers
  generalize (c'.perform ext codec call).2 = c'' at hstep hanswers
  generalize (c'.perform ext codec call).1 = answer at hstep h
  cases hstep with
  | subscribed hio hlive =>
    have hanswer := hanswers hlive.written _ hio
    rw [List.mem_singleton.mp h, hlive.anchor]
    exact hanswer.causal.trans hanswer.replied
  | ended _ _ hended =>
    cases answer with
    | event delivered => cases hended
    | snapshot outcome =>
      cases outcome with
      | done value => cases hended
      | failed | dropped => cases h
    | page | health | unverified | verified => cases h
  | empty | popped | page | health | unverified | verified => cases h

end Run

/-! ## §3. What the registry is given -/

/-- A connection from its opening on. -/
structure Session where
  start : BackendClient
  run : List (ClientCall × Turn)

def Session.served (ext : External) (codec : Codec) (session : Session) : List (Entry × Turn) :=
  BackendClient.served ext codec session.start session.run

/-- The connection was opened, and the backend behind it answers in turn. -/
structure Session.Lawful (ext : External) (codec : Codec) (journaledAt : ℕ → ℕ) (session : Session) :
    Prop where
  connected : ∃ config poolInstance lastEventSeq token io,
    connect ext codec config poolInstance lastEventSeq token io = .done session.start
  fifo : Fifo ext codec journaledAt (session.served ext codec)

theorem Session.Lawful.punctual {journaledAt : ℕ → ℕ} {session : Session}
    (h : session.Lawful ext codec journaledAt) :
    Punctual journaledAt session.start (session.served ext codec) := by
  obtain ⟨config, poolInstance, lastEventSeq, token, io, hconnect⟩ := h.connected
  have hconnected := connect_spec hconnect
  constructor
  · rw [hconnected.queued]
    exact fun _ h => absurd h List.not_mem_nil
  · rw [hconnected.floor]
    exact fun _ h => by cases h

/-- What is done to the registry: a snapshot or an event is applied, or a call is made that is
    neither. -/
inductive Delivery
  | snapshot (snapshot : JobSnapshot)
  | event (delivered : DeliveredBackendEvent)
  | eventAt (delivered : DeliveredBackendEvent) (policyNowMs : ℕ)
  | other (call : RegistryCall)

namespace Delivery

def apply (ext : External) (timeline : MonotonicTimeline) (r : GenerationRegistry) :
    Delivery → Except JobStateIntegrationError Unit × GenerationRegistry
  | .snapshot taken => taken.applyToRegistry timeline r
  | .event delivered => delivered.applyToRegistry ext timeline r
  | .eventAt delivered policyNowMs => delivered.applyToRegistryAt ext timeline policyNowMs r
  | .other call => (r.perform ext call).map (·.mapError .registry) id

/-- The registry after these deliveries. -/
def after (ext : External) (config : GenerationRegistryConfig) (timeline : MonotonicTimeline)
    (deliveries : List Delivery) : GenerationRegistry :=
  deliveries.foldl (fun r delivery => (delivery.apply ext timeline r).2) (.new config)

/-- Snapshots and events are handed out by one of the connections. -/
def From (ext : External) (codec : Codec) (sessions : List Session) : Delivery → Prop
  | .snapshot taken =>
    ∃ session ∈ sessions, ∃ p ∈ session.served ext codec, taken ∈ snapshotOf p.1
  | .event delivered | .eventAt delivered _ =>
    ∃ session ∈ sessions, ∃ p ∈ session.served ext codec, delivered ∈ handedLive p.1
  | .other call => call.isInput = false

/-- The moment at which the backend granted the leases of a delivery: when it took the snapshot,
    or when it journaled the event. -/
def GrantedAt (ext : External) (codec : Codec) (journaledAt : ℕ → ℕ) (sessions : List Session) :
    Delivery → ℕ → Prop
  | .snapshot taken, moment => ∃ session ∈ sessions, ∃ p ∈ session.served ext codec,
    taken ∈ snapshotOf p.1 ∧ moment = p.2.repliedAt
  | .event delivered, moment | .eventAt delivered _, moment =>
    moment = journaledAt delivered.eventSeq
  | .other _, _ => False

/-- The leases of a delivery in milliseconds: activation age, remaining time or superseded grace. -/
def leases : Delivery → List (Hex32 × ℕ)
  | .snapshot taken =>
    (taken.current.toList ++ taken.recent).map fun job => (job.job.jobId, job.acceptForMs)
  | .event delivered | .eventAt delivered _ => eventLifetimes 0 delivered.event
  | .other _ => []

/-- The call that a delivery makes, unless its anchor is refused. -/
def call (timeline : MonotonicTimeline) : Delivery → Except TimelineError RegistryCall
  | .snapshot taken => (timeline.anchorMs taken.anchor).map fun anchorMs =>
    .applySnapshot taken.eventSeq taken.current taken.recent anchorMs
  | .event delivered => (timeline.anchorMs delivered.anchor).map (.applyEvent delivered.event)
  | .eventAt delivered policyNowMs => (timeline.anchorMs delivered.anchor).map fun anchorMs =>
    .applyEventAt delivered.event anchorMs policyNowMs
  | .other call => .ok call

/-- A delivery whose anchor is refused does nothing; any other is its call. -/
theorem apply_eq (ext : External) (timeline : MonotonicTimeline) (r : GenerationRegistry)
    (delivery : Delivery) :
    delivery.apply ext timeline r = match delivery.call timeline with
      | .error error => (.error (.timeline error), r)
      | .ok made => ((r.perform ext made).1.mapError .registry, (r.perform ext made).2) := by
  cases delivery with
  | snapshot taken =>
    dsimp only [apply, call, JobSnapshot.applyToRegistry]
    cases timeline.anchorMs taken.anchor <;> rfl
  | event delivered =>
    dsimp only [apply, call, DeliveredBackendEvent.applyToRegistry]
    cases timeline.anchorMs delivered.anchor <;> rfl
  | eventAt delivered policyNowMs =>
    dsimp only [apply, call, DeliveredBackendEvent.applyToRegistryAt]
    cases timeline.anchorMs delivered.anchor <;> rfl
  | other call => rfl

/-- The calls that deliveries make. -/
def calls (timeline : MonotonicTimeline) (deliveries : List Delivery) : List RegistryCall :=
  deliveries.filterMap fun delivery => (delivery.call timeline).toOption

/-- **The registry is the one after the calls.** -/
theorem after_eq (ext : External) (config : GenerationRegistryConfig) (timeline : MonotonicTimeline)
    (deliveries : List Delivery) :
    after ext config timeline deliveries =
      GenerationRegistry.after ext config (calls timeline deliveries) := by
  induction deliveries using List.reverseRecOn with
  | nil => rfl
  | append_singleton deliveries delivery ih =>
    have hlast : after ext config timeline (deliveries ++ [delivery]) =
        (delivery.apply ext timeline (after ext config timeline deliveries)).2 := List.foldl_concat ..
    rw [hlast, apply_eq, ih]
    unfold calls
    rw [List.filterMap_append]
    cases hcall : delivery.call timeline with
    | error error => simp [hcall, Except.toOption]
    | ok made =>
      simp only [List.filterMap_cons, hcall, Except.toOption, List.filterMap_nil]
      exact (GenerationRegistry.after_concat ext config _ made).symm

/-- An event grants the same leases from any anchor on. -/
theorem mem_eventLifetimes {event : BackendEvent} {jobId : Hex32} {lifetime : ℕ}
    (h : (jobId, lifetime) ∈ eventLifetimes 0 event) (anchorMs : ℕ) :
    (jobId, anchorMs + lifetime) ∈ eventLifetimes anchorMs event := by
  unfold eventLifetimes at h ⊢
  split at h
  · simpa using h
  · split_ifs at h ⊢
    · cases h
    · simpa using h
  · cases h

/-- **A delivery is anchored before its leases were granted.** -/
theorem anchored {journaledAt : ℕ → ℕ} {sessions : List Session}
    (hsessions : ∀ session ∈ sessions, session.Lawful ext codec journaledAt)
    {timeline : MonotonicTimeline} {delivery : Delivery} (hfrom : delivery.From ext codec sessions)
    {made : RegistryCall} (hcall : delivery.call timeline = .ok made) {jobId : Hex32}
    {lifetime moment : ℕ} (hlease : (jobId, lifetime) ∈ delivery.leases)
    (hgranted : delivery.GrantedAt ext codec journaledAt sessions moment) :
    ∃ anchor anchorMs, timeline.anchorMs anchor = .ok anchorMs ∧ anchor ≤ moment ∧
      (jobId, anchorMs + lifetime) ∈ made.lifetimes := by
  have hhanded : ∀ delivered : DeliveredBackendEvent,
      (∃ session ∈ sessions, ∃ p ∈ session.served ext codec, delivered ∈ handedLive p.1) →
      delivered.anchor ≤ journaledAt delivered.eventSeq := by
    rintro delivered ⟨session, hsession, p, hp, hmem⟩
    have hlawful := hsessions session hsession
    exact queue_punctual hlawful.fifo hlawful.punctual p hp delivered
      (List.mem_append_left _ (mem_queue_of_handed hp hmem))
  cases delivery with
  | snapshot taken =>
    obtain ⟨session, hsession, p, hp, hmem, rfl⟩ := hgranted
    obtain ⟨anchorMs, hanchor, rfl⟩ := map_eq_ok.mp hcall
    refine ⟨taken.anchor, anchorMs, hanchor,
      snapshot_anchor_le (hsessions session hsession).fifo hp hmem, ?_⟩
    obtain ⟨job, hjob, heq⟩ := List.mem_map.mp hlease
    injection heq with hid hlifetime
    exact List.mem_map.mpr ⟨job, hjob, by rw [hid, hlifetime]⟩
  | event delivered =>
    obtain ⟨anchorMs, hanchor, rfl⟩ := map_eq_ok.mp hcall
    refine ⟨delivered.anchor, anchorMs, hanchor, ?_, mem_eventLifetimes hlease anchorMs⟩
    exact (hhanded delivered hfrom).trans_eq (Eq.symm hgranted)
  | eventAt delivered policyNowMs =>
    obtain ⟨anchorMs, hanchor, rfl⟩ := map_eq_ok.mp hcall
    refine ⟨delivered.anchor, anchorMs, hanchor, ?_, mem_eventLifetimes hlease anchorMs⟩
    exact (hhanded delivered hfrom).trans_eq (Eq.symm hgranted)
  | other call => cases hlease

end Delivery

/-! ## §4. Admissions -/

/-- **Local leases never outlive the backend's.**  On every FIFO connection an event is anchored no
    later than it was journaled and a snapshot no later than it was taken.  So an admission at `now`
    lies before the end, on the backend's side, of every lease that was applied for its job:
    activation age, remaining time or superseded grace. -/
theorem local_leases_within_backend (ext : External) (codec : Codec) (journaledAt : ℕ → ℕ)
    (sessions : List Session)
    (hsessions : ∀ session ∈ sessions, session.Lawful ext codec journaledAt)
    (config : GenerationRegistryConfig) (timeline : MonotonicTimeline) (deliveries : List Delivery)
    (hfrom : ∀ delivery ∈ deliveries, delivery.From ext codec sessions) :
    (∀ session ∈ sessions, ∀ p ∈ session.served ext codec,
      (∀ delivered ∈ received p.1, delivered.anchor ≤ journaledAt delivered.eventSeq) ∧
      ∀ snapshot ∈ snapshotOf p.1, snapshot.anchor ≤ p.2.repliedAt) ∧
    ∀ id now nowMs admission r', timeline.instantMs now = .ok nowMs →
      (Delivery.after ext config timeline deliveries).beginAdmission id nowMs
        = (.ok admission, r') →
      ∀ earlier delivery later, deliveries = earlier ++ delivery :: later →
        (delivery.apply ext timeline (Delivery.after ext config timeline earlier)).1 = .ok () →
        ((delivery.apply ext timeline
          (Delivery.after ext config timeline earlier)).2.entries.find id).isSome →
        ∀ lifetime, (id.bytes, lifetime) ∈ delivery.leases →
        ∀ moment, delivery.GrantedAt ext codec journaledAt sessions moment →
          now < moment + lifetime * nanosPerMilli := by
  refine ⟨?_, ?_⟩
  · intro session hsession p hp
    have hlawful := hsessions session hsession
    refine ⟨fun delivered hmem => ?_, fun snapshot => snapshot_anchor_le hlawful.fifo hp⟩
    exact queue_punctual hlawful.fifo hlawful.punctual p hp delivered
      (List.mem_append_right _ (List.mem_of_mem_drop hmem))
  · rintro id now nowMs admission r' hnow hadmitted earlier delivery later rfl hok hknown lifetime
      hlease moment hgranted
    rw [Delivery.apply_eq] at hok hknown
    cases hcall : delivery.call timeline with
    | error error =>
      rw [hcall] at hok
      cases hok
    | ok made =>
      rw [hcall, Delivery.after_eq] at hok hknown
      obtain ⟨recorded, hrecorded⟩ := Option.isSome_iff_exists.mp hknown
      have hsplit : Delivery.calls timeline (earlier ++ delivery :: later) =
          Delivery.calls timeline earlier ++ made :: Delivery.calls timeline later := by
        simp [Delivery.calls, hcall, Except.toOption]
      rw [Delivery.after_eq] at hadmitted
      rw [hsplit] at hadmitted
      obtain ⟨anchor, anchorMs, hanchor, hle, hlifetime⟩ :=
        Delivery.anchored hsessions (hfrom delivery (by simp)) hcall hlease hgranted
      have hbelow := GenerationRegistry.admitted_before_deadline hadmitted (mapError_eq_ok.mp hok)
        hrecorded hlifetime
      have hlocal := MonotonicTimeline.instantMs_lt_deadline hnow hanchor hbelow
      omega

/-! ### A session with a superseded job -/

/-- Hello, a snapshot with job 1, its supersession, and a health reply behind it. -/
def leaseMessages : List BackendMessage :=
  [.helloOk 2 1 ⟨1, 2, 3, requiredBackendCapabilities, 1, 1, 1, 1, 1, 1, 0⟩,
    .jobSnapshot 2 2 0 (some ⟨workedJob 1, 900⟩) [],
    .event 2 (.jobInvalidated 1 1 .superseded 400),
    .healthStatus 2 3 1 true false 0 0 0]

def leaseCodec : Codec := sessionCodec leaseMessages

def leaseOpening : Outcome ClientError BackendClient :=
  connect workedExternal leaseCodec sessionConfig 9 0 0 (sessionIo [0])

def leaseStart : BackendClient := leaseOpening.value?.getD (opened sessionConfig 9 0 0)

theorem leaseOpening_eq : leaseOpening = .done leaseStart := by
  have hsome : leaseOpening.value?.isSome = true := by decide +kernel
  unfold leaseStart
  cases hopening : leaseOpening with
  | done start => rfl
  | failed error =>
    rw [hopening] at hsome
    cases hsome
  | dropped =>
    rw [hopening] at hsome
    cases hsome

/-- The subscription is taken up at 10 ns, the job superseded at 20 ns. -/
def leaseRun : List (ClientCall × Turn) :=
  [(.subscribeJobs 0 (sessionIo [1]),
      ⟨[], sessionFrame 1, .jobSnapshot 2 2 0 (some ⟨workedJob 1, 900⟩) [], 10, 10⟩),
    (.health (sessionIo [2, 3]),
      ⟨[⟨sessionFrame 2, 2, .jobInvalidated 1 1 .superseded 400⟩], sessionFrame 3,
        .healthStatus 2 3 1 true false 0 0 0, 30, 30⟩),
    (.popQueuedEvent, ⟨[], [], .healthStatus 2 3 1 true false 0 0 0, 30, 30⟩)]

def leaseSession : Session := ⟨leaseStart, leaseRun⟩

theorem sessionFrame_carries {index : UInt8} {message : BackendMessage}
    (h : decodeMessage workedExternal leaseCodec [index] = .ok message) :
    Carries workedExternal leaseCodec (sessionFrame index) message where
  first := by
    intro front hfront hne
    have htake := List.prefix_iff_eq_take.mp hfront
    have hlength : front.length < 5 :=
      lt_of_le_of_ne hfront.length_le fun hlength => hne (hfront.eq_of_length hlength)
    generalize front.length = n at htake hlength
    subst htake
    obtain rfl | rfl | rfl | rfl | rfl : n = 0 ∨ n = 1 ∨ n = 2 ∨ n = 3 ∨ n = 4 := by omega
    · rfl
    · rfl
    · rfl
    · rfl
    · show frameOf [0, 0, 0, 1] = .incomplete
      decide +kernel
  decoded := by
    have hlength : declaredLength [0, 0, 0, 1, index] = 1 := rfl
    refine ⟨[index], ?_, h⟩
    simp [frameOf, hlength, sessionFrame, backendLengthPrefixBytes, maxBackendPayloadBytes]

theorem leaseSession_lawful : leaseSession.Lawful workedExternal leaseCodec fun _ => 20 where
  connected := ⟨sessionConfig, 9, 0, 0, sessionIo [0], leaseOpening_eq⟩
  fifo := by
    have hsubscribe : Answers workedExternal leaseCodec (sessionIo [1])
        ⟨[], sessionFrame 1, .jobSnapshot 2 2 0 (some ⟨workedJob 1, 900⟩) [], 10, 10⟩ := {
      events := fun _ h => absurd h List.not_mem_nil
      reply := sessionFrame_carries (by decide +kernel)
      noEvent := fun _ _ h => by cases h
      bytes := ⟨[], List.prefix_refl _⟩
      causal := by decide
      replied := le_rfl }
    have hhealth : Answers workedExternal leaseCodec (sessionIo [2, 3])
        ⟨[⟨sessionFrame 2, 2, .jobInvalidated 1 1 .superseded 400⟩], sessionFrame 3,
          .healthStatus 2 3 1 true false 0 0 0, 30, 30⟩ := {
      events := by
        intro sent hmem
        rw [List.mem_singleton.mp hmem]
        exact sessionFrame_carries (by decide +kernel)
      reply := sessionFrame_carries (by decide +kernel)
      noEvent := fun _ _ h => by cases h
      bytes := ⟨[], List.prefix_refl _⟩
      causal := by decide
      replied := le_rfl }
    refine Fifo.of_run ?_ ?_
    · intro p hp io hio
      replace hp : p ∈ leaseRun := hp
      simp only [leaseRun, List.mem_cons, List.not_mem_nil, or_false] at hp
      obtain rfl | rfl | rfl := hp
      · exact Option.some.inj hio ▸ hsubscribe
      · exact Option.some.inj hio ▸ hhealth
      · exact absurd hio (by simp [ClientCall.io])
    · show leaseRun.Pairwise _
      simp [leaseRun]

def leaseBinding : BackendConnectionBinding := ⟨leaseStart.authority, 0, 0⟩

def leaseSnapshot : JobSnapshot := ⟨0, some ⟨workedJob 1, 900⟩, [], 0, 0, leaseBinding⟩

def leaseEvent : DeliveredBackendEvent := ⟨.jobInvalidated 1 1 .superseded 400, 0, leaseBinding⟩

theorem leaseSnapshot_from :
    (Delivery.snapshot leaseSnapshot).From workedExternal leaseCodec [leaseSession] := by
  have hsnapshot : leaseSnapshot ∈
      (leaseSession.served workedExternal leaseCodec).flatMap (snapshotOf ·.1) := by decide +kernel
  obtain ⟨p, hp, hsnapshot⟩ := List.mem_flatMap.mp hsnapshot
  exact ⟨leaseSession, List.mem_singleton.mpr rfl, p, hp, hsnapshot⟩

/-- The superseded job is still admitted at 300 ms, which is before 400 ms from its supersession. -/
theorem local_leases_within_backend_superseded :
    ((Delivery.after workedExternal workedConfig ⟨0⟩
      [.snapshot leaseSnapshot, .eventAt leaseEvent 1]).beginAdmission ⟨1, by decide⟩ 300).1.isOk ∧
    300 * nanosPerMilli < 20 + 400 * nanosPerMilli := by
  have hadmitted : ((Delivery.after workedExternal workedConfig ⟨0⟩
      [.snapshot leaseSnapshot, .eventAt leaseEvent 1]).beginAdmission ⟨1, by decide⟩ 300).1.isOk
      = true := by decide +kernel
  refine ⟨hadmitted, ?_⟩
  have hevent : leaseEvent ∈
      (leaseSession.served workedExternal leaseCodec).flatMap (handedLive ·.1) := by decide +kernel
  obtain ⟨q, hq, hevent⟩ := List.mem_flatMap.mp hevent
  have hlaw := local_leases_within_backend workedExternal leaseCodec (fun _ => 20) [leaseSession]
    (fun session hmem => List.mem_singleton.mp hmem ▸ leaseSession_lawful) workedConfig ⟨0⟩
    [.snapshot leaseSnapshot, .eventAt leaseEvent 1] (by
      intro delivery hmem
      rcases hmem with _ | ⟨_, _ | ⟨_, hmem⟩⟩
      · exact leaseSnapshot_from
      · exact ⟨leaseSession, List.mem_singleton.mpr rfl, q, hq, hevent⟩
      · cases hmem)
  generalize hbegin : (Delivery.after workedExternal workedConfig ⟨0⟩
    [.snapshot leaseSnapshot, .eventAt leaseEvent 1]).beginAdmission ⟨1, by decide⟩ 300 = outcome
    at hadmitted
  obtain ⟨_ | admission, r'⟩ := outcome
  · cases hadmitted
  · exact hlaw.2 ⟨1, by decide⟩ (300 * nanosPerMilli) 300 admission r' (by decide +kernel) hbegin
      [.snapshot leaseSnapshot] (.eventAt leaseEvent 1) [] rfl (by decide +kernel)
      (by decide +kernel) 400 (by decide +kernel) 20 rfl

/-- **A supersession that was not applied yet.**  The backend journals it at 20 ns with a grace of
    400 ms; a registry that has seen the snapshot alone still admits the job at 600 ms. -/
theorem local_leases_outlive_unread :
    leaseSession.Lawful workedExternal leaseCodec (fun _ => 20) ∧
    (Delivery.snapshot leaseSnapshot).From workedExternal leaseCodec [leaseSession] ∧
    .jobInvalidated 1 1 .superseded 400 ∈ leaseRun.flatMap (fun p => p.2.events.map (·.event)) ∧
    (⟨0⟩ : MonotonicTimeline).instantMs (600 * nanosPerMilli) = .ok 600 ∧
    ((Delivery.after workedExternal workedConfig ⟨0⟩
      [.snapshot leaseSnapshot]).beginAdmission ⟨1, by decide⟩ 600).1.isOk ∧
    20 + 400 * nanosPerMilli ≤ 600 * nanosPerMilli :=
  ⟨leaseSession_lawful, leaseSnapshot_from, by decide +kernel, rfl, by decide +kernel,
    by decide +kernel⟩

end BackendClient

end WcashPool.Client
