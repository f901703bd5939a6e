/-
  WcashPool.Client.Commits — what stands behind a verified commit.

  A commit is returned only for the receipt that the backend's reply carries,
  and only when its exact event is among the live events still held.  What is
  held live was delivered on this connection (`Backed`), so the event of every
  commit stood as a frame in the bytes of this call or an earlier one.

  Main results: `Backed.step`, `recoveryRoleMatches_zcash` and
  `verified_commit_sound`.
-/
import WcashPool.Core.JobRuns
import WcashPool.Client.Journal

namespace WcashPool.Client

open Fallible Protocol WcashPool.Core Sequence Tasks Tasks.Task Transcripts

namespace BackendClient

variable {ext : External} {codec : Codec}

/-! ## §1. Live delivery -/

/-- The live events that a call took up. -/
def received (t : Entry) : List DeliveredBackendEvent :=
  t.after.queuedEvents.drop t.before.queuedEvents.length

/-- **Delivered live in this call**: the event was taken up on a live connection, is bound to it,
    and stood as a frame in the bytes that arrived. -/
structure DeliveredIn (ext : External) (codec : Codec) (t : Entry)
    (delivered : DeliveredBackendEvent) : Prop where
  live : t.before.phase = .live
  taken : delivered ∈ received t
  binding : t.before.connectionBinding = some delivered.connectionBinding
  arrives : ∃ io, ClientCall.io t.call = some io ∧ Arrives ext codec io.bytes delivered.event

/-- Some call of the run delivered the event on the connection as it is now bound. -/
def Delivered (ext : External) (codec : Codec) (h : List Entry) (c : BackendClient)
    (event : BackendEvent) : Prop :=
  ∃ t ∈ h, ∃ delivered, DeliveredIn ext codec t delivered ∧ delivered.event = event ∧
    c.connectionBinding = some delivered.connectionBinding

/-- **What is held live was delivered live.** -/
def Backed (ext : External) (codec : Codec) (h : List Entry) (c : BackendClient) : Prop :=
  ∀ event ∈ c.liveEvents, Delivered ext codec h c event

variable {c c' : BackendClient} {event : BackendEvent} {receipt : ShareReceipt} {replayed : Bool}

theorem Delivered.later {h : List Entry} (hdelivered : Delivered ext codec h c event)
    (hbinding : c'.connectionBinding = c.connectionBinding) (t : Entry) :
    Delivered ext codec (h ++ [t]) c' event := by
  obtain ⟨t', hmem, delivered, hin, hevent, hbound⟩ := hdelivered
  exact ⟨t', List.mem_append_left _ hmem, delivered, hin, hevent, hbinding.trans hbound⟩

theorem mem_remember {capacity : ℕ} {events : List BackendEvent} {new : BackendEvent}
    (h : event ∈ remember capacity events new) : event ∈ events ∨ event = new := by
  obtain hmem | hmem := List.mem_append.mp h
  · split_ifs at hmem
    · exact .inl (List.mem_of_mem_drop hmem)
    · exact .inl hmem
  · exact .inr (List.mem_singleton.mp hmem)

section Step

variable {lastEventSeq : ℕ} {start c c' : BackendClient} {h : List Entry} {call : ClientCall}

/-- An exchange delivers what it adds to the queue. -/
theorem Backed.receive (hinv : Inv lastEventSeq start h c) (hbacked : Backed ext codec h c)
    {io : Io} {allowEvents : Bool} {news : List DeliveredBackendEvent} {answer : ClientAnswer}
    (hio : ClientCall.io call = some io) (hnews : News ext codec allowEvents io c c' news) :
    Backed ext codec (h ++ [⟨c, call, answer, c'⟩]) c' := by
  have hbinding := hnews.receives.connectionBinding
  intro event hmem
  unfold liveEvents at hmem
  rw [hnews.receives.queued, hnews.receives.observed, List.map_append, List.mem_append,
    List.mem_append] at hmem
  have hold : event ∈ c.liveEvents → Delivered ext codec (h ++ [⟨c, call, answer, c'⟩]) c' event :=
    fun hmem => (hbacked event hmem).later hbinding _
  obtain (hmem | hmem) | hmem := hmem
  · exact hold (List.mem_append_left _ hmem)
  · obtain ⟨delivered, hnew, hevent⟩ := List.mem_map.mp hmem
    obtain ⟨hbound, -, harrives⟩ := hnews.stamped delivered hnew
    have hlive : c.phase = .live := by
      obtain hreplaying | ⟨snapshot, hstreaming⟩ := hinv.phase
      · rw [hnews.receives.quiet hreplaying.cursor] at hnew
        cases hnew
      · exact hstreaming.phase
    refine ⟨_, List.mem_append_right _ (List.mem_singleton.mpr rfl), delivered, ?_, hevent,
      hbinding.trans hbound⟩
    refine ⟨hlive, ?_, hbound, io, hio, harrives⟩
    show delivered ∈ c'.queuedEvents.drop c.queuedEvents.length
    rw [hnews.receives.queued, List.drop_left]
    exact hnew
  · exact hold (List.mem_append_right _ hmem)

/-- A connection that still replays holds nothing live. -/
theorem liveEvents_of_replaying (h : Replaying h c) : c.liveEvents = [] := by
  unfold liveEvents
  rw [h.queued, h.observed]
  rfl

/-- **One call further.** -/
theorem Backed.step (hinv : Inv lastEventSeq start h c) (hbacked : Backed ext codec h c)
    (call : ClientCall) :
    Backed ext codec (h ++ [entry (perform ext codec) c call]) (c.perform ext codec call).2 := by
  have hstep := perform_cases ext codec c call
  unfold entry
  generalize (c.perform ext codec call).2 = c' at hstep ⊢
  generalize (c.perform ext codec call).1 = answer at hstep ⊢
  cases hstep with
  | empty hqueue => exact fun event hmem => (hbacked event hmem).later rfl _
  | popped hqueue =>
    intro event hmem
    refine (hbacked event ?_).later rfl _
    -- the event moved from the queue to the cache of observed events
    unfold liveEvents at hmem ⊢
    rw [hqueue, List.map_cons, List.cons_append, List.mem_cons, List.mem_append]
    cases List.mem_append.mp hmem with
    | inl hmem => exact .inr (.inl hmem)
    | inr hmem =>
      cases mem_remember hmem with
      | inl hmem => exact .inr (.inr hmem)
      | inr heq => exact .inl heq
  | page htaken =>
    obtain hreplaying | ⟨snapshot, hstreaming⟩ := hinv.phase
    · intro event hmem
      have hnil := liveEvents_of_replaying hreplaying
      unfold liveEvents at hmem hnil
      rw [htaken.queued, htaken.observed, hnil] at hmem
      cases hmem
    · cases htaken.before.symm.trans hstreaming.phase
  | subscribed _ hlive =>
    obtain hreplaying | ⟨snapshot, hstreaming⟩ := hinv.phase
    · intro event hmem
      have hnil := liveEvents_of_replaying hreplaying
      unfold liveEvents at hmem hnil
      rw [hlive.queued, hlive.observed, hnil] at hmem
      cases hmem
    · cases hlive.before.symm.trans hstreaming.phase
  | health hio hnews _ _ _ => exact hbacked.receive hinv hio hnews
  | unverified hio hnews _ _ => exact hbacked.receive hinv hio hnews
  | verified hio hnews _ _ _ => exact hbacked.receive hinv hio hnews
  | ended hio hnews _ => exact hbacked.receive hinv hio hnews

end Step

theorem backed_history (ext : External) (codec : Codec) {lastEventSeq : ℕ} {start : BackendClient}
    (h : Connected lastEventSeq start) (calls : List ClientCall) :
    Inv lastEventSeq start (start.history ext codec calls) (start.after ext codec calls) ∧
      Backed ext codec (start.history ext codec calls) (start.after ext codec calls) := by
  refine transcript_invariant
    (P := fun h c => Inv lastEventSeq start h c ∧ Backed ext codec h c) ?_ ⟨h.inv, ?_⟩ calls
  · exact fun _ _ call hboth => ⟨hboth.1.step call, hboth.2.step hboth.1 call⟩
  · intro event hmem
    rw [liveEvents, h.queued, h.observed] at hmem
    cases hmem

/-! ## §2. The winners of a receipt -/

/-- A receipt that is valid for a job has only winners that are. -/
theorem winners_validateForJob {job : JobDescriptor} (h : receipt.validateForJob job = .ok ()) :
    ∀ winner ∈ receipt.winners, winner.validateForJob job = .ok () := by
  replace h := passed (passed (passed h))
  generalize receipt.winners = winners at h
  induction winners with
  | nil => exact fun _ hmem => absurd hmem List.not_mem_nil
  | cons winner winners ih =>
    obtain ⟨_, hwinner, hrest⟩ := bind_eq_ok.mp h
    intro other hmem
    cases List.mem_cons.mp hmem with
    | inl heq => exact heq ▸ hwinner
    | inr hmem => exact ih hrest other hmem

/-- **A recovery has a Zcash winner**, and nothing else when it is fresh and was not paused. -/
theorem recoveryRoleMatches_zcash {paused : Bool}
    (h : recoveryRoleMatches receipt paused replayed = true) :
    (∃ winner ∈ receipt.winners, winner.chain = .zcash) ∧
      (replayed = false → paused = false →
        ∃ winner, receipt.winners = [winner] ∧ winner.chain = .zcash) := by
  unfold recoveryRoleMatches at h
  split_ifs at h with hany
  · obtain ⟨winner, hmem, hchain⟩ := List.any_eq_true.mp h
    refine ⟨⟨winner, hmem, by simpa using hchain⟩, ?_⟩
    rintro rfl rfl
    cases hany
  · split at h
    · next winner heq =>
      have hchain : winner.chain = .zcash := by simpa using h
      rw [heq]
      exact ⟨⟨winner, List.mem_singleton.mpr rfl, hchain⟩, fun _ _ => ⟨winner, rfl, hchain⟩⟩
    · cases h

/-! ## §3. The law of every run -/

/-- What the receipt of a submitted context says about that context. -/
structure ReceiptOf (ext : External) (context : SubmissionContext) (receipt : ShareReceipt)
    (replayed : Bool) : Prop where
  jobId : receipt.jobId = context.jobId
  shareId : receipt.shareId =
    canonicalShareId ext context.jobId context.time context.nonce context.solution
  attributionId : canonicalAttributionId ext context.identity context.targetLe =
    .ok receipt.attributionId
  parentHash : receipt.parentHashLe = canonicalParentHeaderHashLe ext
    context.generation.descriptor.headerInput context.nonce context.solution
  valid : receipt.validateForJob context.generation.descriptor = .ok ()
  winners : ∀ winner ∈ receipt.winners,
    winner.validateForJob context.generation.descriptor = .ok ()
  /-- A recovery yields a Zcash winner, and only that when it is fresh and was not paused. -/
  recovery : context.isWinnerRecovery = true → ∃ winner ∈ receipt.winners, winner.chain = .zcash
  recoveryFresh : context.isWinnerRecovery = true → replayed = false →
    context.isPausedZcashCandidate = false →
    ∃ winner, receipt.winners = [winner] ∧ winner.chain = .zcash

theorem ReceiptOf.of_submitted {context : SubmissionContext}
    (hsubmitted : Submitted ext (submissionOf context) c c' receipt replayed)
    (hbound : ReceiptBound ext context receipt replayed) :
    ReceiptOf ext context receipt replayed := by
  obtain ⟨before, attributionId, -, hattribution, hchecked⟩ := hsubmitted.checked
  exact {
    jobId := hchecked.jobId
    shareId := hchecked.shareId
    attributionId := hchecked.attributionId ▸ hattribution
    parentHash := hbound.parent
    valid := hbound.job
    winners := winners_validateForJob hbound.job
    recovery := fun hrecovery => (recoveryRoleMatches_zcash (hbound.role hrecovery)).1
    recoveryFresh := fun hrecovery => (recoveryRoleMatches_zcash (hbound.role hrecovery)).2 }

/-- The receipt that a submission returned or handed on to the projection. -/
def acceptedReceipt {α : Type} (receipt : α → ShareReceipt) :
    Outcome ClientError α → Option ShareReceipt
  | .done commit => some (receipt commit)
  | .failed (.historicalReplayRequiresProjection handed) => some handed
  | _ => none

theorem acceptedReceipt_eq_some {α : Type} {receipt : α → ShareReceipt}
    {outcome : Outcome ClientError α} {accepted : ShareReceipt}
    (h : acceptedReceipt receipt outcome = some accepted) :
    (∃ commit, outcome = .done commit ∧ receipt commit = accepted) ∨
      outcome = .failed (.historicalReplayRequiresProjection accepted) := by
  unfold acceptedReceipt at h
  split at h
  · next commit => exact .inl ⟨commit, rfl, Option.some.inj h⟩
  · exact .inr (by rw [Option.some.inj h])
  · cases h

/-- The event that a call accepted, if it is a submission. -/
def acceptedCommit (t : Entry) : Option BackendEvent :=
  match t.call, t.answer with
  | .submitShare submission _, .unverified outcome =>
    (acceptedReceipt UnverifiedShareCommit.receipt outcome).map
      (commitEvent · submission.identity submission.targetLe)
  | .submitPreparedShare context _, .verified outcome
  | .submitRecoveryCandidate context _, .verified outcome =>
    (acceptedReceipt VerifiedShareCommit.receipt outcome).map
      (commitEvent · context.identity context.targetLe)
  | _, _ => none

theorem Submitted.consistent {submission : ShareSubmission}
    (h : Submitted ext submission c c' receipt replayed) :
    Consistent c'.retainedEvents receipt submission.identity submission.targetLe := by
  obtain ⟨_, _, -, -, hchecked⟩ := h.checked
  exact hchecked.consistent

/-- A receipt is accepted only where nothing retained contradicts it. -/
theorem ShareEnds.consistent {submission : ShareSubmission} {io : Io}
    {also : ShareReceipt → Bool → Prop} {α : Type} {receipt : α → ShareReceipt}
    {replayed : α → Bool} {result : Outcome ClientError α × BackendClient}
    (h : ShareEnds ext codec submission io c also receipt replayed result)
    (haccepted : event ∈ (acceptedReceipt receipt result.1).map
      (commitEvent · submission.identity submission.targetLe)) :
    ∃ receipt identity targetLe, event = commitEvent receipt identity targetLe ∧
      Consistent result.2.retainedEvents receipt identity targetLe := by
  obtain ⟨accepted, hreceipt, rfl⟩ := Option.map_eq_some_iff.mp (Option.mem_def.mp haccepted)
  refine ⟨accepted, _, _, rfl, ?_⟩
  obtain ⟨commit, hdone, rfl⟩ | hfailed := acceptedReceipt_eq_some hreceipt
  · exact (Ends.of_done h hdone).2.1.submitted.consistent
  · exact ((Ends.of_failed h hfailed).handed accepted rfl).1.submitted.consistent

/-- **Nothing that is retained contradicts a receipt when it is accepted.** -/
theorem accepted_consistent (ext : External) (codec : Codec) (c : BackendClient) (call : ClientCall)
    (h : event ∈ acceptedCommit (entry (perform ext codec) c call)) :
    ∃ receipt identity targetLe, event = commitEvent receipt identity targetLe ∧
      Consistent (c.perform ext codec call).2.retainedEvents receipt identity targetLe := by
  cases call with
  | popQueuedEvent | subscribeJobs | readEvents | health => cases h
  | submitShare submission io => exact (submitShare_spec ext codec submission io c).consistent h
  | submitPreparedShare context io =>
    exact (submitPreparedShareBorrowed_spec ext codec context io c).consistent h
  | submitRecoveryCandidate context io =>
    exact (submitRecoveryCandidate_spec ext codec context io c).consistent h

/-- **What the submissions of a run return.** -/
structure CommitLaw (ext : External) (codec : Codec) (h : List Entry) : Prop where
  /-- A commit is the receipt of the reply, belongs to the context, and its exact event was
      delivered live on this connection; a fresh one lies above the cursor before the request. -/
  committed : ∀ front t back context io commit, h = front ++ t :: back →
    t.call = .submitPreparedShare context io → t.answer = .verified (.done commit) →
    Delivered ext codec (front ++ [t]) t.after
        (commitEvent commit.receipt context.identity context.targetLe) ∧
      Replied ext codec io commit.receipt commit.replayed ∧
      ReceiptOf ext context commit.receipt commit.replayed ∧
      (commit.replayed = false →
        ∃ before, t.before.liveEventCursor = some before ∧ before < commit.receipt.eventSeq)
  /-- Only a replayed receipt at or below that cursor is handed to the projection. -/
  handed : ∀ t ∈ h, ∀ context io receipt, t.call = .submitPreparedShare context io →
    t.answer = .verified (.failed (.historicalReplayRequiresProjection receipt)) →
    Replied ext codec io receipt true ∧
      ∃ before, t.before.liveEventCursor = some before ∧ receipt.eventSeq ≤ before
  /-- No share is accepted a second time with another receipt while its event is retained. -/
  once : ∀ t ∈ h, ∀ t' ∈ h,
    ∀ receipt identity targetLe, commitEvent receipt identity targetLe ∈ acceptedCommit t →
    ∀ receipt' identity' targetLe', commitEvent receipt' identity' targetLe' ∈ acceptedCommit t' →
    receipt.shareId = receipt'.shareId →
    commitEvent receipt identity targetLe ∈ t'.after.retainedEvents →
    receipt = receipt' ∧ identity = identity' ∧ targetLe = targetLe'

/-- **Verified commit soundness**, for every sequence of calls and every byte stream. -/
theorem verified_commit_sound (ext : External) (codec : Codec) (config : BackendClientConfig)
    (poolInstance : Uuid) (lastEventSeq token : ℕ) (io : Io) (start : BackendClient)
    (hconnect : connect ext codec config poolInstance lastEventSeq token io = .done start)
    (calls : List ClientCall) : CommitLaw ext codec (start.history ext codec calls) := by
  have hconnected := connect_spec hconnect
  -- a call of the run is made on a connection whose live events were all delivered
  have hcall : ∀ t ∈ start.history ext codec calls, ∃ c call, t = entry (perform ext codec) c call := by
    intro t hmem
    obtain ⟨front, back, heq⟩ := List.append_of_mem hmem
    obtain ⟨earlier, call, later, -, -, ht, -⟩ := transcript_split heq
    exact ⟨_, call, ht⟩
  refine ⟨?_, ?_, ?_⟩
  · intro front t back context io commit heq hsubmit hdone
    obtain ⟨earlier, call, later, -, hfront, ht, -⟩ := transcript_split heq
    obtain ⟨hinv, hbacked⟩ := backed_history ext codec hconnected earlier
    subst ht
    obtain rfl : call = .submitPreparedShare context io := hsubmit
    have hdone : (submitPreparedShareBorrowed ext codec context io
        (start.after ext codec earlier)).1 = .done commit := by injection hdone
    obtain ⟨-, ⟨hsubmitted, hreplied, hbound⟩, hmem⟩ :=
      Ends.of_done (submitPreparedShareBorrowed_spec ext codec context io _) hdone
    refine ⟨?_, hreplied, .of_submitted hsubmitted hbound, ?_⟩
    · rw [hfront]
      exact hbacked.step hinv _ _ hmem
    · intro hfresh
      obtain ⟨before, _, hbefore, -, hchecked⟩ := hsubmitted.checked
      exact ⟨before, hbefore, hchecked.fresh hfresh⟩
  · intro t hmem context io receipt hsubmit hfailed
    obtain ⟨c, call, rfl⟩ := hcall t hmem
    obtain rfl : call = .submitPreparedShare context io := hsubmit
    have hfailed : (submitPreparedShareBorrowed ext codec context io c).1 =
        .failed (.historicalReplayRequiresProjection receipt) := by injection hfailed
    obtain ⟨⟨hsubmitted, hreplied, -⟩, hle⟩ :=
      (Ends.of_failed (submitPreparedShareBorrowed_spec ext codec context io c) hfailed).handed
        receipt rfl
    obtain ⟨before, _, hbefore, -, -⟩ := hsubmitted.checked
    exact ⟨hreplied, before, hbefore, hle before hbefore⟩
  · intro t _ t' hmem' receipt identity targetLe _ receipt' identity' targetLe' haccepted hshare
      hretained
    obtain ⟨c, call, rfl⟩ := hcall t' hmem'
    obtain ⟨_, _, _, heq, hconsistent⟩ := accepted_consistent ext codec c call haccepted
    cases heq
    have hsame := hconsistent.share receipt _ identity targetLe hretained hshare
    injection hsame with hreceipt _ hidentity htarget
    exact ⟨hreceipt, hidentity, htarget⟩

/-! ### A session in which a share is committed -/

def commitContext : SubmissionContext where
  sessionId := 1
  identity := ⟨1, 1, [97]⟩
  targetLe := 1
  time := 1
  nonce := 1
  solution := 1
  admission := ⟨⟨workedJob 1, by decide +kernel⟩, .ordinary⟩

def commitReceipt : ShareReceipt := ⟨1, 1, 1, 1, 1, []⟩

/-- Hello, snapshot, the event of the share and the reply to it. -/
def commitMessages : List BackendMessage :=
  [.helloOk 2 1 ⟨1, 2, 3, requiredBackendCapabilities, 1, 1, 1, 1, 1, 1, 0⟩,
    .jobSnapshot 2 2 0 none [],
    .event 2 (commitEvent commitReceipt commitContext.identity commitContext.targetLe),
    .shareCommitted 2 3 commitReceipt false]

def commitStart : Outcome ClientError BackendClient :=
  connect workedExternal (sessionCodec commitMessages) sessionConfig 9 0 0 (sessionIo [0])

def commitCalls : List ClientCall :=
  [.subscribeJobs 0 (sessionIo [1]), .submitPreparedShare commitContext (sessionIo [2, 3])]

/-- The session connects, the law holds of it, and the share is committed. -/
theorem verified_commit_sound_session :
    ∃ start, commitStart = .done start ∧
      CommitLaw workedExternal (sessionCodec commitMessages)
        (start.history workedExternal (sessionCodec commitMessages) commitCalls) ∧
      (start.history workedExternal (sessionCodec commitMessages) commitCalls).map acceptedCommit =
        [none, some (commitEvent commitReceipt commitContext.identity commitContext.targetLe)] := by
  have haccepted : (commitStart.value?.map fun start =>
      (start.history workedExternal (sessionCodec commitMessages) commitCalls).map acceptedCommit) =
        some [none,
          some (commitEvent commitReceipt commitContext.identity commitContext.targetLe)] := by
    decide +kernel
  cases hstart : commitStart with
  | done start =>
    rw [hstart] at haccepted
    exact ⟨start, rfl, verified_commit_sound _ _ _ _ _ _ _ start hstart commitCalls,
      Option.some.inj haccepted⟩
  | failed e =>
    rw [hstart] at haccepted
    cases haccepted
  | dropped =>
    rw [hstart] at haccepted
    cases haccepted

end BackendClient

end WcashPool.Client
