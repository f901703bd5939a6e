/-
  WcashPool.Client.Shares — what a share submission can return.

  A commit is returned only after seven checks on the receipt; the last of them
  looks for the exact event of the receipt among the live events that are still
  held.  A replayed receipt at or below the old live cursor whose event is no
  longer held passes the first six and is handed to the durable projection.

  Main results: `shareConflict_eq_none`, `submitShare_spec` and
  `submitPreparedShareBorrowed_spec`.
-/
import WcashPool.Client.Exchanges

namespace WcashPool.Client

open Fallible Protocol WcashPool.Core Tasks Tasks.Task

namespace BackendClient

variable {ext : External} {codec : Codec}

/-! ## §1. Consistency with what is retained -/

/-- The event that commits a receipt for this worker and target. -/
abbrev commitEvent (receipt : ShareReceipt) (identity : WorkerIdentity) (targetLe : TargetLe) :
    BackendEvent :=
  .shareCommitted receipt receipt.jobId identity targetLe

/-- **Nothing retained contradicts the receipt**: its number and its share are only those of its
    own event. -/
structure Consistent (events : List BackendEvent) (receipt : ShareReceipt)
    (identity : WorkerIdentity) (targetLe : TargetLe) : Prop where
  number : ∀ event ∈ events, event.eventSeq = receipt.eventSeq →
    event = commitEvent receipt identity targetLe
  share : ∀ recorded jobId worker target,
    BackendEvent.shareCommitted recorded jobId worker target ∈ events →
    recorded.shareId = receipt.shareId →
    BackendEvent.shareCommitted recorded jobId worker target = commitEvent receipt identity targetLe

variable {receipt : ShareReceipt}

/-- No retained event contradicts the receipt. -/
theorem shareConflict_eq_none {identity : WorkerIdentity} {targetLe : TargetLe}
    {events : List BackendEvent} (h : shareConflict receipt identity targetLe events = none) :
    Consistent events receipt identity targetLe := by
  induction events with
  | nil => exact ⟨fun _ h => absurd h List.not_mem_nil, fun _ _ _ _ h => absurd h List.not_mem_nil⟩
  | cons event events ih =>
    unfold shareConflict at h
    split_ifs at h with hnumber
    have hhead : event.eventSeq = receipt.eventSeq →
        event = commitEvent receipt identity targetLe := by
      intro hseq
      by_contra hne
      exact hnumber ⟨hseq, by simpa [shareEventMatches] using hne⟩
    -- a share event is looked at a second time, for its share
    have hrest : shareConflict receipt identity targetLe events = none ∧
        ∀ recorded jobId worker target, event = .shareCommitted recorded jobId worker target →
          recorded.shareId = receipt.shareId →
          event = commitEvent receipt identity targetLe := by
      cases event with
      | shareCommitted recorded jobId worker target =>
        dsimp only at h
        split_ifs at h with hshare
        refine ⟨h, ?_⟩
        intro recorded' jobId' worker' target' heq hsame
        injection heq with hrecorded
        subst hrecorded
        by_contra hne
        exact hshare ⟨hsame, by simpa [shareEventMatches] using hne⟩
      | _ => exact ⟨h, fun _ _ _ _ heq => by cases heq⟩
    obtain ⟨hnumbers, hshares⟩ := ih hrest.1
    constructor
    · intro event' hmem
      cases List.mem_cons.mp hmem with
      | inl heq => exact heq ▸ hhead
      | inr hmem => exact hnumbers event' hmem
    · intro recorded jobId worker target hmem hsame
      cases List.mem_cons.mp hmem with
      | inl heq => exact heq ▸ hrest.2 recorded jobId worker target heq.symm hsame
      | inr hmem => exact hshares recorded jobId worker target hmem hsame

/-- A conflict is a replay error. -/
theorem shareConflict_isReplay {identity : WorkerIdentity} {targetLe : TargetLe}
    {events : List BackendEvent} {error : ClientError}
    (h : shareConflict receipt identity targetLe events = some error) : error.isReplay = false := by
  induction events with
  | nil => cases h
  | cons event events ih =>
    unfold shareConflict at h
    split_ifs at h with hnumber
    · injection h with h
      rw [← h]
      rfl
    · cases event with
      | shareCommitted recorded jobId worker target =>
        dsimp only at h
        split_ifs at h with hshare
        · injection h with h
          rw [← h]
          rfl
        · exact ih h
      | _ => exact ih h

/-! ## §2. The checks on a receipt -/

/-- The checks that a receipt passed when it is returned or handed on. -/
structure ReceiptChecked (submission : ShareSubmission) (shareId attributionId : Hex32)
    (before : ℕ) (c : BackendClient) (receipt : ShareReceipt) (replayed : Bool) : Prop where
  jobId : receipt.jobId = submission.jobId
  shareId : receipt.shareId = shareId
  attributionId : receipt.attributionId = attributionId
  fresh : replayed = false → before < receipt.eventSeq
  flushed : c.phase = .live → ∃ cursor, c.liveEventCursor = some cursor ∧ receipt.eventSeq ≤ cursor
  consistent : Consistent c.retainedEvents receipt submission.identity submission.targetLe

section Checks

variable {receipt : ShareReceipt} {identity : WorkerIdentity} {targetLe : TargetLe} {before : ℕ}
  {replayed : Bool} {c : BackendClient} {bad : ClientError → BackendClient → Prop}
  {lost : BackendClient → Prop} (hbad : ∀ error, error.isReplay = false → bad error c.giveUp)

include hbad

/-- The receipt agrees with the retained events. -/
theorem requireConsistentShareHistory_ends :
    Ends (fun _ c' => c' = c ∧ Consistent c.retainedEvents receipt identity targetLe) bad lost
      (requireConsistentShareHistory receipt identity targetLe c) := by
  unfold requireConsistentShareHistory
  rw [get_bind]
  cases hconflict : shareConflict receipt identity targetLe c.retainedEvents with
  | none => exact ⟨rfl, shareConflict_eq_none hconflict⟩
  | some error => exact hbad error (shareConflict_isReplay hconflict)

/-- The receipt's own event is among the live ones. -/
theorem requireMatchingShareEvent_ends (hhanded : replayed = true → receipt.eventSeq ≤ before →
      bad (.historicalReplayRequiresProjection receipt) c) :
    Ends (fun _ c' => c' = c ∧ commitEvent receipt identity targetLe ∈ c.liveEvents) bad lost
      (requireMatchingShareEvent receipt identity targetLe before replayed c) := by
  unfold requireMatchingShareEvent
  rw [get_bind]
  split_ifs with hmatch hreplay
  · obtain ⟨event, hmem, hevent⟩ := List.any_eq_true.mp hmatch
    have heq : event = commitEvent receipt identity targetLe := by
      simpa [shareEventMatches] using (Bool.and_eq_true_iff.mp hevent).2
    exact ⟨rfl, heq ▸ hmem⟩
  · exact hhanded hreplay.1 hreplay.2
  · exact hbad _ rfl

variable {submission : ShareSubmission} {shareId attributionId : Hex32}
  {post : UnverifiedShareCommit → BackendClient → Prop}

/-- **A receipt is returned, handed on, or refused for good.** -/
theorem acceptReceipt_ends
    (hhanded : ReceiptChecked submission shareId attributionId before c receipt true →
      receipt.eventSeq ≤ before → replayed = true →
      bad (.historicalReplayRequiresProjection receipt) c)
    (hcommitted : ReceiptChecked submission shareId attributionId before c receipt replayed →
      commitEvent receipt submission.identity submission.targetLe ∈ c.liveEvents →
      post ⟨receipt, replayed⟩ c) :
    Ends post bad lost (acceptReceipt submission shareId attributionId before receipt replayed c) := by
  refine invalidateIf_rule (hbad _ rfl) fun hjob => ?_
  refine invalidateIf_rule (hbad _ rfl) fun hshare => ?_
  refine invalidateIf_rule (hbad _ rfl) fun hattribution => ?_
  refine invalidateIf_rule (hbad _ rfl) fun hfresh => ?_
  refine Ends.bind (requireLiveEventsThrough_ends hbad) ?_
  rintro _ _ ⟨rfl, hflushed⟩
  refine Ends.bind (requireConsistentShareHistory_ends hbad) ?_
  rintro _ _ ⟨rfl, hconsistent⟩
  have hchecked : ReceiptChecked submission shareId attributionId before _ receipt replayed := {
    jobId := not_not.mp hjob
    shareId := not_not.mp hshare
    attributionId := not_not.mp hattribution
    fresh := fun hnew => not_le.mp fun hle => hfresh ⟨hnew, hle⟩
    flushed := hflushed
    consistent := hconsistent }
  refine Ends.bind (requireMatchingShareEvent_ends hbad fun hreplayed hle => ?_) ?_
  · exact hhanded (hreplayed ▸ hchecked) hle hreplayed
  · rintro _ _ ⟨rfl, hmem⟩
    exact hcommitted hchecked hmem

end Checks

/-! ## §3. The submission -/

/-- What a submission says about the receipt it returns or hands on. -/
structure Submitted (ext : External) (submission : ShareSubmission) (c c' : BackendClient)
    (receipt : ShareReceipt) (replayed : Bool) : Prop where
  phase : c.phase = .live
  checked : ∃ before attributionId, c.liveEventCursor = some before ∧
    canonicalAttributionId ext submission.identity submission.targetLe = .ok attributionId ∧
    ReceiptChecked submission (canonicalShareId ext submission.jobId submission.time
      submission.nonce submission.solution) attributionId before c' receipt replayed

/-- The backend's reply in these bytes carries the receipt. -/
def Replied (ext : External) (codec : Codec) (io : Io) (receipt : ShareReceipt) (replayed : Bool) :
    Prop :=
  ∃ version id, Holds ext codec io.bytes (.shareCommitted version id receipt replayed)

/-- **A receipt that passed**: the checks of the submission, and what is checked besides. -/
structure Passed (ext : External) (codec : Codec) (submission : ShareSubmission) (io : Io)
    (c : BackendClient) (also : ShareReceipt → Bool → Prop) (c' : BackendClient)
    (receipt : ShareReceipt) (replayed : Bool) : Prop where
  submitted : Submitted ext submission c c' receipt replayed
  replied : Replied ext codec io receipt replayed
  besides : also receipt replayed

/-- A failure hands on only a receipt that passed. -/
structure Fails (ext : External) (codec : Codec) (submission : ShareSubmission) (io : Io)
    (c : BackendClient) (also : ShareReceipt → Bool → Prop) (error : ClientError)
    (c' : BackendClient) : Prop where
  heard : Heard ext codec true io c c'
  handed : ∀ receipt, error = .historicalReplayRequiresProjection receipt →
    Passed ext codec submission io c also c' receipt true ∧
      ∀ before ∈ c.liveEventCursor, receipt.eventSeq ≤ before

/-- **How a submission ends**: a receipt that is returned has passed, and its event is among those
    still held. -/
abbrev ShareEnds (ext : External) (codec : Codec) (submission : ShareSubmission) (io : Io)
    (c : BackendClient) (also : ShareReceipt → Bool → Prop) {α : Type} (receipt : α → ShareReceipt)
    (replayed : α → Bool) : Outcome ClientError α × BackendClient → Prop :=
  Ends
    (fun commit c' => Heard ext codec true io c c' ∧
      Passed ext codec submission io c also c' (receipt commit) (replayed commit) ∧
      commitEvent (receipt commit) submission.identity submission.targetLe ∈ c'.liveEvents)
    (Fails ext codec submission io c also) (Heard ext codec true io c)

section Submission

variable {submission : ShareSubmission} {io : Io} {c : BackendClient}
  {also : ShareReceipt → Bool → Prop} {α : Type} {receipt : α → ShareReceipt} {replayed : α → Bool}

theorem ShareEnds.heard {result : Outcome ClientError α × BackendClient}
    (h : ShareEnds ext codec submission io c also receipt replayed result) :
    Heard ext codec true io c result.2 :=
  Ends.state (h.mono (fun _ _ => And.left) (fun _ _ => Fails.heard) fun _ => id)

theorem Fails.of_mild {c' : BackendClient} {error : ClientError} (herror : error.isReplay = false)
    (hheard : Heard ext codec true io c c') : Fails ext codec submission io c also error c' := by
  refine ⟨hheard, fun handed heq => ?_⟩
  rw [heq] at herror
  cases herror

theorem ensurePhase_ends {operation : String} {required : BackendStreamPhase}
    {bad : ClientError → BackendClient → Prop} {lost : BackendClient → Prop}
    (hbad : ∀ error, error.isReplay = false → bad error c) :
    Ends (fun _ c' => c' = c ∧ c.phase = required) bad lost (ensurePhase operation required c) := by
  unfold ensurePhase
  rw [bind_apply, ensureUsable_apply]
  split_ifs
  · exact hbad _ rfl
  dsimp only
  rw [get_bind, failIf_apply]
  split_ifs with hphase
  · exact hbad _ rfl
  · exact ⟨rfl, not_not.mp hphase⟩

/-- **A share submission.** -/
theorem submitShare_spec (ext : External) (codec : Codec) (submission : ShareSubmission) (io : Io)
    (c : BackendClient) :
    ShareEnds ext codec submission io c (fun _ _ => True) UnverifiedShareCommit.receipt
      UnverifiedShareCommit.replayed (submitShare ext codec submission io c) := by
  refine Ends.bind (ensurePhase_ends fun _ herror => .of_mild herror (.of_calm (Calm.refl c))) ?_
  rintro _ c ⟨rfl, hphase⟩
  rw [get_bind]
  cases hbefore : c.liveEventCursor with
  | none => exact Fails.of_mild rfl (.of_calm (giveUp_calm c))
  | some before =>
    cases hattribution : canonicalAttributionId ext submission.identity submission.targetLe with
    | error error => exact Fails.of_mild rfl (.of_calm (Calm.refl c))
    | ok attributionId =>
      refine request_rule (fun _ _ => .of_mild) (fun _ => id) fun message c' hanswered => ?_
      have hgaveUp : ∀ error, error.isReplay = false →
          Fails ext codec submission io c (fun _ _ => True) error c'.giveUp :=
        fun error herror => .of_mild herror hanswered.heard.gaveUp
      cases message with
      | shareCommitted version id receipt replayed =>
        have hpassed : ∀ {replayed}, ReceiptChecked submission (canonicalShareId ext
            submission.jobId submission.time submission.nonce submission.solution) attributionId
            before c' receipt replayed → Replied ext codec io receipt replayed →
            Passed ext codec submission io c (fun _ _ => True) c' receipt replayed :=
          fun hchecked hreplied =>
            ⟨⟨hphase, before, attributionId, hbefore, hattribution, hchecked⟩, hreplied, trivial⟩
        refine acceptReceipt_ends hgaveUp (fun hchecked hle hreplayed => ?_) fun hchecked hmem => ?_
        · refine ⟨hanswered.heard, fun handed heq => ?_⟩
          obtain rfl := ClientError.historicalReplayRequiresProjection.inj heq
          refine ⟨hpassed hchecked ⟨version, id, hreplayed ▸ hanswered.holds⟩, fun before' hmem => ?_⟩
          exact Option.some.inj (hbefore.symm.trans hmem) ▸ hle
        · exact ⟨hanswered.heard, hpassed hchecked ⟨version, id, hanswered.holds⟩, hmem⟩
      | error version id code text =>
        dsimp only
        unfold acceptRejection
        rw [get_bind]
        cases c'.matchingShareEventSeq submission.jobId (canonicalShareId ext
            submission.jobId submission.time submission.nonce submission.solution) attributionId
            submission.identity submission.targetLe with
        | none => exact Fails.of_mild rfl hanswered.heard
        | some eventSeq => exact hgaveUp (.contradictoryShareOutcome _) rfl
      | _ => exact hgaveUp (.unexpectedResponse _ _) rfl

end Submission

/-! ## §4. The submission of a context -/

/-- The receipt belongs to the generation that the context was made for. -/
structure ReceiptBound (ext : External) (context : SubmissionContext) (receipt : ShareReceipt)
    (replayed : Bool) : Prop where
  job : receipt.validateForJob context.generation.descriptor = .ok ()
  role : context.isWinnerRecovery = true →
    recoveryRoleMatches receipt context.isPausedZcashCandidate replayed = true
  parent : receipt.parentHashLe = canonicalParentHeaderHashLe ext
    context.generation.descriptor.headerInput context.nonce context.solution

/-- The receipt is one for the submitted work. -/
theorem validateReceiptForContext_ends {context : SubmissionContext} {replayed : Bool}
    {c : BackendClient} {bad : ClientError → BackendClient → Prop} {lost : BackendClient → Prop}
    (hbad : ∀ error, error.isReplay = false → bad error c.giveUp) :
    Ends (fun _ c' => c' = c ∧ ReceiptBound ext context receipt replayed) bad lost
      (validateReceiptForContext ext context receipt replayed c) := by
  unfold validateReceiptForContext validateReceiptForJob
  cases hjob : receipt.validateForJob context.generation.descriptor with
  | error error => exact hbad _ rfl
  | ok _ =>
    refine invalidateIf_rule (hbad _ rfl) fun hrole => ?_
    refine (invalidateIf_ends (hbad _ rfl)).imp fun _ _ ⟨hsame, hparent⟩ => ⟨hsame, hjob, ?_, ?_⟩
    · intro hrecovery
      by_contra hne
      exact hrole ⟨hrecovery, hne⟩
    · exact not_not.mp hparent

/-- How the submission of a context ends. -/
abbrev PreparedEnds (ext : External) (codec : Codec) (context : SubmissionContext) (io : Io)
    (c : BackendClient) : Outcome ClientError VerifiedShareCommit × BackendClient → Prop :=
  ShareEnds ext codec (submissionOf context) io c (ReceiptBound ext context)
    VerifiedShareCommit.receipt VerifiedShareCommit.replayed

/-- **The submission of a context.** -/
theorem submitPreparedShareBorrowed_spec (ext : External) (codec : Codec)
    (context : SubmissionContext) (io : Io) (c : BackendClient) :
    PreparedEnds ext codec context io c (submitPreparedShareBorrowed ext codec context io c) := by
  have hshare := submitShare_spec ext codec (submissionOf context) io c
  have hgaveUp : ∀ {c'}, Heard ext codec true io c c' → ∀ error, error.isReplay = false →
      Fails ext codec (submissionOf context) io c (ReceiptBound ext context) error c'.giveUp :=
    fun hheard error herror => .of_mild herror hheard.gaveUp
  unfold submitPreparedShareBorrowed
  generalize submitShare ext codec (submissionOf context) io c = result at hshare ⊢
  obtain ⟨commit | error | _, c'⟩ := result
  · obtain ⟨hheard, hpassed, hmem⟩ := hshare
    refine Ends.bind (validateReceiptForContext_ends (hgaveUp hheard)) ?_
    rintro _ _ ⟨rfl, hbound⟩
    exact ⟨hheard, ⟨hpassed.submitted, hpassed.replied, hbound⟩, hmem⟩
  · cases error with
    | historicalReplayRequiresProjection receipt =>
      obtain ⟨hheard, hhanded⟩ := hshare
      obtain ⟨hpassed, hle⟩ := hhanded receipt rfl
      refine Ends.bind (validateReceiptForContext_ends (hgaveUp hheard)) ?_
      rintro _ _ ⟨rfl, hbound⟩
      refine ⟨hheard, fun handed heq => ?_⟩
      obtain rfl := ClientError.historicalReplayRequiresProjection.inj heq
      exact ⟨⟨hpassed.submitted, hpassed.replied, hbound⟩, hle⟩
    | _ => exact ⟨hshare.heard, nofun⟩
  · exact hshare

/-- A recovery candidate is a context like any other, once its role is checked. -/
theorem submitRecoveryCandidate_spec (ext : External) (codec : Codec)
    (context : SubmissionContext) (io : Io) (c : BackendClient) :
    PreparedEnds ext codec context io c (submitRecoveryCandidate ext codec context io c) :=
  Ends.failIf (Fails.of_mild rfl (.of_calm (Calm.refl c))) fun _ =>
    submitPreparedShareBorrowed_spec ext codec context io c

end BackendClient

end WcashPool.Client
