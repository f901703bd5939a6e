/-
  WcashPool.Edge.Queue — the pending shares of a connection over whole runs.

  A share enters the queue when it is admitted, gets its sample when it is
  completed, and leaves the queue, in the order of admission, once all shares
  before it have theirs.  Every other call leaves the queue alone, or closes the
  connection and empties it.

  Main results:
    * `kept_*`, `quiet_*` — what the other calls can do, said once;
    * `handleRequest_spec` — a request is quiet or appends a share;
    * `Rules.complete` — an invariant of completions, from those of its steps;
    * `Rules.step` — the same for every call;
    * `Queued.after` — the table of pending shares and the order of their tickets
      are one list in every state of every run.
-/
import WcashPool.Core.VardiffLaw
import WcashPool.Edge.Connection

namespace WcashPool.Edge

open Fallible Protocol WcashPool.Core Client Tasks Tasks.Task

/-! ## §1. Calls that leave the queue alone -/

/-- No job was ever announced. -/
def ConnectionActor.Jobless (actor : ConnectionActor) : Prop :=
  actor.assignments.rows = [] ∧ actor.session.assignments = []

/-- **The queue is kept or gone.**  Vardiff is told of nothing, and what it has is no later; a job
    is announced only once there is a controller. -/
structure Kept (w w' : ConnectionWorld) : Prop where
  controller : w'.actor.vardiff = none → w.actor.vardiff = none
  clock : ∀ ms, (∀ vardiff, w.actor.vardiff = some vardiff → vardiff.Reached ms) →
    ∀ vardiff, w'.actor.vardiff = some vardiff → vardiff.Reached ms
  observed : w'.observed = w.observed
  ticket : w.actor.nextTicket ≤ w'.actor.nextTicket
  queue : (w'.actor.pendingShares = w.actor.pendingShares ∧
      w'.actor.timingOrder = w.actor.timingOrder ∧ w'.actor.closed = w.actor.closed) ∨
    (w'.actor.pendingShares = Table.empty ∧ w'.actor.timingOrder = [] ∧ w'.actor.closed = true)
  jobs : w'.actor.vardiff = none → w.actor.Jobless → w'.actor.Jobless

/-- **A quiet call** does not touch vardiff at all. -/
structure Quiet (w w' : ConnectionWorld) : Prop extends Kept w w' where
  same : w'.actor.vardiff = w.actor.vardiff

variable {w₁ w₂ : ConnectionWorld} {nowMs : Millis}

/-- Changes that keep, in a row. -/
theorem Kept.trans {w₃ : ConnectionWorld} (h : Kept w₁ w₂) (h' : Kept w₂ w₃) :
    Kept w₁ w₃ where
  controller := fun hnone => h.controller (h'.controller hnone)
  clock := fun ms hreached => h'.clock ms (h.clock ms hreached)
  observed := h'.observed.trans h.observed
  ticket := h.ticket.trans h'.ticket
  queue := by
    obtain ⟨hshares', horder', hclosed'⟩ | hgone := h'.queue
    · rw [hshares', horder', hclosed']
      exact h.queue
    · exact .inr hgone
  jobs := fun hnone hjobless => h'.jobs hnone (h.jobs (h'.controller hnone) hjobless)

/-- Quiet changes, in a row. -/
theorem Quiet.trans {w₃ : ConnectionWorld} (h : Quiet w₁ w₂) (h' : Quiet w₂ w₃) :
    Quiet w₁ w₃ where
  toKept := h.toKept.trans h'.toKept
  same := h'.same.trans h.same

instance : IsTrans ConnectionWorld Kept := ⟨fun _ _ _ => Kept.trans⟩

instance : IsTrans ConnectionWorld Quiet := ⟨fun _ _ _ => Quiet.trans⟩

/-- The one error that this module and the next ask about. -/
def clockError (error : ConnectionActorError) : Prop := error = .vardiff .clockMovedBackwards

abbrev Keeps {α : Type} (w : ConnectionWorld)
    (r : Tasks.Outcome ConnectionActorError α × ConnectionWorld) : Prop :=
  Fine (Kept w) clockError r

abbrev Quietly {α : Type} (w : ConnectionWorld)
    (r : Tasks.Outcome ConnectionActorError α × ConnectionWorld) : Prop :=
  Fine (Quiet w) clockError r

variable {w : ConnectionWorld}

theorem Quiet.frame {w' : ConnectionWorld} (hvardiff : w'.actor.vardiff = w.actor.vardiff)
    (hobserved : w'.observed = w.observed) (hticket : w.actor.nextTicket ≤ w'.actor.nextTicket)
    (hshares : w'.actor.pendingShares = w.actor.pendingShares)
    (horder : w'.actor.timingOrder = w.actor.timingOrder)
    (hclosed : w'.actor.closed = w.actor.closed) (hjobs : w.actor.Jobless → w'.actor.Jobless) :
    Quiet w w' where
  controller := fun hnone => hvardiff.symm.trans hnone
  clock := fun _ hreached vardiff heq => hreached vardiff (hvardiff.symm.trans heq)
  observed := hobserved
  ticket := hticket
  queue := .inl ⟨hshares, horder, hclosed⟩
  jobs := fun _ => hjobs
  same := hvardiff

variable {vardiff : VardiffController}

/-- Another controller, as far as this one. -/
theorem Kept.withVardiff
    (h : ∀ ms, (∀ vardiff, w.actor.vardiff = some vardiff → vardiff.Reached ms) →
      vardiff.Reached ms) :
    Kept w { w with actor := { w.actor with vardiff := some vardiff } } where
  controller := fun hnone => nomatch hnone
  clock := fun ms hreached other heq => by
    cases heq
    exact h ms hreached
  observed := rfl
  ticket := le_rfl
  queue := .inl ⟨rfl, rfl, rfl⟩
  jobs := fun hnone => nomatch hnone

theorem Quiet.refl (w : ConnectionWorld) : Quiet w w := .frame rfl rfl le_rfl rfl rfl rfl id

theorem Fine.keeps {α : Type} {r : Tasks.Outcome ConnectionActorError α × ConnectionWorld}
    (h : Quietly w r) : Keeps w r :=
  h.mono fun _ => Quiet.toKept

/-! ## §2. The small steps -/

section Steps

variable {w : ConnectionWorld} {α : Type}

theorem quiet_pure {a : α} : Quietly w ((pure a : Act α) w) := .done (.refl w)

theorem quiet_fail {error : ConnectionActorError} (h : ¬ clockError error) :
    Quietly w ((fail error : Act α) w) := .failed (.refl w) h

theorem quiet_close : Quietly w (Act.close w) :=
  .done
    { controller := id
      clock := fun _ hreached => hreached
      observed := rfl
      ticket := le_rfl
      queue := .inr ⟨rfl, rfl, rfl⟩
      jobs := fun _ _ => ⟨rfl, rfl⟩
      same := rfl }

theorem quiet_setActor {f : ConnectionActor → ConnectionActor}
    (h : Quiet w { w with actor := f w.actor }) : Quietly w (Act.setActor f w) := .done h

theorem requireOpen_eq : Act.requireOpen w =
    if w.actor.closed then (.failed .closed, w) else (.done (), w) := by
  unfold Act.requireOpen
  rw [get_bind, failIf_apply]

theorem requireOpen_done {w' : ConnectionWorld} {value : Unit}
    (h : Act.requireOpen w = (.done value, w')) : w' = w := by
  rw [requireOpen_eq] at h
  split at h
  · cases h
  · cases h
    rfl

theorem quiet_requireOpen : Quietly w (Act.requireOpen w) := by
  rw [requireOpen_eq]
  split
  · exact quiet_fail (by simp [clockError])
  · exact quiet_pure

/-- A lock changes the router and what is left of the surroundings, not the actor. -/
theorem locked_actor (ext : External) (call : JobRouter → ℕ → Routed α) :
    (Act.locked ext call w).2.actor = w.actor ∧ (Act.locked ext call w).2.observed = w.observed ∧
      ∀ error, (Act.locked ext call w).1 = .failed error → ¬ clockError error := by
  unfold Act.locked
  cases w.turns with
  | nil =>
    dsimp only
    rcases call w.router w.instant with ⟨error | a, router⟩
    · exact ⟨rfl, rfl, by simp [clockError]⟩
    · exact ⟨rfl, rfl, by simp⟩
  | cons turn turns =>
    dsimp only
    rcases call (w.router.performAll ext turn.calls) turn.instant with ⟨error | a, router⟩
    · exact ⟨rfl, rfl, by simp [clockError]⟩
    · exact ⟨rfl, rfl, by simp⟩

theorem quiet_locked {ext : External} {call : JobRouter → ℕ → Routed α} :
    Quietly w (Act.locked ext call w) := by
  obtain ⟨hactor, hobserved, herror⟩ := locked_actor (w := w) ext call
  refine ⟨.frame ?_ hobserved ?_ ?_ ?_ ?_ ?_, herror⟩
  all_goals rw [hactor]
  exact id

theorem quiet_ofExcept {ε : Type} {answer : Except ε α} {f : ε → ConnectionActorError}
    (h : ∀ error, answer = .error error → ¬ clockError (f error)) :
    Quietly w ((ofExcept (answer.mapError f) : Act α) w) := by
  cases answer with
  | ok a => exact quiet_pure
  | error error => exact quiet_fail (h error rfl)

theorem quiet_ensureOutboundCapacity {additional : ℕ} :
    Quietly w (Act.ensureOutboundCapacity additional w) := by
  unfold Act.ensureOutboundCapacity
  rw [get_bind]
  split
  · exact .next quiet_close (quiet_fail (by simp [clockError]))
  · exact quiet_pure

theorem quiet_push {message : Zip301ServerMessage} : Quietly w (Act.push message w) :=
  quiet_setActor (.frame rfl rfl le_rfl rfl rfl rfl id)

theorem quiet_queue {message : Zip301ServerMessage} : Quietly w (Act.queue message w) :=
  .next quiet_ensureOutboundCapacity quiet_push

variable {id : Zip301Id}

theorem quiet_queueError {error : MinerError} : Quietly w (Act.queueError id error w) := by
  refine .next quiet_queue @fun _ _ => ?_
  split
  · exact quiet_close
  · exact quiet_pure

theorem quiet_queueSessionError {error : SessionError} :
    Quietly w (Act.queueSessionError id error w) := quiet_queueError

theorem quiet_storeResponseId : Quietly w (Act.storeResponseId id w) := by
  unfold Act.storeResponseId
  rw [get_bind]
  cases w.actor.responseIds.findIdx? (·.isNone) with
  | some index =>
    refine .next (quiet_setActor (.frame rfl rfl le_rfl rfl rfl rfl fun h => h)) ?_
    exact quiet_pure
  | none =>
    split
    · exact .next quiet_close (quiet_fail (by simp [clockError]))
    · refine .next (quiet_setActor (.frame rfl rfl le_rfl rfl rfl rfl fun h => h)) ?_
      exact quiet_pure

/-- A stored response touches the responses only. -/
theorem storeResponseId_spec {index : ℕ} {w' : ConnectionWorld}
    (h : Act.storeResponseId id w = (.done index, w')) :
    ∃ ids, w' = { w with actor := { w.actor with responseIds := ids } } := by
  unfold Act.storeResponseId at h
  rw [get_bind] at h
  cases hfree : w.actor.responseIds.findIdx? (·.isNone) with
  | some free =>
    rw [hfree] at h
    cases h
    exact ⟨_, rfl⟩
  | none =>
    rw [hfree] at h
    dsimp only at h
    split at h
    · cases h
    · cases h
      exact ⟨_, rfl⟩

theorem quiet_takeResponseId {index : ℕ} : Quietly w (Act.takeResponseId index w) := by
  unfold Act.takeResponseId
  rw [get_bind]
  cases w.actor.responseIds[index]?.join with
  | none => exact quiet_fail (by simp [clockError])
  | some id =>
    rw [ofOption_some, pure_bind']
    refine .next (quiet_setActor (.frame rfl rfl le_rfl rfl rfl rfl fun h => h)) ?_
    exact quiet_pure

theorem allocateTicket_eq : Act.allocateTicket w =
    if w.actor.nextTicket + 1 ≥ 2 ^ 64 then (.failed .ticketExhausted, w)
    else (.done w.actor.nextTicket,
      { w with actor := { w.actor with nextTicket := w.actor.nextTicket + 1 } }) := by
  unfold Act.allocateTicket
  rw [get_bind, failIf_bind]
  rfl

theorem quiet_allocateTicket : Quietly w (Act.allocateTicket w) := by
  rw [allocateTicket_eq]
  split
  · exact quiet_fail (by simp [clockError])
  · exact .done (.frame rfl rfl (Nat.le_succ _) rfl rfl rfl id)

theorem quiet_recordShareOutcome {outcome : ShareOutcome} :
    Quietly w (Act.recordShareOutcome outcome w) :=
  .done (.frame rfl rfl le_rfl rfl rfl rfl id)

theorem quiet_recordOutcome {outcome : Option ShareOutcome} :
    Quietly w (Act.recordOutcome? outcome w) := by
  cases outcome with
  | none => exact quiet_pure
  | some outcome => exact quiet_recordShareOutcome

theorem quiet_mismatch : Quietly w (Act.mismatch (α := α) w) :=
  .next quiet_close (quiet_fail (by simp [clockError]))

/-- An answer to a share leaves the queue alone. -/
theorem quiet_answerShare {responseId : Zip301Id} {result : Act.ShareResult} :
    Quietly w (Act.answerShare responseId result w) := by
  unfold Act.answerShare
  split
  · exact quiet_queue
  all_goals exact quiet_queueError

end Steps

/-! ## §3. Jobs -/

section Jobs

variable {w : ConnectionWorld} {ext : External}

theorem assignments_retire_nil {session : MiningSession} (h : session.assignments = [])
    (id : JobId) : (session.retireAnnouncedJob id).assignments = [] := by
  have hannounced : session.announcedJobs = [] := (List.append_eq_nil_iff.mp h).1
  unfold MiningSession.retireAnnouncedJob
  rw [hannounced]
  exact h

theorem assignments_retain_nil {session : MiningSession} (h : session.assignments = [])
    (ids : List JobId) : (session.retainWinnerRecoveryJobs ids).assignments = [] := by
  obtain ⟨hannounced, hrecovery⟩ := List.append_eq_nil_iff.mp h
  show session.announcedJobs ++ session.winnerRecoveryJobs.filter _ = []
  rw [hannounced, hrecovery]
  rfl

/-- A reconciliation leaves the queue alone. -/
theorem quiet_reconcileJobs : Quietly w (Act.reconcileJobs ext w) := by
  refine .next quiet_requireOpen ?_
  refine .next quiet_locked ?_
  refine .next quiet_locked ?_
  refine quiet_setActor (.frame rfl rfl le_rfl rfl rfl rfl ?_)
  rintro ⟨hassignments, hsession⟩
  constructor
  · show List.filter _ _ = []
    rw [hassignments]
    rfl
  · refine assignments_retain_nil ?_ _
    rw [hassignments]
    exact hsession

theorem quiet_currentAssignedTarget : Quietly w (Act.currentAssignedTarget ext w) := by
  refine .next quiet_locked @fun _ _ => ?_
  rw [get_bind]
  exact quiet_pure

variable {generation : BackendGeneration}

/-- New network targets leave the clock alone, and a new controller has none. -/
theorem kept_bindingFor :
    Keeps w (Act.bindingFor generation w) := by
  unfold Act.bindingFor
  rw [get_bind]
  cases w.actor.assignments.find generation.id with
  | some assignment => exact Fine.keeps quiet_pure
  | none =>
    cases hvardiff : w.actor.vardiff with
    | some vardiff =>
      obtain ⟨hne, hlater⟩ := vardiff.updateNetworkTargets_on_time
        generation.wcashNetworkTarget generation.zcashNetworkTarget
      dsimp only
      generalize vardiff.updateNetworkTargets generation.wcashNetworkTarget
        generation.zcashNetworkTarget = answer at *
      refine .next (.done (.withVardiff ?_)) (Fine.keeps (quiet_ofExcept ?_))
      · exact fun ms hreached => hlater ms (hreached vardiff hvardiff)
      · rintro error heq hclock
        cases hclock
        exact hne heq
    | none =>
      cases hnew : VardiffController.new w.actor.policy.vardiff generation.wcashNetworkTarget
          generation.zcashNetworkTarget w.actor.policy.initialTarget 1 with
      | error error =>
        refine .failed (Quiet.refl w).toKept fun hclock => ?_
        cases hclock
        exact VardiffController.new_ne_clock _ _ _ _ _ hnew
      | ok vardiff =>
        obtain ⟨-, hlast, hwindow⟩ := VardiffController.new_spec hnew
        refine .done (.withVardiff fun ms _ => ?_)
        exact ⟨fun _ heq => (nomatch hlast.symm.trans heq), fun _ heq => nomatch hwindow.symm.trans heq⟩

/-- The first binding of a connection needs a controller. -/
theorem bindingFor_some {binding : TargetBinding} {w' : ConnectionWorld}
    (h : Act.bindingFor generation w = (.done binding, w')) (hjobless : w.actor.Jobless) :
    w'.actor.vardiff ≠ none := by
  have hfind : w.actor.assignments.find generation.id = none := by
    rw [Table.find_eq_none, hjobless.1]
    exact fun _ hmem => nomatch hmem
  unfold Act.bindingFor at h
  rw [get_bind, hfind] at h
  cases hvardiff : w.actor.vardiff with
  | some vardiff =>
    rw [hvardiff] at h
    dsimp only at h
    generalize vardiff.updateNetworkTargets generation.wcashNetworkTarget
      generation.zcashNetworkTarget = answer at h
    obtain ⟨error | binding, vardiff'⟩ := answer
    · cases h
    · cases h
      exact fun hnone => nomatch hnone
  | none =>
    rw [hvardiff] at h
    obtain ⟨vardiff, w₁, -, h⟩ := bind_eq_done.mp h
    obtain ⟨_, w₂, hset, h⟩ := bind_eq_done.mp h
    cases hset
    cases h
    exact fun hnone => nomatch hnone

/-- So far the queue is kept, and there is a controller if there were no jobs. -/
structure Bound (w w' : ConnectionWorld) : Prop where
  kept : Kept w w'
  controller : w.actor.Jobless → w'.actor.vardiff ≠ none

variable {w₁ : ConnectionWorld}

theorem Bound.quiet (h : Bound w w₁) (hquiet : Quiet w₁ w₂) :
    Bound w w₂ := ⟨h.kept.trans hquiet.toKept, fun hjobless => hquiet.same ▸ h.controller hjobless⟩

theorem Bound.fine {α : Type} {r : Tasks.Outcome ConnectionActorError α × ConnectionWorld}
    (h : Bound w w₁) (hquiet : Quietly w₁ r) :
    Fine (Bound w) clockError r := hquiet.mono fun _ => h.quiet

/-- With a controller, a job may be announced. -/
theorem Bound.announce (h : Bound w w₁) (session : MiningSession)
    (assignments : Table JobAssignment.generationId) (lineage : List JobId) :
    Bound w { w₁ with actor := { w₁.actor with
      session := session, assignments := assignments, advertisedLineage := lineage } } where
  kept :=
    { controller := h.kept.controller
      clock := h.kept.clock
      observed := h.kept.observed
      ticket := h.kept.ticket
      queue := h.kept.queue
      jobs := fun hnone hjobless => absurd hnone (h.controller hjobless) }
  controller := h.controller

theorem kept_announceBound {cleanJobs : Bool} :
    Keeps w (Act.announceBound ext generation cleanJobs w) := by
  refine .bind kept_bindingFor fun binding w₁ hbinding hkept => ?_
  refine Fine.mono ?_ fun _ (h : Bound w _) => h.kept
  have hbound : Bound w w₁ := ⟨hkept, bindingFor_some hbinding⟩
  have hneeds : Quietly w₁ (Act.needsTarget ext cleanJobs binding w₁) := by
    unfold Act.needsTarget
    split
    · exact quiet_pure
    · exact .next quiet_currentAssignedTarget quiet_pure
  refine .bind (hbound.fine hneeds) fun sendTarget _ _ h => ?_
  refine .bind (h.fine quiet_ensureOutboundCapacity) fun _ _ _ h => ?_
  refine .bind (h.fine (quiet_ofExcept fun _ _ => by simp [clockError])) fun _ _ _ h => ?_
  rw [get_bind]
  refine .bind (h.fine (quiet_ofExcept fun _ _ => by simp [clockError])) fun session _ _ h => ?_
  refine .bind (.done (h.announce _ _ _)) fun _ w₂ _ h => ?_
  have hpush : Quietly w₂ (Act.pushTarget sendTarget binding w₂) := by
    unfold Act.pushTarget
    split
    · exact quiet_push
    · exact quiet_pure
  exact .bind (h.fine hpush) fun _ _ _ h => h.fine quiet_push

/-- An announced generation keeps the queue. -/
theorem kept_announceGeneration {cleanJobs : Bool} :
    Keeps w (Act.announceGeneration ext generation cleanJobs w) := by
  unfold Act.announceGeneration
  rw [get_bind]
  split
  · refine .next (Fine.keeps quiet_reconcileJobs) @fun _ w => ?_
    rw [get_bind]
    generalize (cleanJobs || w.actor.advertisedLineage.isEmpty) = clean
    have hstart : Quietly w (Act.startLineage clean w) := by
      unfold Act.startLineage
      split
      · exact quiet_setActor (.frame rfl rfl le_rfl rfl rfl rfl id)
      · exact quiet_pure
    refine .next (Fine.keeps hstart) @fun _ _ => ?_
    split
    · exact kept_announceBound
    · exact Fine.keeps quiet_pure
  · exact Fine.keeps quiet_pure

theorem kept_synchronizeCurrentJob : Keeps w (Act.synchronizeCurrentJob ext w) := by
  refine .next (Fine.keeps quiet_locked) @fun current _ => ?_
  cases current with
  | none => exact Fine.keeps quiet_pure
  | some generation => exact kept_announceGeneration

theorem quiet_retired {jobId : JobId} :
    Quietly w (Act.applyJobUpdate ext (.retired jobId) w) := by
  refine .next quiet_requireOpen ?_
  refine .next (quiet_setActor (.frame rfl rfl le_rfl rfl rfl rfl ?_)) @fun _ _ => ?_
  · rintro ⟨hassignments, hsession⟩
    refine ⟨?_, assignments_retire_nil hsession jobId⟩
    show List.filter _ _ = []
    rw [hassignments]
    rfl
  · refine .next quiet_locked ?_
    exact quiet_setActor (.frame rfl rfl le_rfl rfl rfl rfl fun hjobless =>
      ⟨hjobless.1, assignments_retain_nil hjobless.2 _⟩)

theorem quiet_suspended : Quietly w (Act.applyJobUpdate ext .suspended w) :=
  .next quiet_requireOpen quiet_close

/-- **A job update** keeps the queue. -/
theorem kept_applyJobUpdate {update : JobUpdate} :
    Keeps w (Act.applyJobUpdate ext update w) := by
  cases update with
  | activated generation cleanJobs =>
    refine .next (Fine.keeps quiet_requireOpen) ?_
    refine .next (Fine.keeps quiet_locked) @fun current _ => ?_
    split
    · exact kept_announceGeneration
    · split
      · exact Fine.keeps (quiet_setActor (.frame rfl rfl le_rfl rfl rfl rfl id))
      · exact Fine.keeps quiet_pure
  | retired jobId => exact Fine.keeps quiet_retired
  | suspended => exact Fine.keeps quiet_suspended

end Jobs

/-! ## §4. Authorization and other requests -/

section Requests

variable {w : ConnectionWorld} {ext : External} {id : Zip301Id}

theorem quiet_beginAuthorization {worker password : Text} :
    Quietly w (Act.beginAuthorization id worker password w) := by
  unfold Act.beginAuthorization
  rw [get_bind]
  split
  · exact .next quiet_queueError quiet_pure
  · split
    · exact .next quiet_queueError quiet_pure
    · refine .next quiet_storeResponseId ?_
      refine .next quiet_allocateTicket ?_
      refine .next (quiet_setActor (.frame rfl rfl le_rfl rfl rfl rfl fun h => h)) ?_
      exact quiet_pure

theorem assignments_completeAuthorization {session session' : MiningSession}
    {worker : AuthenticatedWorker} (h : session.completeAuthorization worker = .ok session') :
    session'.assignments = session.assignments := by
  unfold MiningSession.completeAuthorization at h
  cases hstate : session.state with
  | subscribed =>
    rw [hstate] at h
    cases h
    rfl
  | authorized =>
    rw [hstate] at h
    dsimp only at h
    split at h
    · cases h
      rfl
    · cases h
  | connected =>
    rw [hstate] at h
    cases h
  | closed =>
    rw [hstate] at h
    cases h

/-- A session that is refused has no jobs left. -/
theorem quiet_reject {session : MiningSession} {responseId : Zip301Id} {error : MinerError} :
    Quietly w ((do
      let session ← ofExcept (session.rejectAuthorization.mapError ConnectionActorError.session)
      Act.setActor fun actor => { actor with session }
      Act.queueError responseId error : Act Unit) w) := by
  refine .chain (quiet_ofExcept fun _ _ => by simp [clockError]) fun rejected w' hrejected _ => ?_
  have hclosed : rejected.assignments = [] := by
    cases hanswer : session.rejectAuthorization with
    | error error =>
      rw [hanswer] at hrejected
      cases hrejected
    | ok session' =>
      rw [hanswer] at hrejected
      cases hrejected
      have hclose := passed hanswer
      cases hclose
      rfl
  refine .next (quiet_setActor (.frame rfl rfl le_rfl rfl rfl rfl fun h => ?_)) ?_
  · exact ⟨h.1, hclosed⟩
  · exact quiet_queueError

variable {ticket : AuthenticationTicket}

/-- A grant keeps the queue. -/
theorem kept_acceptGrant {responseId : Zip301Id} {grant : AuthenticationGrant} :
    Keeps w (Act.acceptGrant ext ticket responseId grant w) := by
  unfold Act.acceptGrant
  rw [get_bind]
  split
  · cases hsession : w.actor.session.completeAuthorization grant.worker with
    | error error => exact Fine.keeps (quiet_fail (by simp [clockError]))
    | ok session =>
      refine .chain (Fine.keeps quiet_pure) fun _ _ hpure _ => ?_
      cases hpure
      refine .next (Fine.keeps (quiet_setActor (.frame rfl rfl le_rfl rfl rfl rfl fun h => ?_)))
        @fun _ w => ?_
      · exact ⟨h.1, (assignments_completeAuthorization hsession).trans h.2⟩
      · refine .next (Fine.keeps (.done (.frame rfl rfl le_rfl rfl rfl rfl fun h => h))) ?_
        exact .next (Fine.keeps quiet_queue) kept_synchronizeCurrentJob
  · exact Fine.keeps quiet_reject

theorem quiet_denied {error : AuthenticationError} :
    Quietly w (Act.completeAuthorization ext ticket (.error error) w) := by
  refine .next quiet_requireOpen @fun _ w => ?_
  rw [get_bind]
  cases w.actor.pendingAuthorization with
  | none => exact quiet_fail (by simp [clockError])
  | some pending =>
    obtain ⟨expected, index⟩ := pending
    rw [ofOption_some, pure_bind']
    refine .next (quiet_setActor (.frame rfl rfl le_rfl rfl rfl rfl fun h => h)) @fun _ _ => ?_
    split
    · exact quiet_mismatch
    · refine .next quiet_takeResponseId @fun _ _ => ?_
      cases error with
      | denied => exact quiet_reject
      | unavailable => exact quiet_queueError

/-- **A finished authorization** keeps the queue. -/
theorem kept_completeAuthorization {result : Except AuthenticationError AuthenticationGrant} :
    Keeps w (Act.completeAuthorization ext ticket result w) := by
  cases result with
  | error error => exact Fine.keeps quiet_denied
  | ok grant =>
    refine .next (Fine.keeps quiet_requireOpen) @fun _ w => ?_
    rw [get_bind]
    cases w.actor.pendingAuthorization with
    | none => exact Fine.keeps (quiet_fail (by simp [clockError]))
    | some pending =>
      obtain ⟨expected, index⟩ := pending
      rw [ofOption_some, pure_bind']
      refine .next (Fine.keeps (quiet_setActor (.frame rfl rfl le_rfl rfl rfl rfl fun h => h)))
        @fun _ _ => ?_
      split
      · exact Fine.keeps quiet_mismatch
      · exact .next (Fine.keeps quiet_takeResponseId) kept_acceptGrant

theorem quiet_suggestTarget : Quietly w (Act.suggestTarget ext id w) := by
  unfold Act.suggestTarget
  rw [get_bind]
  cases w.actor.session.state with
  | authorized => exact .next quiet_currentAssignedTarget quiet_queue
  | connected => exact quiet_queueError
  | subscribed => exact quiet_queueError
  | closed => exact quiet_queueError

theorem quiet_subscribe : Quietly w (Act.subscribe id w) := by
  unfold Act.subscribe
  rw [get_bind]
  cases hsubscribe : w.actor.session.subscribe w.allocator with
  | ok granted =>
    obtain ⟨nonce1, session, allocator⟩ := granted
    have hsession : session.assignments = w.actor.session.assignments := by
      obtain ⟨⟨_, _⟩, -, h⟩ := bind_eq_ok.mp (passed hsubscribe)
      cases h
      rfl
    refine .next (.done (.frame rfl rfl le_rfl rfl rfl rfl fun h => ?_)) quiet_queue
    exact ⟨h.1, hsession.trans h.2⟩
  | error error => exact quiet_queueSessionError

theorem quiet_popOutbound : Quietly w (Act.popOutbound w) := by
  unfold Act.popOutbound
  rw [get_bind]
  refine .next (quiet_setActor (.frame rfl rfl le_rfl rfl rfl rfl fun h => h)) ?_
  exact quiet_pure

end Requests

/-! ## §5. Admission -/

section Admission

variable {w : ConnectionWorld} {ext : External} {nowMs : Millis}

/-- A share that was admitted is the last one of the queue. -/
structure Appended (nowMs : Millis) (share : PendingShareState) (w w' : ConnectionWorld) :
    Prop where
  time : share.admittedAtMs = nowMs
  pending : share.vardiffSample = none
  ticket : share.ticket = w.actor.nextTicket
  next : w'.actor.nextTicket = w.actor.nextTicket + 1
  shares : w'.actor.pendingShares = w.actor.pendingShares.put share
  order : w'.actor.timingOrder = w.actor.timingOrder ++ [share.ticket]
  closed : w'.actor.closed = w.actor.closed
  vardiff : w'.actor.vardiff = w.actor.vardiff
  observed : w'.observed = w.observed
  announced : ¬ w.actor.Jobless

/-- A request is quiet or admits a share. -/
def Admits (nowMs : Millis) (w w' : ConnectionWorld) : Prop :=
  Quiet w w' ∨ ∃ share, Appended nowMs share w w'

theorem Quietly.admits {α : Type} {r : Tasks.Outcome ConnectionActorError α × ConnectionWorld}
    (h : Quietly w r) : Fine (Admits nowMs w) clockError r := h.mono fun _ => .inl

variable {w' : ConnectionWorld} {jobId : JobId}

theorem Admits.release (h : Admits nowMs w w') (router : JobRouter) :
    Admits nowMs w { w' with router } := by
  obtain hquiet | ⟨share, happended⟩ := h
  · exact .inl (hquiet.trans (.frame rfl rfl le_rfl rfl rfl rfl id))
  · exact .inr ⟨share, { happended with }⟩

/-- Nothing that matters to the queue is different. -/
structure Same (w w₁ : ConnectionWorld) : Prop where
  vardiff : w₁.actor.vardiff = w.actor.vardiff
  observed : w₁.observed = w.observed
  ticket : w₁.actor.nextTicket = w.actor.nextTicket
  shares : w₁.actor.pendingShares = w.actor.pendingShares
  order : w₁.actor.timingOrder = w.actor.timingOrder
  closed : w₁.actor.closed = w.actor.closed
  jobs : w₁.actor.Jobless ↔ w.actor.Jobless

theorem Same.quiet (h : Same w w₁) : Quiet w w₁ :=
  .frame h.vardiff h.observed h.ticket.ge h.shares h.order h.closed h.jobs.mpr

/-- The world in which a call is made. -/
abbrev ConnectionWorld.within (w : ConnectionWorld) (surroundings : Surroundings) : ConnectionWorld :=
  { w with allocator := surroundings.allocator, turns := surroundings.turns }

theorem ConnectionWorld.same_within (w : ConnectionWorld) (surroundings : Surroundings) :
    Same w (w.within surroundings) := ⟨rfl, rfl, rfl, rfl, rfl, rfl, Iff.rfl⟩

theorem Admits.after (hsame : Same w w₁) (h : Admits nowMs w₁ w') : Admits nowMs w w' := by
  obtain hquiet | ⟨share, happended⟩ := h
  · exact .inl (hsame.quiet.trans hquiet)
  · refine .inr ⟨share, ?_⟩
    exact
      { time := happended.time
        pending := happended.pending
        ticket := happended.ticket.trans hsame.ticket
        next := by rw [happended.next, hsame.ticket]
        shares := by rw [happended.shares, hsame.shares]
        order := by rw [happended.order, hsame.order]
        closed := happended.closed.trans hsame.closed
        vardiff := happended.vardiff.trans hsame.vardiff
        observed := happended.observed.trans hsame.observed
        announced := fun hjobless => happended.announced (hsame.jobs.mpr hjobless) }

variable {context : SubmissionContext}

theorem quiet_pendingFor : Quietly w (Act.pendingFor ext context jobId nowMs w) := by
  unfold Act.pendingFor
  rw [get_bind]
  cases w.actor.session.announcedTargetBinding jobId with
  | none => exact quiet_fail (by simp [clockError])
  | some target =>
    rw [ofOption_some, pure_bind', failIf_bind]
    split
    · exact quiet_fail (by simp [clockError])
    · exact .next (quiet_ofExcept fun _ _ => by simp [clockError]) quiet_pure

/-- The pending share of an admitted request. -/
theorem pendingFor_spec {share : PendingShareState}
    (h : Act.pendingFor ext context jobId nowMs w = (.done share, w')) :
    w' = w ∧ share.admittedAtMs = nowMs ∧ share.vardiffSample = none ∧ ¬ w.actor.Jobless := by
  unfold Act.pendingFor at h
  rw [get_bind] at h
  cases htarget : w.actor.session.announcedTargetBinding jobId with
  | none =>
    rw [htarget] at h
    cases h
  | some target =>
    rw [htarget, ofOption_some, pure_bind', failIf_bind] at h
    split at h
    · cases h
    · cases hid : canonicalAttributionId ext context.identity context.targetLe with
      | error error =>
        rw [hid] at h
        cases h
      | ok attributionId =>
        rw [hid] at h
        cases h
        refine ⟨rfl, rfl, rfl, fun hjobless => ?_⟩
        unfold MiningSession.announcedTargetBinding MiningSession.assignment at htarget
        rw [hjobless.2] at htarget
        cases htarget

/-- **An admission** appends at most one share. -/
theorem admitShare_spec {id : Zip301Id} :
    Fine (Admits nowMs w) clockError (Act.admitShare ext id context jobId nowMs w) := by
  refine .bind (Quietly.admits quiet_pendingFor) fun share w hshare _ => ?_
  obtain ⟨rfl, htime, hpending, hjobs⟩ := pendingFor_spec hshare
  refine .bind (Quietly.admits quiet_storeResponseId) fun responseId _ hstored _ => ?_
  obtain ⟨ids, rfl⟩ := storeResponseId_spec hstored
  have hstore : Quiet w { w with actor := { w.actor with responseIds := ids } } :=
    .frame rfl rfl le_rfl rfl rfl rfl fun h => h
  refine .bind ?_ fun ticket _ hticket _ => ?_
  · exact Quietly.admits (Fine.mono
      (quiet_allocateTicket (w := { w with actor := { w.actor with responseIds := ids } }))
      fun _ => hstore.trans)
  -- the ticket is new: the share goes to the end of the queue
  rw [allocateTicket_eq] at hticket
  split at hticket
  · cases hticket
  · cases hticket
    have happended : Appended nowMs
        { share with ticket := w.actor.nextTicket, responseId := some responseId }
        w { w with actor := { w.actor with
          responseIds := ids
          nextTicket := w.actor.nextTicket + 1
          pendingShares := w.actor.pendingShares.put
            { share with ticket := w.actor.nextTicket, responseId := some responseId }
          timingOrder := w.actor.timingOrder ++ [w.actor.nextTicket] } } :=
      { time := htime
        pending := hpending
        ticket := rfl
        next := rfl
        shares := rfl
        order := rfl
        closed := rfl
        vardiff := rfl
        observed := rfl
        announced := hjobs }
    exact .done (.inr ⟨_, happended⟩)

/-- A failed admission releases its guard. -/
theorem orRelease_spec {α : Type} {act : Act α} (h : Fine (Admits nowMs w) clockError (act w)) :
    Fine (Admits nowMs w) clockError (Act.orRelease context act w) := by
  unfold Act.orRelease
  generalize act w = answer at h
  obtain ⟨a | error | _, w'⟩ := answer
  · exact h
  · exact .failed (Admits.release h.1 _) (h.2 error rfl)
  · exact h

/-- **A submission** is refused without a trace in the queue, or appended to it. -/
theorem beginSubmission_spec {id : Zip301Id} {jobId : Hex32} {work : JobRouter.SubmittedWork} :
    Fine (Admits nowMs w) clockError (Act.beginSubmission ext id jobId work nowMs w) := by
  unfold Act.beginSubmission
  rw [get_bind]
  split
  · exact Quietly.admits (.next quiet_queueError quiet_pure)
  · cases JobId.new jobId with
    | error _ =>
      refine Quietly.admits (.next quiet_recordShareOutcome ?_)
      exact .next quiet_queueError quiet_pure
    | ok jobId =>
      refine .bind (Quietly.admits quiet_locked) fun prepared w₁ hlocked _ => ?_
      obtain ⟨hactor, hobserved, -⟩ := locked_actor (w := w) ext fun router instant =>
        Act.refusable (router.prepareSubmission ext w.actor.session jobId work instant)
      rw [hlocked] at hactor hobserved
      have hsame : Same w w₁ := by
        constructor
        case observed => exact hobserved
        all_goals rw [hactor]
      refine Fine.mono ?_ fun _ (h : Admits nowMs w₁ _) => h.after hsame
      cases prepared with
      | error error =>
        refine Quietly.admits (.next quiet_recordOutcome ?_)
        exact .next quiet_queueSessionError quiet_pure
      | ok context => exact .bind (orRelease_spec admitShare_spec) fun _ _ _ h => .done h

/-- **A request** is quiet or admits a share. -/
theorem handleRequest_spec {request : Zip301Request} :
    Fine (Admits nowMs w) clockError (Act.handleRequest ext request nowMs w) := by
  refine .bind (Quietly.admits quiet_requireOpen) fun _ w' hrequire _ => ?_
  obtain rfl := requireOpen_done hrequire
  rw [get_bind]
  rcases w'.actor.rateLimiter.admitRequest nowMs with ⟨admitted, rateLimiter⟩
  have hsame : Same w' { w' with actor := { w'.actor with rateLimiter } } :=
    ⟨rfl, rfl, rfl, rfl, rfl, rfl, Iff.rfl⟩
  refine Fine.bind (.done (.inl hsame.quiet)) fun _ w₁ hset _ => ?_
  cases hset
  refine Fine.mono ?_ fun _ => Admits.after hsame
  have hquiet : ∀ {act : Act Unit} {w : ConnectionWorld}, Quietly w (act w) →
      Fine (Admits nowMs w) clockError
        ((act >>= fun _ => pure none : Act (Option ConnectionAction)) w) := fun hact =>
    Quietly.admits (.next hact quiet_pure)
  cases admitted with
  | error error => exact hquiet quiet_queueError
  | ok _ =>
    cases request with
    | subscribe id => exact hquiet quiet_subscribe
    | authorize id worker password => exact Quietly.admits quiet_beginAuthorization
    | suggestTarget id target => exact hquiet quiet_suggestTarget
    | extranonceSubscribe id => exact hquiet quiet_queueError
    | multiVersion id versions => exact Quietly.admits quiet_pure
    | submit id worker jobId time nonce2 solution => exact beginSubmission_spec

end Admission

/-! ## §6. The queue -/

/-- **The table of pending shares and the order of their tickets are one list**, and there is a
    controller for them. -/
structure Queued (actor : ConnectionActor) : Prop where
  order : actor.pendingShares.rows.map (·.ticket) = actor.timingOrder
  fresh : ∀ share ∈ actor.pendingShares.rows, share.ticket < actor.nextTicket
  tracked : actor.vardiff = none → actor.Jobless ∧ actor.pendingShares.rows = []

namespace Queued

variable {w w' : ConnectionWorld} {actor : ConnectionActor}

/-- The invariant survives a change that keeps. -/
theorem kept (h : Queued w.actor) (hkept : Kept w w') : Queued w'.actor := by
  have hjobs : w'.actor.vardiff = none → w'.actor.Jobless := fun hnone =>
    hkept.jobs hnone (h.tracked (hkept.controller hnone)).1
  obtain ⟨hshares, horder, -⟩ | ⟨hshares, horder, -⟩ := hkept.queue
  · constructor
    · rw [hshares, horder]
      exact h.order
    · rw [hshares]
      exact fun share hmem => (h.fresh share hmem).trans_le hkept.ticket
    · rw [hshares]
      exact fun hnone => ⟨hjobs hnone, (h.tracked (hkept.controller hnone)).2⟩
  · constructor
    · rw [hshares, horder]
      rfl
    · rw [hshares]
      exact fun _ hmem => nomatch hmem
    · rw [hshares]
      exact fun hnone => ⟨hjobs hnone, rfl⟩

variable {share : PendingShareState}

theorem rows_appended (h : Queued w.actor) (happended : Appended nowMs share w w') :
    w'.actor.pendingShares.rows = w.actor.pendingShares.rows ++ [share] := by
  rw [happended.shares]
  apply Table.rows_put_of_fresh
  intro hmem
  obtain ⟨other, hother, heq⟩ := List.mem_map.mp hmem
  have hlt := h.fresh other hother
  have hticket := happended.ticket
  omega

/-- The invariant survives an admission. -/
theorem appended (h : Queued w.actor) (happended : Appended nowMs share w w') :
    Queued w'.actor where
  order := by
    rw [h.rows_appended happended, List.map_append, h.order, happended.order]
    rfl
  fresh := by
    intro other hmem
    rw [h.rows_appended happended] at hmem
    have hticket := happended.ticket
    have hnext := happended.next
    obtain hold | hnew := List.mem_append.mp hmem
    · have hlt := h.fresh other hold
      omega
    · rw [List.mem_singleton.mp hnew]
      omega
  tracked := fun hnone =>
    absurd (h.tracked (happended.vardiff ▸ hnone)).1 happended.announced

theorem rows_storeSample (ticket : ℕ) (result : Act.ShareResult) :
    (Act.storeSample ticket result actor).pendingShares.rows =
      actor.pendingShares.rows.map fun share =>
        if share.ticket = ticket then Act.completed result share else share := rfl

/-- The invariant survives a stored completion. -/
theorem stored (h : Queued actor) (ticket : ℕ) (result : Act.ShareResult) :
    Queued (Act.storeSample ticket result actor) where
  order := by
    rw [rows_storeSample, List.map_map]
    refine Eq.trans (List.map_congr_left fun share _ => ?_) h.order
    show PendingShareState.ticket (if share.ticket = ticket then _ else share) = share.ticket
    split
    · rfl
    · rfl
  fresh := by
    intro share hmem
    rw [rows_storeSample] at hmem
    obtain ⟨before, hbefore, rfl⟩ := List.mem_map.mp hmem
    split
    · exact h.fresh before hbefore
    · exact h.fresh before hbefore
  tracked := by
    intro hnone
    obtain ⟨hjobless, hrows⟩ := h.tracked hnone
    refine ⟨hjobless, ?_⟩
    rw [rows_storeSample, hrows]
    rfl

/-- The first ticket of the order is that of the first row. -/
theorem head (h : Queued actor) {ticket : ℕ} {rest : List ℕ}
    (horder : actor.timingOrder = ticket :: rest) :
    ∃ share rows, actor.pendingShares.rows = share :: rows ∧ share.ticket = ticket := by
  have hrows := h.order
  rw [horder] at hrows
  cases htable : actor.pendingShares.rows with
  | nil =>
    rw [htable] at hrows
    cases hrows
  | cons share rows =>
    rw [htable] at hrows
    injection hrows with hticket _
    exact ⟨share, rows, rfl, hticket⟩

theorem rows_popFirst {rows : List PendingShareState}
    (hrows : actor.pendingShares.rows = share :: rows) :
    (Act.popFirst share.ticket actor).pendingShares.rows = rows := Table.rows_erase_head hrows

/-- The invariant survives the release of the head. -/
theorem popped (h : Queued actor) {rows : List PendingShareState}
    (hrows : actor.pendingShares.rows = share :: rows) :
    Queued (Act.popFirst share.ticket actor) where
  order := by
    rw [rows_popFirst hrows]
    show rows.map (·.ticket) = actor.timingOrder.tail
    rw [← h.order, hrows]
    rfl
  fresh := by
    intro other hmem
    rw [rows_popFirst hrows] at hmem
    exact h.fresh other (hrows ▸ List.mem_cons_of_mem _ hmem)
  tracked := by
    intro hnone
    obtain ⟨hjobless, hempty⟩ := h.tracked hnone
    rw [hrows] at hempty
    cases hempty

end Queued

/-! ## §7. Rules for invariants -/

/-- What an observation does: vardiff and the list of observed shares change. -/
theorem observeShare_eq {target : TargetBinding} {atMs : Millis}
    (h : w.actor.vardiff = some vardiff) :
    Act.observeShare target atMs w =
      ((match (vardiff.observeShare target atMs).1 with
        | .ok _ => .done ()
        | .error error => .failed (.vardiff error)),
        { w with
          actor := { w.actor with vardiff := some (vardiff.observeShare target atMs).2 }
          observed := w.observed ++ [(target, atMs)] }) := by
  unfold Act.observeShare
  rw [get_bind, h]
  dsimp only
  rcases vardiff.observeShare target atMs with ⟨error | update, vardiff'⟩
  · rfl
  · rfl

theorem observeShare_none {target : TargetBinding} {atMs : Millis} (h : w.actor.vardiff = none) :
    Act.observeShare target atMs w = (.done (), w) := by
  unfold Act.observeShare
  rw [get_bind, h]
  rfl

/-- Only the controller and the list of observed shares change. -/
theorem observeSample_state (w : ConnectionWorld) (sample : Bool) (share : PendingShareState) :
    ∃ vardiff observed, (Act.observeSample sample share w).2 =
        { w with actor := { w.actor with vardiff := vardiff }, observed := observed } ∧
      (vardiff = none → w.actor.vardiff = none) := by
  unfold Act.observeSample
  split
  · cases hvardiff : w.actor.vardiff with
    | none =>
      rw [observeShare_none hvardiff]
      exact ⟨none, w.observed, by rw [← hvardiff], fun _ => rfl⟩
    | some vardiff =>
      rw [observeShare_eq hvardiff]
      exact ⟨_, _, rfl, fun hnone => nomatch hnone⟩
  · exact ⟨_, _, rfl, id⟩

/-- The world without its first pending share. -/
abbrev ConnectionWorld.popped (w : ConnectionWorld) (share : PendingShareState) : ConnectionWorld :=
  { w with actor := Act.popFirst share.ticket w.actor }

/-- **What makes an invariant of a run**, at the time of its present call: each way in which the
    queue can change keeps it. -/
structure Rules (nowMs : Millis) (P : ConnectionWorld → Prop) (bad : ConnectionActorError → Prop) :
    Prop where
  errors : ∀ error, bad error → clockError error
  queued : ∀ {w}, P w → Queued w.actor
  kept : ∀ {w w'}, P w → Kept w w' → P w'
  appended : ∀ {w w' share}, P w → Appended nowMs share w w' → P w'
  stored : ∀ {w} ticket result, P w → P { w with actor := Act.storeSample ticket result w.actor }
  observes : ∀ {w share rows} sample, P w → w.actor.pendingShares.rows = share :: rows →
    Fine P bad (Act.observeSample sample share (w.popped share))

namespace Rules

variable {nowMs : Millis} {P : ConnectionWorld → Prop} {bad : ConnectionActorError → Prop}
  {w : ConnectionWorld} {ext : External}

section

variable (rules : Rules nowMs P bad) (h : P w)

include rules h

theorem keeps {α : Type} {r : Tasks.Outcome ConnectionActorError α × ConnectionWorld}
    (hkeeps : Keeps w r) :
    Fine P bad r :=
  ⟨rules.kept h hkeeps.1, fun error heq hbad => hkeeps.2 error heq (rules.errors error hbad)⟩

theorem admits {α : Type} {r : Tasks.Outcome ConnectionActorError α × ConnectionWorld}
    (hadmits : Fine (Admits nowMs w) clockError r) : Fine P bad r := by
  refine ⟨?_, fun error heq hbad => hadmits.2 error heq (rules.errors error hbad)⟩
  obtain hquiet | ⟨share, happended⟩ := hadmits.1
  · exact rules.kept h hquiet.toKept
  · exact rules.appended h happended

/-- The loop of the drain, one share at a time. -/
theorem drain {tickets : List ℕ} (horder : w.actor.timingOrder = tickets) :
    Fine P bad (Act.drainFrom tickets w) := by
  induction tickets generalizing w with
  | nil => exact .done h
  | cons ticket rest ih =>
    obtain ⟨share, rows, hrows, rfl⟩ := (rules.queued h).head horder
    unfold Act.drainFrom
    rw [get_bind, Table.find_of_mem (t := w.actor.pendingShares) (hrows ▸ List.mem_cons_self)]
    dsimp only
    cases share.vardiffSample with
    | none => exact .done h
    | some sample =>
      show Fine P bad ((Act.observeSample sample share >>= fun _ => Act.drainFrom rest)
        (w.popped share))
      refine .bind (rules.observes sample h hrows) fun _ w' hobserved h' => ih h' ?_
      obtain ⟨vardiff, observed, hstate, -⟩ := observeSample_state (w.popped share) sample share
      rw [hobserved] at hstate
      obtain rfl : w' = _ := hstate
      show w.actor.timingOrder.tail = rest
      rw [horder]
      rfl

/-- A drain, or the close after it fails. -/
theorem drainOrClose : Fine P bad (Act.drainOrClose w) := by
  unfold Act.drainOrClose
  split
  · exact .done h
  · have hdrain : Fine P bad (Act.drainCompletedTiming w) := rules.drain h rfl
    generalize Act.drainCompletedTiming w = answer at hdrain
    obtain ⟨a | error | _, w'⟩ := answer
    · exact hdrain
    · refine .bind (rules.keeps hdrain.1 (Fine.keeps quiet_close)) fun _ _ _ h => ?_
      exact .failed h (hdrain.2 error rfl)
    · exact hdrain

/-- **A completion** stores its sample, answers and drains. -/
theorem complete {ticket : ShareTicket} {result : Act.ShareResult} :
    Fine P bad (Act.completeSubmission ticket result w) := by
  refine .bind (rules.keeps h (Fine.keeps quiet_requireOpen)) fun _ w _ h => ?_
  rw [get_bind]
  split
  · exact rules.keeps h (Fine.keeps quiet_mismatch)
  · cases w.actor.pendingShares.find ticket.ticket with
    | none => exact rules.keeps h (Fine.keeps quiet_mismatch)
    | some share =>
      dsimp only
      split
      · exact rules.keeps h (Fine.keeps quiet_mismatch)
      · refine .bind (.done (rules.stored _ _ h)) fun _ _ _ h => ?_
        cases share.responseId with
        | none => exact rules.keeps h (Fine.keeps quiet_mismatch)
        | some index =>
          refine .bind (rules.keeps h (Fine.keeps quiet_takeResponseId)) fun _ _ _ h => ?_
          refine .bind (rules.keeps h (Fine.keeps quiet_recordOutcome)) fun _ _ _ h => ?_
          refine .bind (rules.keeps h (Fine.keeps quiet_answerShare)) fun _ _ _ h => ?_
          exact rules.drainOrClose h

/-- **Every call** keeps an invariant with these rules, if ticks do. -/
theorem step (surroundings : Surroundings) {call : ActorCall}
    (htime : ∀ ms, call.time? = some ms → ms = nowMs)
    (htick : ∀ w', P w' → w'.actor = w.actor → call = .tickVardiff nowMs →
      Fine P bad (Act.tickVardiff nowMs w')) :
    Fine P bad (w.perform ext (surroundings, call)) := by
  have hset : P (w.within surroundings) := rules.kept h (w.same_within surroundings).quiet.toKept
  have hkeeps : ∀ {act : Act Unit}, Keeps (w.within surroundings) (act (w.within surroundings)) →
      Fine P bad ((act >>= fun _ => pure none : Act (Option ConnectionAction))
        (w.within surroundings)) := fun hact =>
    .bind (rules.keeps hset hact) fun _ _ _ h => .done h
  cases call with
  | handleRequest request ms =>
    obtain rfl := htime ms rfl
    exact rules.admits hset handleRequest_spec
  | completeAuthorization ticket result => exact hkeeps kept_completeAuthorization
  | completeSubmission ticket result => exact .bind (rules.complete hset) fun _ _ _ h => .done h
  | applyJobUpdate update => exact hkeeps kept_applyJobUpdate
  | tickVardiff ms =>
    obtain rfl := htime ms rfl
    exact .bind (htick _ hset rfl rfl) fun _ _ _ h => .done h
  | reconcileJobs => exact hkeeps (Fine.keeps quiet_reconcileJobs)
  | popOutbound =>
    refine .bind (rules.keeps hset (Fine.keeps quiet_popOutbound)) fun _ _ _ h => .done h
  | transportFailed => exact hkeeps (Fine.keeps quiet_close)
  | invalidateAuthorization => exact hkeeps (Fine.keeps quiet_close)

end

end Rules

/-! ## §8. The queue over whole runs -/

/-- A tick, on an open connection with a controller. -/
theorem tickVardiff_eq (hopen : w.actor.closed = false) (h : w.actor.vardiff = some vardiff) :
    Act.tickVardiff nowMs w =
      ((match (vardiff.tick nowMs).1 with
        | .ok _ => .done ()
        | .error error => .failed (.vardiff error)),
        { w with actor := { w.actor with vardiff := some (vardiff.tick nowMs).2 } }) := by
  unfold Act.tickVardiff
  rw [bind_apply, requireOpen_eq, hopen]
  show (get >>= _) w = _
  rw [get_bind, h]
  dsimp only
  rcases vardiff.tick nowMs with ⟨error | update, vardiff'⟩
  · rfl
  · rfl

/-- A tick needs an open connection with a controller; otherwise it does nothing. -/
theorem tickVardiff_quiet (h : w.actor.closed = true ∨ w.actor.vardiff = none) :
    Quietly w (Act.tickVardiff nowMs w) := by
  refine .chain quiet_requireOpen fun _ w' hrequire _ => ?_
  rw [requireOpen_eq] at hrequire
  split at hrequire
  · cases hrequire
  · rename_i hopen
    cases hrequire
    rw [get_bind, h.resolve_left hopen]
    exact quiet_pure

/-- The queue's invariant obeys the rules. -/
theorem Queued.rules (nowMs : Millis) :
    Rules nowMs (fun w => Queued w.actor) fun _ => False where
  errors := fun _ hbad => hbad.elim
  queued := fun h => h
  kept := Queued.kept
  appended := Queued.appended
  stored := fun ticket result h => h.stored ticket result
  observes := by
    intro w share rows sample h hrows
    refine ⟨?_, fun _ _ hbad => hbad⟩
    obtain ⟨vardiff, observed, hstate, hnone⟩ := observeSample_state (w.popped share) sample share
    rw [hstate]
    have hpopped := h.popped hrows
    exact { hpopped with tracked := fun h => hpopped.tracked (hnone h) }

theorem Queued.tick (h : Queued w.actor) (nowMs : Millis) :
    Queued (Act.tickVardiff nowMs w).2.actor := by
  cases hvardiff : w.actor.vardiff with
  | none => exact h.kept (tickVardiff_quiet (.inr hvardiff)).1.toKept
  | some vardiff =>
    cases hclosed : w.actor.closed with
    | true => exact h.kept (tickVardiff_quiet (.inl hclosed)).1.toKept
    | false =>
      rw [tickVardiff_eq hclosed hvardiff]
      exact { h with tracked := fun hnone => nomatch hnone }

theorem Queued.opened (h : w.Opened) : Queued w.actor := by
  obtain ⟨sessionId, config, policy, nowMs, hnew⟩ := h.actor
  obtain ⟨session, hsession, hactor⟩ := bind_eq_ok.mp hnew
  injection hactor with hactor
  rw [← hactor]
  have hjobs : session.assignments = [] := by
    obtain ⟨_, -, h⟩ := bind_eq_ok.mp (mapError_eq_ok.mp hsession)
    replace h := passed h
    cases h
    rfl
  exact
    { order := rfl
      fresh := fun _ hmem => nomatch hmem
      tracked := fun _ => ⟨⟨rfl, hjobs⟩, rfl⟩ }

/-- **One call keeps the queue.** -/
theorem Queued.step (ext : External) (h : Queued w.actor) (step : Surroundings × ActorCall) :
    Queued (w.perform ext step).2.actor := by
  refine ((Queued.rules (step.2.time?.getD 0)).step h step.1 ?_ ?_).1
  · intro ms htime
    rw [htime]
    rfl
  · intro w' h' _ _
    exact ⟨h'.tick _, fun _ _ hbad => hbad⟩

/-- **In every state of every run** the pending shares are in the order of their admission. -/
theorem Queued.after (ext : External) (h : Queued w.actor) (steps : List (Surroundings × ActorCall)) :
    Queued (w.after ext steps).actor := by
  induction steps generalizing w with
  | nil => exact h
  | cons step steps ih => exact ih (h.step ext step)

end WcashPool.Edge
