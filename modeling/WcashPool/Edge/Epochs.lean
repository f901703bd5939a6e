/-
  WcashPool.Edge.Epochs — whose epoch the rest of a failing event falls into.

  A router belongs to the connection whose snapshot it holds, and a snapshot of
  another connection is the only call that gives it away.  An event that fails
  gives the lock back and then suspends whatever the router has become; its
  sibling `suspendIfBound` checks the binding under the lock.  The documentation
  of `recover_from_snapshot` asks its callers to stop the failed stream first;
  the router does not see to it.

  Main results: `perform_binding` and `rest_of_failing_event`.
-/
import WcashPool.Core.JobRuns
import WcashPool.Edge.Router

namespace WcashPool.Edge

open Fallible Protocol WcashPool.Core Client

namespace JobRouter

variable {ext : External} {router : JobRouter}

/-! ## §1. Only a recovery changes the binding -/

/-- The connection whose snapshot the call applies. -/
def recovers (router : JobRouter) : RouterCall → Option BackendConnectionBinding
  | .recoverFromSnapshot snapshot =>
    if (router.recoverFromSnapshot snapshot).1.isOk then some snapshot.connectionBinding else none
  | _ => none

variable {binding : BackendConnectionBinding}

theorem binding_of_recovers {snapshot : JobSnapshot}
    (h : router.recovers (.recoverFromSnapshot snapshot) = some binding) :
    binding = snapshot.connectionBinding := by
  dsimp only [recovers] at h
  split at h
  · exact (Option.some.inj h).symm
  · cases h

/-- Still bound to the same connection. -/
def SameBinding (router router' : JobRouter) : Prop :=
  router'.state.connectionBinding = router.state.connectionBinding

theorem asks_binding {α : Type} {instant : ℕ} {question : GenerationRegistry → ℕ → Core.Outcome α}
    {answer : Except JobRouterError α} {router' : JobRouter}
    (h : router.asks instant question = (answer, router')) : SameBinding router router' := by
  unfold asks at h
  split at h
  · obtain ⟨-, rfl⟩ := Prod.mk.inj h; rfl
  · obtain ⟨-, rfl⟩ := Prod.mk.inj h; rfl

theorem updateFor_binding (s : RouterState) (event : BackendEvent) (now : ℕ) :
    (s.updateFor event now).2.connectionBinding = s.connectionBinding := by
  unfold RouterState.updateFor
  split
  · unfold RouterState.activationUpdate
    split
    · rfl
    · split
      · rfl
      · split
        · rfl
        · split
          · rfl
          · split <;> rfl
  · split
    · rfl
    · split <;> rfl
  · split <;> rfl
  · rfl

/-- An event never changes the connection. -/
theorem lockedEvent_binding (router : JobRouter) (binding : BackendConnectionBinding)
    (delivered : DeliveredBackendEvent) (instant : ℕ) :
    SameBinding router (router.lockedEvent ext binding delivered instant).2 := by
  unfold lockedEvent
  split
  · rfl
  · split
    · rfl
    · split
      · rfl
      · next nowMs _ _ registry _ =>
        have hupdate := updateFor_binding { router.state with registry } delivered.event nowMs
        split
        · next h => rw [h] at hupdate; exact hupdate
        · next h => rw [h] at hupdate; exact hupdate
        · next h => rw [h] at hupdate; exact hupdate

/-- Health never changes the connection. -/
theorem health_binding (router : JobRouter) (client : BackendClient) (instant : ℕ) :
    SameBinding router (router.pauseForHealth client instant).2 ∧
      SameBinding router (router.resumeAfterHealth client instant).2 ∧
      SameBinding router (router.allowRecoveryOnlyAfterHealth client instant).2 := by
  refine ⟨?_, ?_, ?_⟩
  · unfold pauseForHealth
    split
    · rfl
    · split <;> next h => have hsame := asks_binding h; exact hsame
  · unfold resumeAfterHealth
    split
    · rfl
    · split
      · next h => exact asks_binding h
      · next h =>
        have hsame := asks_binding h
        split
        · split <;> exact hsame
        · exact hsame
  · unfold allowRecoveryOnlyAfterHealth
    split
    · rfl
    · split <;> next h => have hsame := asks_binding h; exact hsame

theorem work_binding (router : JobRouter) (instant : ℕ) :
    (∀ session jobId work,
      SameBinding router (router.prepareSubmission ext session jobId work instant).2) ∧
    ∀ context client,
      SameBinding router (router.prepareQueuedPausedCandidate ext context client instant).2 := by
  refine ⟨fun session jobId work => ?_, fun context client => ?_⟩
  · unfold prepareSubmission
    split
    · rfl
    · split
      · split
        · next h => exact asks_binding h
        · next h =>
          have hsame := asks_binding h
          split <;> exact hsame
      · rfl
  · unfold prepareQueuedPausedCandidate
    split
    · rfl
    · split
      · rfl
      · split <;> rfl

theorem recoverFromSnapshot_binding (router : JobRouter) (snapshot : JobSnapshot) :
    let answer := router.recoverFromSnapshot snapshot
    SameBinding router answer.2 ∨ answer.1.isOk = true ∧
      answer.2.state.connectionBinding = some snapshot.connectionBinding := by
  unfold recoverFromSnapshot
  split
  · exact .inl rfl
  · split
    · exact .inl rfl
    · dsimp only
      split
      · exact .inr ⟨rfl, rfl⟩
      · exact .inl rfl

/-- **Only a recovery changes the binding.** -/
theorem perform_binding (ext : External) (router : JobRouter) (call : RouterCall) :
    SameBinding router (router.perform ext call) ∨
      ∃ binding, router.recovers call = some binding ∧
        (router.perform ext call).state.connectionBinding = some binding := by
  cases call with
  | suspend => exact .inl rfl
  | suspendIfBound binding =>
    refine .inl ?_
    show SameBinding router (router.suspendIfBound binding).2
    unfold suspendIfBound
    split <;> rfl
  | lockedEvent binding delivered instant =>
    exact .inl (router.lockedEvent_binding binding delivered instant)
  | recoverFromSnapshot snapshot =>
    obtain hsame | ⟨hok, hbinding⟩ := router.recoverFromSnapshot_binding snapshot
    · exact .inl hsame
    · exact .inr ⟨snapshot.connectionBinding, if_pos hok, hbinding⟩
  | pauseForHealth client instant => exact .inl (router.health_binding client instant).1
  | resumeAfterHealth client instant => exact .inl (router.health_binding client instant).2.1
  | allowRecoveryOnlyAfterHealth client instant =>
    exact .inl (router.health_binding client instant).2.2
  | prepareQueuedPausedCandidate context client instant =>
    exact .inl ((router.work_binding instant).2 context client)
  | currentGeneration instant =>
    refine .inl ?_
    show SameBinding router (router.currentGeneration instant).2
    unfold currentGeneration
    split <;> next h => have hsame := asks_binding h; exact hsame
  | admissibleJobIds instant =>
    refine .inl ?_
    show SameBinding router (router.admissibleJobIds instant).2
    unfold admissibleJobIds
    split <;> next h => have hsame := asks_binding h; exact hsame
  | winnerRecoveryJobIds instant => exact .inl (asks_binding rfl)
  | prepareSubmission session jobId work instant =>
    exact .inl ((router.work_binding instant).1 session jobId work)
  | release context => exact .inl rfl

/-! ## §2. The rest of a failing event -/

/-- One of the calls applied a snapshot of this connection. -/
def RecoveredBy (ext : External) (router : JobRouter) (calls : List RouterCall)
    (binding : BackendConnectionBinding) : Prop :=
  ∃ before call after, calls = before ++ call :: after ∧
    (router.performAll ext before).recovers call = some binding

theorem RecoveredBy.concat {calls : List RouterCall} (h : RecoveredBy ext router calls binding)
    (call : RouterCall) : RecoveredBy ext router (calls ++ [call]) binding := by
  obtain ⟨before, recovery, after, rfl, hrecovers⟩ := h
  exact ⟨before, recovery, after ++ [call], by simp, hrecovers⟩

/-- The router belongs to the connection it belonged to, or to one that recovered it since. -/
theorem performAll_binding (hbinding : router.state.connectionBinding = some binding)
    (calls : List RouterCall) (h : ∀ other, RecoveredBy ext router calls other → other = binding) :
    (router.performAll ext calls).state.connectionBinding = some binding := by
  induction calls using List.reverseRecOn with
  | nil => exact hbinding
  | append_singleton calls call ih =>
    have hbefore := ih fun other hother => h other (hother.concat call)
    have hlast : router.performAll ext (calls ++ [call])
        = (router.performAll ext calls).perform ext call := List.foldl_concat ..
    rw [hlast]
    obtain hsame | ⟨other, hrecovers, hother⟩ := (router.performAll ext calls).perform_binding ext call
    · exact hsame.trans hbefore
    · rw [hother, h other ⟨calls, call, [], rfl, hrecovers⟩]

/-- An event that fails was one of the connection that owns the router. -/
theorem lockedEvent_failing {delivered : DeliveredBackendEvent} {instant : ℕ}
    {error : JobRouterError}
    (h : (router.lockedEvent ext binding delivered instant).1 = .failing error) :
    (router.lockedEvent ext binding delivered instant).2.state.connectionBinding = some binding := by
  have hbound : router.state.connectionBinding = some binding := by
    unfold lockedEvent at h
    split at h
    · cases h
    · next hbound => exact not_not.mp (not_or.mp hbound).2
  exact (router.lockedEvent_binding binding delivered instant).trans hbound

/-- **The rest of a failing call stays out of the epochs of others exactly when nobody else
    recovered the router since it gave the lock back.**  Then it suspends its own epoch. -/
theorem rest_of_failing_event (ext : External) (router : JobRouter)
    (binding : BackendConnectionBinding) (delivered : DeliveredBackendEvent) (instant : ℕ)
    (error : JobRouterError)
    (hfailing : (router.lockedEvent ext binding delivered instant).1 = .failing error)
    (others : List RouterCall) :
    let unlocked := (router.lockedEvent ext binding delivered instant).2
    let left := unlocked.performAll ext others
    ((∀ other, RecoveredBy ext unlocked others other → other ≠ binding →
        left.suspend.state.registry = left.state.registry ∧ left.suspend.updates = left.updates) ↔
      ∀ other, RecoveredBy ext unlocked others other → other = binding) ∧
    ((∀ other, RecoveredBy ext unlocked others other → other = binding) →
      left.state.connectionBinding = some binding) := by
  intro unlocked left
  refine ⟨⟨fun h other hother => ?_, fun h other hother hne => absurd (h other hother) hne⟩,
    performAll_binding (lockedEvent_failing hfailing) others⟩
  -- a suspension is always broadcast
  by_contra hne
  have hupdates : left.updates ++ [.suspended] = left.updates := (h other hother hne).2
  exact absurd hupdates (by simp)

def epochBinding (token : ℕ) : BackendConnectionBinding := ⟨⟨1, 2, 3, 4, 5, 6, 7, 8⟩, token, 1⟩

def epochSnapshot (token : ℕ) : JobSnapshot :=
  ⟨1, some ⟨workedJob 1, 900⟩, [], 0, 0, epochBinding token⟩

/-- A router of the first connection, whose current job is job 1. -/
def epochRouter : JobRouter where
  state :=
    { registry := workedRegistry
      healthPaused := false
      recoveryOnly := false
      forceCleanJobs := false
      backendAuthority := some (epochBinding 1).authority
      connectionBinding := some (epochBinding 1) }
  timeline := ⟨0⟩
  updates := []

/-- The next event would be the second. -/
def gapEvent : DeliveredBackendEvent := ⟨.jobInvalidated 3 1 .superseded 400, 0, epochBinding 1⟩

theorem gapEvent_failing : (epochRouter.lockedEvent workedExternal (epochBinding 1) gapEvent 0).1
    = .failing (.integration (.registry (.eventSequenceGap 2 3))) := by
  decide +kernel

/-- Recovered by the first connection alone, the router is suspended in the first one's epoch. -/
theorem rest_of_failing_event_own_recovery :
    ((epochRouter.lockedEvent workedExternal (epochBinding 1) gapEvent 0).2.performAll workedExternal
      [.recoverFromSnapshot (epochSnapshot 1)]).state.connectionBinding = some (epochBinding 1) := by
  refine (rest_of_failing_event workedExternal epochRouter (epochBinding 1) gapEvent 0 _
    gapEvent_failing [.recoverFromSnapshot (epochSnapshot 1)]).2 fun other hother => ?_
  obtain ⟨before, call, after, hcalls, hrecovers⟩ := hother
  obtain ⟨rfl, hcall⟩ | ⟨-, hnil⟩ := List.append_eq_singleton_iff.mp hcalls.symm
  · rw [(List.cons.inj hcall).1] at hrecovers
    exact binding_of_recovers hrecovers
  · cases hnil

/-- The second connection recovers the router after the event failed; the rest of the first one's
    call then suspends it, and tells its miners to close. -/
theorem suspends_replacement :
    let unlocked := (epochRouter.lockedEvent workedExternal (epochBinding 1) gapEvent 0).2
    let left := unlocked.performAll workedExternal [.recoverFromSnapshot (epochSnapshot 2)]
    left.state.connectionBinding = some (epochBinding 2) ∧
      left.state.registry.synchronized = true ∧ left.updates = [] ∧
      left.suspend.state.registry.synchronized = false ∧ left.suspend.updates = [.suspended] := by
  decide +kernel

end JobRouter

end WcashPool.Edge
