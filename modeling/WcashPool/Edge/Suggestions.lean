/-
  WcashPool.Edge.Suggestions — what a miner is told when it suggests a target.

  A suggestion is answered with the target of the job that the router holds
  current at that moment, or with the initial target where that job is not
  assigned to this connection.  The miner, however, works on the job it was last
  notified of, and the router may have moved on.

  Main results: `suggestion_reply` and `suggestion_keeps_target_iff`.
-/
import WcashPool.Edge.Epochs
import WcashPool.Edge.Timing

namespace WcashPool.Edge

open Fallible Protocol WcashPool.Core Client Tasks Tasks.Task

/-- The target that the last of these messages with one sets. -/
def lastTarget (messages : List Zip301ServerMessage) : Option TargetBe :=
  (messages.filterMap fun
    | .setTarget target => some target
    | _ => none).getLast?

/-- The job that the router holds current when the connection takes its next lock. -/
def ConnectionWorld.currentAtLock (ext : External) (w : ConnectionWorld) :
    Except JobRouterError (Option BackendGeneration) :=
  match w.turns with
  | [] => (w.router.currentGeneration w.instant).1
  | turn :: _ => ((w.router.performAll ext turn.calls).currentGeneration turn.instant).1

/-- The target that answers a suggestion while this job is current: the one it was assigned here,
    or the initial one. -/
def ConnectionActor.targetFor (actor : ConnectionActor) (current : Option BackendGeneration) :
    ShareTarget :=
  ((current.bind fun generation => actor.assignments.find generation.id).map
    (·.target.target)).getD actor.policy.initialTarget

variable {w w' : ConnectionWorld}

theorem locked_currentGeneration {ext : External} {current : Option BackendGeneration}
    (h : Act.locked ext JobRouter.currentGeneration w = (.done current, w')) :
    w.currentAtLock ext = .ok current ∧ w'.actor = w.actor := by
  unfold Act.locked at h
  unfold ConnectionWorld.currentAtLock
  cases hturns : w.turns with
  | nil =>
    rw [hturns] at h
    dsimp only at h ⊢
    split at h
    · next hcall =>
      obtain ⟨hvalue, rfl⟩ := Prod.mk.inj h
      rw [hcall, Outcome.done.inj hvalue]
      exact ⟨rfl, rfl⟩
    · cases h
  | cons turn turns =>
    rw [hturns] at h
    dsimp only at h ⊢
    split at h
    · next hcall =>
      obtain ⟨hvalue, rfl⟩ := Prod.mk.inj h
      rw [hcall, Outcome.done.inj hvalue]
      exact ⟨rfl, rfl⟩
    · cases h

theorem queue_done {message : Zip301ServerMessage} {value : Unit}
    (h : Act.queue message w = (.done value, w')) :
    w'.actor.outbound = w.actor.outbound ++ [message] := by
  obtain ⟨_, w₁, hcapacity, hpush⟩ := bind_eq_done.mp h
  have hsame : w₁ = w := by
    unfold Act.ensureOutboundCapacity at hcapacity
    rw [get_bind] at hcapacity
    split at hcapacity
    · cases hcapacity
    · exact (Prod.mk.inj hcapacity).2.symm
  obtain rfl := (Prod.mk.inj hpush).2
  rw [hsame]

/-- **The answer to a suggestion**, where one is queued. -/
theorem suggestion_reply {ext : External} {id : Zip301Id} {value : Unit}
    (hauthorized : w.actor.session.state = .authorized)
    (h : Act.suggestTarget ext id w = (.done value, w')) :
    ∃ current, w.currentAtLock ext = .ok current ∧
      w'.actor.outbound = w.actor.outbound ++ [.setTarget (w.actor.targetFor current).toZip301] := by
  unfold Act.suggestTarget at h
  rw [get_bind, hauthorized] at h
  obtain ⟨assigned, w₁, hassigned, hqueue⟩ := bind_eq_done.mp h
  obtain ⟨current, w₂, hlocked, hlook⟩ := bind_eq_done.mp hassigned
  obtain ⟨hcurrent, hactor⟩ := locked_currentGeneration hlocked
  rw [get_bind] at hlook
  obtain ⟨hvalue, rfl⟩ := Prod.mk.inj hlook
  refine ⟨current, hcurrent, ?_⟩
  rw [queue_done hqueue, hactor, ← Outcome.done.inj hvalue, hactor]
  cases current <;> rfl

/-- **The router and the connection are in step** on this assignment: its job is the router's
    current one, or another assigned job with the same target is, or none that is assigned here and
    the initial target is the same. -/
def InStep (actor : ConnectionActor) (assignment : JobAssignment)
    (current : Option BackendGeneration) : Prop :=
  (∃ generation, current = some generation ∧ generation.id = assignment.generationId) ∨
  (∃ generation other, current = some generation ∧
    actor.assignments.find generation.id = some other ∧
    other.target.target.toZip301 = assignment.target.target.toZip301) ∨
  ((∀ generation ∈ current, actor.assignments.find generation.id = none) ∧
    actor.policy.initialTarget.toZip301 = assignment.target.target.toZip301)

theorem inStep_iff {actor : ConnectionActor} {assignment : JobAssignment}
    (hassigned : actor.assignments.find assignment.generationId = some assignment)
    (current : Option BackendGeneration) :
    InStep actor assignment current ↔
      (actor.targetFor current).toZip301 = assignment.target.target.toZip301 := by
  unfold InStep ConnectionActor.targetFor
  cases current with
  | none => simp
  | some generation =>
    cases hfind : actor.assignments.find generation.id with
    | none =>
      have hother : generation.id ≠ assignment.generationId := by
        intro heq
        rw [heq, hassigned] at hfind
        cases hfind
      simp [hfind, hother]
    | some other =>
      have hsame : generation.id = assignment.generationId →
          other.target.target.toZip301 = assignment.target.target.toZip301 := by
        intro heq
        rw [heq, hassigned] at hfind
        rw [Option.some.inj hfind]
      constructor
      · rintro (⟨_, hcurrent, heq⟩ | ⟨_, _, hcurrent, hother, htarget⟩ | ⟨hnone, -⟩)
        · obtain rfl := Option.some.inj hcurrent
          simpa [hfind] using hsame heq
        · obtain rfl := Option.some.inj hcurrent
          rw [hfind] at hother
          simpa [hfind, Option.some.inj hother] using htarget
        · exact absurd (hnone generation rfl) (by simp [hfind])
      · intro htarget
        exact .inr (.inl ⟨generation, other, rfl, hfind, by simpa [hfind] using htarget⟩)

theorem lastTarget_concat (messages : List Zip301ServerMessage) (target : TargetBe) :
    lastTarget (messages ++ [.setTarget target]) = some target := by
  simp [lastTarget]

/-- **A suggestion leaves the miner with the target of an assigned job exactly when router and
    connection are in step on it.** -/
theorem suggestion_keeps_target_iff (ext : External) (w : ConnectionWorld)
    (surroundings : Surroundings) (id : Zip301Id) (suggested : TargetBe) (nowMs : Millis)
    (assignment : JobAssignment)
    (hassigned : w.actor.assignments.find assignment.generationId = some assignment)
    (hauthorized : w.actor.session.state = .authorized)
    (hrate : (w.actor.rateLimiter.admitRequest nowMs).1 = .ok ())
    (hreplied : (w.perform ext
      (surroundings, .handleRequest (.suggestTarget id suggested) nowMs)).1 = .done none) :
    lastTarget (w.perform ext
        (surroundings, .handleRequest (.suggestTarget id suggested) nowMs)).2.actor.outbound
      = some assignment.target.target.toZip301 ↔
    ∃ current, ({ w with turns := surroundings.turns }).currentAtLock ext = .ok current ∧
      InStep w.actor assignment current := by
  generalize hperform : w.perform ext
    (surroundings, .handleRequest (.suggestTarget id suggested) nowMs) = result at hreplied ⊢
  obtain ⟨outcome, w'⟩ := result
  obtain rfl : outcome = .done none := hreplied
  obtain ⟨_, w₀, hopen, hrequest⟩ := bind_eq_done.mp hperform
  obtain rfl := requireOpen_done hopen
  rw [get_bind] at hrequest
  dsimp only at hrequest
  rw [hrate] at hrequest
  obtain ⟨_, w₁, hset, hrequest⟩ := bind_eq_done.mp hrequest
  obtain ⟨_, w₂, hsuggest, hpure⟩ := bind_eq_done.mp hrequest
  obtain rfl := (Prod.mk.inj hset).2
  obtain rfl := (Prod.mk.inj hpure).2
  obtain ⟨current, hcurrent, houtbound⟩ := suggestion_reply (by exact hauthorized) hsuggest
  -- neither the rate limiter nor the allocator matters to the lock
  have hlock : ({ w with turns := surroundings.turns }).currentAtLock ext = .ok current := hcurrent
  rw [houtbound, lastTarget_concat, Option.some.injEq, hlock]
  refine Iff.trans (inStep_iff hassigned current).symm ⟨fun h => ⟨current, rfl, h⟩, ?_⟩
  rintro ⟨_, heq, h⟩
  exact Except.ok.inj heq ▸ h

/-- Job 2 is activated while job 1 is still accepted. -/
def overtaking : RouterCall :=
  .lockedEvent (JobRouter.epochBinding 1) ⟨.jobActivated 2 (workedJob 2), 0, JobRouter.epochBinding 1⟩ 0

/-- A connection whose miner was notified of job 1. -/
def notifiedWorld : ConnectionWorld :=
  { workedWorld with router := JobRouter.epochRouter }.after workedExternal workedLogin

def suggestion (turns : List Turn) : Surroundings × ActorCall :=
  (⟨workedAllocator, turns⟩, .handleRequest (.suggestTarget (.number 4) 5) 3)

/-- The router still holds job 1 current. -/
theorem suggestion_keeps_target_iff_in_step :
    ∃ assignment, notifiedWorld.actor.assignments.find ⟨1, by decide⟩ = some assignment ∧
      lastTarget (notifiedWorld.perform workedExternal (suggestion [])).2.actor.outbound
        = some assignment.target.target.toZip301 := by
  have hfind : (notifiedWorld.actor.assignments.find ⟨1, by decide⟩).isSome = true := by
    decide +kernel
  have hcurrent : (({ notifiedWorld with turns := [] }).currentAtLock workedExternal).map
      (Option.map BackendGeneration.id) = .ok (some ⟨1, by decide⟩) := by
    decide +kernel
  obtain ⟨assignment, hassigned⟩ := Option.isSome_iff_exists.mp hfind
  obtain ⟨current, hlock, hids⟩ := map_eq_ok.mp hcurrent
  obtain ⟨generation, rfl, hid⟩ := Option.map_eq_some_iff.mp hids
  have hsame := Table.key_of_find hassigned
  have hown : notifiedWorld.actor.assignments.find assignment.generationId = some assignment := by
    rw [hsame]
    exact hassigned
  have hiff := suggestion_keeps_target_iff workedExternal notifiedWorld ⟨workedAllocator, []⟩
    (.number 4) 5 3 assignment hown (by decide +kernel) (by decide +kernel) (by decide +kernel)
  have hstep : InStep notifiedWorld.actor assignment (some generation) :=
    .inl ⟨generation, rfl, hid.trans hsame.symm⟩
  have hkept := hiff.mpr ⟨some generation, hlock, hstep⟩
  refine ⟨assignment, hassigned, ?_⟩
  unfold suggestion
  exact hkept

/-- The router moves on to job 2 while the miner works on job 1, which is still assigned and
    accepted; the miner is told the initial target. -/
theorem suggestion_misleads :
    let w := notifiedWorld
    let w' := (w.perform workedExternal (suggestion [⟨[overtaking], 0⟩])).2
    lastTarget w.actor.outbound = (w'.actor.assignments.find ⟨1, by decide⟩).map
        (·.target.target.toZip301) ∧
      (w.actor.outbound.getLast? = some (.notify ⟨1, (workedJob 1).headerInput, true⟩)) ∧
      (w'.router.admissibleJobIds 0).1 = .ok [⟨2, by decide⟩, ⟨1, by decide⟩] ∧
      lastTarget w'.actor.outbound = some w.actor.policy.initialTarget.toZip301 ∧
      lastTarget w'.actor.outbound ≠ lastTarget w.actor.outbound := by
  decide +kernel

end WcashPool.Edge
