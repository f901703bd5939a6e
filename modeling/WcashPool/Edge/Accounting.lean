/-
  WcashPool.Edge.Accounting — no success without acknowledged accounting.

  Everything that an event or an answer needs is said about the log before it
  (`Allowed`).  Between two exchanges nothing that was taken from the client is
  unacknowledged (`Steady`); within a drain that much is known of all but the
  batch at hand (`Held`).  Where a drain does not end with its batch
  acknowledged, the log so far stays as it should be and the guard is still
  armed (`Ending`), and every error by which the actor goes on to answer is
  terminal.

  Main results: `drainBackendEvents_spec`, `submitContextAndDrain_spec`,
  `runSubmissionActor_ending` and `success_after_acknowledgement`.
-/
import WcashPool.Client.Commits
import WcashPool.Edge.Submission

namespace WcashPool.Edge

open Fallible Protocol WcashPool.Core Client Tasks Tasks.Task

/-! ## §1. The log -/

/-- The router, if it still belongs to the connection, admits nothing. -/
def JobRouter.Halted (binding : BackendConnectionBinding) (router : JobRouter) : Prop :=
  router.state.connectionBinding = some binding →
    router.state.registry.synchronized = false ∧
      ∀ id entry, router.state.registry.entries.find id = some entry → entry.state ≠ .accepting

/-- A suspended router admits nothing. -/
theorem JobRouter.halted_suspend (binding : BackendConnectionBinding) (router : JobRouter) :
    router.suspend.Halted binding := by
  intro _
  refine ⟨rfl, fun id entry hentry => ?_⟩
  have hfind : router.suspend.state.registry.entries.find id =
      (router.state.registry.entries.find id).map (·.suspend) :=
    GenerationRegistry.find_suspend _ id
  rw [hfind] at hentry
  obtain ⟨before, -, rfl⟩ := Option.map_eq_some_iff.mp hentry
  unfold RegistryEntry.suspend
  split
  · simp [RegistryEntry.enter]
  · assumption

theorem JobRouter.halted_suspendIfBound (binding : BackendConnectionBinding) (router : JobRouter) :
    (router.suspendIfBound binding).2.Halted binding := by
  unfold JobRouter.suspendIfBound
  split
  · next hne => exact fun heq => absurd heq hne
  · exact router.halted_suspend binding

def LogEntry.isPopped : LogEntry → Bool
  | .popped _ => true
  | _ => false

/-- A share was answered with a commit. -/
def LogEntry.isSuccess : LogEntry → Bool
  | .answered _ _ (.ok _) => true
  | _ => false

namespace Submit

/-- The delivered event stands in a batch that the consumer acknowledged. -/
def Acknowledged (log : List LogEntry) (delivered : DeliveredBackendEvent) : Prop :=
  ∃ batch, .acknowledged batch ∈ log ∧ delivered ∈ batch

/-- The event was delivered on the connection and acknowledged. -/
def Accounted (binding : BackendConnectionBinding) (log : List LogEntry) (event : BackendEvent) :
    Prop :=
  ∃ delivered, Acknowledged log delivered ∧ delivered.event = event ∧
    delivered.connectionBinding = binding

variable {log : List LogEntry}

theorem Acknowledged.mono {more : List LogEntry} {delivered : DeliveredBackendEvent}
    (h : Acknowledged log delivered) : Acknowledged (log ++ more) delivered := by
  obtain ⟨batch, hmem, hin⟩ := h
  exact ⟨batch, List.mem_append_left _ hmem, hin⟩

theorem Accounted.mono {binding : BackendConnectionBinding} {more : List LogEntry}
    {event : BackendEvent} (h : Accounted binding log event) :
    Accounted binding (log ++ more) event := by
  obtain ⟨delivered, hacknowledged, hevent⟩ := h
  exact ⟨delivered, hacknowledged.mono, hevent⟩

/-- What was taken from the client and is not acknowledged, one entry further. -/
def unsettledStep (taken : List DeliveredBackendEvent) : LogEntry → List DeliveredBackendEvent
  | .popped delivered => taken ++ [delivered]
  | .acknowledged batch => taken.filter fun delivered => delivered ∉ batch
  | _ => taken

/-- What was taken from the client and never acknowledged. -/
def unsettled (log : List LogEntry) : List DeliveredBackendEvent := log.foldl unsettledStep []

theorem unsettled_snoc (log : List LogEntry) (entry : LogEntry) :
    unsettled (log ++ [entry]) = unsettledStep (unsettled log) entry := by
  unfold unsettled
  rw [List.foldl_append]
  rfl

variable {entry : LogEntry}

/-- An entry of a log that grew by one is the last, or was there before. -/
theorem snoc_split {front back : List LogEntry} {other : LogEntry}
    (h : log ++ [entry] = front ++ other :: back) :
    (log = front ∧ entry = other ∧ back = []) ∨
      ∃ earlier, back = earlier ++ [entry] ∧ log = front ++ other :: earlier := by
  rcases List.eq_nil_or_concat back with rfl | ⟨earlier, last, rfl⟩
  · obtain ⟨hfront, hlast⟩ := List.append_inj' h rfl
    cases hlast
    exact .inl ⟨hfront, rfl, rfl⟩
  · rw [List.concat_eq_append, ← List.cons_append, ← List.append_assoc] at h
    obtain ⟨hlog, hlast⟩ := List.append_inj' h rfl
    cases hlast
    exact .inr ⟨earlier, List.concat_eq_append, hlog⟩

/-- **What an entry needs of the log before it.** -/
def Allowed (binding : BackendConnectionBinding) (log : List LogEntry) : LogEntry → Prop
  | .answered _ queued (.ok commit) => unsettled log = [] ∧
    Accounted binding log (BackendClient.commitEvent commit.receipt queued.identity queued.targetLe)
  | .applied delivered => Acknowledged log delivered
  | .suspended router => router.Halted binding
  | _ => True

/-- **Every entry has what it needs** of the log before it. -/
def Lawful (binding : BackendConnectionBinding) (log : List LogEntry) : Prop :=
  ∀ front entry back, log = front ++ entry :: back → Allowed binding front entry

theorem lawful_nil (binding : BackendConnectionBinding) : Lawful binding [] := by
  intro front entry back heq
  cases front <;> cases heq

/-- A lawful log may grow by what it allows. -/
theorem Lawful.snoc {binding : BackendConnectionBinding} (h : Lawful binding log)
    (hentry : Allowed binding log entry) : Lawful binding (log ++ [entry]) := by
  intro front other back heq
  obtain ⟨rfl, rfl, -⟩ | ⟨earlier, -, hlog⟩ := snoc_split heq
  · exact hentry
  · exact h front other earlier hlog

/-- Whatever was taken from the client, a guard came after it. -/
def Covered (log : List LogEntry) : Prop :=
  ∀ front delivered back, log = front ++ .popped delivered :: back →
    ∃ router, .suspended router ∈ back

/-- A log without another event taken stays covered. -/
theorem Covered.snoc (h : Covered log) (hentry : entry.isPopped = false) :
    Covered (log ++ [entry]) := by
  intro front delivered back heq
  obtain ⟨-, rfl, -⟩ | ⟨earlier, rfl, hlog⟩ := snoc_split heq
  · cases hentry
  · obtain ⟨router, hmem⟩ := h front delivered earlier hlog
    exact ⟨router, List.mem_append_left _ hmem⟩

theorem covered_suspended (log : List LogEntry) (router : JobRouter) :
    Covered (log ++ [.suspended router]) := by
  intro front delivered back heq
  obtain ⟨-, hlast, -⟩ | ⟨earlier, rfl, -⟩ := snoc_split heq
  · cases hlast
  · exact ⟨router, List.mem_append_right _ (List.mem_singleton.mpr rfl)⟩

/-! ## §2. The states of the actor -/

/-- The context still is the work that was queued. -/
def SameWork (context queued : SubmissionContext) : Prop :=
  context.identity = queued.identity ∧ context.targetLe = queued.targetLe

/-- **The actor may end here**: the log is as it should be, and the guard is armed or was there. -/
structure Ending (binding : BackendConnectionBinding) (w : SubmissionWorld) : Prop where
  lawful : Lawful binding w.log
  guarded : w.armed = some binding ∨ (w.armed = none ∧ Covered w.log)
  owner : ∀ other ∈ w.owner, other = binding

/-- **Between two steps of a drain.**  Only the events at hand may be unacknowledged; what is due
    by the end of it is accounted or at hand, like all that the client remembers. -/
structure Held (binding : BackendConnectionBinding) (due : List BackendEvent)
    (events : List DeliveredBackendEvent) (w : SubmissionWorld) : Prop where
  lawful : Lawful binding w.log
  armed : w.armed = some binding
  owner : ∀ other ∈ w.owner, other = binding
  bound : w.client.connectionBinding = some binding
  unsettled : ∀ delivered ∈ unsettled w.log, delivered ∈ events
  observed : ∀ event ∈ w.client.observedEvents ++ due,
    Accounted binding w.log event ∨ ∃ delivered ∈ events, delivered.event = event
  deferred : ∀ entry ∈ w.deferred, SameWork entry.context entry.queued

/-- **Between two exchanges** everything that was taken is acknowledged. -/
abbrev Steady (binding : BackendConnectionBinding) (w : SubmissionWorld) : Prop :=
  Held binding [] [] w

/-- How a step fails: with a terminal error, unless the actor may go on. -/
def Failing (binding : BackendConnectionBinding) (error : ShareRouterError) (w : SubmissionWorld) :
    Prop :=
  Ending binding w ∧ (error.isTerminal = false → Steady binding w)

/-- A step that fails as the actor may, and leaves it able to end wherever it is dropped. -/
abbrev Safe {α : Type} (binding : BackendConnectionBinding) (post : α → SubmissionWorld → Prop) :
    Outcome ShareRouterError α × SubmissionWorld → Prop :=
  Ends post (Failing binding) (Ending binding)

/-- A step whose failure ends the actor. -/
abbrev Closing {α : Type} (binding : BackendConnectionBinding) (post : α → SubmissionWorld → Prop) :
    Outcome ShareRouterError α × SubmissionWorld → Prop :=
  Ends post (fun _ => Ending binding) (Ending binding)

/-- What the log and the guards depend on is the same. -/
structure Frame (w w' : SubmissionWorld) : Prop where
  log : w'.log = w.log
  armed : w'.armed = w.armed
  owner : w'.owner = w.owner
  client : w'.client = w.client
  deferred : w'.deferred = w.deferred

theorem Frame.refl (w : SubmissionWorld) : Frame w w := ⟨rfl, rfl, rfl, rfl, rfl⟩

section States

variable {binding : BackendConnectionBinding} {due : List BackendEvent}
  {events : List DeliveredBackendEvent} {w w' : SubmissionWorld} {α : Type}
  {lost : SubmissionWorld → Prop}

/-- Between two steps the actor may end. -/
theorem Held.ending (h : Held binding due events w) : Ending binding w :=
  ⟨h.lawful, .inl h.armed, h.owner⟩

theorem Held.mono (h : Held binding due events w) {more : List DeliveredBackendEvent}
    (hmore : ∀ delivered ∈ events, delivered ∈ more) : Held binding due more w where
  lawful := h.lawful
  armed := h.armed
  owner := h.owner
  bound := h.bound
  unsettled := fun delivered hmem => hmore delivered (h.unsettled delivered hmem)
  observed := fun event hmem => (h.observed event hmem).imp id fun ⟨delivered, hin, heq⟩ =>
    ⟨delivered, hmore delivered hin, heq⟩
  deferred := h.deferred

/-- What is accounted may be due. -/
theorem Held.owe (h : Held binding due events w) {more : List BackendEvent}
    (hmore : ∀ event ∈ more, Accounted binding w.log event) :
    Held binding (due ++ more) events w :=
  { h with
    observed := fun event hmem => by
      rw [← List.append_assoc, List.mem_append] at hmem
      exact hmem.elim (h.observed event) fun hmem => .inl (hmore event hmem) }

theorem Held.forget (h : Held binding due events w) : Held binding [] events w :=
  { h with
    observed := fun event hmem => by
      rw [List.append_nil] at hmem
      exact h.observed event (List.mem_append_left _ hmem) }

/-- With no event at hand, all that is due is accounted. -/
theorem Held.accounted (h : Held binding due [] w) {event : BackendEvent}
    (hmem : event ∈ w.client.observedEvents ++ due) : Accounted binding w.log event :=
  (h.observed event hmem).resolve_right fun ⟨_, hin, _⟩ => absurd hin List.not_mem_nil

/-- A frame keeps what is between two steps. -/
theorem Held.frame (h : Held binding due events w) (hframe : Frame w w') :
    Held binding due events w' where
  lawful := hframe.log ▸ h.lawful
  armed := hframe.armed ▸ h.armed
  owner := hframe.owner ▸ h.owner
  bound := hframe.client ▸ h.bound
  unsettled := hframe.log ▸ h.unsettled
  observed := hframe.log ▸ hframe.client ▸ h.observed
  deferred := hframe.deferred ▸ h.deferred

theorem Ending.frame (h : Ending binding w) (hframe : Frame w w') : Ending binding w' where
  lawful := hframe.log ▸ h.lawful
  guarded := hframe.log ▸ hframe.armed ▸ h.guarded
  owner := hframe.owner ▸ h.owner

theorem Ending.failing (h : Ending binding w) {error : ShareRouterError}
    (hterminal : error.isTerminal = true) : Failing binding error w :=
  ⟨h, fun hnot => by
    rw [hterminal] at hnot
    cases hnot⟩

/-- Another entry of the log that takes nothing and acknowledges nothing. -/
theorem Held.noted (h : Held binding due events w) (entry : LogEntry)
    (hallowed : Allowed binding w.log entry)
    (hplain : unsettledStep (Submit.unsettled w.log) entry = Submit.unsettled w.log) :
    Held binding due events { w with log := w.log ++ [entry] } where
  lawful := h.lawful.snoc hallowed
  armed := h.armed
  owner := h.owner
  bound := h.bound
  unsettled := by
    show ∀ delivered ∈ Submit.unsettled (w.log ++ [entry]), delivered ∈ events
    rw [unsettled_snoc, hplain]
    exact h.unsettled
  observed := fun event hmem => (h.observed event hmem).imp Accounted.mono id
  deferred := h.deferred

theorem Ending.noted (h : Ending binding w) (hallowed : Allowed binding w.log entry)
    (hplain : entry.isPopped = false) :
    Ending binding { w with log := w.log ++ [entry] } where
  lawful := h.lawful.snoc hallowed
  guarded := h.guarded.imp id fun ⟨hnone, hcovered⟩ => ⟨hnone, hcovered.snoc hplain⟩
  owner := h.owner

/-! ### Steps that leave log, guards and client alone -/

section Steps

variable {bad : ShareRouterError → SubmissionWorld → Prop}

theorem nextTurn_frame (ext : External) (w : SubmissionWorld) : Frame w (nextTurn ext w) := by
  unfold nextTurn
  cases w.turns <;> exact ⟨rfl, rfl, rfl, rfl, rfl⟩

theorem readClock_frame : Ends (fun _ => Frame w) bad lost (readClock w) := by
  unfold readClock
  cases w.clock <;> exact ⟨rfl, rfl, rfl, rfl, rfl⟩

variable {ext : External}

/-- A locked call answers from some router, and keeps the frame. -/
theorem locked_spec {call : JobRouter → ℕ → Routed α} :
    Ends (fun answer w' => Frame w w' ∧ ∃ router instant, (call router instant).1 = answer) bad lost
      (locked ext call w) :=
  have h := nextTurn_frame ext w
  ⟨⟨h.log, h.armed, h.owner, h.client, h.deferred⟩, _, _, rfl⟩

theorem locked_frame {call : JobRouter → ℕ → Routed α} :
    Ends (fun _ => Frame w) bad lost (locked ext call w) :=
  locked_spec.imp fun _ _ h => h.1

theorem peek_frame {question : JobRouter → α} :
    Ends (fun _ => Frame w) bad lost (peek ext question w) :=
  nextTurn_frame ext w

theorem pastDeadline_frame {deadline : Option ℕ} :
    Ends (fun _ => Frame w) bad lost (pastDeadline deadline w) := by
  cases deadline with
  | none => exact Frame.refl w
  | some deadline => exact Ends.bind readClock_frame fun now w' hframe => hframe

theorem modify_frame {f : SubmissionWorld → SubmissionWorld} (h : Frame w (f w)) :
    Ends (fun _ => Frame w) bad lost ((modify f : Submit Unit) w) := h

end Steps

variable {bad : ShareRouterError → SubmissionWorld → Prop}

theorem Held.after {r : Outcome ShareRouterError α × SubmissionWorld}
    (h : Held binding due events w) (hr : Ends (fun _ => Frame w) bad lost r) :
    Ends (fun _ => Held binding due events) bad lost r :=
  hr.imp fun _ _ => h.frame

variable {β : Type} {post : β → SubmissionWorld → Prop}

theorem Ending.unless (h : Ending binding w) {refused : Prop} [Decidable refused]
    {error : ShareRouterError} (hterminal : error.isTerminal = true) {rest : Unit → Submit β}
    (hrest : Ends post (Failing binding) lost (rest () w)) :
    Ends post (Failing binding) lost ((failIf refused error >>= rest) w) := by
  rw [failIf_bind]
  split
  · exact h.failing hterminal
  · exact hrest

theorem Held.usable (h : Held binding due events w) {answer : Except JobRouterError α}
    {rest : α → Submit β} (hrest : ∀ a, Ends post (Failing binding) lost (rest a w)) :
    Ends post (Failing binding) lost ((orUnusable answer >>= rest) w) := by
  cases answer with
  | ok a => exact hrest a
  | error e => exact h.ending.failing rfl

/-! ### Values instead of failures, and timeouts -/

/-- An error that is caught is a result. -/
theorem caught_ends {act : Submit α} {post : α → SubmissionWorld → Prop}
    {bad' : ShareRouterError → SubmissionWorld → Prop} (h : Ends post bad lost (act w)) :
    Ends (fun result w' => (∀ a, result = .ok a → post a w') ∧
      ∀ error, result = .error error → bad error w') bad' lost (caught act w) := by
  unfold caught
  generalize act w = result at h
  obtain ⟨a | error | _, w'⟩ := result
  · refine ⟨fun b heq => ?_, fun error heq => nomatch heq⟩
    cases heq
    exact h
  · refine ⟨fun b heq => (nomatch heq), fun other heq => ?_⟩
    cases heq
    exact h
  · exact h

/-- An exchange that is cut off leaves the actor able to end. -/
theorem timeoutAt_ends {act : Submit α} {post : α → SubmissionWorld → Prop}
    (h : Ends post bad (Ending binding) (act w)) :
    Ends (fun result w' => (∀ a, result = some a → post a w') ∧
      (result = none → Ending binding w')) bad (Ending binding) (timeoutAt act w) := by
  unfold timeoutAt
  generalize act w = result at h
  obtain ⟨a | error | _, w'⟩ := result
  · refine ⟨fun b heq => ?_, fun heq => nomatch heq⟩
    cases heq
    exact h
  · exact h
  · have hending : Ending binding w' := h
    have hframe : ∀ cancels, Frame w' { w' with cancels } := fun _ => ⟨rfl, rfl, rfl, rfl, rfl⟩
    dsimp only
    split
    · exact h
    · exact ⟨fun b heq => (nomatch heq), fun _ => hending.frame (hframe _)⟩
    · exact hending.frame (hframe _)

end States

/-! ## §3. Drains -/

section Drains

variable {ext : External} {codec : Codec} {binding : BackendConnectionBinding}
  {due : List BackendEvent} {events : List DeliveredBackendEvent} {w : SubmissionWorld}

/-- An event that is taken from the client is at hand. -/
theorem Held.popped (h : Held binding due events w) {delivered : DeliveredBackendEvent}
    {rest : List DeliveredBackendEvent} (hqueue : w.client.queuedEvents = delivered :: rest) :
    Held binding due (events ++ [delivered]) { w with
      client := w.client.popQueuedEvent.2
      log := w.log ++ [.popped delivered] } where
  lawful := h.lawful.snoc trivial
  armed := h.armed
  owner := h.owner
  bound := by
    unfold BackendClient.popQueuedEvent
    rw [hqueue]
    exact h.bound
  unsettled := by
    show ∀ other ∈ Submit.unsettled (w.log ++ [.popped delivered]), other ∈ events ++ [delivered]
    rw [unsettled_snoc]
    intro other hmem
    obtain hmem | hmem := List.mem_append.mp hmem
    · exact List.mem_append_left _ (h.unsettled other hmem)
    · exact List.mem_append_right _ hmem
  observed := by
    unfold BackendClient.popQueuedEvent
    rw [hqueue]
    have hold : ∀ event ∈ w.client.observedEvents ++ due,
        Accounted binding (w.log ++ [.popped delivered]) event ∨
          ∃ other ∈ events ++ [delivered], other.event = event := fun event hmem =>
      (h.observed event hmem).imp Accounted.mono fun ⟨other, hin, heq⟩ =>
        ⟨other, List.mem_append_left _ hin, heq⟩
    intro event hmem
    obtain hmem | hmem := List.mem_append.mp hmem
    · cases BackendClient.mem_remember hmem with
      | inl hmem => exact hold event (List.mem_append_left _ hmem)
      | inr heq =>
        exact .inr ⟨delivered, List.mem_append_right _ (List.mem_singleton.mpr rfl), heq.symm⟩
    · exact hold event (List.mem_append_right _ hmem)
  deferred := h.deferred

/-- **An acknowledged batch settles everything at hand.** -/
theorem Held.acknowledged (h : Held binding due events w)
    (hbinding : ∀ delivered ∈ events, delivered.connectionBinding = binding) :
    Held binding due [] { w with log := w.log ++ [.acknowledged events] } where
  lawful := h.lawful.snoc trivial
  armed := h.armed
  owner := h.owner
  bound := h.bound
  unsettled := by
    show ∀ delivered ∈ Submit.unsettled (w.log ++ [.acknowledged events]), delivered ∈ []
    rw [unsettled_snoc]
    intro delivered hmem
    obtain ⟨hmem, hnot⟩ := List.mem_filter.mp hmem
    exact absurd (h.unsettled delivered hmem) (of_decide_eq_true hnot)
  observed := by
    intro event hmem
    refine .inl ?_
    cases h.observed event hmem with
    | inl haccounted => exact haccounted.mono
    | inr hhand =>
      obtain ⟨delivered, hin, heq⟩ := hhand
      exact ⟨delivered, ⟨events, List.mem_append_right _ (List.mem_singleton.mpr rfl), hin⟩, heq,
        hbinding delivered hin⟩
  deferred := h.deferred

/-- **Taking all events**: one more at hand for each. -/
theorem popEvents_spec (rest : List DeliveredBackendEvent) (h : Held binding due events w)
    (hqueue : w.client.queuedEvents = rest) :
    Safe binding (fun taken w' => taken = rest ∧ Held binding due (events ++ rest) w' ∧
        ∀ delivered ∈ rest, delivered.connectionBinding = binding) (popEvents binding rest w) := by
  induction rest generalizing events w with
  | nil =>
    refine ⟨rfl, ?_, fun _ hmem => absurd hmem List.not_mem_nil⟩
    rwa [List.append_nil]
  | cons delivered rest ih =>
    have hpopped := h.popped hqueue
    show Ends _ _ _ ((modify _ >>= fun _ => _) w)
    rw [modify_bind, failIf_bind]
    split
    · exact hpopped.ending.failing rfl
    · next hbound =>
      have hqueue' : w.client.popQueuedEvent.2.queuedEvents = rest := by
        unfold BackendClient.popQueuedEvent
        rw [hqueue]
      refine Ends.bind (ih hpopped hqueue') fun taken w' ⟨htaken, hheld, hbinding⟩ => ?_
      refine ⟨by rw [htaken], ?_, ?_⟩
      · rwa [List.append_assoc] at hheld
      · exact List.forall_mem_cons.mpr ⟨not_not.mp hbound, hbinding⟩

/-- The check that the router still is on the connection. -/
theorem stillBound_spec (h : Held binding due events w) :
    Safe binding (fun _ => Held binding due events) (stillBound ext binding events w) := by
  unfold stillBound
  rw [get_bind]
  split
  · refine Ends.bind (h.after peek_frame) fun matched w' h => ?_
    rw [failIf_apply]
    split
    · exact h.ending.failing rfl
    · exact h
  · exact h.ending.failing rfl

theorem nextAttempt_frame {bad : ShareRouterError → SubmissionWorld → Prop}
    (h : Held binding due events w) :
    Ends (fun _ => Frame w) bad (Ending binding) (nextAttempt w) := by
  unfold nextAttempt
  cases w.attempts with
  | nil => exact h.ending
  | cons attempt attempts => exact ⟨rfl, rfl, rfl, rfl, rfl⟩

/-- The router is paused at most once. -/
theorem pauseOnce_spec (h : Held binding due events w) (recovered : Bool) :
    Safe binding (fun _ => Held binding due events) (pauseOnce ext recovered w) := by
  unfold pauseOnce
  split
  · exact h
  · rw [get_bind]
    refine Ends.bind (h.after locked_frame) fun paused w' h => ?_
    cases paused with
    | ok _ => exact h
    | error _ => exact h.ending.failing rfl

/-- An attempt after which the loop goes on has still settled nothing less. -/
theorem attemptError_spec (h : Held binding due events w)
    (hbinding : ∀ delivered ∈ events, delivered.connectionBinding = binding) (deadline : ℕ)
    (attempt : Attempt) :
    Safe binding (fun failure w' => Held binding due events w' ∧ (failure = none →
        Held binding due [] w' ∧ ∀ delivered ∈ events, Acknowledged w'.log delivered))
      (attemptError events deadline attempt w) := by
  match attempt with
  | .answered (.ok ()) =>
    have hacknowledged := h.acknowledged hbinding
    show Ends _ _ _ ((modify _ >>= fun _ => _) w)
    rw [modify_bind]
    refine Ends.bind readClock_frame fun now w' hframe => ?_
    have hheld := hacknowledged.frame hframe
    refine ⟨hheld.mono fun _ hmem => absurd hmem List.not_mem_nil, fun _ => ⟨hheld, ?_⟩⟩
    intro delivered hin
    rw [hframe.log]
    exact ⟨events, List.mem_append_right _ (List.mem_singleton.mpr rfl), hin⟩
  | .answered (.error error) => exact ⟨h, fun heq => nomatch heq⟩
  | .elapsed => exact ⟨h, fun heq => nomatch heq⟩
  | .abandoned => exact h.ending

/-- **The loop ends with the batch acknowledged, or with a terminal error.** -/
theorem acknowledgeLoop_spec
    (hbinding : ∀ delivered ∈ events, delivered.connectionBinding = binding)
    (deadline fuel : ℕ) (recovered : Bool) (h : Held binding due events w) :
    Safe binding (fun _ w' => Held binding due [] w' ∧
        ∀ delivered ∈ events, Acknowledged w'.log delivered)
      (acknowledgeLoop ext binding events deadline fuel recovered w) := by
  induction fuel generalizing recovered w with
  | zero => exact h.ending
  | succ fuel ih =>
    refine Ends.bind (h.after readClock_frame) fun now w h => ?_
    refine h.ending.unless rfl ?_
    refine Ends.bind (stillBound_spec h) fun _ w h => ?_
    refine Ends.bind (h.after (nextAttempt_frame h)) fun ⟨attempt, sleeps⟩ w h => ?_
    refine Ends.bind (attemptError_spec h hbinding deadline attempt)
      fun failure w ⟨h, hsettled⟩ => ?_
    cases failure with
    | none => exact hsettled rfl
    | some error =>
      refine h.ending.unless rfl ?_
      refine Ends.bind (pauseOnce_spec h recovered) fun _ w h => ?_
      refine Ends.bind (h.after readClock_frame) fun now w h => ?_
      refine h.ending.unless rfl ?_
      split
      · exact ih true h
      · exact h.ending

/-- **A batch acknowledged**: its events are accounted. -/
theorem acknowledgeEventBatch_spec (h : Held binding due events w)
    (hbinding : ∀ delivered ∈ events, delivered.connectionBinding = binding) :
    Safe binding (fun _ w' => Held binding due [] w' ∧
        ∀ delivered ∈ events, Acknowledged w'.log delivered)
      (acknowledgeEventBatch ext binding events w) := by
  refine Ends.bind readClock_frame fun now w hframe => ?_
  rw [get_bind]
  exact acknowledgeLoop_spec hbinding _ _ _ (h.frame hframe)

/-- Only what is acknowledged is applied. -/
theorem applyEvent_spec (h : Held binding due [] w) {delivered : DeliveredBackendEvent}
    (hdelivered : Acknowledged w.log delivered) :
    Safe binding (fun _ w' => Held binding due [] w' ∧ w'.log = w.log ++ [.applied delivered])
      (applyEvent ext delivered w) := by
  have h := h.noted (.applied delivered) hdelivered rfl
  unfold applyEvent note
  rw [modify_bind, get_bind, h.bound]
  refine Ends.bind locked_frame fun step w' hframe => ?_
  have h := h.frame hframe
  match step with
  | .ok .applied => exact ⟨h, hframe.log⟩
  | .ok (.refused _) | .error _ => exact h.ending.failing rfl
  | .ok (.failing _) => exact Ends.bind (h.after locked_frame) fun _ w h => h.ending.failing rfl

/-- Acknowledged events may be applied. -/
theorem applyEvents_spec (h : Held binding due [] w)
    (hevents : ∀ delivered ∈ events, Acknowledged w.log delivered) :
    Safe binding (fun _ => Held binding due []) (applyEvents ext events w) := by
  induction events generalizing w with
  | nil => exact h
  | cons delivered rest ih =>
    obtain ⟨hfirst, hrest⟩ := List.forall_mem_cons.mp hevents
    refine Ends.bind (applyEvent_spec h hfirst) fun _ w' ⟨h, hlog⟩ => ?_
    refine ih h fun other hmem => ?_
    rw [hlog]
    exact (hrest other hmem).mono

/-- **A batch settled**: acknowledged, then applied. -/
theorem settleBatch_spec (h : Held binding due events w)
    (hbinding : ∀ delivered ∈ events, delivered.connectionBinding = binding) :
    Safe binding (fun _ => Held binding (due ++ events.map (·.event)) [])
      (settleBatch ext binding events w) := by
  cases events with
  | nil =>
    show Held binding (due ++ []) [] w
    rwa [List.append_nil]
  | cons delivered rest =>
    refine Ends.bind (acknowledgeEventBatch_spec h hbinding) fun recovered w ⟨h, hevents⟩ => ?_
    have hdue : Held binding (due ++ (delivered :: rest).map (·.event)) [] w := by
      refine h.owe fun event hmem => ?_
      obtain ⟨other, hin, heq⟩ := List.mem_map.mp hmem
      exact ⟨other, hevents other hin, heq, hbinding other hin⟩
    exact Ends.bind (applyEvents_spec hdue hevents) fun _ w' h => h

/-- **A drain that ends has accounted for all that the client held.** -/
theorem drainBackendEvents_spec (h : Steady binding w) :
    Safe binding (fun _ w' => Steady binding w' ∧
        ∀ event ∈ w.client.liveEvents, Accounted binding w'.log event)
      (drainBackendEvents ext w) := by
  -- what the client remembers is due from the start, what it queues is due once it is settled
  have hdue : Held binding w.client.observedEvents [] w := by
    refine h.owe fun event hmem => h.accounted ?_
    rwa [List.append_nil]
  have hlive : ∀ event ∈ w.client.liveEvents,
      event ∈ w.client.observedEvents ++ w.client.queuedEvents.map (·.event) := by
    intro event hmem
    rw [List.mem_append]
    exact (List.mem_append.mp hmem).symm
  unfold drainBackendEvents
  rw [get_bind]
  refine Ends.bind peek_frame fun matched w₁ hframe => ?_
  rw [← hframe.client] at hdue hlive ⊢
  have h := hdue.frame hframe
  refine h.ending.unless rfl ?_
  rw [get_bind, h.bound, ofOption_some, pure_bind']
  refine Ends.bind (popEvents_spec _ h rfl) fun taken w₃ ⟨htaken, h, hbinding⟩ => ?_
  subst htaken
  refine Ends.bind (settleBatch_spec h hbinding) fun recovered w₄ h => ?_
  rw [get_bind]
  refine Ends.bind (h.after peek_frame) fun matched w₅ h => ?_
  refine h.ending.unless rfl ?_
  refine Ends.bind (h.after peek_frame) fun reached w₇ h => ?_
  refine h.ending.unless rfl ?_
  exact ⟨h.forget, fun event hmem => h.accounted (List.mem_append_right _ (hlive event hmem))⟩

end Drains

/-! ## §4. Health -/

section Health

variable {ext : External} {codec : Codec} {binding : BackendConnectionBinding}
  {w : SubmissionWorld} {α : Type} {bad : ShareRouterError → SubmissionWorld → Prop}

/-- An exchange adds to the queue of the client and leaves what it remembers alone. -/
def Listens (call : Io → Call α) : Prop :=
  ∀ io c, (call io c).2.observedEvents = c.observedEvents ∧
    (call io c).2.connectionBinding = c.connectionBinding

theorem health_listens : Listens (BackendClient.health ext codec) := by
  intro io c
  have hheard := BackendClient.health_spec ext codec io c
  obtain ⟨news, hnews⟩ := Ends.state (hheard.imp fun _ _ => And.left)
  exact ⟨hnews.receives.observed, hnews.receives.connectionBinding⟩

theorem Held.exchanged {due : List BackendEvent} {events : List DeliveredBackendEvent}
    (h : Held binding due events w) {client : BackendClient}
    (hobserved : client.observedEvents = w.client.observedEvents)
    (hbound : client.connectionBinding = w.client.connectionBinding) (exchanges : List Io) :
    Held binding due events { w with client, exchanges } :=
  { h with
    bound := hbound.trans h.bound
    observed := by
      show ∀ event ∈ client.observedEvents ++ due, _
      rw [hobserved]
      exact h.observed }

/-- One exchange with the backend keeps the actor steady. -/
theorem exchange_spec {call : Io → Call α} (hcall : Listens call) (h : Steady binding w) :
    Ends (fun result w' => Steady binding w' ∧
        ∀ a, result = .ok a → ∃ io c, call io c = (.done a, w'.client))
      bad (Ending binding) (exchange call w) := by
  unfold exchange
  cases w.exchanges with
  | nil => exact h.ending
  | cons io exchanges =>
    obtain ⟨hobserved, hbound⟩ := hcall io w.client
    unfold onClient
    dsimp only
    generalize hresult : call io w.client = result at hobserved hbound
    obtain ⟨a | error | _, client⟩ := result
    · refine ⟨h.exchanged hobserved hbound exchanges, fun b heq => ?_⟩
      cases heq
      exact ⟨io, w.client, hresult⟩
    · exact ⟨h.exchanged hobserved hbound exchanges, fun b heq => nomatch heq⟩
    · exact (h.exchanged hobserved hbound exchanges).ending

/-- The pause for an unhealthy backend. -/
theorem pumpUnhealthy_spec (h : Steady binding w) (health : HealthSnapshot) (observedAt : ℕ) :
    Safe binding (fun _ => Steady binding) (pumpUnhealthy ext health observedAt w) := by
  unfold pumpUnhealthy
  rw [get_bind]
  refine Ends.bind (h.after locked_frame) fun paused w h => ?_
  refine h.usable fun _ => ?_
  refine Ends.bind (timeoutAt_ends (caught_ends (drainBackendEvents_spec h)))
    fun drained w ⟨hsome, hnone⟩ => ?_
  -- where the drain did not end well, the deadline and the error both end the actor
  have hending : Ending binding w := by
    match drained with
    | none => exact hnone rfl
    | some (.ok recovered) => exact ((hsome _ rfl).1 recovered rfl).1.ending
    | some (.error error) => exact ((hsome _ rfl).2 error rfl).1
  refine Ends.bind readClock_frame fun now w' hframe => ?_
  have hending := hending.frame hframe
  refine hending.unless rfl ?_
  match drained with
  | none => exact hending.failing rfl
  | some (.error error) =>
    obtain ⟨-, hsteady⟩ := (hsome _ rfl).2 error rfl
    exact ⟨hending, fun hnot => (hsteady hnot).frame hframe⟩
  | some (.ok recovered) =>
    have h := ((hsome _ rfl).1 recovered rfl).1.frame hframe
    dsimp only
    split
    · rw [get_bind]
      refine Ends.bind (h.after locked_frame) fun allowed w h => ?_
      exact h.usable fun _ => h
    · exact h

/-- One health probe. -/
theorem pumpHealth_spec (h : Steady binding w) :
    Safe binding (fun _ => Steady binding) (pumpHealth ext codec w) := by
  refine Ends.bind (exchange_spec health_listens h) fun health w ⟨h, _⟩ => ?_
  refine Ends.bind (h.after readClock_frame) fun observedAt w h => ?_
  cases health with
  | error error =>
    exact Ends.bind (drainBackendEvents_spec h) fun _ w ⟨h, _⟩ => ⟨h.ending, fun _ => h⟩
  | ok health =>
    dsimp only
    split
    · exact Ends.bind (drainBackendEvents_spec h) fun recovered w ⟨h, _⟩ => h
    · exact pumpUnhealthy_spec h health observedAt

/-! ### Endings -/

variable {lost : SubmissionWorld → Prop}

/-- The queued shares are refused. -/
theorem failCommands_spec (commands : List SubmitCommand) (h : Ending binding w) :
    Ends (fun _ => Ending binding) bad lost (failCommands commands w) := by
  induction commands generalizing w with
  | nil => exact h
  | cons command rest ih =>
    cases command with
    | share number context =>
      show Ends _ _ _ ((modify _ >>= fun _ => _) w)
      rw [modify_bind]
      exact ih (h.noted trivial rfl)
    | shutdown => exact ih h

theorem failPending_spec (h : Ending binding w) :
    Ends (fun _ => Ending binding) bad lost (failPending w) := by
  unfold failPending
  rw [get_bind, modify_bind]
  exact failCommands_spec _ (h.frame ⟨rfl, rfl, rfl, rfl, rfl⟩)

/-- **The guard**: once it was there, everything taken before is covered. -/
theorem suspend_spec (h : Ending binding w) :
    Ends (fun _ w' => Ending binding w' ∧ w'.armed = none) bad lost (suspend ext w) := by
  unfold suspend
  obtain harmed | ⟨hnone, hcovered⟩ := h.guarded
  · rw [harmed]
    refine ⟨⟨h.lawful.snoc ?_, .inr ⟨rfl, covered_suspended _ _⟩, ?_⟩, rfl⟩
    · exact JobRouter.halted_suspendIfBound binding _
    · exact (nextTurn_frame ext w).owner ▸ h.owner
  · rw [hnone]
    exact ⟨h, hnone⟩

/-- Ending with an error. -/
theorem endWith_spec {post : α → SubmissionWorld → Prop} (h : Ending binding w)
    (error : ShareRouterError) :
    Ends post (fun _ => Ending binding) lost ((endWith ext error : Submit α) w) := by
  refine Ends.bind (suspend_spec h) fun _ w ⟨h, _⟩ => ?_
  exact Ends.bind (failPending_spec h) fun _ w h => h

/-! ### Heartbeats -/

/-- The router resumes. -/
theorem resume_spec (h : Steady binding w) :
    Safe binding (fun _ => Steady binding) (resume ext w) := by
  unfold resume
  rw [get_bind]
  refine Ends.bind (h.after locked_frame) fun resumed w h => ?_
  refine h.usable fun _ => ?_
  exact h.frame ⟨rfl, rfl, rfl, rfl, rfl⟩

theorem noteHealth_frame (healthy : Bool) (observedAt : ℕ) :
    Ends (fun _ => Frame w) bad lost (noteHealth healthy observedAt w) := by
  cases healthy <;> exact ⟨rfl, rfl, rfl, rfl, rfl⟩

theorem applyHealth_spec (h : Steady binding w) (healthy : Bool) (observedAt : ℕ) :
    Safe binding (fun _ => Steady binding) (applyHealth ext healthy observedAt w) := by
  refine Ends.bind (h.after (noteHealth_frame healthy observedAt)) fun _ w h => ?_
  rw [get_bind]
  refine Ends.bind (h.after pastDeadline_frame) fun late w h => ?_
  split
  · exact h.ending.failing rfl
  · split
    · exact resume_spec h
    · exact h

/-- A submission within its deadline. -/
theorem withinDeadline_spec {act : Submit (Except ShareRouterError α)} (deadline : Option ℕ)
    (h : Ends (fun result w' => (∀ a, result = .ok a → Steady binding w') ∧
      ∀ error, result = .error error → Failing binding error w') bad (Ending binding) (act w)) :
    Ends (fun result w' => (∀ a, result = .ok a → Steady binding w') ∧
      ∀ error, result = .error error → Ending binding w') bad (Ending binding)
      (withinDeadline deadline act w) := by
  cases deadline with
  | none =>
    exact h.imp fun _ _ ⟨hok, herror⟩ => ⟨hok, fun error heq => (herror error heq).1⟩
  | some deadline =>
    refine Ends.bind (timeoutAt_ends h) fun answer w ⟨hsome, hnone⟩ => ?_
    cases answer with
    | none => exact ⟨fun _ heq => (nomatch heq), fun _ _ => hnone rfl⟩
    | some result =>
      obtain ⟨hok, herror⟩ := hsome result rfl
      exact ⟨hok, fun error heq => (herror error heq).1⟩

/-- **A heartbeat leaves the actor steady, or ends it.** -/
theorem heartbeat_spec (h : Steady binding w) :
    Closing binding (fun _ => Steady binding) (heartbeat ext codec w) := by
  unfold heartbeat
  rw [get_bind]
  refine Ends.bind (withinDeadline_spec w.healthDeadline (caught_ends (pumpHealth_spec h)))
    fun health w ⟨hok, herror⟩ => ?_
  have hending : Ending binding w := by
    cases health with
    | ok health => exact (hok health rfl).ending
    | error error => exact herror error rfl
  refine Ends.bind pastDeadline_frame fun late w' hframe => ?_
  have hending := hending.frame hframe
  split
  · exact endWith_spec hending _
  · match health with
    | .error error => exact endWith_spec hending error
    | .ok (healthy, observedAt) =>
      have h := (hok _ rfl).frame hframe
      refine Ends.bind (caught_ends (applyHealth_spec h healthy observedAt))
        fun applied w ⟨hok, herror⟩ => ?_
      cases applied with
      | error error => exact endWith_spec (herror error rfl).1 error
      | ok _ => exact hok _ rfl

end Health

/-! ## §5. Shares -/

section Shares

variable {ext : External} {codec : Codec} {binding : BackendConnectionBinding}
  {w w' : SubmissionWorld} {context : SubmissionContext} {result : Act.ShareResult}
  {bad : ShareRouterError → SubmissionWorld → Prop} {lost : SubmissionWorld → Prop}

/-- The event of a commit for this work. -/
def eventOf (commit : VerifiedShareCommit) (work : SubmissionContext) : BackendEvent :=
  BackendClient.commitEvent commit.receipt work.identity work.targetLe

variable {queued : SubmissionContext}

theorem SameWork.eventOf (h : SameWork context queued) (commit : VerifiedShareCommit) :
    eventOf commit context = eventOf commit queued := by
  unfold Submit.eventOf
  rw [h.1, h.2]

/-- **A result that may be answered**: a commit is accounted for, and an error that is not terminal
    leaves nothing behind. -/
structure Answerable (binding : BackendConnectionBinding) (work : SubmissionContext)
    (result : Act.ShareResult) (w : SubmissionWorld) : Prop where
  committed : ∀ commit, result = .ok commit →
    Steady binding w ∧ Accounted binding w.log (eventOf commit work)
  failed : ∀ error, result = .error error → Failing binding error w

theorem Answerable.frame (h : Answerable binding context result w) (hframe : Frame w w') :
    Answerable binding context result w' where
  committed := fun commit heq =>
    ⟨(h.committed commit heq).1.frame hframe, hframe.log ▸ (h.committed commit heq).2⟩
  failed := fun error heq =>
    ⟨(h.failed error heq).1.frame hframe, fun hnot => ((h.failed error heq).2 hnot).frame hframe⟩

theorem Answerable.of_failing {error : ShareRouterError} (h : Failing binding error w) :
    Answerable binding context (.error error) w where
  committed := fun _ heq => nomatch heq
  failed := fun other heq => by
    cases heq
    exact h

theorem Answerable.ending (h : Answerable binding context result w) : Ending binding w := by
  cases result with
  | ok commit => exact (h.committed commit rfl).1.ending
  | error error => exact (h.failed error rfl).1

theorem Answerable.sameWork (h : Answerable binding context result w)
    (hsame : SameWork context queued) : Answerable binding queued result w :=
  { h with committed := fun commit heq => hsame.eventOf commit ▸ h.committed commit heq }

/-- An exchange with a context: a commit that it returns has its event among those still held. -/
structure Commits (context : SubmissionContext) (call : Io → Call VerifiedShareCommit) : Prop where
  listens : Listens call
  held : ∀ io c commit c', call io c = (.done commit, c') → eventOf commit context ∈ c'.liveEvents

theorem commits_of_ends {call : Io → Call VerifiedShareCommit}
    (h : ∀ io c, BackendClient.PreparedEnds ext codec context io c (call io c)) :
    Commits context call where
  listens := fun io c => by
    obtain ⟨news, hnews⟩ := (h io c).heard
    exact ⟨hnews.receives.observed, hnews.receives.connectionBinding⟩
  held := fun io c commit c' heq => by
    have hends := h io c
    rw [heq] at hends
    exact hends.2.2

/-- A commit that the exchange returns has its event among those still held. -/
theorem Commits.exchange_spec {call : Io → Call VerifiedShareCommit} (hcommits : Commits context call)
    (h : Steady binding w) :
    Ends (fun answer w' => Steady binding w' ∧
        ∀ commit, answer = .ok commit → eventOf commit context ∈ w'.client.liveEvents)
      bad (Ending binding) (exchange call w) := by
  refine (Submit.exchange_spec hcommits.listens h).imp fun answer w' ⟨h, hcall⟩ => ⟨h, ?_⟩
  intro commit heq
  obtain ⟨io, c, hdone⟩ := hcall commit heq
  exact hcommits.held io c commit w'.client hdone

/-- What a submission leaves. -/
structure Delivers (binding : BackendConnectionBinding) (work : SubmissionContext)
    (submitted : Act.ShareResult × Option SubmissionContext) (w : SubmissionWorld) : Prop where
  answerable : Answerable binding work submitted.1 w
  retained : ∀ context ∈ submitted.2, SameWork context work

theorem SameWork.refl (context : SubmissionContext) : SameWork context context := ⟨rfl, rfl⟩

theorem SameWork.trans {other : SubmissionContext} (h : SameWork context other)
    (hother : SameWork other queued) : SameWork context queued :=
  ⟨h.1.trans hother.1, h.2.trans hother.2⟩

theorem retained_self : ∀ other ∈ some context, SameWork other context := by
  intro other hmem
  cases hmem
  exact SameWork.refl context

/-- What the drain says about the answer of the exchange before it. -/
theorem drained_answerable {answer : Except ClientError VerifiedShareCommit}
    {outcome : Except ShareRouterError Bool} {live : List BackendEvent}
    (hanswer : ∀ commit, answer = .ok commit → eventOf commit context ∈ live)
    (hok : ∀ recovered, outcome = .ok recovered →
      Steady binding w ∧ ∀ event ∈ live, Accounted binding w.log event)
    (herror : ∀ error, outcome = .error error → Failing binding error w) :
    Answerable binding context (drained answer context outcome).1 w := by
  cases outcome with
  | error error => exact .of_failing (herror error rfl)
  | ok recovered =>
    obtain ⟨hsteady, haccounted⟩ := hok recovered rfl
    cases answer with
    | error error => exact .of_failing ⟨hsteady.ending, fun _ => hsteady⟩
    | ok commit =>
      refine ⟨fun other heq => ?_, fun _ heq => nomatch heq⟩
      cases heq
      exact ⟨hsteady, haccounted _ (hanswer commit rfl)⟩

/-- A share through the recovery exchange. -/
theorem submitRecovery_spec (h : Steady binding w) :
    Ends (fun submitted w' => Delivers binding context (submitted.1, submitted.2.1) w') bad
      (Ending binding) (submitRecovery ext codec context w) := by
  have hcommits := commits_of_ends (BackendClient.submitRecoveryCandidate_spec ext codec context)
  refine Ends.bind (timeoutAt_ends (hcommits.exchange_spec h)) fun answer w ⟨hsome, hnone⟩ => ?_
  cases answer with
  | none => exact ⟨.of_failing ((hnone rfl).failing rfl), retained_self⟩
  | some answer =>
    obtain ⟨h, hanswer⟩ := hsome answer rfl
    refine Ends.bind (timeoutAt_ends (caught_ends (drainBackendEvents_spec h)))
      fun outcome w' ⟨hsome, hnone⟩ => ?_
    cases outcome with
    | none => exact ⟨.of_failing ((hnone rfl).failing rfl), retained_self⟩
    | some outcome =>
      obtain ⟨hok, herror⟩ := hsome outcome rfl
      refine ⟨drained_answerable hanswer hok herror, ?_⟩
      cases outcome <;> exact retained_self

/-- A share through the ordinary exchange. -/
theorem submitOrdinary_spec (h : Steady binding w) :
    Ends (fun submitted w' => Delivers binding context (submitted.1, submitted.2.1) w') bad
      (Ending binding) (submitOrdinary ext codec context w) := by
  have hcommits := commits_of_ends (BackendClient.submitPreparedShareBorrowed_spec ext codec context)
  refine Ends.bind (hcommits.exchange_spec h) fun answer w ⟨h, hanswer⟩ => ?_
  refine Ends.bind (caught_ends (drainBackendEvents_spec h)) fun outcome w' ⟨hok, herror⟩ => ?_
  refine ⟨drained_answerable hanswer hok herror, fun other hmem => ?_⟩
  replace hmem : other ∈ if (drained answer context outcome).1 = .error (.rejected .recoveryDeferred)
    then some context else none := hmem
  exact retained_self other (Option.mem_ite_none_right.mp hmem).2

/-- **A commit that comes out of a submission is accounted for.** -/
theorem submitContextAndDrain_spec (h : Steady binding w) :
    Ends (fun submitted w' => Delivers binding context (submitted.1, submitted.2.1) w') bad
      (Ending binding) (submitContextAndDrain ext codec context w) := by
  unfold submitContextAndDrain
  split
  · exact submitRecovery_spec h
  · exact submitOrdinary_spec h

theorem noteRecovery_frame (recovered : Bool) :
    Ends (fun _ => Frame w) bad lost (noteRecovery recovered w) := by
  cases recovered with
  | false => exact Frame.refl w
  | true =>
    refine Ends.bind readClock_frame fun now w' hframe => ?_
    exact ⟨hframe.log, hframe.armed, hframe.owner, hframe.client, hframe.deferred⟩

/-- The router checks a queued context again; it stays the same work. -/
theorem prepareQueued_sameWork {router : JobRouter} {client : BackendClient} {instant : ℕ}
    {candidate : SubmissionContext}
    (h : (router.prepareQueuedPausedCandidate ext context client instant).1 = .ok candidate) :
    SameWork candidate context := by
  unfold JobRouter.prepareQueuedPausedCandidate at h
  split at h
  · cases h
  · split at h
    · cases h
    · split at h
      · cases h
      · unfold JobRouter.settle SubmissionContext.refilterZcashCandidate at h
        split at h
        · cases h
        · split at h
          · cases h
          · cases h
            exact ⟨rfl, rfl⟩

/-- A requalified context is the same work. -/
theorem requalify_spec (h : Steady binding w) (context : SubmissionContext) :
    Ends (fun prepared w' => Steady binding w' ∧
        ∀ candidate, prepared = .ok candidate → SameWork candidate context)
      bad lost (requalify ext context w) := by
  unfold requalify
  rw [get_bind]
  refine Ends.bind locked_spec fun prepared w' ⟨hframe, router, instant, hprepared⟩ => ?_
  refine ⟨h.frame hframe, fun candidate heq => ?_⟩
  cases prepared with
  | error error => cases heq
  | ok context' =>
    cases heq
    exact prepareQueued_sameWork hprepared

/-- Where the candidate is qualified again, it waits; where not, the reason may be answered. -/
theorem requalifyDeferred_spec (h : Steady binding w) (context : SubmissionContext) :
    Ends (Delivers binding context) bad lost (requalifyDeferred ext context w) := by
  refine Ends.bind (requalify_spec h context) fun prepared w ⟨h, hsame⟩ => ?_
  cases prepared with
  | error error =>
    exact ⟨.of_failing ⟨h.ending, fun _ => h⟩, fun _ hmem => nomatch hmem⟩
  | ok candidate =>
    refine ⟨.of_failing ⟨h.ending, fun _ => h⟩, fun other hmem => ?_⟩
    cases hmem
    exact hsame candidate rfl

/-- The barrier before a deferred candidate. -/
theorem barrierForDeferred_spec (h : Steady binding w) (context : SubmissionContext) :
    Safe binding (Delivers binding context) (barrierForDeferred ext codec context w) := by
  refine Ends.bind (timeoutAt_ends (caught_ends (pumpHealth_spec h)))
    fun health w ⟨hsome, hnone⟩ => ?_
  match health with
  | none => exact ⟨.of_failing ((hnone rfl).failing rfl), retained_self⟩
  | some (.error error) => exact ⟨.of_failing ((hsome _ rfl).2 error rfl), retained_self⟩
  | some (.ok (true, _)) =>
    have h := (hsome _ rfl).1 _ rfl
    refine Ends.bind (caught_ends (resume_spec h)) fun resumed w ⟨hok, herror⟩ => ?_
    cases resumed with
    | error error => exact ⟨.of_failing (herror error rfl), retained_self⟩
    | ok _ => exact requalifyDeferred_spec (hok _ rfl) context
  | some (.ok (false, observedAt)) =>
    have h := (hsome _ rfl).1 _ rfl
    refine Ends.bind (modify_frame (w := w) ⟨rfl, rfl, rfl, rfl, rfl⟩) fun _ w' hframe => ?_
    exact requalifyDeferred_spec (h.frame hframe) context

variable {submitted : Act.ShareResult × Option SubmissionContext}

theorem Delivers.sameWork (h : Delivers binding context submitted w)
    (hsame : SameWork context queued) :
    Delivers binding queued submitted w :=
  ⟨h.answerable.sameWork hsame, fun other hmem => (h.retained other hmem).trans hsame⟩

theorem Delivers.frame (h : Delivers binding context submitted w) (hframe : Frame w w') :
    Delivers binding context submitted w' :=
  ⟨h.answerable.frame hframe, h.retained⟩

/-- The answer that defers a share leaves the actor steady. -/
theorem Answerable.deferred
    (h : Answerable binding context (.error (.rejected .recoveryDeferred)) w) : Steady binding w :=
  (h.failed _ rfl).2 rfl

/-- What follows a deferred submission. -/
theorem afterDeferral_spec (pending : DeferredCandidate)
    (h : Delivers binding context submitted w) :
    Safe binding (Delivers binding context)
      (afterDeferral ext codec pending submitted.1 submitted.2 w) := by
  obtain ⟨result, retained⟩ := submitted
  unfold afterDeferral
  dsimp only
  split
  · next candidate =>
    split
    · exact h
    · refine Ends.bind (readClock_frame.imp fun _ _ => h.frame) fun now w h => ?_
      split
      · refine (barrierForDeferred_spec h.answerable.deferred candidate).imp fun _ _ hdelivers => ?_
        exact hdelivers.sameWork (h.retained candidate rfl)
      · exact h
  · exact h

/-! ### The answer -/

variable {config : ShareRouterConfig} {pending : DeferredCandidate}

theorem Steady.unsettled_eq_nil (h : Steady binding w) : unsettled w.log = [] :=
  List.eq_nil_iff_forall_not_mem.mpr fun delivered hmem =>
    absurd (h.unsettled delivered hmem) List.not_mem_nil

/-- **Only what may be answered is answered**; a terminal error ends the actor. -/
theorem conclude_spec (h : Answerable binding pending.queued result w) :
    Closing binding (fun _ => Steady binding) (conclude pending result w) := by
  unfold conclude answer note
  rw [modify_bind]
  cases result with
  | ok commit =>
    obtain ⟨hsteady, haccounted⟩ := h.committed commit rfl
    exact hsteady.noted _ ⟨Steady.unsettled_eq_nil hsteady, haccounted⟩ rfl
  | error error =>
    obtain ⟨hending, hsteady⟩ := h.failed error rfl
    dsimp only
    split
    · exact Ends.bind (failPending_spec (hending.noted trivial rfl)) fun _ w h => h
    · next hnot => exact (hsteady (Bool.not_eq_true _ ▸ hnot)).noted _ trivial rfl

/-- A terminal result suspends the router. -/
theorem suspendOnTerminal_spec (h : Answerable binding context result w) :
    Ends (fun _ => Answerable binding context result) bad lost
      (suspendOnTerminal ext result w) := by
  cases result with
  | ok commit => exact h
  | error error =>
    unfold suspendOnTerminal
    dsimp only
    split
    · next hterminal =>
      refine (suspend_spec h.ending).imp fun _ _ hsuspended => ?_
      exact .of_failing (hsuspended.1.failing hterminal)
    · exact h

/-- A candidate is put back, as the same work. -/
theorem keepDeferred_spec (h : Steady binding w) (hsame : SameWork context pending.queued) :
    Closing binding (fun _ => Steady binding) (keepDeferred config pending context w) := by
  refine Ends.bind (h.after readClock_frame) fun now w h => ?_
  split
  · rw [get_bind]
    split
    · refine Ends.bind (h.after readClock_frame) fun now w h => ?_
      refine { h with deferred := fun entry hmem => ?_ }
      obtain hmem | hmem := List.mem_append.mp hmem
      · exact h.deferred entry hmem
      · rw [List.mem_singleton.mp hmem]
        exact hsame
    · exact h.noted _ trivial rfl
  · exact conclude_spec (.of_failing ⟨h.ending, fun _ => h⟩)

/-- A candidate's result is answered, or kept for later. -/
theorem settlePending_spec (h : Delivers binding pending.queued submitted w) :
    Closing binding (fun _ => Steady binding)
      (settlePending ext config pending submitted.1 submitted.2 w) := by
  obtain ⟨result, retained⟩ := submitted
  refine Ends.bind (suspendOnTerminal_spec h.answerable) fun _ w hanswerable => ?_
  dsimp only
  split
  · next candidate => exact keepDeferred_spec hanswerable.deferred (h.retained candidate rfl)
  · exact conclude_spec hanswerable

theorem expired_frame : Ends (fun _ => Frame w) bad lost (expired pending w) := by
  unfold expired
  split
  · exact pastDeadline_frame
  · exact Frame.refl w

/-- One more attempt at a deferred candidate. -/
theorem submitPending_spec (h : Steady binding w)
    (hsame : SameWork pending.context pending.queued) :
    Closing binding (fun _ => Steady binding) (submitPending ext codec config pending w) := by
  refine Ends.bind (h.after expired_frame) fun late w h => ?_
  split
  · exact h.noted _ trivial rfl
  · refine Ends.bind (submitContextAndDrain_spec h) fun submitted w hdelivers => ?_
    obtain ⟨result, retained, recovered⟩ := submitted
    refine Ends.bind (noteRecovery_frame recovered) fun _ w hframe => ?_
    have hdelivers := (hdelivers.sameWork hsame).frame hframe
    refine Ends.bind ((afterDeferral_spec pending hdelivers).mono (fun _ _ => id)
      (fun _ _ hfailing => hfailing.1) fun _ => id) fun submitted w hdelivers => ?_
    exact settlePending_spec hdelivers

/-- A deferred candidate is refused. -/
theorem refusePending_spec (h : Steady binding w) (error : ShareRouterError) :
    Closing binding (fun _ => Steady binding) (refusePending ext pending error w) := by
  unfold refusePending
  split
  · exact h.noted _ trivial rfl
  · refine Ends.bind (suspend_spec h.ending) fun _ w ⟨hending, _⟩ => ?_
    unfold answer note
    rw [modify_bind]
    exact Ends.bind (failPending_spec (hending.noted trivial rfl)) fun _ w h => h

/-- **One share**, from the queue to its answer. -/
theorem considerPending_spec (h : Steady binding w)
    (hsame : SameWork pending.context pending.queued) :
    Closing binding (fun _ => Steady binding) (considerPending ext codec config pending w) := by
  unfold considerPending
  rw [get_bind]
  split
  · refine Ends.bind (requalify_spec h pending.context) fun prepared w ⟨h, hprepared⟩ => ?_
    match prepared with
    | .ok candidate => exact submitPending_spec h ((hprepared candidate rfl).trans hsame)
    | .error error => exact refusePending_spec h error
  · exact submitPending_spec h hsame

end Shares

/-! ## §6. The loop -/

section Loop

variable {ext : External} {codec : Codec} {config : ShareRouterConfig}
  {binding : BackendConnectionBinding} {w : SubmissionWorld} {entries : List DeferredCandidate}

theorem earliest_mem {index : ℕ} {entry : DeferredCandidate}
    (h : earliest entries = some (index, entry)) : entry ∈ entries := by
  induction entries generalizing index with
  | nil => cases h
  | cons first rest ih =>
    unfold earliest at h
    split at h
    · cases h
      exact List.mem_cons_self
    · next heq =>
      split at h
      · cases h
        exact List.mem_cons_self
      · cases h
        exact List.mem_cons_of_mem _ (ih heq)

theorem mem_of_mem_swapRemove {index : ℕ} {entry : DeferredCandidate}
    (h : entry ∈ swapRemove index entries) : entry ∈ entries := by
  unfold swapRemove at h
  split at h
  · cases h
  · next last hlast =>
    cases List.mem_or_eq_of_mem_set (List.mem_of_mem_dropLast h) with
    | inl hmem => exact hmem
    | inr heq => exact heq ▸ List.mem_of_getLast? hlast

/-- What is due was deferred, and so is what remains. -/
theorem takeDue_mem {now : ℕ} {rest : List DeferredCandidate} {pending : DeferredCandidate}
    (h : takeDue now entries = some (pending, rest)) :
    pending ∈ entries ∧ ∀ entry ∈ rest, entry ∈ entries := by
  unfold takeDue at h
  split at h
  · cases h
  · next hearliest =>
    split at h
    · cases h
      exact ⟨earliest_mem hearliest, fun entry => mem_of_mem_swapRemove⟩
    · cases h

/-- **One round** leaves the actor steady, or ends it. -/
theorem round_spec (h : Steady binding w) (work : Work) :
    Closing binding (fun again w' => Ending binding w' ∧ (again = true → Steady binding w'))
      (round ext codec config work w) := by
  match work with
  | .heartbeat => exact Ends.bind (heartbeat_spec h) fun _ w h => ⟨h.ending, fun _ => h⟩
  | .healthDeadline =>
    show Ends _ _ _ ((if w.healthDeadline.isSome then endWith ext .backendHealthDeadline
      else pure true : Submit Bool) w)
    split
    · exact endWith_spec h.ending _
    · exact ⟨h.ending, fun _ => h⟩
  | .candidateRetry =>
    refine Ends.bind (h.after readClock_frame) fun now w h => ?_
    rw [get_bind]
    cases hdue : takeDue now w.deferred with
    | none => exact ⟨h.ending, fun _ => h⟩
    | some due =>
      obtain ⟨pending, rest⟩ := due
      obtain ⟨hpending, hrest⟩ := takeDue_mem hdue
      dsimp only
      rw [modify_bind]
      have hsteady : Steady binding { w with deferred := rest } :=
        { h with deferred := fun entry hmem => h.deferred entry (hrest entry hmem) }
      exact Ends.bind (considerPending_spec hsteady (h.deferred pending hpending))
        fun _ w h => ⟨h.ending, fun _ => h⟩
  | .command (some (.share number context)) =>
    refine Ends.bind readClock_frame fun now w hframe => ?_
    exact Ends.bind (considerPending_spec (h.frame hframe) (SameWork.refl context))
      fun _ w h => ⟨h.ending, fun _ => h⟩
  | .command (some .shutdown) =>
    refine Ends.bind (suspend_spec h.ending) fun _ w ⟨h, _⟩ => ?_
    refine Ends.bind (failPending_spec h) fun _ w h => ?_
    rw [modify_bind]
    exact ⟨{ h with }, fun heq => nomatch heq⟩
  | .command none => exact ⟨h.ending, fun heq => nomatch heq⟩

/-- A forced barrier. -/
theorem forcedBarrier_spec (h : Steady binding w) :
    Closing binding (fun _ => Steady binding) (forcedBarrier ext codec w) := by
  unfold forcedBarrier
  rw [get_bind]
  split
  · rw [modify_bind]
    exact heartbeat_spec (h.frame ⟨rfl, rfl, rfl, rfl, rfl⟩)
  · exact h

/-- **The actor, whatever its work.** -/
theorem runSubmissionActor_ending (works : List Work) (h : Steady binding w) :
    Closing binding (fun _ => Ending binding) (runSubmissionActor ext codec config works w) := by
  induction works generalizing w with
  | nil => exact Ends.bind (forcedBarrier_spec h) fun _ w h => h.ending
  | cons work works ih =>
    refine Ends.bind (forcedBarrier_spec h) fun _ w h => ?_
    refine Ends.bind (round_spec h work) fun again w ⟨hending, hsteady⟩ => ?_
    split
    · next hagain => exact ih (hsteady hagain)
    · exact hending

/-! ### Start and end -/

/-- A client from which nothing was taken yet, and no actor so far. -/
structure Fresh (w : SubmissionWorld) : Prop where
  log : w.log = []
  armed : w.armed = none
  owner : w.owner = none
  deferred : w.deferred = []
  observed : w.client.observedEvents = []

/-- A start that is refused. -/
structure Refused (w : SubmissionWorld) : Prop where
  log : ∃ router : JobRouter, w.log = [.suspended router.suspend]
  armed : w.armed = none
  owner : w.owner = none
  deferred : w.deferred = []

theorem Refused.ending (h : Refused w) (binding : BackendConnectionBinding) : Ending binding w := by
  obtain ⟨router, hlog⟩ := h.log
  refine ⟨?_, .inr ⟨h.armed, ?_⟩, fun other hmem => ?_⟩
  · rw [hlog]
    exact (lawful_nil binding).snoc (router.halted_suspend binding)
  · rw [hlog]
    exact covered_suspended [] _
  · rw [h.owner] at hmem
    cases hmem

variable {lost : SubmissionWorld → Prop}

theorem refuse_spec {α : Type} {post : α → SubmissionWorld → Prop} (h : Fresh w)
    (error : ShareRouterError) :
    Ends post (fun _ => Refused) lost ((refuse ext error : Submit α) w) := by
  have hframe := nextTurn_frame ext w
  refine ⟨⟨(nextTurn ext w).router, ?_⟩, hframe.armed.trans h.armed, hframe.owner.trans h.owner,
    hframe.deferred.trans h.deferred⟩
  show w.log ++ _ = _
  rw [h.log]
  rfl

theorem Fresh.frame {w' : SubmissionWorld} (h : Fresh w) (hframe : Frame w w') : Fresh w' where
  log := hframe.log.trans h.log
  armed := hframe.armed.trans h.armed
  owner := hframe.owner.trans h.owner
  deferred := hframe.deferred.trans h.deferred
  observed := hframe.client ▸ h.observed

/-- A start is on the client's own connection. -/
theorem checkStart_spec (h : Fresh w) :
    Ends (fun binding w' => w.client.connectionBinding = some binding ∧ Frame w w')
      (fun _ => Refused) lost (checkStart ext w) := by
  unfold checkStart
  rw [get_bind]
  split
  · exact refuse_spec h _
  · split
    · exact refuse_spec h _
    · cases hbinding : w.client.connectionBinding with
      | none => exact refuse_spec h _
      | some binding =>
        refine Ends.bind peek_frame fun matched w' hframe => ?_
        split
        · exact ⟨rfl, hframe⟩
        · exact refuse_spec (h.frame hframe) _

theorem Fresh.steady (h : Fresh w) (hbound : w.client.connectionBinding = some binding) :
    Steady binding { w with armed := some binding } where
  lawful := by
    rw [h.log]
    exact lawful_nil binding
  armed := rfl
  owner := fun other hmem => by
    rw [h.owner] at hmem
    cases hmem
  bound := hbound
  unsettled := by
    rw [h.log]
    exact fun _ hmem => absurd hmem List.not_mem_nil
  observed := by
    rw [h.observed]
    exact fun _ hmem => absurd hmem List.not_mem_nil
  deferred := by
    rw [h.deferred]
    exact fun _ hmem => absurd hmem List.not_mem_nil

/-- **The start arms the guard.** -/
theorem spawn_spec (h : Fresh w) (hbound : w.client.connectionBinding = some binding) :
    Closing binding (fun _ => Steady binding) (spawn ext config w) := by
  refine Ends.bind ((checkStart_spec h).mono (fun _ _ => id)
    (fun _ _ hrefused => hrefused.ending binding) fun _ => id) fun own w' ⟨hown, hframe⟩ => ?_
  obtain rfl : binding = own := Option.some.inj (hbound.symm.trans hown)
  rw [modify_bind]
  have hsteady := (h.frame hframe).steady (hframe.client ▸ hbound)
  refine Ends.bind ((drainBackendEvents_spec hsteady).mono (fun _ _ => id)
    (fun _ _ hfailing => hfailing.1) fun _ => id) fun recovered w ⟨h, _⟩ => ?_
  refine Ends.bind (h.after readClock_frame) fun started w h => ?_
  refine Ends.bind (h.after readClock_frame) fun now w h => ?_
  refine { h with owner := fun other hmem => ?_ }
  exact Option.some.inj ((Option.mem_def.mp hmem).symm.trans h.bound)

/-- What is left once the guards have dropped. -/
structure Ended (binding : BackendConnectionBinding) (w : SubmissionWorld) : Prop where
  lawful : Lawful binding w.log
  covered : Covered w.log
  ended : w.log.getLast? = some .ended

theorem dropDeferred_spec (h : Ending binding w) {bad : ShareRouterError → SubmissionWorld → Prop} :
    Ends (fun _ => Ending binding) bad lost (dropDeferred ext w) := by
  unfold dropDeferred
  split
  · exact h
  · have hframe := nextTurn_frame ext w
    refine ⟨h.lawful.snoc ?_, ?_, hframe.owner ▸ h.owner⟩
    · show JobRouter.Halted binding _
      cases howner : w.owner with
      | none => exact JobRouter.halted_suspend binding _
      | some other =>
        obtain rfl := h.owner other howner
        exact JobRouter.halted_suspendIfBound other _
    · show (nextTurn ext w).armed = some binding ∨ ((nextTurn ext w).armed = none ∧ _)
      rw [hframe.armed]
      exact h.guarded.imp id fun ⟨hnone, _⟩ => ⟨hnone, covered_suspended _ _⟩

/-- **The end**: the guard fires, and the log stays lawful. -/
theorem finish_spec (h : Ending binding w) : Ended binding (finish ext w).2 := by
  refine Ends.state (Ends.bind (dropDeferred_spec h) fun _ w h => ?_)
  refine Ends.bind (suspend_spec h) fun _ w ⟨h, hnone⟩ => ?_
  refine ⟨h.lawful.snoc trivial, ?_, List.getLast?_concat⟩
  have hcovered : Covered w.log := by
    obtain harmed | ⟨-, hcovered⟩ := h.guarded
    · rw [hnone] at harmed
      cases harmed
    · exact hcovered
  exact hcovered.snoc rfl

end Loop

/-! ## §7. The law -/

/-- **Accounting comes before success.** -/
structure AccountingLaw (own : Option BackendConnectionBinding) (log : List LogEntry) : Prop where
  /-- Before a commit is answered, its exact event was delivered on this connection and
      acknowledged. -/
  success : ∀ front number queued commit back,
    log = front ++ .answered number queued (.ok commit) :: back →
    ∃ batch, .acknowledged batch ∈ front ∧ ∃ delivered ∈ batch,
      delivered.event =
        BackendClient.commitEvent commit.receipt queued.identity queued.targetLe ∧
      own = some delivered.connectionBinding
  /-- Before an event is applied, it was acknowledged. -/
  applied : ∀ front delivered back, log = front ++ .applied delivered :: back →
    ∃ batch, .acknowledged batch ∈ front ∧ delivered ∈ batch
  /-- An event that was taken from the client is acknowledged before the next success; or else
      there is none any more, the router is suspended and the actor ends. -/
  taken : ∀ front delivered back, log = front ++ .popped delivered :: back →
    (∃ middle batch rest, back = middle ++ .acknowledged batch :: rest ∧ delivered ∈ batch ∧
      ∀ entry ∈ middle, entry.isSuccess = false) ∨
    ((∀ entry ∈ back, entry.isSuccess = false) ∧
      (∃ router, .suspended router ∈ back ∧ ∀ binding ∈ own, router.Halted binding) ∧
      .ended ∈ back)

section Law

variable {binding : BackendConnectionBinding} {log : List LogEntry}

/-- Whatever is unsettled is settled before the next success. -/
theorem settled_before_success {delivered : DeliveredBackendEvent} {front back : List LogEntry}
    (h : Lawful binding log) (hlog : log = front ++ back) (hmem : delivered ∈ unsettled front) :
    (∃ middle batch rest, back = middle ++ .acknowledged batch :: rest ∧ delivered ∈ batch ∧
      ∀ entry ∈ middle, entry.isSuccess = false) ∨ ∀ entry ∈ back, entry.isSuccess = false := by
  induction back generalizing front with
  | nil => exact .inr fun _ hmem => absurd hmem List.not_mem_nil
  | cons entry back ih =>
    have hallowed := h front entry back hlog
    have hquiet : entry.isSuccess = false := by
      match entry with
      | .answered _ _ (.ok commit) =>
        rw [hallowed.1] at hmem
        cases hmem
      | .answered _ _ (.error _) | .popped _ | .acknowledged _ | .applied _ | .suspended _
      | .ended => rfl
    by_cases hbatch : ∃ batch, entry = .acknowledged batch ∧ delivered ∈ batch
    · obtain ⟨batch, rfl, hin⟩ := hbatch
      exact .inl ⟨[], batch, back, rfl, hin, fun _ hmem => absurd hmem List.not_mem_nil⟩
    · have hstill : delivered ∈ unsettled (front ++ [entry]) := by
        rw [unsettled_snoc]
        match entry with
        | .popped other => exact List.mem_append_left _ hmem
        | .acknowledged batch =>
          exact List.mem_filter.mpr ⟨hmem, decide_eq_true fun hin => hbatch ⟨batch, rfl, hin⟩⟩
        | .answered _ _ _ | .applied _ | .suspended _ | .ended => exact hmem
      cases ih (by rw [hlog, List.append_cons]) hstill with
      | inl hsettled =>
        obtain ⟨middle, batch, rest, rfl, hin, hmiddle⟩ := hsettled
        exact .inl ⟨entry :: middle, batch, rest, rfl, hin,
          List.forall_mem_cons.mpr ⟨hquiet, hmiddle⟩⟩
      | inr hsilent => exact .inr (List.forall_mem_cons.mpr ⟨hquiet, hsilent⟩)

variable {w : SubmissionWorld}

/-- The law of a life whose connection has a binding. -/
theorem Ended.law (h : Ended binding w) :
    AccountingLaw (some binding) w.log where
  success := fun front number queued commit back hlog => by
    obtain ⟨-, delivered, ⟨batch, hbatch, hin⟩, hevent, hbinding⟩ := h.lawful _ _ _ hlog
    exact ⟨batch, hbatch, delivered, hin, hevent, by rw [hbinding]⟩
  applied := fun front delivered back hlog => h.lawful _ _ _ hlog
  taken := fun front delivered back hlog => by
    have hmem : delivered ∈ unsettled (front ++ [.popped delivered]) := by
      rw [unsettled_snoc]
      exact List.mem_append_right _ (List.mem_singleton.mpr rfl)
    refine (settled_before_success h.lawful (hlog.trans (List.append_cons ..)) hmem).imp id
      fun hsilent => ⟨hsilent, ?_, ?_⟩
    · obtain ⟨router, hin⟩ := h.covered front delivered back hlog
      obtain ⟨before, after, rfl⟩ := List.append_of_mem hin
      have hhalted : router.Halted binding :=
        h.lawful (front ++ .popped delivered :: before) (.suspended router) after (by simp [hlog])
      refine ⟨router, hin, fun other hother => ?_⟩
      cases hother
      exact hhalted
    · have hlast := h.ended
      rw [hlog, List.getLast?_append, List.getLast?_cons] at hlast
      cases hback : back.getLast? with
      | none =>
        rw [hback] at hlast
        cases hlast
      | some last =>
        rw [hback] at hlast
        cases hlast
        exact List.mem_of_getLast? hback

theorem finish_refused {ext : External} (h : Refused w) :
    (finish ext w).2.log = w.log ++ [.ended] := by
  have hdrop : dropDeferred ext w = (.done (), w) := by
    unfold dropDeferred
    rw [h.deferred]
    rfl
  have hsuspend : suspend ext w = (.done (), w) := by
    unfold suspend
    rw [h.armed]
  unfold finish
  rw [bind_apply, hdrop]
  dsimp only
  rw [bind_apply, hsuspend]
  rfl

/-- Without a connection the actor does not start. -/
theorem unbound_law {ext : External} {codec : Codec} {config : ShareRouterConfig}
    {works : List Work} (h : Fresh w) (hbound : w.client.connectionBinding = none) :
    AccountingLaw none (life ext codec config works w).log := by
  have hrefused : Ends (fun _ => Refused) (fun _ => Refused) Refused
      ((spawn ext config >>= fun _ => runSubmissionActor ext codec config works) w) := by
    have hspawn : Ends (fun _ _ => False) (fun _ => Refused) Refused (spawn ext config w) := by
      refine Ends.bind (checkStart_spec h) ?_
      rintro binding w' ⟨hbinding, -⟩
      rw [hbound] at hbinding
      cases hbinding
    exact Ends.bind hspawn fun _ _ => False.elim
  obtain ⟨router, hlog⟩ := hrefused.state.log
  have hend : (life ext codec config works w).log = [.suspended router.suspend, .ended] := by
    unfold life
    rw [finish_refused hrefused.state, hlog]
    rfl
  have hentry : ∀ front entry back, (life ext codec config works w).log = front ++ entry :: back →
      entry = .suspended router.suspend ∨ entry = .ended := by
    intro front entry back heq
    have hmem : entry ∈ [.suspended router.suspend, .ended] :=
      hend ▸ heq ▸ List.mem_append_right _ List.mem_cons_self
    simpa using hmem
  constructor
  · intro front number queued commit back heq
    cases hentry front _ back heq <;> contradiction
  · intro front delivered back heq
    cases hentry front _ back heq <;> contradiction
  · intro front delivered back heq
    cases hentry front _ back heq <;> contradiction

end Law

/-- **No miner success without acknowledged accounting**, in every life of the actor. -/
theorem success_after_acknowledgement (ext : External) (codec : Codec) (config : ShareRouterConfig)
    (works : List Work) (w : SubmissionWorld) (h : Fresh w) :
    AccountingLaw w.client.connectionBinding (life ext codec config works w).log := by
  cases hbound : w.client.connectionBinding with
  | none => exact unbound_law h hbound
  | some binding =>
    have hending : Ending binding
        ((spawn ext config >>= fun _ => runSubmissionActor ext codec config works) w).2 :=
      Ends.state (Ends.bind (spawn_spec h hbound) fun _ w h => runSubmissionActor_ending works h)
    exact (finish_spec hending).law

/-! ### A life in which a share is committed -/

def workedRouterConfig : ShareRouterConfig := ⟨4, seconds 5, seconds 1, by decide, by decide⟩

/-- The consumer fails once and then acknowledges. -/
def workedSubmission (client : BackendClient) (router : JobRouter) : SubmissionWorld where
  client := client
  router := router
  armed := none
  owner := none
  healthDeadline := none
  requireHealthBarrier := false
  deferred := []
  log := []
  clock := []
  now := 0
  exchanges := [BackendClient.sessionIo [2, 3]]
  attempts := [(.answered (.error .storageUnavailable), true), (.answered (.ok ()), true)]
  cancels := []
  turns := []
  instant := 0
  backlog := []

/-- The session of the committed share, handed over after its snapshot. -/
def workedHandover : Option SubmissionWorld := do
  let codec := BackendClient.sessionCodec BackendClient.commitMessages
  let start ← BackendClient.commitStart.value?
  match start.perform workedExternal codec (.subscribeJobs 0 (BackendClient.sessionIo [1])) with
  | (.snapshot (.done snapshot), client) =>
    match JobRouter.fromSnapshot snapshot workedConfig ⟨0⟩ 8 with
    | .ok router => some (workedSubmission client router)
    | .error _ => none
  | _ => none

def workedLife (w : SubmissionWorld) : SubmissionWorld :=
  life workedExternal (BackendClient.sessionCodec BackendClient.commitMessages) workedRouterConfig
    [.command (some (.share 1 BackendClient.commitContext))] w

/-- The actor starts, the law holds of its life, and the share is answered with its commit. -/
theorem success_after_acknowledgement_commit :
    ∃ w, workedHandover = some w ∧
      AccountingLaw w.client.connectionBinding (workedLife w).log ∧
      (workedLife w).log.map LogEntry.isSuccess = [false, false, false, true, false, false] := by
  have hfresh : (workedHandover.map fun w => (w.log.isEmpty, w.armed, w.owner, w.deferred.isEmpty,
      w.client.observedEvents)) = some (true, none, none, true, []) := by
    decide +kernel
  have hlog : (workedHandover.map fun w => (workedLife w).log.map LogEntry.isSuccess) =
      some [false, false, false, true, false, false] := by
    decide +kernel
  obtain ⟨w, hw, hfields⟩ := Option.map_eq_some_iff.mp hfresh
  rw [hw] at hlog
  injection hfields with hempty hfields
  injection hfields with harmed hfields
  injection hfields with howner hfields
  injection hfields with hdeferred hobserved
  refine ⟨w, hw, success_after_acknowledgement _ _ _ _ w ?_, Option.some.inj hlog⟩
  exact ⟨List.isEmpty_iff.mp hempty, harmed, howner, List.isEmpty_iff.mp hdeferred, hobserved⟩

end Submit

end WcashPool.Edge
