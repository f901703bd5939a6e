/-
  WcashPool.Edge.Timing — the clock of a connection.

  A share is timed when it is admitted and observed when it and all shares before
  it are completed.  So vardiff sees the times of shares in order, whatever the
  order of their completions.  Ticks do not wait in that order: a tick that
  overtakes a pending share puts the clock past it.

  Main results: `Timed.step`, `Timed.run` and `vardiff_clock_never_back`.
-/
import WcashPool.Core.JobRuns
import WcashPool.Edge.Queue

namespace WcashPool.Edge

open Fallible Protocol WcashPool.Core Client Tasks Tasks.Task

/-! ## §1. The invariant -/

/-- **Vardiff is behind all pending shares**, whose times do not decrease. -/
structure Timed (nowMs : Millis) (actor : ConnectionActor) : Prop extends Queued actor where
  sorted : actor.pendingShares.rows.Pairwise fun a b => a.admittedAtMs ≤ b.admittedAtMs
  past : ∀ share ∈ actor.pendingShares.rows, share.admittedAtMs ≤ nowMs
  now : ∀ vardiff, actor.vardiff = some vardiff → vardiff.Reached nowMs
  clock : ∀ vardiff, actor.vardiff = some vardiff →
    ∀ share ∈ actor.pendingShares.rows, vardiff.Reached share.admittedAtMs

theorem reached_of_le {vardiff : VardiffController} {early late : Millis}
    (h : vardiff.Reached early) (hle : early ≤ late) : vardiff.Reached late :=
  ⟨fun lastMs heq => BitVec.le_trans (h.last lastMs heq) hle,
    fun startMs heq => BitVec.le_trans (h.window startMs heq) hle⟩

namespace Timed

variable {nowMs : Millis} {actor : ConnectionActor} {w w' : ConnectionWorld}

theorem later {laterMs : Millis} (h : Timed nowMs actor) (hle : nowMs ≤ laterMs) :
    Timed laterMs actor where
  toQueued := h.toQueued
  sorted := h.sorted
  past := fun share hmem => BitVec.le_trans (h.past share hmem) hle
  now := fun vardiff heq => reached_of_le (h.now vardiff heq) hle
  clock := h.clock

theorem kept (h : Timed nowMs w.actor) (hkept : Kept w w') : Timed nowMs w'.actor := by
  have hnow := hkept.clock nowMs h.now
  have hclock : ∀ share ∈ w.actor.pendingShares.rows, ∀ vardiff,
      w'.actor.vardiff = some vardiff → vardiff.Reached share.admittedAtMs := fun share hmem =>
    hkept.clock share.admittedAtMs fun vardiff heq => h.clock vardiff heq share hmem
  obtain ⟨hshares, -, -⟩ | ⟨hshares, -, -⟩ := hkept.queue
  · constructor
    case toQueued => exact h.toQueued.kept hkept
    case now => exact hnow
    all_goals rw [hshares]
    · exact h.sorted
    · exact h.past
    · exact fun vardiff heq share hmem => hclock share hmem vardiff heq
  · constructor
    case toQueued => exact h.toQueued.kept hkept
    case now => exact hnow
    all_goals rw [hshares]
    · exact .nil
    · exact fun _ hmem => nomatch hmem
    · exact fun _ _ _ hmem => nomatch hmem

variable {share : PendingShareState}

/-- A share that is admitted now goes to the end of the queue. -/
theorem appended (h : Timed nowMs w.actor) (happended : Appended nowMs share w w') :
    Timed nowMs w'.actor := by
  have hrows := h.toQueued.rows_appended happended
  constructor
  case toQueued => exact h.toQueued.appended happended
  case now =>
    rw [happended.vardiff]
    exact h.now
  all_goals rw [hrows]
  · refine List.pairwise_append.mpr ⟨h.sorted, List.pairwise_singleton _ _, ?_⟩
    intro before hbefore last hlast
    rw [List.mem_singleton.mp hlast, happended.time]
    exact h.past before hbefore
  · intro other hmem
    obtain hold | hnew := List.mem_append.mp hmem
    · exact h.past other hold
    · rw [List.mem_singleton.mp hnew, happended.time]
      exact BitVec.le_refl _
  · intro vardiff hvardiff other hmem
    rw [happended.vardiff] at hvardiff
    obtain hold | hnew := List.mem_append.mp hmem
    · exact h.clock vardiff hvardiff other hold
    · rw [List.mem_singleton.mp hnew, happended.time]
      exact h.now vardiff hvardiff

/-- A completion leaves the times as they are. -/
theorem stored (h : Timed nowMs actor) (ticket : ℕ) (result : Act.ShareResult) :
    Timed nowMs (Act.storeSample ticket result actor) := by
  have htime : ∀ share : PendingShareState,
      (if share.ticket = ticket then Act.completed result share else share).admittedAtMs =
        share.admittedAtMs := by
    intro share
    split
    · rfl
    · rfl
  constructor
  case toQueued => exact h.toQueued.stored ticket result
  case now => exact h.now
  all_goals rw [Queued.rows_storeSample]
  · rw [List.pairwise_map]
    exact h.sorted.imp fun hle => by rwa [htime, htime]
  · intro share hmem
    obtain ⟨before, hbefore, rfl⟩ := List.mem_map.mp hmem
    rw [htime]
    exact h.past before hbefore
  · intro vardiff hvardiff share hmem
    obtain ⟨before, hbefore, rfl⟩ := List.mem_map.mp hmem
    rw [htime]
    exact h.clock vardiff hvardiff before hbefore

theorem popped (h : Timed nowMs actor) {rows : List PendingShareState}
    (hrows : actor.pendingShares.rows = share :: rows) :
    Timed nowMs (Act.popFirst share.ticket actor) := by
  obtain ⟨hqueued, hsorted, hpast, hnow, hclock⟩ := h
  constructor
  case toQueued => exact hqueued.popped hrows
  case now => exact hnow
  all_goals rw [Queued.rows_popFirst hrows]
  all_goals rw [hrows] at hsorted hpast hclock
  · exact (List.pairwise_cons.mp hsorted).2
  · exact fun other hmem => hpast other (List.mem_cons_of_mem _ hmem)
  · exact fun vardiff heq other hmem => hclock vardiff heq other (List.mem_cons_of_mem _ hmem)

/-- Another controller that is behind all pending shares. -/
theorem withVardiff (h : Timed nowMs actor) {vardiff : VardiffController}
    (hnow : vardiff.Reached nowMs)
    (hclock : ∀ share ∈ actor.pendingShares.rows, vardiff.Reached share.admittedAtMs) :
    Timed nowMs { actor with vardiff := some vardiff } where
  order := h.order
  fresh := h.fresh
  tracked := fun hnone => nomatch hnone
  sorted := h.sorted
  past := h.past
  now := fun other heq => by
    cases heq
    exact hnow
  clock := fun other heq => by
    cases heq
    exact hclock

/-! ## §2. Shares -/

/-- **The share that leaves the queue** was admitted no later than those behind it, so vardiff may
    be told of it. -/
theorem observes {rows : List PendingShareState} (sample : Bool) (h : Timed nowMs w.actor)
    (hrows : w.actor.pendingShares.rows = share :: rows) :
    Fine (fun w => Timed nowMs w.actor) clockError
      (Act.observeSample sample share (w.popped share)) := by
  have hpopped := h.popped hrows
  have hmem : share ∈ w.actor.pendingShares.rows := hrows ▸ List.mem_cons_self
  unfold Act.observeSample
  split
  · cases hvardiff : w.actor.vardiff with
    | none =>
      have hempty := (h.tracked hvardiff).2
      rw [hrows] at hempty
      cases hempty
    | some vardiff =>
      obtain ⟨hne, hafter⟩ :=
        VardiffController.observeShare_on_time share.target (h.clock vardiff hvardiff share hmem)
      rw [observeShare_eq (w := w.popped share) hvardiff]
      constructor
      · obtain hsame | ⟨-, hreached⟩ := hafter
        · rw [hsame]
          refine hpopped.withVardiff (hpopped.now vardiff hvardiff) (hpopped.clock vardiff hvardiff)
        · refine hpopped.withVardiff (reached_of_le hreached (h.past share hmem)) ?_
          intro other hother
          rw [Queued.rows_popFirst hrows] at hother
          have hsorted := h.sorted
          rw [hrows] at hsorted
          exact reached_of_le hreached ((List.pairwise_cons.mp hsorted).1 other hother)
      · intro error heq hclock
        cases hanswer : (vardiff.observeShare share.target share.admittedAtMs).1 with
        | ok update =>
          rw [hanswer] at heq
          cases heq
        | error reason =>
          rw [hanswer] at heq
          cases heq
          cases hclock
          exact hne hanswer
  · exact .done hpopped

/-- Timeliness obeys the rules of the queue. -/
theorem rules (nowMs : Millis) : Rules nowMs (fun w => Timed nowMs w.actor) clockError where
  errors := fun _ hbad => hbad
  queued := fun h => h.toQueued
  kept := Timed.kept
  appended := Timed.appended
  stored := fun ticket result h => h.stored ticket result
  observes := fun sample => Timed.observes sample

end Timed

/-! ## §3. Ticks -/

/-- **A tick that overtakes no pending share.** -/
def OnTime (actor : ConnectionActor) : ActorCall → Prop
  | .tickVardiff nowMs => ∀ share ∈ actor.pendingShares.rows, nowMs ≤ share.admittedAtMs
  | _ => True

instance (actor : ConnectionActor) (call : ActorCall) : Decidable (OnTime actor call) :=
  match call with
  | .tickVardiff nowMs => inferInstanceAs
      (Decidable (∀ share ∈ actor.pendingShares.rows, nowMs ≤ share.admittedAtMs))
  | .handleRequest _ _ | .completeAuthorization _ _ | .completeSubmission _ _ | .applyJobUpdate _
  | .reconcileJobs | .popOutbound | .transportFailed | .invalidateAuthorization => isTrue trivial

variable {nowMs : Millis} {w : ConnectionWorld}

/-- A tick keeps the shares on time. -/
theorem Timed.tick (h : Timed nowMs w.actor)
    (hpending : ∀ share ∈ w.actor.pendingShares.rows, nowMs ≤ share.admittedAtMs) :
    Fine (fun w => Timed nowMs w.actor) clockError (Act.tickVardiff nowMs w) := by
  have hidle : w.actor.closed = true ∨ w.actor.vardiff = none →
      Fine (fun w => Timed nowMs w.actor) clockError (Act.tickVardiff nowMs w) := fun hidle =>
    (tickVardiff_quiet hidle).mono fun _ hquiet => h.kept hquiet.toKept
  cases hvardiff : w.actor.vardiff with
  | none => exact hidle (.inr hvardiff)
  | some vardiff =>
    cases hclosed : w.actor.closed with
    | true => exact hidle (.inl hclosed)
    | false =>
      obtain ⟨hne, -, hreached⟩ := VardiffController.tick_on_time (h.now vardiff hvardiff)
      rw [tickVardiff_eq hclosed hvardiff]
      constructor
      · exact h.withVardiff hreached fun share hmem => reached_of_le hreached (hpending share hmem)
      · intro error heq hclock
        cases hanswer : (vardiff.tick nowMs).1 with
        | ok update =>
          rw [hanswer] at heq
          cases heq
        | error reason =>
          rw [hanswer] at heq
          cases heq
          cases hclock
          exact hne hanswer

/-! ## §4. Runs -/

theorem Timed.opened (h : w.Opened) : Timed 0 w.actor := by
  have hqueued := Queued.opened h
  obtain ⟨sessionId, config, policy, nowMs, hnew⟩ := h.actor
  obtain ⟨session, -, hactor⟩ := bind_eq_ok.mp hnew
  injection hactor with hactor
  rw [← hactor] at hqueued ⊢
  exact
    { hqueued with
      sorted := .nil
      past := fun _ hmem => nomatch hmem
      now := fun _ heq => nomatch heq
      clock := fun _ heq => nomatch heq }

/-- **One call.**  A call without a time leaves the clock where it is. -/
theorem Timed.step (ext : External) (h : Timed nowMs w.actor) (surroundings : Surroundings)
    {call : ActorCall} (htime : ∀ ms, call.time? = some ms → nowMs ≤ ms)
    (hontime : OnTime w.actor call) :
    Fine (fun w => Timed (call.time?.getD nowMs) w.actor) clockError
      (w.perform ext (surroundings, call)) := by
  have hlater : Timed (call.time?.getD nowMs) w.actor := by
    cases hcall : call.time? with
    | none => exact h
    | some ms => exact h.later (htime ms hcall)
  refine (Timed.rules _).step hlater surroundings ?_ ?_
  · intro ms hcall
    rw [hcall]
    rfl
  · intro w' h' hactor hcall
    refine h'.tick ?_
    rw [hcall] at hontime
    rw [hactor]
    exact hontime

/-- The times that a run brings. -/
def timesOf (steps : List (Surroundings × ActorCall)) : List Millis :=
  steps.filterMap (·.2.time?)

theorem timesOf_cons (step : Surroundings × ActorCall) (steps : List (Surroundings × ActorCall)) :
    timesOf (step :: steps) = step.2.time?.toList ++ timesOf steps := by
  unfold timesOf
  rw [List.filterMap_cons]
  cases step.2.time? with
  | none => rfl
  | some ms => rfl

/-- Every tick of the run overtakes no share that is pending when it comes. -/
def TicksOnTime (ext : External) : ConnectionWorld → List (Surroundings × ActorCall) → Prop
  | _, [] => True
  | w, step :: steps => OnTime w.actor step.2 ∧ TicksOnTime ext (w.perform ext step).2 steps

instance decidableTicksOnTime (ext : External) : ∀ (w : ConnectionWorld)
    (steps : List (Surroundings × ActorCall)), Decidable (TicksOnTime ext w steps)
  | _, [] => isTrue trivial
  | w, step :: steps =>
    haveI := decidableTicksOnTime ext (w.perform ext step).2 steps
    inferInstanceAs (Decidable (OnTime w.actor step.2 ∧ TicksOnTime ext (w.perform ext step).2 steps))

/-- **A whole run** whose ticks overtake no pending share. -/
theorem Timed.run (ext : External) (h : Timed nowMs w.actor)
    {steps : List (Surroundings × ActorCall)} (htimes : (timesOf steps).Pairwise (· ≤ ·))
    (hstart : ∀ ms ∈ timesOf steps, nowMs ≤ ms) (hticks : TicksOnTime ext w steps) :
    ∀ outcome ∈ w.outcomes ext steps, outcome ≠ .failed (.vardiff .clockMovedBackwards) := by
  induction steps generalizing w nowMs with
  | nil => exact fun _ hmem => nomatch hmem
  | cons step steps ih =>
    rw [timesOf_cons] at htimes hstart
    obtain ⟨-, hlater, hordered⟩ := List.pairwise_append.mp htimes
    obtain ⟨hontime, hticks⟩ := hticks
    have hfirst : ∀ ms, step.2.time? = some ms → nowMs ≤ ms := fun ms htime =>
      hstart ms (List.mem_append_left _ (Option.mem_toList.mpr htime))
    obtain ⟨hnext, hfine⟩ := h.step ext step.1 hfirst hontime
    intro outcome hmem
    obtain rfl | hmem := List.mem_cons.mp hmem
    · exact fun hback => hfine _ hback rfl
    · refine ih hnext hlater ?_ hticks outcome hmem
      intro ms hms
      cases htime : step.2.time? with
      | none => exact hstart ms (List.mem_append_right _ hms)
      | some stepMs => exact hordered stepMs (Option.mem_toList.mpr htime) ms hms

/-- **The clock of a connection.**  Over every run of public calls with non-decreasing times, in
    any surroundings, no call fails for the time of vardiff, if no tick overtakes a share that is
    still pending. -/
theorem vardiff_clock_never_back (ext : External) (w : ConnectionWorld) (hopened : w.Opened)
    (steps : List (Surroundings × ActorCall)) (htimes : (timesOf steps).Pairwise (· ≤ ·))
    (hticks : TicksOnTime ext w steps) :
    ∀ outcome ∈ w.outcomes ext steps, outcome ≠ .failed (.vardiff .clockMovedBackwards) :=
  (Timed.opened hopened).run ext htimes (fun _ _ => BitVec.le_def.mpr (Nat.zero_le _)) hticks

/-! ## §5. A worked connection -/

def workedEdgeConfig : EdgeConfig where
  outboundQueueCapacity := 16
  maximumAnnouncedJobs := 4
  requestRate := ⟨100, 1_000, by decide, by decide⟩
  outbound := by decide
  announced := by decide

def workedWorker : AuthenticatedWorker where
  accountId := 1
  workerId := 2
  canonicalLogin := [97]
  attributionLogin := [97]
  account := by decide
  worker := by decide
  canonical := by decide
  attribution := by decide

def workedAllocator : NoncePrefixAllocator where
  profile := .fourByte
  lease := ⟨5, by decide⟩
  next := 1
  endExclusive := 10
  bounded := by decide
  within := by decide

def workedActor : ConnectionActor where
  config := workedEdgeConfig
  policy := ⟨VardiffController.workedVardiffConfig, VardiffController.workedTarget 1000⟩
  session := ⟨7, .connected, none, none, [], [], 4⟩
  rateLimiter := .new workedEdgeConfig.requestRate 0
  vardiff := none
  assignments := Table.empty
  advertisedLineage := []
  outbound := []
  responseIds := []
  pendingAuthorization := none
  authenticationGrant := none
  pendingShares := Table.empty
  timingOrder := []
  nextTicket := 1
  telemetryConnected := false
  closed := false

/-- A new connection at a router whose current job is job 1. -/
def workedWorld : ConnectionWorld where
  actor := workedActor
  router :=
    { state :=
        { registry := workedRegistry
          healthPaused := false
          recoveryOnly := false
          forceCleanJobs := false
          backendAuthority := none
          connectionBinding := none }
      timeline := ⟨0⟩
      updates := [] }
  allocator := workedAllocator
  telemetry := []
  observed := []
  turns := []
  instant := 0

theorem workedWorld_opened : workedWorld.Opened where
  actor := ⟨7, workedEdgeConfig,
    ⟨VardiffController.workedVardiffConfig, VardiffController.workedTarget 1000⟩, 0, rfl⟩
  telemetry := rfl
  observed := rfl

/-- A call with nobody else around. -/
def alone (call : ActorCall) : Surroundings × ActorCall := (⟨workedAllocator, []⟩, call)

def workedLogin : List (Surroundings × ActorCall) :=
  [alone (.handleRequest (.subscribe (.number 1)) 1),
    alone (.handleRequest (.authorize (.number 2) [97] []) 2),
    alone (.completeAuthorization ⟨7, 1, [97], []⟩ (.ok ⟨workedWorker, 3, by decide⟩))]

/-- A share of job 1 with one of the miner's nonces. -/
def workedShare (nonce : ℕ) (nowMs : Millis) : Surroundings × ActorCall :=
  alone (.handleRequest (.submit (.number 3) [97] 1 1 (.twentyEight (BitVec.ofNat _ nonce)) 0) nowMs)

/-- The completion of a share that was committed now. -/
def workedCompletion (ticket : ℕ) : Surroundings × ActorCall :=
  alone (.completeSubmission ⟨7, ticket⟩ (.ok ⟨⟨2, 1, 1, 1, 9, []⟩, false⟩))

/-- Two shares completed in the other order, and a tick after them. -/
theorem vardiff_clock_never_back_crossed :
    let steps := workedLogin ++ [workedShare 1 10, workedShare 2 12, workedCompletion 3,
      workedCompletion 2, alone (.tickVardiff 20)]
    (∀ outcome ∈ workedWorld.outcomes workedExternal steps,
      outcome ≠ .failed (.vardiff .clockMovedBackwards)) ∧
      (workedWorld.after workedExternal steps).observed.map (·.2) = [10, 12] := by
  intro steps
  have hobserved : (workedWorld.after workedExternal steps).observed.map (·.2) = [10, 12] := by
    decide +kernel
  exact ⟨vardiff_clock_never_back workedExternal workedWorld workedWorld_opened steps
    (by decide +kernel) (by decide +kernel), hobserved⟩

/-- A tick at 20 overtakes the share admitted at 10.  When this share is completed, vardiff finds
    its time in the past, and the connection is closed. -/
theorem vardiff_clock_back_overtaken :
    let steps := workedLogin ++ [workedShare 1 10, alone (.tickVardiff 20), workedCompletion 2]
    (timesOf steps).Pairwise (· ≤ ·) ∧
      (workedWorld.outcomes workedExternal steps).getLast? =
        some (.failed (.vardiff .clockMovedBackwards)) ∧
      (workedWorld.after workedExternal steps.dropLast).actor.closed = false ∧
      (workedWorld.after workedExternal steps).actor.closed = true := by
  decide +kernel

end WcashPool.Edge
