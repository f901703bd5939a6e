/-
  WcashPool.Edge.CompletionOrder — completions of pending shares in any order.

  The drain releases a longer or shorter part of the queue at each completion,
  depending on which shares are completed first.  In the end it has released the
  shares up to the first one without a result, and vardiff was told of those
  among them that count, in the order of their admission.

  Main results: `drain_spec`, `completeSubmission_spec`, `delivery_spec` and
  `completion_order_independent`.
-/
import WcashPool.Edge.Timing

namespace WcashPool.Edge

open Fallible Protocol WcashPool.Core Client Tasks Tasks.Task

/-! ## §1. What is due -/

/-- The share has its result, or gets it among these tickets. -/
def ready (tickets : List ℕ) (share : PendingShareState) : Bool :=
  share.vardiffSample.isSome || tickets.contains share.ticket

/-- Does the share count for vardiff, with its own sample or the one of its result? -/
def counts (result : ℕ → Act.ShareResult) (share : PendingShareState) : Bool :=
  share.vardiffSample.getD (Act.sampleOf share (result share.ticket))

def stamp (share : PendingShareState) : TargetBinding × Millis :=
  (share.target, share.admittedAtMs)

/-- **What vardiff is told of**, once these tickets have their results: the shares that count, up
    to the first one without a result. -/
def due (result : ℕ → Act.ShareResult) (tickets : List ℕ) (rows : List PendingShareState) :
    List (TargetBinding × Millis) :=
  ((rows.takeWhile (ready tickets)).filter (counts result)).map stamp

/-- The shares behind them. -/
def waiting (rows : List PendingShareState) : List PendingShareState := rows.dropWhile (ready [])

def observeAll (vardiff : VardiffController) (shares : List (TargetBinding × Millis)) :
    VardiffController :=
  shares.foldl (fun vardiff share => (vardiff.observeShare share.1 share.2).2) vardiff

section Due

variable {result : ℕ → Act.ShareResult} {tickets : List ℕ} {share : PendingShareState}
  {rows : List PendingShareState}

theorem due_cons : due result tickets (share :: rows) =
    if ready tickets share then
      (if counts result share then [stamp share] else []) ++ due result tickets rows
    else [] := by
  unfold due
  rw [List.takeWhile_cons]
  split
  · rw [List.filter_cons]
    split
    · rfl
    · rfl
  · rfl

theorem waiting_cons :
    waiting (share :: rows) = if ready [] share then waiting rows else share :: rows :=
  List.dropWhile_cons

theorem ready_of_sample (h : ready [] share = true) : ready tickets share = true := by
  unfold ready at h ⊢
  rw [List.contains_nil, Bool.or_false] at h
  rw [h, Bool.true_or]

/-- What is due without new results comes first. -/
theorem due_split (result : ℕ → Act.ShareResult) (tickets : List ℕ)
    (rows : List PendingShareState) :
    due result tickets rows = due result [] rows ++ due result tickets (waiting rows) := by
  induction rows with
  | nil => rfl
  | cons share rows ih =>
    rw [waiting_cons, due_cons, @due_cons _ []]
    cases hready : ready [] share with
    | true => rw [if_pos (ready_of_sample hready), if_pos rfl, if_pos rfl, ih, List.append_assoc]
    | false => rw [← due_cons, if_neg nofun, if_neg nofun, List.nil_append]

/-- A new share without a result changes nothing. -/
theorem due_append_pending (h : ready tickets share = false) :
    due result tickets (rows ++ [share]) = due result tickets rows := by
  induction rows with
  | nil =>
    rw [List.nil_append, due_cons, h]
    rfl
  | cons first rows ih => rw [List.cons_append, due_cons, due_cons, ih]

theorem due_waiting : due result [] (waiting rows) = [] := by
  have hsplit := due_split result [] rows
  exact List.self_eq_append_right.mp hsplit

/-- A result that is stored is a result delivered. -/
theorem due_stored {ticket : ℕ} (h : ∀ share ∈ rows, share.ticket = ticket →
      share.vardiffSample = none) :
    due result tickets (rows.map fun share =>
        if share.ticket = ticket then Act.completed (result ticket) share else share) =
      due result (ticket :: tickets) rows := by
  induction rows with
  | nil => rfl
  | cons share rows ih =>
    have ih := ih fun share hmem => h share (List.mem_cons_of_mem _ hmem)
    rw [List.map_cons, due_cons, due_cons, ih]
    by_cases heq : share.ticket = ticket
    · have hnone := h share List.mem_cons_self heq
      simp [heq, ready, counts, stamp, Act.completed, hnone]
    · simp [heq, ready]

/-- The order of the results does not matter. -/
theorem due_congr {tickets' : List ℕ} (h : tickets.Perm tickets') :
    due result tickets rows = due result tickets' rows := by
  have hready : ready tickets = ready tickets' := by
    funext share
    unfold ready
    rw [h.contains_eq]
  unfold due
  rw [hready]

end Due

/-! ## §2. One completion -/

/-- Observations in a row. -/
theorem observeAll_append (vardiff : VardiffController) (first rest : List (TargetBinding × Millis)) :
    observeAll vardiff (first ++ rest) = observeAll (observeAll vardiff first) rest :=
  List.foldl_append

/-- Vardiff was told of exactly these shares. -/
structure Released (w w' : ConnectionWorld) (shares : List (TargetBinding × Millis)) : Prop where
  observed : w'.observed = w.observed ++ shares
  vardiff : w'.actor.vardiff = w.actor.vardiff.map (observeAll · shares)

variable {w w' : ConnectionWorld}

theorem Released.nothing (hobserved : w'.observed = w.observed)
    (hvardiff : w'.actor.vardiff = w.actor.vardiff) : Released w w' [] where
  observed := hobserved.trans (List.append_nil _).symm
  vardiff := hvardiff.trans Option.map_id'.symm

/-- Releases in a row. -/
theorem Released.trans {w₁ w₂ w₃ : ConnectionWorld} {first rest : List (TargetBinding × Millis)}
    (h : Released w₁ w₂ first) (h' : Released w₂ w₃ rest) : Released w₁ w₃ (first ++ rest) where
  observed := by rw [h'.observed, h.observed, List.append_assoc]
  vardiff := by
    rw [h'.vardiff, h.vardiff, Option.map_map]
    simp only [Function.comp_def, observeAll_append]

/-- **The drain** releases the shares up to the first one without a sample. -/
structure Drained (w w' : ConnectionWorld) (result : ℕ → Act.ShareResult) : Prop where
  rows : w'.actor.pendingShares.rows = waiting w.actor.pendingShares.rows
  released : Released w w' (due result [] w.actor.pendingShares.rows)
  ticket : w'.actor.nextTicket = w.actor.nextTicket

variable {result : ℕ → Act.ShareResult} {share : PendingShareState} {ext : External}

theorem sample_of_counts {sample : Bool} (h : share.vardiffSample = some sample) :
    counts result share = sample := by
  unfold counts
  rw [h]
  rfl

theorem ready_nil : ready [] share = share.vardiffSample.isSome :=
  Bool.or_false _

/-- Telling vardiff of one share, if it counts. -/
theorem observeSample_done {sample : Bool} (hvardiff : w.actor.vardiff ≠ none)
    (h : Act.observeSample sample share w = (.done (), w')) :
    Released w w' (if sample then [stamp share] else []) := by
  cases sample with
  | true =>
    obtain ⟨vardiff, hvardiff⟩ := Option.ne_none_iff_exists'.mp hvardiff
    have hobserve : Act.observeShare share.target share.admittedAtMs w = (.done (), w') := h
    rw [observeShare_eq hvardiff] at hobserve
    injection hobserve with _ hworld
    rw [← hworld]
    refine ⟨rfl, ?_⟩
    rw [hvardiff]
    rfl
  | false =>
    obtain rfl : w = w' := (Prod.mk.inj h).2
    exact .nothing rfl rfl

/-- **What one drain releases.** -/
theorem drain_spec {tickets : List ℕ} (result : ℕ → Act.ShareResult) (hqueued : Queued w.actor)
    (horder : w.actor.timingOrder = tickets) (h : Act.drainFrom tickets w = (.done (), w')) :
    Drained w w' result := by
  induction tickets generalizing w with
  | nil =>
    obtain rfl : w = w' := (Prod.mk.inj h).2
    have hrows : w.actor.pendingShares.rows = [] :=
      List.map_eq_nil_iff.mp (hqueued.order.trans horder)
    refine ⟨?_, ?_, rfl⟩
    · rw [hrows]
      rfl
    · rw [hrows]
      exact .nothing rfl rfl
  | cons ticket rest ih =>
    obtain ⟨share, rows, hrows, rfl⟩ := hqueued.head horder
    unfold Act.drainFrom at h
    rw [get_bind, Table.find_of_mem (t := w.actor.pendingShares) (hrows ▸ List.mem_cons_self)] at h
    dsimp only at h
    cases hsample : share.vardiffSample with
    | none =>
      -- the first share has no result: the drain stops
      rw [hsample] at h
      obtain rfl : w = w' := (Prod.mk.inj h).2
      refine ⟨?_, ?_, rfl⟩
      · rw [hrows, waiting_cons, ready_nil, hsample]
        rfl
      · rw [hrows, due_cons, ready_nil, hsample]
        exact .nothing rfl rfl
    | some sample =>
      rw [hsample] at h
      have hvardiff : w.actor.vardiff ≠ none := fun hnone => by
        have hempty := (hqueued.tracked hnone).2
        rw [hrows] at hempty
        cases hempty
      obtain ⟨_, w₀, hset, h⟩ := bind_eq_done.mp h
      cases hset
      obtain ⟨_, w₁, hobserve, h⟩ := bind_eq_done.mp h
      have hreleased := observeSample_done (w := w.popped share) hvardiff hobserve
      have hqueued₁ := ((Queued.rules 0).observes sample hqueued hrows).1
      obtain ⟨vardiff, observed, hstate, -⟩ := observeSample_state (w.popped share) sample share
      rw [hobserve] at hstate hqueued₁
      obtain rfl : w₁ = _ := hstate
      obtain ⟨hrows', hreleased', hticket'⟩ := ih hqueued₁ (congrArg List.tail horder) h
      replace hrows' := hrows'.trans (congrArg waiting (Queued.rows_popFirst hrows))
      replace hreleased' := congrArg (due result []) (Queued.rows_popFirst hrows) ▸ hreleased'
      refine ⟨?_, ?_, hticket'⟩
      · rw [hrows', hrows, waiting_cons, ready_nil, hsample]
        rfl
      · rw [hrows, due_cons, ready_nil, hsample, sample_of_counts hsample]
        have hfirst : Released w _ (if sample then [stamp share] else []) := { hreleased with }
        exact hfirst.trans hreleased'

theorem Quiet.open (h : Quiet w w') (hopen : w'.actor.closed = false) :
    w'.actor.pendingShares = w.actor.pendingShares ∧ w'.actor.timingOrder = w.actor.timingOrder ∧
      w.actor.closed = false := by
  obtain ⟨hshares, horder, hclosed⟩ | ⟨-, -, hclosed⟩ := h.queue
  · exact ⟨hshares, horder, hclosed.symm.trans hopen⟩
  · rw [hopen] at hclosed
    cases hclosed

theorem drainOrClose_done (h : Act.drainOrClose w = (.done (), w'))
    (hopen : w'.actor.closed = false) :
    w.actor.closed = false ∧ Act.drainFrom w.actor.timingOrder w = (.done (), w') := by
  unfold Act.drainOrClose at h
  split at h
  · rename_i hclosed
    obtain rfl : w = w' := (Prod.mk.inj h).2
    rw [hopen] at hclosed
    cases hclosed
  · rename_i hclosed
    refine ⟨Bool.eq_false_iff.mpr hclosed, ?_⟩
    show Act.drainCompletedTiming w = _
    generalize Act.drainCompletedTiming w = answer at h
    obtain ⟨a | error | _, w₁⟩ := answer
    · exact h
    · cases h
    · exact h

/-- **What a successful completion has done** where it leaves the connection open: the result is
    stored, and what is due then is released. -/
structure Completion (w w' : ConnectionWorld) (result : ℕ → Act.ShareResult) (ticket : ℕ) :
    Prop where
  pending : ∀ share ∈ w.actor.pendingShares.rows, share.ticket = ticket → share.vardiffSample = none
  rows : w'.actor.pendingShares.rows =
    waiting (Act.storeSample ticket (result ticket) w.actor).pendingShares.rows
  released : Released w w'
    (due result [] (Act.storeSample ticket (result ticket) w.actor).pendingShares.rows)
  ticket : w.actor.nextTicket ≤ w'.actor.nextTicket

theorem Quietly.quiet {α : Type} {act : Act α} {a : α} (hquiet : Quietly w (act w))
    (h : act w = (.done a, w')) : Quiet w w' := by
  have hmoved := hquiet.1
  rwa [h] at hmoved

/-- **What one completion releases.** -/
theorem completeSubmission_spec {ticket : ShareTicket} (hqueued : Queued w.actor)
    (h : Act.completeSubmission ticket (result ticket.ticket) w = (.done (), w'))
    (hopen : w'.actor.closed = false) : Completion w w' result ticket.ticket := by
  obtain ⟨_, w₀, hrequire, hrest⟩ := bind_eq_done.mp h
  obtain rfl := requireOpen_done hrequire
  rw [get_bind] at hrest
  split at hrest
  · cases hrest
  · cases hfind : w₀.actor.pendingShares.find ticket.ticket with
    | none =>
      rw [hfind] at hrest
      cases hrest
    | some share =>
      rw [hfind] at hrest
      dsimp only at hrest
      split at hrest
      · cases hrest
      · rename_i hmatches
        obtain ⟨_, w₁, hset, hrest⟩ := bind_eq_done.mp hrest
        cases hset
        have hnone : share.vardiffSample = none := by
          cases hsample : share.vardiffSample with
          | none => rfl
          | some sample =>
            refine absurd ?_ hmatches
            cases result ticket.ticket with
            | ok commit => simp [Act.completionMatches, hsample]
            | error error => simp [Act.completionMatches, hsample]
        cases hresponse : share.responseId with
        | none =>
          rw [hresponse] at hrest
          cases hrest
        | some index =>
          rw [hresponse] at hrest
          obtain ⟨_, w₂, htake, hrest⟩ := bind_eq_done.mp hrest
          obtain ⟨_, w₃, hrecord, hrest⟩ := bind_eq_done.mp hrest
          obtain ⟨_, w₄, hanswer, hdrain⟩ := bind_eq_done.mp hrest
          -- none of the three touches the queue while the connection stays open
          have hquiet := (Quietly.quiet quiet_takeResponseId htake).trans
            ((Quietly.quiet quiet_recordOutcome hrecord).trans
              (Quietly.quiet quiet_answerShare hanswer))
          obtain ⟨hopen₄, hloop⟩ := drainOrClose_done hdrain hopen
          obtain ⟨hshares, -, -⟩ := hquiet.open hopen₄
          have hqueued₄ := (hqueued.stored ticket.ticket (result ticket.ticket)).kept hquiet.toKept
          obtain ⟨hrows, hreleased, hnext⟩ := drain_spec result hqueued₄ rfl hloop
          rw [hshares] at hrows hreleased
          have hsame : Released w₀ w₄ [] := .nothing hquiet.observed hquiet.same
          constructor
          · intro other hmem heq
            have hfound := Table.find_of_mem hmem
            rw [heq, hfind] at hfound
            injection hfound with hsame
            exact hsame ▸ hnone
          · exact hrows
          · exact hsame.trans hreleased
          · exact hquiet.ticket.trans hnext.ge

/-! ## §3. Runs of completions -/

/-- The calls that are no vardiff calls themselves. -/
def ActorCall.leavesVardiff : ActorCall → Bool
  | .handleRequest _ _ | .completeSubmission _ _ | .reconcileJobs | .popOutbound
  | .transportFailed | .invalidateAuthorization => true
  | .completeAuthorization _ (.error _) => true
  | .completeAuthorization _ (.ok _) => false
  | .applyJobUpdate (.retired _) | .applyJobUpdate .suspended => true
  | .applyJobUpdate (.activated _ _) => false
  | .tickVardiff _ => false

def ActorCall.completed? : ActorCall → Option ℕ
  | .completeSubmission ticket _ => some ticket.ticket
  | _ => none

/-- The tickets that a run delivers results for, in its order. -/
def deliveredBy (steps : List (Surroundings × ActorCall)) : List ℕ :=
  steps.filterMap (·.2.completed?)

/-- Every completion of the run succeeds. -/
def AllComplete (ext : External) : ConnectionWorld → List (Surroundings × ActorCall) → Prop
  | _, [] => True
  | w, step :: steps =>
    (step.2.completed?.isSome → (w.perform ext step).1 = .done none) ∧
      AllComplete ext (w.perform ext step).2 steps

instance decidableAllComplete (ext : External) : ∀ (w : ConnectionWorld)
    (steps : List (Surroundings × ActorCall)), Decidable (AllComplete ext w steps)
  | _, [] => isTrue trivial
  | w, step :: steps =>
    haveI := decidableAllComplete ext (w.perform ext step).2 steps
    inferInstanceAs (Decidable ((step.2.completed?.isSome → (w.perform ext step).1 = .done none) ∧
      AllComplete ext (w.perform ext step).2 steps))

/-- **Results delivered for pending shares**: each share gets the result that is its own, every
    completion succeeds, and the connection is open afterwards.  Other calls may come in between,
    also new shares, if they do not call vardiff. -/
structure Delivery (ext : External) (w : ConnectionWorld) (result : ℕ → Act.ShareResult)
    (steps : List (Surroundings × ActorCall)) : Prop where
  calm : ∀ step ∈ steps, step.2.leavesVardiff = true
  results : ∀ step ∈ steps, ∀ ticket answer, step.2 = .completeSubmission ticket answer →
    answer = result ticket.ticket
  pending : ∀ ticket ∈ deliveredBy steps, ticket ∈ w.actor.pendingShares.rows.map (·.ticket)
  complete : AllComplete ext w steps
  stays : (w.after ext steps).actor.closed = false

/-- A call that is neither a completion nor a vardiff call is quiet or admits a share. -/
theorem calm_step (ext : External) (w : ConnectionWorld) (surroundings : Surroundings)
    {call : ActorCall} (hcalm : call.leavesVardiff = true) (hother : call.completed? = none) :
    ∃ nowMs, Admits nowMs w (w.perform ext (surroundings, call)).2 := by
  have hset := w.same_within surroundings
  have hquiet : ∀ {act : Act Unit}, Quietly (w.within surroundings) (act (w.within surroundings)) →
      ∃ nowMs, Admits nowMs w ((act >>= fun _ => pure none : Act (Option ConnectionAction))
        (w.within surroundings)).2 := by
    intro act hact
    refine ⟨0, .inl (hset.quiet.trans ?_)⟩
    exact (Fine.next hact (quiet_pure (a := none))).1
  cases call with
  | handleRequest request nowMs => exact ⟨nowMs, Admits.after hset handleRequest_spec.1⟩
  | completeAuthorization ticket result =>
    cases result with
    | ok grant => cases hcalm
    | error error => exact hquiet quiet_denied
  | completeSubmission ticket result => cases hother
  | applyJobUpdate update =>
    cases update with
    | activated generation cleanJobs => cases hcalm
    | retired jobId => exact hquiet quiet_retired
    | suspended => exact hquiet quiet_suspended
  | tickVardiff nowMs => cases hcalm
  | reconcileJobs => exact hquiet quiet_reconcileJobs
  | popOutbound =>
    refine ⟨0, .inl (hset.quiet.trans ?_)⟩
    exact (Fine.next quiet_popOutbound (quiet_pure (a := none))).1
  | transportFailed => exact hquiet quiet_close
  | invalidateAuthorization => exact hquiet quiet_close

/-- A closed connection stays closed. -/
theorem closed_rules (nowMs : Millis) :
    Rules nowMs (fun w => Queued w.actor ∧ w.actor.closed = true) fun _ => False where
  errors := fun _ hbad => hbad.elim
  queued := fun h => h.1
  kept := by
    rintro w w' ⟨hqueued, hclosed⟩ hkept
    refine ⟨hqueued.kept hkept, ?_⟩
    obtain ⟨-, -, hsame⟩ | ⟨-, -, hgone⟩ := hkept.queue
    · exact hsame.trans hclosed
    · exact hgone
  appended := fun h happended => ⟨h.1.appended happended, happended.closed.trans h.2⟩
  stored := fun ticket result h => ⟨h.1.stored ticket result, h.2⟩
  observes := by
    rintro w share rows sample ⟨hqueued, hclosed⟩ hrows
    refine ⟨⟨((Queued.rules nowMs).observes sample hqueued hrows).1, ?_⟩, fun _ _ hbad => hbad⟩
    obtain ⟨_, _, hstate, -⟩ := observeSample_state (w.popped share) sample share
    rw [hstate]
    exact hclosed

/-- An actor that is open at the end was open before. -/
theorem open_of_after (ext : External) (hqueued : Queued w.actor)
    (steps : List (Surroundings × ActorCall)) (hopen : (w.after ext steps).actor.closed = false) :
    w.actor.closed = false := by
  induction steps generalizing w with
  | nil => exact hopen
  | cons step steps ih =>
    have hopen₁ := ih (hqueued.step ext step) hopen
    refine Bool.eq_false_iff.mpr fun hclosed => ?_
    have hstep : (w.perform ext step).2.actor.closed = true := by
      refine ((closed_rules (step.2.time?.getD 0)).step ⟨hqueued, hclosed⟩ step.1 ?_ ?_).1.2
      · intro ms htime
        rw [htime]
        rfl
      · rintro w' hstopped - -
        refine ⟨(closed_rules 0).kept hstopped ?_, fun _ _ hbad => hbad⟩
        exact (tickVardiff_quiet (.inl hstopped.2)).1.toKept
    exact Bool.false_ne_true (hopen₁.symm.trans hstep)

/-- A new share is behind all others and without a result, so what is due stays the same. -/
theorem Admits.due {nowMs : Millis} (h : Admits nowMs w w') (hqueued : Queued w.actor)
    (hopen : w'.actor.closed = false) :
    Released w w' [] ∧ w.actor.nextTicket ≤ w'.actor.nextTicket ∧
      ∀ tickets, (∀ ticket ∈ tickets, ticket < w.actor.nextTicket) →
        due result tickets w'.actor.pendingShares.rows =
          due result tickets w.actor.pendingShares.rows := by
  obtain hquiet | ⟨share, happended⟩ := h
  · obtain ⟨hshares, -, -⟩ := hquiet.open hopen
    exact ⟨.nothing hquiet.observed hquiet.same, hquiet.ticket, fun _ _ => by rw [hshares]⟩
  · refine ⟨.nothing happended.observed happended.vardiff, ?_, fun tickets hold => ?_⟩
    · rw [happended.next]
      exact Nat.le_succ _
    · have hnew : share.ticket ∉ tickets := fun hmem =>
        (hold _ hmem).ne happended.ticket
      rw [hqueued.rows_appended happended, due_append_pending]
      unfold ready
      rw [happended.pending]
      simp [hnew]

theorem deliveredBy_cons (step : Surroundings × ActorCall) (steps : List (Surroundings × ActorCall)) :
    deliveredBy (step :: steps) = step.2.completed?.toList ++ deliveredBy steps := by
  unfold deliveredBy
  rw [List.filterMap_cons]
  cases step.2.completed? with
  | none => rfl
  | some ticket => rfl

/-- One completion of a run. -/
theorem completion_step {surroundings : Surroundings} {ticket : ShareTicket}
    (hqueued : Queued w.actor)
    (hdone : (w.perform ext (surroundings, .completeSubmission ticket (result ticket.ticket))).1 =
      .done none) (hopen : (w.perform ext (surroundings,
      .completeSubmission ticket (result ticket.ticket))).2.actor.closed = false) :
    Completion w (w.perform ext (surroundings, .completeSubmission ticket (result ticket.ticket))).2
      result ticket.ticket := by
  generalize hperform : w.perform ext
    (surroundings, .completeSubmission ticket (result ticket.ticket)) = answer at hdone hopen ⊢
  obtain ⟨outcome, w'⟩ := answer
  obtain rfl : outcome = .done none := hdone
  obtain ⟨_, w₁, hcomplete, hpure⟩ := bind_eq_done.mp hperform
  obtain rfl : w₁ = w' := (Prod.mk.inj hpure).2
  have hspec := completeSubmission_spec
    (w := w.within surroundings) hqueued hcomplete hopen
  exact { hspec with released := { hspec.released with } }

variable {steps : List (Surroundings × ActorCall)}

/-- **A run of completions** has released what is due with all its results; without a completion
    nothing is released. -/
theorem delivery_spec (hqueued : Queued w.actor)
    (hcalm : ∀ step ∈ steps, step.2.leavesVardiff = true)
    (hresults : ∀ step ∈ steps, ∀ ticket answer, step.2 = .completeSubmission ticket answer →
      answer = result ticket.ticket)
    (hknown : ∀ ticket ∈ deliveredBy steps, ticket < w.actor.nextTicket)
    (hcomplete : AllComplete ext w steps) (hstays : (w.after ext steps).actor.closed = false) :
    Released w (w.after ext steps) (if deliveredBy steps = [] then [] else
      due result (deliveredBy steps) w.actor.pendingShares.rows) := by
  induction steps generalizing w with
  | nil => exact .nothing rfl rfl
  | cons step steps ih =>
    obtain ⟨surroundings, call⟩ := step
    obtain ⟨hdone, hcomplete⟩ := hcomplete
    have hqueued₁ := hqueued.step ext (surroundings, call)
    have hopen₁ := open_of_after ext hqueued₁ steps hstays
    have ih := fun hknown => ih hqueued₁
      (fun step hmem => hcalm step (List.mem_cons_of_mem _ hmem))
      (fun step hmem => hresults step (List.mem_cons_of_mem _ hmem)) hknown hcomplete hstays
    have hcalm := hcalm _ List.mem_cons_self
    have hresults := hresults _ List.mem_cons_self
    rw [deliveredBy_cons] at hknown ⊢
    cases hcall : call.completed? with
    | none =>
      rw [hcall, Option.toList_none, List.nil_append] at hknown
      obtain ⟨nowMs, hadmits⟩ := calm_step ext w surroundings hcalm hcall
      obtain ⟨hsame, hticket, hdue⟩ := hadmits.due hqueued hopen₁
      have hreleased := ih fun ticket hmem => (hknown ticket hmem).trans_le hticket
      rw [hdue _ hknown] at hreleased
      exact hsame.trans hreleased
    | some number =>
      obtain ⟨ticket, rfl⟩ : ∃ ticket, call = .completeSubmission ticket (result ticket.ticket) := by
        cases call with
        | completeSubmission ticket answer => exact ⟨ticket, by rw [hresults ticket answer rfl]⟩
        | _ => cases hcall
      obtain rfl : ticket.ticket = number := Option.some.inj hcall
      obtain ⟨hpending, hrows, hreleased₁, hticket⟩ :=
        completion_step hqueued (hdone rfl) hopen₁
      have hreleased := ih
        fun other hmem => (hknown other (List.mem_append_right _ hmem)).trans_le hticket
      -- behind a completion nothing waits that is due without further results
      rw [hrows, ite_eq_right_iff.mpr fun hnone => by rw [hnone, due_waiting]] at hreleased
      rw [if_neg (by simp [hcall])]
      have hboth := hreleased₁.trans hreleased
      rw [← due_split, Queued.rows_storeSample, due_stored hpending] at hboth
      exact hboth

/-- **What a delivery releases in all.** -/
theorem Delivery.released (h : Delivery ext w result steps) (hqueued : Queued w.actor) :
    Released w (w.after ext steps) (if deliveredBy steps = [] then [] else
      due result (deliveredBy steps) w.actor.pendingShares.rows) := by
  refine delivery_spec hqueued h.calm h.results ?_ h.complete h.stays
  intro ticket hmem
  obtain ⟨share, hshare, rfl⟩ := List.mem_map.mp (h.pending ticket hmem)
  exact hqueued.fresh share hshare

/-- **Two orders of the same results.**  From every state of every run, if the same results are
    delivered for the same pending shares, every completion succeeds and the connection is still
    open in the end, then vardiff is left in the same state.  It was told, in the order of
    admission and once each, of exactly the shares that count, up to the first share that has no
    result; without any result it was told of none. -/
theorem completion_order_independent (ext : External) (start : ConnectionWorld)
    (hopened : start.Opened) (history : List (Surroundings × ActorCall))
    (result : ℕ → Act.ShareResult) (first second : List (Surroundings × ActorCall))
    (hfirst : Delivery ext (start.after ext history) result first)
    (hsecond : Delivery ext (start.after ext history) result second)
    (hsame : (deliveredBy first).Perm (deliveredBy second)) :
    let w := start.after ext history
    let shares := if deliveredBy first = [] then [] else
      ((w.actor.pendingShares.rows.takeWhile (ready (deliveredBy first))).filter
        (counts result)).map stamp
    (w.after ext first).actor.vardiff = (w.after ext second).actor.vardiff ∧
      (w.after ext first).observed = w.observed ++ shares ∧
      (w.after ext second).observed = w.observed ++ shares := by
  intro w shares
  have hqueued : Queued w.actor := (Queued.opened hopened).after ext history
  have hfirst := hfirst.released hqueued
  have hsecond := hsecond.released hqueued
  have hnone : deliveredBy second = [] ↔ deliveredBy first = [] :=
    ⟨fun h => (h ▸ hsame).eq_nil, fun h => (h ▸ hsame.symm).eq_nil⟩
  simp only [← due_congr hsame, hnone] at hsecond
  exact ⟨hfirst.vardiff.trans hsecond.vardiff.symm, hfirst.observed, hsecond.observed⟩

/-! Three shares, of which the second one is a replay; the results come in two orders, with a new
share in between. -/

def workedResult (ticket : ℕ) : Act.ShareResult := .ok ⟨⟨2, 1, 1, 1, 9, []⟩, ticket == 3⟩

def workedDelivery (ticket : ℕ) : Surroundings × ActorCall :=
  alone (.completeSubmission ⟨7, ticket⟩ (workedResult ticket))

def workedShares : List (Surroundings × ActorCall) :=
  workedLogin ++ [workedShare 1 10, workedShare 2 12, workedShare 3 14]

theorem delivery_of_tickets (hsteps : ∀ step ∈ steps, (∃ ticket, step = workedDelivery ticket) ∨
      ∃ nonce nowMs, step = workedShare nonce nowMs)
    (hpending : ∀ ticket ∈ deliveredBy steps, ticket ∈ w.actor.pendingShares.rows.map (·.ticket))
    (hcomplete : AllComplete workedExternal w steps)
    (hstays : (w.after workedExternal steps).actor.closed = false) :
    Delivery workedExternal w workedResult steps where
  calm := by
    intro step hmem
    obtain ⟨ticket, rfl⟩ | ⟨nonce, nowMs, rfl⟩ := hsteps step hmem
    · rfl
    · rfl
  results := by
    intro step hmem ticket answer hcall
    obtain ⟨number, rfl⟩ | ⟨nonce, nowMs, rfl⟩ := hsteps step hmem
    · injection hcall with hticket hanswer
      rw [← hanswer, ← hticket]
    · cases hcall
  pending := hpending
  complete := hcomplete
  stays := hstays

def workedInOrder : List (Surroundings × ActorCall) :=
  [workedDelivery 2, workedDelivery 3, workedDelivery 4]

def workedReversed : List (Surroundings × ActorCall) :=
  [workedDelivery 4, workedShare 4 20, workedDelivery 3, workedDelivery 2]

theorem completion_order_independent_reversed :
    ((workedWorld.after workedExternal workedShares).after workedExternal
        workedInOrder).actor.vardiff =
      ((workedWorld.after workedExternal workedShares).after workedExternal
        workedReversed).actor.vardiff ∧
      ((workedWorld.after workedExternal workedShares).after workedExternal
        workedReversed).observed.map (·.2) = [10, 14] := by
  have hfirst : Delivery workedExternal (workedWorld.after workedExternal workedShares) workedResult
      workedInOrder :=
    delivery_of_tickets (by simp [workedInOrder]) (by decide +kernel) (by decide +kernel)
      (by decide +kernel)
  have hsecond : Delivery workedExternal (workedWorld.after workedExternal workedShares) workedResult
      workedReversed :=
    delivery_of_tickets (by simp [workedReversed]) (by decide +kernel) (by decide +kernel)
      (by decide +kernel)
  have hindependent := completion_order_independent workedExternal workedWorld workedWorld_opened
    workedShares workedResult workedInOrder workedReversed hfirst hsecond (by decide +kernel)
  exact ⟨hindependent.1, by decide +kernel⟩

/-- The same three shares, where the result of the second one is that the service is unavailable.
    Delivered last, all three completions succeed; but the last one closes the connection, and
    vardiff is never told of the third share, which was accepted. -/
theorem completion_last_unavailable :
    let w := workedWorld.after workedExternal workedShares
    let steps := [workedCompletion 2, workedCompletion 4,
      alone (.completeSubmission ⟨7, 3⟩ (.error .unavailable))]
    w.actor.pendingShares.rows.map (fun share => (share.ticket, share.winnerRecovery)) =
        [(2, false), (3, false), (4, false)] ∧
      w.outcomes workedExternal steps = [.done none, .done none, .done none] ∧
      w.observed = [] ∧
      (w.after workedExternal steps).observed.map (·.2) = [10] ∧
      (w.after workedExternal steps).actor.closed = true := by
  decide +kernel

end WcashPool.Edge
