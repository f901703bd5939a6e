/-
  WcashPool.Core.WinnerRecovery — what the recovery of Zcash winners can reach.

  Beside its roles the registry keeps a short list of jobs whose Zcash winners
  may still be forwarded after ordinary work has ended.  The list outlives
  expiry, retirement and snapshots; a suspension empties it, a closure or a new
  Zcash tip takes a job off it for good.

  A job gets on the list only by taking a role.  An activation may lose the role
  again within the same call, where its whole lifetime lies before the clock, so
  the registry inside an event counts too (`RegistryCall.between`).

  Main results: `perform_list`, `perform_barred` and `winner_recovery_bound`.
-/
import WcashPool.Core.JobLeases

namespace WcashPool.Core

open Fallible Protocol

/-! ## §1. The list -/

namespace GenerationRegistry

/-- Bounded and without duplicates. -/
structure ShortList (ids : List JobId) : Prop where
  bounded : ids.length ≤ maxZcashWinnerRecoveryJobs
  nodup : ids.Nodup

theorem ShortList.sublist {ids ids' : List JobId} (h : ShortList ids) (hlist : ids'.Sublist ids) :
    ShortList ids' :=
  ⟨hlist.length_le.trans h.bounded, h.nodup.sublist hlist⟩

section List

variable {r r' : GenerationRegistry} {id id' : JobId}

theorem mem_rememberWinnerRecovery (h : id' ∈ (r.rememberWinnerRecovery id).winnerRecovery) :
    id' ∈ r.winnerRecovery ∨ id' = id := by
  unfold rememberWinnerRecovery at h
  split at h
  · exact .inl h
  · obtain hkept | hnew := List.mem_append.mp h
    · split at hkept
      · exact .inl (List.mem_of_mem_tail hkept)
      · exact .inl hkept
    · exact .inr (List.mem_singleton.mp hnew)

/-- The oldest job makes room where the list is full. -/
theorem ShortList.remember (h : ShortList r.winnerRecovery) :
    ShortList (r.rememberWinnerRecovery id).winnerRecovery := by
  obtain ⟨hbounded, hnodup⟩ := h
  unfold rememberWinnerRecovery
  split
  · exact ⟨hbounded, hnodup⟩
  · next hnew =>
    refine ⟨?_, List.nodup_append.mpr ⟨?_, List.nodup_singleton id, fun a ha b hb heq => ?_⟩⟩
    · simp only [List.length_append, List.length_singleton]
      split <;> simp only [List.length_tail, maxZcashWinnerRecoveryJobs] at * <;> omega
    · split
      · exact hnodup.sublist (List.tail_sublist _)
      · exact hnodup
    · rw [List.mem_singleton.mp hb] at heq
      rw [heq] at ha
      split at ha
      · exact hnew (List.mem_of_mem_tail ha)
      · exact hnew ha

/-- Only the list itself decides what it becomes. -/
theorem rememberWinnerRecovery_congr (h : r'.winnerRecovery = r.winnerRecovery) :
    (r'.rememberWinnerRecovery id).winnerRecovery = (r.rememberWinnerRecovery id).winnerRecovery := by
  unfold rememberWinnerRecovery
  rw [h]
  split
  · exact h
  · rfl

theorem mem_rememberAll {ids : List JobId}
    (h : id ∈ (ids.foldl rememberWinnerRecovery r).winnerRecovery) :
    id ∈ r.winnerRecovery ∨ id ∈ ids := by
  induction ids generalizing r with
  | nil => exact .inl h
  | cons first ids ih =>
    obtain hmem | hmem := ih h
    · obtain hold | rfl := mem_rememberWinnerRecovery hmem
      · exact .inl hold
      · exact .inr (List.mem_cons_self ..)
    · exact .inr (List.mem_cons_of_mem _ hmem)

theorem ShortList.rememberAll (h : ShortList r.winnerRecovery) (ids : List JobId) :
    ShortList (ids.foldl rememberWinnerRecovery r).winnerRecovery := by
  induction ids generalizing r with
  | nil => exact h
  | cons first ids ih => exact ih h.remember

theorem rememberAll_congr (h : r'.winnerRecovery = r.winnerRecovery) (ids : List JobId) :
    (ids.foldl rememberWinnerRecovery r').winnerRecovery
      = (ids.foldl rememberWinnerRecovery r).winnerRecovery := by
  induction ids generalizing r r' with
  | nil => exact h
  | cons first ids ih => exact ih (rememberWinnerRecovery_congr h)

end List

/-! ## §2. How a job gets on the list -/

/-- The registry inside an event, before the closing expiry. -/
def eventBetween (ext : External) (r : GenerationRegistry) (event : BackendEvent)
    (anchor policyNow : ℕ) : Option GenerationRegistry :=
  (r.checkEvent ext event anchor policyNow).toOption.map fun now =>
    ((r.expireAt now).applyBody event anchor).2

end GenerationRegistry

def RegistryCall.between (ext : External) (r : GenerationRegistry) :
    RegistryCall → Option GenerationRegistry
  | .applyEvent event anchor => r.eventBetween ext event anchor (r.latest anchor)
  | .applyEventAt event anchor policyNow => r.eventBetween ext event anchor policyNow
  | _ => none

namespace GenerationRegistry

/-- The job held a current or recent role in the course of a successful call. -/
def HeldRole (ext : External) (r : GenerationRegistry) (call : RegistryCall) (id : JobId) : Prop :=
  (r.perform ext call).1 = .ok () ∧
    ((r.perform ext call).2.HasRole id ∨ ∃ mid ∈ call.between ext r, mid.HasRole id)

/-- What one call does to the list: some jobs that held a role are remembered, and some are
    dropped. -/
def ListStep (ext : External) (r : GenerationRegistry) (call : RegistryCall) : Prop :=
  ∃ ids : List JobId,
    (r.perform ext call).2.winnerRecovery.Sublist (ids.foldl rememberWinnerRecovery r).winnerRecovery ∧
    ∀ id ∈ ids, HeldRole ext r call id

section Steps

variable {ext : External} {r r' : GenerationRegistry} {id : JobId} {call : RegistryCall}

theorem ListStep.of_sublist (h : (r.perform ext call).2.winnerRecovery.Sublist r.winnerRecovery) :
    ListStep ext r call :=
  ⟨[], h, fun _ hmem => absurd hmem (List.not_mem_nil)⟩

theorem QueryStep.sublist {now : Option ℕ} (h : QueryStep r now r') :
    r'.winnerRecovery.Sublist r.winnerRecovery := by
  cases h with
  | suspended => exact List.nil_sublist _
  | untimed ht => exact ht.winners
  | timed _ ht => exact ht.winners

/-- An event adds at most one job to the list. -/
theorem BodyStep.list {event : BackendEvent} {anchor : ℕ} (h : BodyStep r anchor event r') :
    r'.winnerRecovery.Sublist r.winnerRecovery ∨
      ∃ id, r'.HasRole id ∧
        r'.winnerRecovery.Sublist (r.rememberWinnerRecovery id).winnerRecovery := by
  cases h with
  | idle _ _ hwinners => exact .inl hwinners
  | @activated _ _ entry =>
    refine .inr ⟨entry.id, .inl ?_, ?_⟩
    · obtain ⟨winners, hactivated⟩ := (r.extendRecent anchor).activateEntry_eq entry anchor
      rw [hactivated]
    · have hsame : (rememberWinnerRecovery { r.extendRecent anchor with
          entries := r.entries.put entry, current := some entry.id } entry.id).winnerRecovery
            = (r.rememberWinnerRecovery entry.id).winnerRecovery := rememberWinnerRecovery_congr rfl
      rw [← hsame]
      exact List.filter_sublist
  | ended _ _ _ _ _ hwinners => exact .inl hwinners
  | graced _ _ _ _ _ _ _ _ _ _ hwinners => exact .inl hwinners

/-- The registry inside a successful event. -/
theorem between_eq {event : BackendEvent} {anchor policyNow now : ℕ} {changed : GenerationRegistry}
    (hcall : call = .applyEventAt event anchor policyNow ∨
      (call = .applyEvent event anchor ∧ policyNow = r.latest anchor))
    (hcheck : r.checkEvent ext event anchor policyNow = .ok now)
    (hbody : (r.expireAt now).applyBody event anchor = (.ok (), changed)) :
    call.between ext r = some changed := by
  have hbetween : r.eventBetween ext event anchor policyNow = some changed := by
    unfold eventBetween
    rw [hcheck]
    exact congrArg some (congrArg Prod.snd hbody)
  obtain rfl | ⟨rfl, rfl⟩ := hcall <;> exact hbetween

/-- **How a job gets on the list.** -/
theorem perform_list (ext : External) (r : GenerationRegistry) (call : RegistryCall) :
    ListStep ext r call := by
  have hstep := perform_step ext r call
  generalize hperform : r.perform ext call = outcome at hstep
  cases hstep with
  | query _ h => exact .of_sublist (hperform ▸ h.sublist)
  | failed => exact .of_sublist (hperform ▸ List.nil_sublist _)
  | refused => exact .of_sublist (hperform ▸ List.nil_sublist _)
  | @event _ event anchor policyNow now changed hcall _ hcheck hbody =>
    obtain hsublist | ⟨id, hrole, hsublist⟩ := (applyBody_step hbody).list
    · exact .of_sublist (hperform ▸ hsublist)
    · have hsame : ((r.expireAt now).rememberWinnerRecovery id).winnerRecovery
          = (r.rememberWinnerRecovery id).winnerRecovery := rememberWinnerRecovery_congr rfl
      rw [hsame] at hsublist
      refine ⟨[id], hperform ▸ hsublist, fun id' hmem => ⟨by rw [hperform], .inr ⟨changed, ?_, ?_⟩⟩⟩
      · exact between_eq hcall hcheck hbody
      · rwa [List.mem_singleton.mp hmem]
  | @snapshot eventSeq started _ _ prepared =>
    generalize hinstalled : r.install prepared eventSeq started = installed at hperform
    have hsame : installed.winnerRecovery = r.winnerRecovery := by
      rw [← hinstalled]
      rfl
    obtain ⟨winners, hremember⟩ := installed.rememberRoles_eq
    refine ⟨installed.roles, ?_, fun id hmem => ⟨by rw [hperform], .inl ?_⟩⟩
    · rw [hperform, ← rememberAll_congr hsame]
      exact List.filter_sublist
    · rw [hperform, hremember]
      exact mem_roles.mp hmem

/-- A job on the list was there, or held a role. -/
theorem perform_mem (h : id ∈ (r.perform ext call).2.winnerRecovery) :
    id ∈ r.winnerRecovery ∨ HeldRole ext r call id := by
  obtain ⟨ids, hsublist, hheld⟩ := perform_list ext r call
  exact (mem_rememberAll (hsublist.mem h)).imp_right (hheld id)

/-- A job that held a role was open then, and is known afterwards. -/
theorem HeldRole.entry (h : r.Inv) (hheld : HeldRole ext r call id) :
    ∃ entry, entry.state = .accepting ∧ (∀ old, r.entries.find id = some old → Evolves old entry) ∧
      ∃ entry', (r.perform ext call).2.entries.find id = some entry' := by
  obtain ⟨hok, hrole | ⟨mid, hmid, hrole⟩⟩ := hheld
  · have hinv := perform_inv ext call h
    have hsync : (r.perform ext call).2.synchronized = true := by
      by_contra hfalse
      obtain ⟨-, hnone, hnil, -⟩ := hinv.unsynced (Bool.not_eq_true _ ▸ hfalse)
      obtain hcurrent | hrecent := hrole
      · rw [hnone] at hcurrent
        cases hcurrent
      · rw [hnil] at hrecent
        exact absurd hrecent List.not_mem_nil
    obtain ⟨entry, hentry, hstate⟩ :=
      Entries.stateOf_eq_some.mp (((hinv.synced hsync).1.accepting id).mp (mem_roles.mpr hrole))
    exact ⟨entry, hstate, fun old hold => (perform_extends ext r call).evolves hold hentry,
      entry, hentry⟩
  · have hstep := perform_step ext r call
    generalize r.perform ext call = outcome at hok hstep ⊢
    cases hstep with
    | query hinput =>
      cases call with
      | applySnapshot | applyEvent | applyEventAt => cases hinput
      | _ => cases hmid
    | failed | refused => cases hok
    | snapshot => cases hmid
    | @event _ _ _ _ now changed hcall _ hcheck hbody =>
      obtain rfl := Option.some.inj ((between_eq hcall hcheck hbody).symm.trans hmid)
      obtain ⟨hroles, -⟩ := applyBody_inv h hcheck hbody
      obtain ⟨entry, hentry, hstate⟩ :=
        Entries.stateOf_eq_some.mp ((hroles.accepting id).mp (mem_roles.mpr hrole))
      refine ⟨entry, hstate, fun old hold => ?_, entry.expire now, ?_⟩
      · exact ((r.expireAt_extends now).trans (applyBody_step hbody).extends).evolves hold hentry
      · show (changed.expireAt now).entries.find id = _
        rw [find_expireAt, hentry]
        rfl

/-- Bounded, without duplicates, and of known jobs. -/
structure WinnersOk (r : GenerationRegistry) : Prop where
  short : ShortList r.winnerRecovery
  known : ∀ id ∈ r.winnerRecovery, ∃ entry, r.entries.find id = some entry

/-- **One call keeps the list.** -/
theorem perform_winnersOk (ext : External) (call : RegistryCall) (hinv : r.Inv) (h : r.WinnersOk) :
    (r.perform ext call).2.WinnersOk := by
  refine ⟨?_, fun id hmem => ?_⟩
  · obtain ⟨ids, hsublist, -⟩ := perform_list ext r call
    exact (h.short.rememberAll ids).sublist hsublist
  · obtain hold | hheld := perform_mem hmem
    · obtain ⟨entry, hentry⟩ := h.known id hold
      obtain ⟨entry', hentry', -⟩ := perform_extends ext r call id entry hentry
      exact ⟨entry', hentry'⟩
    · obtain ⟨-, -, -, hknown⟩ := hheld.entry hinv
      exact hknown

/-! ## §3. Jobs that never get on the list again -/

/-- Terminal, and not on the list. -/
def Barred (r : GenerationRegistry) (id : JobId) : Prop :=
  (∃ entry, r.entries.find id = some entry ∧ entry.state.terminal = true) ∧ id ∉ r.winnerRecovery

/-- **No call puts a barred job back on the list.** -/
theorem perform_barred (ext : External) (call : RegistryCall) (hinv : r.Inv) (h : r.Barred id) :
    (r.perform ext call).2.Barred id := by
  obtain ⟨⟨entry, hentry, hterminal⟩, hnot⟩ := h
  obtain ⟨entry', hentry', hevolves⟩ := perform_extends ext r call id entry hentry
  refine ⟨⟨entry', hentry', hevolves.terminal hterminal⟩, fun hmem => ?_⟩
  obtain hold | hheld := perform_mem hmem
  · exact hnot hold
  · obtain ⟨open', hstate, hold, -⟩ := hheld.entry hinv
    have hclosed := (hold entry hentry).terminal hterminal
    rw [hstate] at hclosed
    cases hclosed

end Steps

end GenerationRegistry

def RegistryCall.bars (id : JobId) : RegistryCall → Prop
  | .applyEvent event _ | .applyEventAt event _ _ => GenerationRegistry.eventBars id event
  | _ => False

namespace GenerationRegistry

section Bars

variable {ext : External} {r r' : GenerationRegistry} {id : JobId} {call : RegistryCall}

theorem retires_of_bars (h : call.bars id) : call.retires id := by
  have hevent : ∀ event, eventBars id event → eventRetires id event := by
    intro event hbars
    unfold eventBars at hbars
    split at hbars
    · exact ⟨hbars.1, fun hgrace => absurd (hbars.2.symm.trans hgrace.1) (by decide)⟩
    · exact hbars
    · exact hbars.elim
  cases call with
  | applyEvent event => exact hevent event h
  | applyEventAt event => exact hevent event h
  | _ => exact h.elim

/-- A barred job leaves the list. -/
theorem BodyStep.bars {event : BackendEvent} {anchor : ℕ} (hbody : BodyStep r anchor event r')
    (hbars : eventBars id event) (hknown : (r'.entries.find id).isSome = true) :
    id ∉ r'.winnerRecovery := by
  have hends : eventEnds id event := by
    unfold eventBars at hbars
    split at hbars
    · exact hbars.1
    · exact hbars
    · exact hbars.elim
  cases hbody with
  | idle _ hunknown =>
    rw [hunknown id hends] at hknown
    cases hknown
  | activated => exact hbars.elim
  | ended hevent _ _ _ _ _ hnot =>
    obtain rfl := eventEnds_inj hends hevent
    exact hnot hbars
  | graced => exact absurd hbars.2 (by decide)

/-- **A closure or a new tip bars the job.** -/
theorem perform_bars (h : r.Inv) (hbars : call.bars id) {recorded : RegistryEntry}
    (hok : r.perform ext call = (.ok (), r')) (hrecorded : r'.entries.find id = some recorded) :
    r'.Barred id := by
  refine ⟨⟨recorded, hrecorded, (perform_lease h hok hrecorded).retired (retires_of_bars hbars)⟩, ?_⟩
  have hstep := perform_step ext r call
  rw [hok] at hstep
  cases hstep with
  | query hinput =>
    cases call with
    | applySnapshot | applyEvent | applyEventAt => cases hinput
    | _ => exact hbars.elim
  | snapshot => exact hbars.elim
  | event hcall _ _ hbody =>
    obtain ⟨entry, hentry, -⟩ := expireAt_back hrecorded
    refine (applyBody_step hbody).bars ?_ (by rw [hentry]; rfl)
    obtain rfl | ⟨rfl, -⟩ := hcall <;> exact hbars

end Bars

/-! ## §4. The first deadline -/

section Fresh

variable {ext : External} {r r' : GenerationRegistry} {id : JobId} {recorded : RegistryEntry}

/-- The recovery deadline lies one tail after the deadline of the entry. -/
def FreshDeadline (entry : RegistryEntry) : Prop :=
  entry.winnerRecoveryUntilMs = entry.acceptUntilMs + zcashWinnerRecoveryTailMs

theorem FreshDeadline.expire (h : FreshDeadline recorded) (now : ℕ) :
    FreshDeadline (recorded.expire now) := by
  unfold FreshDeadline
  rw [RegistryEntry.expire_acceptUntilMs, (recorded.evolves_expire now).winnerRecoveryUntilMs]
  exact h

/-- A query records no job. -/
theorem QueryStep.known {now : Option ℕ} (hstep : QueryStep r now r')
    (h : r'.entries.find id = some recorded) : ∃ entry, r.entries.find id = some entry := by
  cases hstep with
  | suspended =>
    rw [find_suspend] at h
    obtain ⟨entry, hentry, -⟩ := Option.map_eq_some_iff.mp h
    exact ⟨entry, hentry⟩
  | untimed ht =>
    obtain ⟨entry, hentry, -⟩ := ht.back h
    exact ⟨entry, hentry⟩
  | timed _ ht =>
    obtain ⟨entry', hentry', -⟩ := ht.back h
    obtain ⟨entry, hentry, -⟩ := expireAt_back hentry'
    exact ⟨entry, hentry⟩

theorem BodyStep.fresh {event : BackendEvent} {anchor : ℕ} (hbody : BodyStep r anchor event r')
    (h : r.entries.find id = none) (hrecorded : r'.entries.find id = some recorded) :
    FreshDeadline recorded := by
  cases hbody with
  | idle => cases h.symm.trans hrecorded
  | activated hactivated =>
    rw [activateEntry_entries] at hrecorded
    have hfind := ((Placed.put hactivated.fresh).find id).symm.trans hrecorded
    split at hfind
    · rw [← Option.some.inj hfind]
      exact hactivated.recovery
    · cases h.symm.trans hfind
  | ended _ hplaced hknown =>
    have hfind := (hplaced.find id).symm.trans hrecorded
    split at hfind
    · next heq =>
      rw [← heq, h] at hknown
      cases hknown
    · cases h.symm.trans hfind
  | graced _ hplaced hold =>
    have hfind := (hplaced.find id).symm.trans hrecorded
    split at hfind
    · next heq => cases h.symm.trans (heq ▸ hold)
    · cases h.symm.trans hfind

/-- **The call that records a job fixes its recovery deadline.** -/
theorem perform_fresh {call : RegistryCall} (h : r.entries.find id = none)
    (hrecorded : (r.perform ext call).2.entries.find id = some recorded) :
    FreshDeadline recorded := by
  have hstep := perform_step ext r call
  generalize r.perform ext call = outcome at hstep hrecorded
  cases hstep with
  | query _ hstep =>
    obtain ⟨entry, hentry⟩ := hstep.known hrecorded
    cases h.symm.trans hentry
  | failed => simp [find_suspend, h] at hrecorded
  | refused => simp [find_suspend, find_expireAt, h] at hrecorded
  | event _ _ _ hbody =>
    obtain ⟨entry, hentry, rfl⟩ := expireAt_back hrecorded
    exact ((applyBody_step hbody).fresh (by rw [find_expireAt, h]; rfl) hentry).expire _
  | snapshot _ hspec =>
    rw [pruneWinnerRecovery_entries, rememberRoles_entries] at hrecorded
    obtain ⟨entry, hentry, rfl⟩ := expireAt_back hrecorded
    refine FreshDeadline.expire ?_ _
    obtain ⟨job, entry', -, -, rfl, hjob, hfind⟩ | ⟨-, hfind⟩ := hspec.find id
    · obtain rfl := Option.some.inj (hfind.symm.trans hentry)
      exact hjob.fresh h
    · have hnone := hfind.symm.trans hentry
      rw [h] at hnone
      cases hnone

end Fresh

/-! ## §5. Whole runs -/

section Runs

variable {ext : External} {config : GenerationRegistryConfig} {id : JobId}

/-- **Every run** keeps the list. -/
theorem after_winnersOk (ext : External) (config : GenerationRegistryConfig)
    (calls : List RegistryCall) : (after ext config calls).WinnersOk := by
  induction calls using List.reverseRecOn with
  | nil => exact ⟨⟨Nat.zero_le _, List.nodup_nil⟩, fun _ h => absurd h List.not_mem_nil⟩
  | append_singleton calls call ih =>
    rw [after_concat]
    exact perform_winnersOk ext call (after_inv ext config calls) ih

/-- A barred job stays barred to the end of the run. -/
theorem after_barred {earlier : List RegistryCall} {call : RegistryCall} (later : List RegistryCall)
    (h : ((after ext config earlier).perform ext call).2.Barred id) :
    (after ext config (earlier ++ call :: later)).Barred id := by
  induction later using List.reverseRecOn with
  | nil => rwa [after_concat]
  | append_singleton later last ih =>
    rw [← List.cons_append, ← List.append_assoc, after_concat]
    exact perform_barred ext last (after_inv ext config _) ih

/-- A job on the list held a role, and the registry was never suspended since. -/
theorem held_of_mem {calls : List RegistryCall} (h : id ∈ (after ext config calls).winnerRecovery) :
    ∃ earlier call later, calls = earlier ++ call :: later ∧
      HeldRole ext (after ext config earlier) call id ∧
      ∀ more, more <+: later →
        (after ext config (earlier ++ call :: more)).synchronized = true := by
  induction calls using List.reverseRecOn with
  | nil => exact absurd h List.not_mem_nil
  | append_singleton calls last ih =>
    -- an unsynchronised registry has an empty list
    have hsync : (after ext config (calls ++ [last])).synchronized = true := by
      by_contra hfalse
      obtain ⟨-, -, -, hnil⟩ :=
        (after_inv ext config (calls ++ [last])).unsynced (Bool.not_eq_true _ ▸ hfalse)
      rw [hnil] at h
      exact absurd h List.not_mem_nil
    have hmem := h
    rw [after_concat] at hmem
    obtain hold | hheld := perform_mem hmem
    · obtain ⟨earlier, call, later, rfl, hheld, hlater⟩ := ih hold
      refine ⟨earlier, call, later ++ [last], by simp, hheld, fun more hmore => ?_⟩
      obtain rfl | hmore := List.prefix_concat_iff.mp hmore
      · rwa [← List.cons_append, ← List.append_assoc]
      · exact hlater more hmore
    · refine ⟨calls, last, [], rfl, hheld, fun more hmore => ?_⟩
      rwa [List.prefix_nil.mp hmore]

/-- What a successful admission from the list found. -/
theorem beginZcashCandidate_finds {r r' : GenerationRegistry} {nonce : Hex32} {solution : Hex1344}
    {t : ℕ} {role : AdmissionRole} {allowNoCurrent : Bool} {admission : GenerationAdmission}
    (h : r.beginZcashCandidate ext id nonce solution t role allowNoCurrent = (.ok admission, r')) :
    (∀ last ∈ r.lastMonotonicMs, last ≤ t) ∧ r.synchronized = true ∧
      r' = (r.atTime t).pruneWinnerRecovery t ∧
      ∃ entry, (r.atTime t).entries.find id = some entry ∧ admission.generation = entry.generation ∧
        id ∈ r.winnerRecovery ∧ t < entry.winnerRecoveryUntilMs ∧
        sameParent ((r.atTime t).currentEntry t) entry = true ∧
        exceedsTarget (canonicalParentHeaderHashLe ext entry.generation.descriptor.headerInput nonce
          solution) entry.generation.descriptor.zcashTargetLe = false := by
  obtain ⟨hclock, hsync, h⟩ := whenSynchronized_ok h
  split at h
  · cases h
  · next generation hcheck =>
    obtain ⟨hadmission, hr'⟩ := Prod.mk.inj h
    obtain rfl := Except.ok.inj hadmission
    refine ⟨hclock, hsync, hr'.symm, ?_⟩
    obtain ⟨entry, hentry, hcheck⟩ := bind_eq_ok.mp (passed hcheck)
    obtain ⟨htarget, hcheck⟩ := rejectIf_bind_ok hcheck
    obtain rfl := Except.ok.inj hcheck
    rw [orReject_eq_ok, Option.filter_eq_some_iff] at hentry
    rw [Bool.not_eq_true] at htarget
    obtain ⟨hfind, hconditions⟩ := hentry
    simp only [recoverable, Bool.and_eq_true, decide_eq_true_eq] at hconditions
    obtain ⟨hmem, ⟨-, hlater⟩, hparent⟩ := hconditions
    have hkept : id ∈ r.winnerRecovery := (List.mem_filter.mp hmem).1
    exact ⟨entry, hfind, rfl, hkept, hlater, hparent, htarget⟩

/-- The current generation, as `current_generation` gives it. -/
theorem currentGeneration_of_le {r : GenerationRegistry} {t : ℕ}
    (hclock : ∀ last ∈ r.lastMonotonicMs, last ≤ t) (hsync : r.synchronized = true) :
    (r.currentGeneration t).1 = .ok (((r.atTime t).currentEntry t).map (·.generation)) := by
  unfold currentGeneration advanceClock
  rw [checkClock_eq_ok.mpr hclock]
  show Except.ok (if r.synchronized then _ else _) = _
  rw [hsync]
  rfl

theorem RegistryEntry.expire_expire {t t' : ℕ} (h : t ≤ t') (entry : RegistryEntry) :
    (entry.expire t).expire t' = entry.expire t' := by
  by_cases hexpired : (entry.state = .accepting ∨ entry.state = .suspended) ∧ t ≥ entry.acceptUntilMs
  · have hlater : (entry.state = .accepting ∨ entry.state = .suspended) ∧
        t' ≥ entry.acceptUntilMs := ⟨hexpired.1, hexpired.2.trans h⟩
    have hfirst : entry.expire t = entry.enter .invalidated := if_pos hexpired
    have hsecond : entry.expire t' = entry.enter .invalidated := if_pos hlater
    rw [hfirst, hsecond]
    exact if_neg fun hopen => by simp [RegistryEntry.enter] at hopen
  · have hfirst : entry.expire t = entry := if_neg hexpired
    rw [hfirst]

/-- Ordinary admissions look at the entry of their job only. -/
theorem beginAdmission_congr {r r' : GenerationRegistry} {t : ℕ} (id' : JobId)
    (hclock : ∀ last ∈ r.lastMonotonicMs, last ≤ t) (hclock' : ∀ last ∈ r'.lastMonotonicMs, last ≤ t)
    (hsync : r'.synchronized = r.synchronized)
    (hfind : (r'.atTime t).entries.find id' = (r.atTime t).entries.find id') :
    (r'.beginAdmission id' t).1 = (r.beginAdmission id' t).1 := by
  have hcheck : (r'.atTime t).checkAdmission id' t = (r.atTime t).checkAdmission id' t := by
    unfold checkAdmission
    rw [hfind]
  unfold beginAdmission
  rw [whenSynchronized_of_le _ hclock, whenSynchronized_of_le _ hclock', hsync]
  split
  · rfl
  · simp only [hcheck]
    split <;> rfl

/-- Nor do they look at the list. -/
theorem beginAdmission_withWinners (r : GenerationRegistry) (winners : List JobId) (id' : JobId)
    (t : ℕ) : (beginAdmission { r with winnerRecovery := winners } id' t).1
      = (r.beginAdmission id' t).1 := by
  by_cases hclock : ∀ last ∈ r.lastMonotonicMs, last ≤ t
  · exact beginAdmission_congr id' hclock hclock rfl rfl
  · cases hcheck : r.checkClock t with
    | ok _ => exact absurd (checkClock_eq_ok.mp hcheck) hclock
    | error e =>
      have hcheck' : checkClock { r with winnerRecovery := winners } t = .error e := hcheck
      unfold beginAdmission whenSynchronized advanceClock
      rw [hcheck, hcheck']

end Runs

/-- What an admission of `id` from the list at `t` says about the run before it. -/
structure CandidateBound (ext : External) (config : GenerationRegistryConfig)
    (calls : List RegistryCall) (id : JobId) (nonce : Hex32) (solution : Hex1344) (t : ℕ)
    (admission : GenerationAdmission) : Prop where
  /-- The work was recorded with a deadline that ended less than the tail before `t`. -/
  deadline : ∃ earlier call later recorded, calls = earlier ++ call :: later ∧
    (after ext config earlier).entries.find id = none ∧
    ((after ext config earlier).perform ext call).2.entries.find id = some recorded ∧
    admission.generation = recorded.generation ∧ t < recorded.acceptUntilMs + 60_000
  /-- The header meets the Zcash target of the job. -/
  target : (canonicalParentHeaderHashLe ext admission.generation.descriptor.headerInput nonce
    solution).toNat ≤ admission.generation.descriptor.zcashTargetLe.toNat
  /-- The job was neither closed nor invalidated by a new Zcash tip since it was recorded. -/
  notBarred : ∀ earlier call later, calls = earlier ++ call :: later → ∀ recorded,
    ((after ext config earlier).perform ext call).2.entries.find id = some recorded →
      ((after ext config earlier).perform ext call).1 = .ok () → ¬ call.bars id
  /-- It held a role, and the registry was never suspended since. -/
  heldRole : ∃ earlier call later, calls = earlier ++ call :: later ∧
    HeldRole ext (after ext config earlier) call id ∧
    ∀ more, more <+: later → (after ext config (earlier ++ call :: more)).synchronized = true
  /-- Current work, where there is any, has the same Zcash parent. -/
  parent : ∀ generation, ((after ext config calls).currentGeneration t).1 = .ok (some generation) →
    admission.generation.zcashPreviousHashLe = generation.zcashPreviousHashLe

/-- The law of winner recovery in the registry after a run. -/
structure WinnerRecoveryLaw (ext : External) (config : GenerationRegistryConfig)
    (calls : List RegistryCall) : Prop where
  bounded : (after ext config calls).winnerRecovery.length ≤ 32
  nodup : (after ext config calls).winnerRecovery.Nodup
  known : ∀ id ∈ (after ext config calls).winnerRecovery,
    ∃ entry, (after ext config calls).entries.find id = some entry
  admissions : ∀ id nonce solution t role allowNoCurrent admission r',
    (after ext config calls).beginZcashCandidate ext id nonce solution t role allowNoCurrent
        = (.ok admission, r') →
      CandidateBound ext config calls id nonce solution t admission ∧
      -- later ordinary admissions are answered as without it
      (∀ id' t', t ≤ t' →
        (r'.beginAdmission id' t').1 = ((after ext config calls).beginAdmission id' t').1) ∧
      -- and those at any time as after a mere reading of the clock
      (∀ id' t', (r'.beginAdmission id' t').1
        = (((after ext config calls).advanceClock t).2.beginAdmission id' t').1)

/-- **The bound of winner recovery**, in every registry that any run of calls can reach. -/
theorem winner_recovery_bound (ext : External) (config : GenerationRegistryConfig)
    (calls : List RegistryCall) : WinnerRecoveryLaw ext config calls := by
  have hwinners := after_winnersOk ext config calls
  refine ⟨hwinners.short.bounded, hwinners.short.nodup, hwinners.known, ?_⟩
  intro id nonce solution t role allowNoCurrent admission r' h
  obtain ⟨hclock, hsync, rfl, entry', hentry', hgeneration, hmem, hlater, hparent, htarget⟩ :=
    beginZcashCandidate_finds h
  have hfind : ((after ext config calls).expireAt t).entries.find id = some entry' := hentry'
  obtain ⟨entry, hentry, rfl⟩ := expireAt_back hfind
  have hexpire := entry.evolves_expire t
  refine ⟨⟨?_, ?_, ?_, held_of_mem hmem, ?_⟩, fun id' t' hle => ?_, fun id' t' => ?_⟩
  · obtain ⟨earlier, call, later, recorded, rfl, hnone, hrecorded⟩ := first_recording hentry
    obtain ⟨entry'', hentry'', hevolves⟩ := after_evolves later hrecorded
    obtain rfl := Option.some.inj (hentry''.symm.trans hentry)
    refine ⟨earlier, call, later, recorded, rfl, hnone, hrecorded,
      hgeneration.trans (hexpire.generation.trans hevolves.generation), ?_⟩
    have hfresh : recorded.winnerRecoveryUntilMs
        = recorded.acceptUntilMs + zcashWinnerRecoveryTailMs := perform_fresh hnone hrecorded
    rw [hexpire.winnerRecoveryUntilMs, hevolves.winnerRecoveryUntilMs, hfresh] at hlater
    exact hlater
  · rw [hgeneration]
    refine not_lt.mp fun hlt => ?_
    rw [(exceedsTarget_iff _ _).mpr hlt] at htarget
    cases htarget
  · rintro earlier call later rfl recorded hrecorded hok hbars
    have hbarred := perform_bars (after_inv ext config earlier) hbars (Prod.ext hok rfl) hrecorded
    exact (after_barred later hbarred).2 hmem
  · intro generation hcurrent
    rw [currentGeneration_of_le hclock hsync] at hcurrent
    obtain ⟨c, hc, rfl⟩ := Option.map_eq_some_iff.mp (Except.ok.inj hcurrent)
    rw [hc] at hparent
    rw [hgeneration]
    exact of_decide_eq_true hparent
  · refine (beginAdmission_withWinners ((after ext config calls).atTime t) _ id' t').trans ?_
    refine beginAdmission_congr id' (fun last hlast => (hclock last hlast).trans hle)
      (fun last hlast => ?_) rfl ?_
    · rwa [← Option.some.inj hlast]
    · show (expireAt _ t').entries.find id' = (expireAt _ t').entries.find id'
      rw [find_expireAt, find_expireAt]
      show (((after ext config calls).expireAt t).entries.find id').map _ = _
      rw [find_expireAt, Option.map_map]
      refine congrArg (fun f => ((after ext config calls).entries.find id').map f) ?_
      funext entry
      exact RegistryEntry.expire_expire hle entry
  · have hadvance :
        ((after ext config calls).advanceClock t).2 = (after ext config calls).atTime t := by
      unfold advanceClock
      rw [checkClock_eq_ok.mpr hclock]
      rfl
    rw [hadvance]
    exact beginAdmission_withWinners _ _ id' t'

/-- The list at work: the winners of job 1 are forwarded after its 900 ms, where no current work is
    asked for, and no longer than the tail after them. -/
example :
    let r := workedRegistry
    ((r.beginPausedZcashCandidate workedExternal ⟨1, by decide⟩ 0 0 60_899).1.toOption.isSome,
      (r.beginPausedZcashCandidate workedExternal ⟨1, by decide⟩ 0 0 60_900).1.toOption.isSome)
        = (true, false) := by
  decide +kernel

end GenerationRegistry

end WcashPool.Core
