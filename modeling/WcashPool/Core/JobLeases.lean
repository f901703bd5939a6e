/-
  WcashPool.Core.JobLeases — no lease is extended, and no job comes back.

  The deadline of a job is the least of all that were ever delivered for it, and
  a job that was retired once stays retired, whatever is delivered later: a
  snapshot cannot list it again, an event cannot reopen it, a suspension does
  not wake it.

  A run is cut at any of its calls; the entry that the call leaves for a job is
  compared with the one that an admission finds at the end of the run.

  Main results: `perform_lease` and `admission_within_lease`.
-/
import WcashPool.Core.JobRoles

namespace WcashPool.Core

open Fallible Protocol

/-! ## §1. What a call says about a job -/

/-- The deadlines that an event delivers: the age of new work, the grace of superseded work. -/
def eventLifetimes (anchor : ℕ) : BackendEvent → List (Hex32 × ℕ)
  | .jobActivated _ job => [(job.jobId, anchor + job.maxAgeMs)]
  | .jobInvalidated _ jobId .superseded acceptFor =>
    if acceptFor = 0 then [] else [(jobId, anchor + acceptFor)]
  | _ => []

/-- Does the event end the job at once? -/
def eventRetires (id : JobId) : BackendEvent → Prop
  | .jobInvalidated _ jobId reason acceptFor =>
    jobId = id.bytes ∧ ¬ (reason = .superseded ∧ acceptFor ≠ 0)
  | .generationClosed _ jobId => jobId = id.bytes
  | _ => False

namespace RegistryCall

/-- Every deadline that the call delivers, with its job. -/
def lifetimes : RegistryCall → List (Hex32 × ℕ)
  | .applySnapshot _ current recent started =>
    (current.toList ++ recent).map fun job => (job.job.jobId, started + job.acceptForMs)
  | .applyEvent event anchor | .applyEventAt event anchor _ => eventLifetimes anchor event
  | _ => []

/-- Does the call invalidate or close the job at once, or leave it out of a snapshot? -/
def retires (id : JobId) : RegistryCall → Prop
  | .applySnapshot _ current recent _ => ∀ job ∈ current.toList ++ recent, job.job.jobId ≠ id.bytes
  | .applyEvent event _ | .applyEventAt event _ _ => eventRetires id event
  | _ => False

end RegistryCall

namespace GenerationRegistry

/-! ## §2. Readings of the clock -/

section Readings

variable {ext : External} {r : GenerationRegistry} {now : ℕ}

theorem Unexpired.suspend (h : Unexpired now r.entries) : Unexpired now r.suspend.entries := by
  intro id entry' hentry' hopen
  rw [find_suspend] at hentry'
  obtain ⟨entry, hentry, rfl⟩ := Option.map_eq_some_iff.mp hentry'
  have hsame : entry.suspend.acceptUntilMs = entry.acceptUntilMs := by
    unfold RegistryEntry.suspend
    split <;> rfl
  rw [hsame]
  exact h id entry hentry (entry.evolves_suspend.open_of_open hopen)

theorem QueryStep.unexpired {r' : GenerationRegistry} (h : QueryStep r (some now) r') :
    Unexpired now r'.entries := by
  cases h with
  | timed _ ht => exact Unexpired.touched (r := r.atTime now) (unexpired_expireAt r now) ht

/-- **After a reading, whatever is not terminal has time left.** -/
theorem perform_unexpired {call : RegistryCall} (h : now ∈ call.reading ext r) :
    Unexpired now (r.perform ext call).2.entries := by
  have hstep := perform_step ext r call
  generalize r.perform ext call = outcome at hstep ⊢
  rw [Option.mem_def] at h
  cases hstep with
  | query _ hstep =>
    rw [h] at hstep
    exact hstep.unexpired
  | failed hreading => cases hreading.symm.trans h
  | refused hreading =>
    obtain rfl := Option.some.inj (hreading.symm.trans h)
    exact Unexpired.suspend (unexpired_expireAt r _)
  | event _ hreading =>
    obtain rfl := Option.some.inj (hreading.symm.trans h)
    exact unexpired_expireAt _ _
  | snapshot hreading =>
    obtain rfl := Option.some.inj (hreading.symm.trans h)
    simp only [pruneWinnerRecovery_entries, rememberRoles_entries]
    exact unexpired_expireAt _ _

end Readings

/-! ## §3. Deadlines and retirements -/

section Steps

variable {ext : External} {r : GenerationRegistry} {id : JobId} {anchor : ℕ}
  {entry : RegistryEntry}

/-- A prepared entry carries the name of its job. -/
theorem PreparedEntry.id_bytes {job : AcceptableJob} (h : PreparedEntry r anchor job entry) :
    entry.id.bytes = job.job.jobId :=
  congrArg JobDescriptor.jobId h.descriptor

variable {current : Option AcceptableJob} {recent : List AcceptableJob}

/-- The entry of a listed job was prepared for that very job. -/
theorem SnapshotSpec.listed {prepared : PreparedSnapshot} {entries : List RegistryEntry}
    (h : SnapshotSpec r current recent anchor prepared entries) {job : AcceptableJob}
    (hjob : job ∈ current.toList ++ recent) (hid : job.job.jobId = id.bytes) :
    ∃ entry, prepared.entries.find id = some entry ∧ PreparedEntry r anchor job entry := by
  obtain ⟨n, hn, rfl⟩ := List.mem_iff_getElem.mp hjob
  have hlength := h.jobs.length_eq
  have hprepared := (List.forall₂_iff_get.mp h.jobs).2 n hn (by omega)
  simp only [List.get_eq_getElem] at hprepared
  have hmem : entries[n] ∈ entries := List.getElem_mem _
  have hsame : (entries[n]).id = id := JobId.ext_bytes (hprepared.id_bytes.trans hid)
  obtain ⟨_, entry, -, hmem', hid', -, hfind⟩ | ⟨hnot, -⟩ := h.find id
  · have heq : entries[n] = entry := List.inj_on_of_nodup_map h.nodup hmem hmem' (hsame.trans hid'.symm)
    exact ⟨entry, hfind, heq ▸ hprepared⟩
  · exact absurd (hsame ▸ List.mem_map_of_mem hmem) hnot

theorem SnapshotSpec.leftOut {prepared : PreparedSnapshot} {entries : List RegistryEntry}
    (h : SnapshotSpec r current recent anchor prepared entries)
    (hnone : ∀ job ∈ current.toList ++ recent, job.job.jobId ≠ id.bytes)
    (hentry : prepared.entries.find id = some entry) : entry.state.terminal = true := by
  obtain ⟨job, _, hjob, -, rfl, hprepared, -⟩ | ⟨hnot, -⟩ := h.find id
  · exact absurd hprepared.id_bytes.symm (hnone job hjob)
  · obtain ⟨hmem, -⟩ | ⟨-, hterminal⟩ := h.open_iff hentry
    · exact absurd hmem hnot
    · exact hterminal

/-- What a successful call settles about the entry that it leaves for a job. -/
structure LeaseStep (lifetimes : List (Hex32 × ℕ)) (retires : Prop) (id : JobId)
    (recorded : RegistryEntry) : Prop where
  delivered : ∀ d, (id.bytes, d) ∈ lifetimes → recorded.state.terminal = false →
    recorded.acceptUntilMs ≤ d
  retired : retires → recorded.state.terminal = true

theorem LeaseStep.evolves {lifetimes : List (Hex32 × ℕ)} {retires : Prop} {entry' : RegistryEntry}
    (h : LeaseStep lifetimes retires id entry) (hevolves : Evolves entry entry') :
    LeaseStep lifetimes retires id entry' where
  delivered := by
    intro d hd hopen
    exact hevolves.acceptUntilMs.trans (h.delivered d hd (hevolves.open_of_open hopen))
  retired := fun hretires => hevolves.terminal (h.retired hretires)

theorem LeaseStep.of_terminal {lifetimes : List (Hex32 × ℕ)} {retires : Prop}
    (h : entry.state.terminal = true) : LeaseStep lifetimes retires id entry :=
  ⟨fun _ _ hopen => absurd (h.symm.trans hopen) (by decide), fun _ => h⟩

variable {event : BackendEvent}

/-- The end of one job says nothing about another. -/
theorem LeaseStep.of_unconcerned (hnew : ∀ eventSeq job, event ≠ .jobActivated eventSeq job)
    (hends : ¬ eventEnds id event) :
    LeaseStep (eventLifetimes anchor event) (eventRetires id event) id entry := by
  cases event with
  | jobActivated => exact absurd rfl (hnew _ _)
  | jobInvalidated _ bytes reason acceptFor =>
    have hne : bytes ≠ id.bytes := hends
    refine ⟨fun d hd => ?_, fun hretires => absurd hretires.1 hne⟩
    cases reason with
    | superseded =>
      simp only [eventLifetimes] at hd
      split at hd
      · cases hd
      · exact absurd (Prod.mk.inj (List.mem_singleton.mp hd)).1.symm hne
    | _ => cases hd
  | generationClosed =>
    exact ⟨fun _ hd => absurd hd List.not_mem_nil, fun hretires => absurd hretires hends⟩
  | _ => exact ⟨fun _ hd => absurd hd List.not_mem_nil, fun hfalse => hfalse.elim⟩

theorem eventEnds_inj {id' : JobId} (h : eventEnds id event) (h' : eventEnds id' event) : id = id' := by
  cases event with
  | jobInvalidated | generationClosed => exact JobId.ext_bytes (Eq.trans (Eq.symm h) h')
  | _ => exact h.elim

variable {r' : GenerationRegistry} {recorded : RegistryEntry}

theorem BodyStep.lease (h : r.Roles) (hbody : BodyStep r anchor event r')
    (hrecorded : r'.entries.find id = some recorded) :
    LeaseStep (eventLifetimes anchor event) (eventRetires id event) id recorded := by
  cases hbody with
  | idle hnew hunknown =>
    refine .of_unconcerned hnew fun hends => ?_
    cases (hunknown id hends).symm.trans hrecorded
  | @activated _ _ entry hactivated =>
    refine ⟨fun d hd _ => ?_, fun hfalse => hfalse.elim⟩
    obtain ⟨hid, rfl⟩ := Prod.mk.inj (List.mem_singleton.mp hd)
    have heq : entry.id = id :=
      JobId.ext_bytes ((congrArg JobDescriptor.jobId hactivated.descriptor).trans hid.symm)
    rw [activateEntry_entries, Table.find_put, if_pos heq] at hrecorded
    rw [← Option.some.inj hrecorded, hactivated.deadline]
  | @ended _ id' _ _ _ hevent hplaced _ _ hstate =>
    by_cases heq : id = id'
    · have hfind := (hplaced.find id).symm.trans hrecorded
      rw [if_pos heq] at hfind
      rw [← Option.some.inj hfind]
      exact .of_terminal (h.over hstate)
    · refine .of_unconcerned ?_ fun hends => heq (eventEnds_inj hends hevent)
      rintro _ _ rfl
      exact hevent
  | @graced _ _ id' _ _ _ _ hgrace hplaced _ _ _ _ _ _ hdeadline =>
    by_cases heq : id = id'
    · have hfind := (hplaced.find id).symm.trans hrecorded
      rw [if_pos heq] at hfind
      rw [← Option.some.inj hfind]
      -- the grace is one more bound on the deadline
      refine ⟨fun d hd _ => ?_, fun hretires => absurd ⟨rfl, hgrace⟩ hretires.2⟩
      simp only [eventLifetimes, if_neg hgrace, List.mem_singleton, Prod.mk.injEq] at hd
      rw [hd.2]
      exact hdeadline
    · exact .of_unconcerned (by simp) fun hends => heq (JobId.ext_bytes (Eq.symm hends))

/-- **What one call settles**: the deadline is below all that it delivers, and what it retires is
    terminal. -/
theorem perform_lease (h : r.Inv) {call : RegistryCall} (hok : r.perform ext call = (.ok (), r'))
    (hrecorded : r'.entries.find id = some recorded) :
    LeaseStep call.lifetimes (call.retires id) id recorded := by
  have hstep := perform_step ext r call
  rw [hok] at hstep
  cases hstep with
  | query hinput =>
    cases call with
    | applySnapshot | applyEvent | applyEventAt => cases hinput
    | _ => exact ⟨fun _ hd => absurd hd List.not_mem_nil, fun hfalse => hfalse.elim⟩
  | event hcall _ hcheck hbody =>
    obtain ⟨hroles, -⟩ := h.synced (checkEvent_ok hcheck).1
    obtain ⟨entry, hentry, rfl⟩ := expireAt_back hrecorded
    have hlease := (applyBody_step hbody).lease (hroles.expireAt h.live) hentry
    obtain rfl | ⟨rfl, -⟩ := hcall <;> exact hlease.evolves (entry.evolves_expire _)
  | snapshot _ hspec =>
    rw [pruneWinnerRecovery_entries, rememberRoles_entries] at hrecorded
    obtain ⟨entry, hentry, rfl⟩ := expireAt_back hrecorded
    refine LeaseStep.evolves ⟨fun d hd _ => ?_, fun hnone => hspec.leftOut hnone hentry⟩
      (entry.evolves_expire _)
    obtain ⟨job, hjob, heq⟩ := List.mem_map.mp hd
    obtain ⟨hid, rfl⟩ := Prod.mk.inj heq
    obtain ⟨entry', hentry', hdelivered⟩ := hspec.listed hjob hid
    obtain rfl := Option.some.inj (hentry'.symm.trans hentry)
    exact hdelivered.deadline

end Steps

/-! ## §4. Whole runs -/

section Runs

variable {ext : External} {config : GenerationRegistryConfig} {r : GenerationRegistry} {id : JobId}

theorem foldl_extends (ext : External) (r : GenerationRegistry) (calls : List RegistryCall) :
    Extends r.entries (calls.foldl (fun r call => (r.perform ext call).2) r).entries := by
  induction calls generalizing r with
  | nil => exact .refl _
  | cons call calls ih => exact (perform_extends ext r call).trans (ih _)

/-- What a call leaves for a job evolves into what the run ends with. -/
theorem after_evolves {earlier : List RegistryCall} {call : RegistryCall}
    {recorded : RegistryEntry} (later : List RegistryCall)
    (h : ((after ext config earlier).perform ext call).2.entries.find id = some recorded) :
    ∃ entry, (after ext config (earlier ++ call :: later)).entries.find id = some entry ∧
      Evolves recorded entry := by
  unfold after
  rw [List.foldl_append, List.foldl_cons]
  exact foldl_extends ext _ later id recorded h

/-- A known job was recorded by some call. -/
theorem first_recording {calls : List RegistryCall} {entry : RegistryEntry}
    (h : (after ext config calls).entries.find id = some entry) :
    ∃ earlier call later recorded, calls = earlier ++ call :: later ∧
      (after ext config earlier).entries.find id = none ∧
      ((after ext config earlier).perform ext call).2.entries.find id = some recorded := by
  induction calls using List.reverseRecOn generalizing entry with
  | nil => exact absurd h (by simp [after, new, Table.find, Table.empty])
  | append_singleton calls call ih =>
    cases hbefore : (after ext config calls).entries.find id with
    | none =>
      rw [after_concat] at h
      exact ⟨calls, call, [], entry, rfl, hbefore, h⟩
    | some old =>
      obtain ⟨earlier, first, later, recorded, rfl, hnone, hrecorded⟩ := ih hbefore
      exact ⟨earlier, first, later ++ [call], recorded, by simp, hnone, hrecorded⟩

variable {r' : GenerationRegistry}

theorem whenSynchronized_ok {α : Type} {t : ℕ} {call : GenerationRegistry → Outcome α} {a : α}
    (h : r.whenSynchronized t call = (.ok a, r')) :
    (∀ last ∈ r.lastMonotonicMs, last ≤ t) ∧ r.synchronized = true ∧
      call (r.atTime t) = (.ok a, r') := by
  cases hcheck : r.checkClock t with
  | error e =>
    unfold whenSynchronized advanceClock at h
    rw [hcheck] at h
    cases h
  | ok _ =>
    have hclock := checkClock_eq_ok.mp hcheck
    rw [whenSynchronized_of_le call hclock] at h
    split at h
    · cases h
    · next hsync => exact ⟨hclock, Bool.not_eq_false _ ▸ hsync, h⟩

/-- What a successful admission finds. -/
theorem beginAdmission_finds {t : ℕ} {admission : GenerationAdmission}
    (h : r.beginAdmission id t = (.ok admission, r')) :
    r.synchronized = true ∧ ∃ entry, r.entries.find id = some entry ∧
      entry.state.terminal = false ∧ t < entry.acceptUntilMs ∧
      admission.generation = entry.generation := by
  obtain ⟨-, hsync, h⟩ := whenSynchronized_ok h
  split at h
  · cases h
  · next generation hcheck =>
    obtain rfl := Except.ok.inj (Prod.mk.inj h).1
    obtain ⟨entry', hentry', haccepting, -, rfl⟩ := checkAdmission_eq_ok.mp hcheck
    have hfind : (r.expireAt t).entries.find id = some entry' := hentry'
    obtain ⟨entry, hentry, rfl⟩ := expireAt_back hfind
    obtain ⟨hstate, -, hlater⟩ := RegistryEntry.accepting_iff.mp haccepting
    have hopen := terminal_of_accepting hstate
    rw [RegistryEntry.expire_acceptUntilMs] at hlater
    exact ⟨hsync, entry, hentry, (RegistryEntry.expire_open hopen).1 ▸ hopen, hlater,
      (entry.evolves_expire t).generation⟩

/-- **An admission lies before every deadline** that a call has delivered for the job. -/
theorem admitted_before_deadline {earlier later : List RegistryCall} {call : RegistryCall} {t d : ℕ}
    {admission : GenerationAdmission} {recorded : RegistryEntry}
    (h : (after ext config (earlier ++ call :: later)).beginAdmission id t = (.ok admission, r'))
    (hok : ((after ext config earlier).perform ext call).1 = .ok ())
    (hrecorded : ((after ext config earlier).perform ext call).2.entries.find id = some recorded)
    (hd : (id.bytes, d) ∈ call.lifetimes) : t < d := by
  obtain ⟨-, entry, hentry, hopen, hlater, -⟩ := beginAdmission_finds h
  obtain ⟨entry', hentry', hevolves⟩ := after_evolves later hrecorded
  obtain rfl := Option.some.inj (hentry'.symm.trans hentry)
  -- had the call left a terminal entry, it would be terminal at the end
  have hopen' : recorded.state.terminal = false := hevolves.open_of_open hopen
  have hstep := perform_lease (after_inv ext config earlier) (Prod.ext hok rfl) hrecorded
  exact hlater.trans_le (hevolves.acceptUntilMs.trans (hstep.delivered d hd hopen'))

end Runs

/-- What an admission of `id` at `t` says about one call of the run before it, where `recorded` is
    the entry that the call left and `entry` the one that the admission found. -/
structure Leased (ext : External) (before : GenerationRegistry) (call : RegistryCall) (id : JobId)
    (t : ℕ) (recorded entry : RegistryEntry) : Prop where
  generation : recorded.generation = entry.generation
  winnerRecoveryUntilMs : recorded.winnerRecoveryUntilMs = entry.winnerRecoveryUntilMs
  unexpired : ∀ now ∈ call.reading ext before, now < recorded.acceptUntilMs
  delivered : (before.perform ext call).1 = .ok () → ∀ d, (id.bytes, d) ∈ call.lifetimes → t < d
  notRetired : (before.perform ext call).1 = .ok () → ¬ call.retires id

/-- **No lease is extended and no job comes back.**  An admission at `t` lies below every deadline
    delivered for the job since it was recorded; and since then the job was never invalidated,
    closed, left out or seen expired. -/
theorem admission_within_lease (ext : External) (config : GenerationRegistryConfig)
    (calls : List RegistryCall) (id : JobId) (t : ℕ) (admission : GenerationAdmission)
    (r' : GenerationRegistry)
    (h : (after ext config calls).beginAdmission id t = (.ok admission, r')) :
    (after ext config calls).synchronized = true ∧
    ∃ entry, (after ext config calls).entries.find id = some entry ∧
      admission.generation = entry.generation ∧
      (∃ earlier call later recorded, calls = earlier ++ call :: later ∧
        (after ext config earlier).entries.find id = none ∧
        ((after ext config earlier).perform ext call).2.entries.find id = some recorded) ∧
      ∀ earlier call later, calls = earlier ++ call :: later → ∀ recorded,
        ((after ext config earlier).perform ext call).2.entries.find id = some recorded →
          Leased ext (after ext config earlier) call id t recorded entry := by
  obtain ⟨hsync, entry, hentry, hopen, hlater, hgeneration⟩ := beginAdmission_finds h
  refine ⟨hsync, entry, hentry, hgeneration, first_recording hentry, ?_⟩
  rintro earlier call later rfl recorded hrecorded
  obtain ⟨entry', hentry', hevolves⟩ := after_evolves later hrecorded
  obtain rfl := Option.some.inj (hentry'.symm.trans hentry)
  -- had the call left a terminal entry, it would be terminal at the end
  have hopen' : recorded.state.terminal = false := hevolves.open_of_open hopen
  have hinv := after_inv ext config earlier
  refine ⟨hevolves.generation.symm, hevolves.winnerRecoveryUntilMs.symm, fun now hnow => ?_,
    fun hok d hd => ?_, fun hok hretires => ?_⟩
  · exact perform_unexpired hnow id recorded hrecorded hopen'
  · exact admitted_before_deadline h hok hrecorded hd
  · have hstep := perform_lease hinv (Prod.ext hok rfl) hrecorded
    rw [hstep.retired hretires] at hopen'
    cases hopen'

/-- Job 1 is superseded at 10 ms, with 400 ms of grace. -/
def workedSuperseded : RegistryCall := .applyEventAt (.jobInvalidated 2 1 .superseded 400) 10 10

/-- Job 1 is still admitted at 300 ms, which is within the grace. -/
theorem admission_within_lease_superseded : ∃ admission r',
    (after workedExternal workedConfig [workedSnapshot, workedSuperseded]).beginAdmission
        ⟨1, by decide⟩ 300 = (.ok admission, r') ∧
      ∀ d, (1, d) ∈ workedSuperseded.lifetimes → 300 < d := by
  have hsome : ((after workedExternal workedConfig [workedSnapshot, workedSuperseded]).beginAdmission
      ⟨1, by decide⟩ 300).1.toOption.isSome = true := by decide +kernel
  have hok : ((after workedExternal workedConfig [workedSnapshot]).perform workedExternal
      workedSuperseded).1 = .ok () := by decide +kernel
  have hrecorded : (((after workedExternal workedConfig [workedSnapshot]).perform workedExternal
      workedSuperseded).2.entries.find ⟨1, by decide⟩).isSome = true := by decide +kernel
  obtain ⟨recorded, hrecorded⟩ := Option.isSome_iff_exists.mp hrecorded
  generalize hbegin : (after workedExternal workedConfig
    [workedSnapshot, workedSuperseded]).beginAdmission ⟨1, by decide⟩ 300 = outcome at hsome ⊢
  obtain ⟨_ | admission, r'⟩ := outcome
  · exact absurd hsome (by simp [Except.toOption])
  · obtain ⟨-, entry, -, -, -, hleased⟩ := admission_within_lease workedExternal workedConfig
      [workedSnapshot, workedSuperseded] ⟨1, by decide⟩ 300 admission r' hbegin
    exact ⟨admission, r', rfl,
      (hleased [workedSnapshot] workedSuperseded [] rfl recorded hrecorded).delivered hok⟩

end GenerationRegistry

end WcashPool.Core
