/-
  WcashPool.Core.JobEntries — how the entries of the job registry evolve.

  Entries are never removed.  Generation and recovery deadline of an entry stay
  as they were first recorded, its acceptance deadline only moves closer, and a
  terminal state stays terminal.  Snapshots replace entries wholesale, so they
  get a specification of their own: which entries are prepared, and what the
  registry finds afterwards.

  What an event and a call can do is said once (`BodyStep`, `CallStep`); roles,
  leases and the list of winners are case analyses over that.

  Main results: `prepareSnapshot_spec`, `applyBody_step`, `perform_step` and
  `perform_extends`.
-/
import WcashPool.Core.JobRuns

namespace WcashPool.Core

open Fallible Protocol

/-! ## §1. Evolution -/

def AdmissionState.terminal : AdmissionState → Bool
  | .invalidated | .closed => true
  | .accepting | .suspended => false

/-- What may happen to an entry. -/
structure Evolves (entry entry' : RegistryEntry) : Prop where
  generation : entry'.generation = entry.generation
  winnerRecoveryUntilMs : entry'.winnerRecoveryUntilMs = entry.winnerRecoveryUntilMs
  acceptUntilMs : entry'.acceptUntilMs ≤ entry.acceptUntilMs
  terminal : entry.state.terminal = true → entry'.state.terminal = true

theorem Evolves.refl (entry : RegistryEntry) : Evolves entry entry := ⟨rfl, rfl, le_rfl, id⟩

/-- Entries evolve step after step. -/
theorem Evolves.trans {a b c : RegistryEntry} (h : Evolves a b) (h' : Evolves b c) : Evolves a c :=
  ⟨h'.generation.trans h.generation, h'.winnerRecoveryUntilMs.trans h.winnerRecoveryUntilMs,
    h'.acceptUntilMs.trans h.acceptUntilMs, fun hterminal => h'.terminal (h.terminal hterminal)⟩

theorem Evolves.open_of_open {entry entry' : RegistryEntry} (h : Evolves entry entry')
    (hopen : entry'.state.terminal = false) : entry.state.terminal = false := by
  by_contra hterminal
  cases (h.terminal (Bool.not_eq_false _ ▸ hterminal)).symm.trans hopen

namespace RegistryEntry

theorem evolves_enter {entry : RegistryEntry} {state : AdmissionState}
    (h : entry.state.terminal = true → state.terminal = true) : Evolves entry (entry.enter state) :=
  ⟨rfl, rfl, le_rfl, h⟩

theorem evolves_suspend (entry : RegistryEntry) : Evolves entry entry.suspend := by
  unfold suspend
  split
  · next h => exact evolves_enter (by rw [h]; simp [AdmissionState.terminal])
  · exact Evolves.refl entry

theorem evolves_expire (now : ℕ) (entry : RegistryEntry) : Evolves entry (entry.expire now) := by
  unfold expire
  split
  · exact evolves_enter fun _ => rfl
  · exact Evolves.refl entry

theorem evolves_leaveOut (entry : RegistryEntry) : Evolves entry entry.leaveOut := by
  unfold leaveOut
  split
  · exact Evolves.refl entry
  · exact evolves_enter fun _ => rfl

theorem evolves_supersede {entry : RegistryEntry} (h : entry.state = .accepting)
    (proposed anchor : ℕ) : Evolves entry (entry.supersede proposed anchor) :=
  ⟨rfl, rfl, min_le_left _ _, by rw [h]; simp [AdmissionState.terminal]⟩

end RegistryEntry

/-- Every entry is still there, evolved. -/
def Extends (entries entries' : Entries) : Prop :=
  ∀ id entry, entries.find id = some entry →
    ∃ entry', entries'.find id = some entry' ∧ Evolves entry entry'

namespace Extends

variable {entries entries' entries'' : Entries}

theorem refl (entries : Entries) : Extends entries entries :=
  fun _ entry h => ⟨entry, h, .refl entry⟩

theorem trans (h : Extends entries entries') (h' : Extends entries' entries'') :
    Extends entries entries'' := by
  intro id entry hentry
  obtain ⟨mid, hmid, hevolves⟩ := h id entry hentry
  obtain ⟨last, hlast, hevolves'⟩ := h' id mid hmid
  exact ⟨last, hlast, hevolves.trans hevolves'⟩

theorem evolves (h : Extends entries entries') {id : JobId} {entry entry' : RegistryEntry}
    (hentry : entries.find id = some entry) (hentry' : entries'.find id = some entry') :
    Evolves entry entry' := by
  obtain ⟨found, hfound, hevolves⟩ := h id entry hentry
  rwa [← Option.some.inj (hfound.symm.trans hentry')]

theorem mapRows {f : RegistryEntry → RegistryEntry} (hf : ∀ entry, (f entry).id = entry.id)
    (h : ∀ entry, Evolves entry (f entry)) : Extends entries (entries.mapRows f hf) :=
  fun id entry hentry => ⟨f entry, by rw [Table.find_mapRows, hentry]; rfl, h entry⟩

end Extends

/-! ## §2. Prepared snapshots -/

/-- A generation keeps its descriptor. -/
theorem BackendGeneration.fromDescriptor_spec {descriptor : JobDescriptor}
    {generation : BackendGeneration}
    (h : BackendGeneration.fromDescriptor descriptor = .ok generation) :
    generation.descriptor = descriptor := by
  unfold fromDescriptor at h
  split at h
  · rw [← Except.ok.inj h]
  · cases h

namespace GenerationRegistry

/-- What a snapshot prepares for one job. -/
structure PreparedEntry (r : GenerationRegistry) (anchor : ℕ) (job : AcceptableJob)
    (entry : RegistryEntry) : Prop where
  descriptor : entry.generation.descriptor = job.job
  state : entry.state = .accepting
  live : entry.storage.isLive = true
  deadline : entry.acceptUntilMs ≤ anchor + job.acceptForMs
  known : ∀ old, r.entries.find entry.id = some old →
    Evolves old entry ∧ old.state.terminal = false
  fresh : r.entries.find entry.id = none →
    entry.winnerRecoveryUntilMs = entry.acceptUntilMs + zcashWinnerRecoveryTailMs

section Snapshots

variable {r : GenerationRegistry} {anchor : ℕ}

/-- The entry prepared for an acceptable job. -/
theorem prepareAcceptable_spec {job : AcceptableJob} {entry : RegistryEntry}
    (h : r.prepareAcceptable anchor job = .ok entry) : PreparedEntry r anchor job entry := by
  obtain ⟨generation, hgeneration, h⟩ := bind_eq_ok.mp h
  have hdescriptor := BackendGeneration.fromDescriptor_spec hgeneration
  obtain ⟨proposed, hproposed, h⟩ := bind_eq_ok.mp (passed h)
  obtain ⟨-, rfl⟩ := checkedAdd_eq_ok.mp hproposed
  cases hfind : r.entries.find generation.id with
  | some old =>
    simp only [hfind] at h
    obtain ⟨hsame, h⟩ := require_bind_ok h
    obtain ⟨hopen, h⟩ := rejectIf_bind_ok h
    replace h := passed h
    rw [not_or, not_or, Bool.not_eq_false] at hopen
    obtain ⟨hinvalidated, hclosed, hlive⟩ := hopen
    obtain rfl := Except.ok.inj h
    have hid : (⟨old.storage, min old.acceptUntilMs (anchor + job.acceptForMs),
        old.winnerRecoveryUntilMs, .accepting⟩ : RegistryEntry).id = generation.id :=
      congrArg BackendGeneration.id hsame
    have hterminal : old.state.terminal = false := by
      cases hstate : old.state <;> simp_all [AdmissionState.terminal]
    refine ⟨(congrArg BackendGeneration.descriptor hsame).trans hdescriptor, rfl, hlive,
      min_le_right _ _, fun old' hold' => ?_, fun hnone => ?_⟩
    · rw [hid, hfind] at hold'
      obtain rfl := Option.some.inj hold'
      exact ⟨⟨rfl, rfl, min_le_left _ _, by simp [hterminal]⟩, hterminal⟩
    · rw [hid, hfind] at hnone
      cases hnone
  | none =>
    simp only [hfind] at h
    obtain ⟨recovery, hrecovery, h⟩ := bind_eq_ok.mp h
    obtain ⟨-, rfl⟩ := checkedAdd_eq_ok.mp hrecovery
    obtain rfl := Except.ok.inj h
    refine ⟨hdescriptor, rfl, rfl, le_rfl, fun old' hold' => ?_, fun _ => rfl⟩
    have hnone : r.entries.find generation.id = some old' := hold'
    rw [hfind] at hnone
    cases hnone

variable {recent : List AcceptableJob}

/-- The loop over the recent jobs. -/
theorem recentLoop_spec {before prepared prepared' : List RegistryEntry}
    (h : recent.foldlM (r.prepareRecent anchor before) prepared = .ok prepared')
    (hnodup : ((before ++ prepared).map (·.id)).Nodup) :
    ∃ entries, prepared' = prepared ++ entries ∧
      List.Forall₂ (PreparedEntry r anchor) recent entries ∧
      ((before ++ prepared').map (·.id)).Nodup := by
  induction recent generalizing prepared with
  | nil =>
    obtain rfl := Except.ok.inj h
    exact ⟨[], by simp, .nil, hnodup⟩
  | cons job recent ih =>
    rw [List.foldlM_cons] at h
    obtain ⟨mid, hturn, h⟩ := bind_eq_ok.mp h
    obtain ⟨entry, hentry, hturn⟩ := bind_eq_ok.mp hturn
    obtain ⟨hnew, hturn⟩ := rejectIf_bind_ok hturn
    obtain rfl := Except.ok.inj hturn
    have hnodup' : ((before ++ (prepared ++ [entry])).map (·.id)).Nodup := by
      rw [← List.append_assoc]
      exact Table.nodup_map_concat hnodup hnew
    obtain ⟨entries, rfl, hforall, hall⟩ := ih h hnodup'
    exact ⟨entry :: entries, by simp, .cons (prepareAcceptable_spec hentry) hforall,
      by simpa using hall⟩

/-- What a prepared snapshot consists of. -/
structure SnapshotSpec (r : GenerationRegistry) (current : Option AcceptableJob)
    (recent : List AcceptableJob) (anchor : ℕ) (prepared : PreparedSnapshot)
    (entries : List RegistryEntry) : Prop where
  jobs : List.Forall₂ (PreparedEntry r anchor) (current.toList ++ recent) entries
  nodup : (entries.map (·.id)).Nodup
  installed : prepared.entries = r.installed entries
  roles : prepared.current.toList ++ prepared.recent = entries.map (·.id)
  recent : prepared.recent.length ≤ r.config.maximumRecent
  generations : prepared.entries.rows.length ≤ r.config.maximumGenerations

variable {current : Option AcceptableJob} {prepared : PreparedSnapshot}

/-- **What a prepared snapshot consists of.** -/
theorem prepareSnapshot_spec {eventSeq : ℕ}
    (h : r.prepareSnapshot eventSeq current recent anchor = .ok prepared) :
    ∃ entries, SnapshotSpec r current recent anchor prepared entries := by
  obtain ⟨_, hrecent, h⟩ := bind_eq_ok.mp (passed (passed h))
  obtain ⟨currentEntry, hcurrent, h⟩ := bind_eq_ok.mp h
  obtain ⟨recentEntries, hloop, h⟩ := bind_eq_ok.mp h
  obtain ⟨_, hgenerations, h⟩ := bind_eq_ok.mp (passed h)
  obtain rfl := Except.ok.inj h
  rw [rejectIf_eq_ok, not_lt] at hrecent hgenerations
  have hfirst : List.Forall₂ (PreparedEntry r anchor) current.toList currentEntry.toList ∧
      ((currentEntry.toList ++ ([] : List RegistryEntry)).map (·.id)).Nodup := by
    cases current with
    | none =>
      obtain rfl := Except.ok.inj hcurrent
      exact ⟨.nil, List.nodup_nil⟩
    | some job =>
      cases hprepare : r.prepareAcceptable anchor job with
      | error e => simp [prepareCurrent, hprepare, Except.map] at hcurrent
      | ok entry =>
        simp only [prepareCurrent, hprepare, Except.map] at hcurrent
        obtain rfl := Except.ok.inj hcurrent
        exact ⟨.cons (prepareAcceptable_spec hprepare) .nil, by simp⟩
  obtain ⟨entries, hentries, hforall, hnodup⟩ := recentLoop_spec hloop hfirst.2
  rw [List.nil_append] at hentries
  subst hentries
  refine ⟨currentEntry.toList ++ recentEntries, ?_, hnodup, rfl, ?_, ?_, hgenerations⟩
  · exact List.rel_append hfirst.1 hforall
  · cases currentEntry <;> simp
  · rw [List.length_map, ← hforall.length_eq]
    exact hrecent

variable {entries : List RegistryEntry}

/-- An installed table has the snapshot's entries; the others are left out. -/
theorem find_installed (h : (entries.map (·.id)).Nodup) (id : JobId) :
    (r.installed entries).find id
      = (entries.find? fun entry => entry.id = id).or ((r.entries.find id).map (·.leaveOut)) := by
  unfold installed
  rw [Table.find_mapRows, Table.find_foldl_put _ h]
  cases hfind : entries.find? (fun entry => entry.id = id) with
  | some entry =>
    have hmem : entry.id ∈ entries.map (·.id) :=
      List.mem_map_of_mem (List.mem_of_find?_eq_some hfind)
    simp only [Option.some_or, Option.map_some, if_pos hmem]
  | none =>
    have hnot : id ∉ entries.map (·.id) := by
      rintro hmem
      obtain ⟨entry, hentry, rfl⟩ := List.mem_map.mp hmem
      exact absurd (List.find?_eq_none.mp hfind entry hentry) (by simp)
    cases hold : r.entries.find id with
    | none => rfl
    | some old =>
      have hid : old.id = id := Table.key_of_find hold
      simp only [Option.none_or, Option.map_some, hid, if_neg hnot]

/-- What the registry finds for a job that the snapshot lists, and for one that it leaves out. -/
theorem SnapshotSpec.find (h : SnapshotSpec r current recent anchor prepared entries) (id : JobId) :
    (∃ job entry, job ∈ current.toList ++ recent ∧ entry ∈ entries ∧ entry.id = id ∧
        PreparedEntry r anchor job entry ∧ prepared.entries.find id = some entry) ∨
      (id ∉ entries.map (·.id) ∧
        prepared.entries.find id = (r.entries.find id).map (·.leaveOut)) := by
  rw [h.installed, find_installed h.nodup]
  cases hfind : entries.find? (fun entry => entry.id = id) with
  | some entry =>
    have hmem := List.mem_of_find?_eq_some hfind
    have hid : entry.id = id := by simpa using List.find?_some hfind
    obtain ⟨job, hjob, hprepared⟩ : ∃ job ∈ current.toList ++ recent,
        PreparedEntry r anchor job entry := by
      obtain ⟨n, hn, hget⟩ := List.mem_iff_getElem.mp hmem
      have hlength := h.jobs.length_eq
      exact ⟨(current.toList ++ recent)[n], List.getElem_mem _, by
        rw [← hget]
        exact (List.forall₂_iff_get.mp h.jobs).2 n (by omega) hn⟩
    exact .inl ⟨job, entry, hjob, hmem, hid, hprepared, rfl⟩
  | none =>
    refine .inr ⟨?_, rfl⟩
    intro hmem
    obtain ⟨entry, hentry, hid⟩ := List.mem_map.mp hmem
    exact absurd (List.find?_eq_none.mp hfind entry hentry) (by simp [hid])

/-- A snapshot extends the table. -/
theorem SnapshotSpec.extends (h : SnapshotSpec r current recent anchor prepared entries) :
    Extends r.entries prepared.entries := by
  intro id old hold
  obtain ⟨job, entry, -, -, rfl, hprepared, hfind⟩ | ⟨-, hfind⟩ := h.find id
  · exact ⟨entry, hfind, (hprepared.known old hold).1⟩
  · exact ⟨old.leaveOut, by rw [hfind, hold]; rfl, old.evolves_leaveOut⟩

end Snapshots

/-! ## §3. Calls that are no inputs -/

/-- An entry changes in its storage only, and keeps its resource while it is not terminal. -/
structure SameAdmission (entry entry' : RegistryEntry) : Prop where
  generation : entry'.generation = entry.generation
  acceptUntilMs : entry'.acceptUntilMs = entry.acceptUntilMs
  winnerRecoveryUntilMs : entry'.winnerRecoveryUntilMs = entry.winnerRecoveryUntilMs
  state : entry'.state = entry.state
  live : entry.state.terminal = false → entry.storage.isLive = true → entry'.storage.isLive = true

theorem SameAdmission.refl (entry : RegistryEntry) : SameAdmission entry entry :=
  ⟨rfl, rfl, rfl, rfl, fun _ h => h⟩

theorem SameAdmission.evolves {entry entry' : RegistryEntry} (h : SameAdmission entry entry') :
    Evolves entry entry' :=
  ⟨h.generation, h.winnerRecoveryUntilMs, h.acceptUntilMs.le, fun hterminal => h.state ▸ hterminal⟩

theorem sameAdmission_addGuard (entry : RegistryEntry) : SameAdmission entry entry.addGuard := by
  unfold RegistryEntry.addGuard
  split
  · next h =>
    exact ⟨by unfold RegistryEntry.generation; rw [h]; rfl, rfl, rfl, rfl, fun _ _ => rfl⟩
  · exact .refl entry

theorem sameAdmission_release (entry : RegistryEntry) : SameAdmission entry entry.release := by
  unfold RegistryEntry.release
  split
  · next h =>
    exact ⟨by unfold RegistryEntry.generation; rw [h]; rfl, rfl, rfl, rfl, fun _ _ => rfl⟩
  · exact .refl entry

/-- Only terminal entries lose their resource. -/
theorem sameAdmission_retireEntry (r : GenerationRegistry) (entry : RegistryEntry) :
    SameAdmission entry (r.retireEntry entry) := by
  unfold retireEntry
  split
  · next hretirable =>
    refine ⟨rfl, rfl, rfl, rfl, fun hopen => ?_⟩
    simp only [retirable, Bool.and_eq_true, Bool.or_eq_true, decide_eq_true_eq] at hretirable
    obtain hstate | hstate := hretirable.1.1.2
    all_goals
      rw [hstate] at hopen
      cases hopen
  · exact .refl entry

/-- Only guards, resources and the list of winners change. -/
structure Touched (r r' : GenerationRegistry) : Prop where
  entries : ∀ id, ∃ f : RegistryEntry → RegistryEntry,
    r'.entries.find id = (r.entries.find id).map f ∧ ∀ entry, SameAdmission entry (f entry)
  length : r'.entries.rows.length = r.entries.rows.length
  winners : r'.winnerRecovery.Sublist r.winnerRecovery
  rest : r' = { r with entries := r'.entries, winnerRecovery := r'.winnerRecovery }

section Queries

variable {r r' : GenerationRegistry}

theorem Touched.refl (r : GenerationRegistry) : Touched r r :=
  ⟨fun _ => ⟨fun entry => entry, Option.map_id'.symm, .refl⟩, rfl, .refl _, rfl⟩

theorem Touched.prune (r : GenerationRegistry) (now : ℕ) : Touched r (r.pruneWinnerRecovery now) :=
  ⟨(Touched.refl r).entries, rfl, List.filter_sublist, rfl⟩

theorem Touched.modify (r : GenerationRegistry) (id : JobId) {f : RegistryEntry → RegistryEntry}
    (hid : ∀ entry, (f entry).id = entry.id) (hf : ∀ entry, SameAdmission entry (f entry)) :
    Touched r { r with entries := r.entries.modify id f hid } := by
  refine ⟨fun id' => ?_, List.length_map _, .refl _, rfl⟩
  by_cases heq : id' = id
  · exact ⟨f, by rw [Table.find_modify, if_pos heq, heq], hf⟩
  · exact ⟨fun entry => entry, by rw [Table.find_modify, if_neg heq, Option.map_id'], .refl⟩

theorem Touched.mapRows (r : GenerationRegistry) {f : RegistryEntry → RegistryEntry}
    (hid : ∀ entry, (f entry).id = entry.id) (hf : ∀ entry, SameAdmission entry (f entry)) :
    Touched r { r with entries := r.entries.mapRows f hid } :=
  ⟨fun id => ⟨f, Table.find_mapRows _ _ hid id, hf⟩, List.length_map _, .refl _, rfl⟩

theorem Touched.back (h : Touched r r') {id : JobId} {entry' : RegistryEntry}
    (hentry' : r'.entries.find id = some entry') :
    ∃ entry, r.entries.find id = some entry ∧ SameAdmission entry entry' := by
  obtain ⟨f, hfind, hf⟩ := h.entries id
  rw [hfind] at hentry'
  obtain ⟨entry, hentry, rfl⟩ := Option.map_eq_some_iff.mp hentry'
  exact ⟨entry, hentry, hf entry⟩

theorem Touched.forth (h : Touched r r') {id : JobId} {entry : RegistryEntry}
    (hentry : r.entries.find id = some entry) :
    ∃ entry', r'.entries.find id = some entry' ∧ SameAdmission entry entry' := by
  obtain ⟨f, hfind, hf⟩ := h.entries id
  exact ⟨f entry, by rw [hfind, hentry]; rfl, hf entry⟩

/-- A touched registry extends the table. -/
theorem Touched.extends (h : Touched r r') : Extends r.entries r'.entries := by
  intro id entry hentry
  obtain ⟨entry', hentry', hsame⟩ := h.forth hentry
  exact ⟨entry', hentry', hsame.evolves⟩

/-- The registry after a successful reading of the clock. -/
def atTime (r : GenerationRegistry) (t : ℕ) : GenerationRegistry :=
  { r.expireAt t with lastMonotonicMs := some t }

/-- The clock may not run backwards. -/
theorem checkClock_eq_ok {t : ℕ} :
    r.checkClock t = .ok () ↔ ∀ last ∈ r.lastMonotonicMs, last ≤ t := by
  unfold checkClock
  rw [rejectIf_eq_ok]
  push Not
  rfl

/-- What such a call leaves, with the time that it read: a suspended registry, or the same one but
    for guards, resources and winners, after an expiry where the clock was read. -/
inductive QueryStep (r : GenerationRegistry) : Option ℕ → GenerationRegistry → Prop
  | suspended : QueryStep r none r.suspend
  | untimed {r' : GenerationRegistry} (h : Touched r r') : QueryStep r none r'
  | timed {now : ℕ} {r' : GenerationRegistry} (hclock : ∀ last ∈ r.lastMonotonicMs, last ≤ now)
      (h : Touched (r.atTime now) r') : QueryStep r (some now) r'

theorem suspend_extends (r : GenerationRegistry) : Extends r.entries r.suspend.entries :=
  .mapRows RegistryEntry.id_suspend RegistryEntry.evolves_suspend

theorem expireAt_extends (r : GenerationRegistry) (now : ℕ) :
    Extends r.entries (r.expireAt now).entries :=
  .mapRows (RegistryEntry.id_expire now) (RegistryEntry.evolves_expire now)

/-- A query extends the table. -/
theorem QueryStep.extends {now : Option ℕ} (h : QueryStep r now r') :
    Extends r.entries r'.entries := by
  cases h with
  | suspended => exact r.suspend_extends
  | untimed h => exact h.extends
  | timed _ h => exact (r.expireAt_extends _).trans h.extends

/-- The time of a reading of the clock, where that succeeds. -/
def clockReading (r : GenerationRegistry) (now : ℕ) : Option ℕ :=
  (r.checkClock now).toOption.map fun _ => now

theorem advanceClock_query {α : Type} (now : ℕ) {call : GenerationRegistry → Outcome α}
    (h : ∀ r, Touched r (call r).2) :
    QueryStep r (r.clockReading now) (match r.advanceClock now with
      | (.error e, advanced) => ((.error e, advanced) : Outcome α)
      | (.ok (), advanced) => call advanced).2 := by
  unfold advanceClock clockReading
  cases hcheck : r.checkClock now with
  | error e => exact .suspended
  | ok _ => exact .timed (checkClock_eq_ok.mp hcheck) (h _)

theorem whenSynchronized_query {α : Type} (now : ℕ) {call : GenerationRegistry → Outcome α}
    (h : ∀ r, Touched r (call r).2) :
    QueryStep r (r.clockReading now) (r.whenSynchronized now call).2 := by
  refine advanceClock_query now fun r => ?_
  split
  · exact .refl r
  · exact h r

/-- A candidate's admission is a query. -/
theorem beginZcashCandidate_query (ext : External) (id : JobId) (nonce : Hex32)
    (solution : Hex1344) (now : ℕ) (role : AdmissionRole) (allowNoCurrent : Bool) :
    QueryStep r (r.clockReading now)
      (r.beginZcashCandidate ext id nonce solution now role allowNoCurrent).2 := by
  refine whenSynchronized_query now fun r => ?_
  split <;> exact .prune r now

end Queries

end GenerationRegistry

/-- The time that the call reads, where it gets to that: entries are then seen as expired. -/
def RegistryCall.reading (ext : External) (r : GenerationRegistry) : RegistryCall → Option ℕ
  | .suspend | .dropAdmission _ => none
  | .applySnapshot eventSeq current recent started =>
    (r.prepareSnapshot eventSeq current recent started).toOption.map fun _ => r.latest started
  | .applyEvent event anchor => (r.checkEvent ext event anchor (r.latest anchor)).toOption
  | .applyEventAt event anchor policyNow => (r.checkEvent ext event anchor policyNow).toOption
  | .admissibleJobIds now | .currentGeneration now | .beginAdmission _ now
  | .winnerRecoveryJobIds now | .beginZcashWinnerRecovery _ _ _ now
  | .beginHistoricalZcashCandidateDuringPause _ _ _ now | .beginPausedZcashCandidate _ _ _ now
  | .collectRetired now => r.clockReading now

namespace GenerationRegistry

/-- **What a call that is no input can do.** -/
theorem perform_query (ext : External) (r : GenerationRegistry) {call : RegistryCall}
    (h : call.isInput = false) :
    QueryStep r (call.reading ext r) (r.perform ext call).2 := by
  cases call with
  | applySnapshot | applyEvent | applyEventAt => exact absurd h (by simp [RegistryCall.isInput])
  | suspend => exact .suspended
  | dropAdmission id => exact .untimed (.modify r id RegistryEntry.id_release sameAdmission_release)
  | admissibleJobIds now =>
    show QueryStep r _ (r.admissibleJobIds now).2
    exact whenSynchronized_query now fun r => .refl r
  | currentGeneration now =>
    show QueryStep r _ (r.currentGeneration now).2
    exact advanceClock_query now fun r => .refl r
  | beginAdmission id now =>
    show QueryStep r _ (r.beginAdmission id now).2
    refine whenSynchronized_query now fun r => ?_
    split
    · exact .refl r
    · exact .modify r id RegistryEntry.id_addGuard sameAdmission_addGuard
  | winnerRecoveryJobIds now =>
    show QueryStep r _ (r.winnerRecoveryJobIds now).2
    exact whenSynchronized_query now fun r => .prune r now
  | beginZcashWinnerRecovery => exact beginZcashCandidate_query _ _ _ _ _ _ _
  | beginHistoricalZcashCandidateDuringPause => exact beginZcashCandidate_query _ _ _ _ _ _ _
  | beginPausedZcashCandidate => exact beginZcashCandidate_query _ _ _ _ _ _ _
  | collectRetired now =>
    show QueryStep r _ (r.collectRetired now).2
    exact advanceClock_query now fun r => .mapRows r r.id_retireEntry (sameAdmission_retireEntry r)

/-! ## §4. Events -/

/-- Does the event close the job, or take it off an old Zcash tip? -/
def eventBars (id : JobId) : BackendEvent → Prop
  | .jobInvalidated _ jobId reason _ => jobId = id.bytes ∧ reason = .zcashTipChanged
  | .generationClosed _ jobId => jobId = id.bytes
  | _ => False

/-- Is the event about the end of the job? -/
def eventEnds (id : JobId) : BackendEvent → Prop
  | .jobInvalidated _ jobId _ _ | .generationClosed _ jobId => jobId = id.bytes
  | _ => False

/-- One entry is recorded, or rewritten. -/
structure Placed (entries : Entries) (id : JobId) (entry : RegistryEntry) (entries' : Entries) :
    Prop where
  find : ∀ id', entries'.find id' = if id' = id then some entry else entries.find id'
  evolves : ∀ old, entries.find id = some old → Evolves old entry

section Placed

variable {entries entries' : Entries} {entry : RegistryEntry} {id : JobId}

/-- A placed entry extends the table. -/
theorem Placed.extends (h : Placed entries id entry entries') : Extends entries entries' := by
  intro id' old hold
  rw [h.find]
  split
  · next heq => exact ⟨entry, rfl, h.evolves old (heq ▸ hold)⟩
  · exact ⟨old, hold, .refl old⟩

theorem Placed.put (h : entries.find entry.id = none) :
    Placed entries entry.id entry (entries.put entry) := by
  refine ⟨fun id' => ?_, fun old hold => ?_⟩
  · rw [Table.find_put]
    simp only [eq_comm]
  · rw [h] at hold
    cases hold

theorem Placed.modify {f : RegistryEntry → RegistryEntry} (hf : ∀ entry, (f entry).id = entry.id)
    (h : entries.find id = some entry) (hevolves : Evolves entry (f entry)) :
    Placed entries id (f entry) (entries.modify id f hf) := by
  refine ⟨fun id' => ?_, fun old hold => ?_⟩
  · rw [Table.find_modify, h]
    rfl
  · rwa [← Option.some.inj (h.symm.trans hold)]

theorem Placed.same (h : entries.find id = some entry) : Placed entries id entry entries := by
  refine ⟨fun id' => ?_, fun old hold => ?_⟩
  · split
    · next heq => rw [heq, h]
    · rfl
  · rw [← Option.some.inj (h.symm.trans hold)]
    exact .refl entry

end Placed

/-- The entry that an activation records. -/
structure Activated (r : GenerationRegistry) (anchor : ℕ) (job : JobDescriptor)
    (entry : RegistryEntry) : Prop where
  descriptor : entry.generation.descriptor = job
  state : entry.state = .accepting
  live : entry.storage.isLive = true
  deadline : entry.acceptUntilMs = anchor + job.maxAgeMs
  recovery : entry.winnerRecoveryUntilMs = entry.acceptUntilMs + zcashWinnerRecoveryTailMs
  fresh : r.entries.find entry.id = none
  recent : ¬ ((r.priorCurrent anchor).isSome ∧ r.recent.length = r.config.maximumRecent)
  capacity : r.entries.rows.length ≠ r.config.maximumGenerations

/-- What the body of a successful event can do: nothing, but for some winners; record new work; end
    a job; or leave superseded work its grace. -/
inductive BodyStep (r : GenerationRegistry) (anchor : ℕ) : BackendEvent → GenerationRegistry → Prop
  | idle {event : BackendEvent} {winners : List JobId}
      (hnew : ∀ eventSeq job, event ≠ .jobActivated eventSeq job)
      (hunknown : ∀ id, eventEnds id event → r.entries.find id = none)
      (hwinners : winners.Sublist r.winnerRecovery) :
      BodyStep r anchor event { r with winnerRecovery := winners }
  | activated {eventSeq : ℕ} {job : JobDescriptor} {entry : RegistryEntry}
      (h : Activated r anchor job entry) :
      BodyStep r anchor (.jobActivated eventSeq job)
        ((r.extendRecent anchor).activateEntry entry anchor)
  | ended {event : BackendEvent} {id : JobId} {entry : RegistryEntry} {entries' : Entries}
      {winners : List JobId} (hevent : eventEnds id event)
      (hplaced : Placed r.entries id entry entries')
      (hknown : (r.entries.find id).isSome = true)
      (hlength : entries'.rows.length = r.entries.rows.length)
      -- the job was over already, or it is now
      (hstate : (r.entries.find id = some entry ∧ entry.state ≠ .accepting) ∨
        entry.state.terminal = true)
      (hwinners : winners.Sublist r.winnerRecovery) (hbars : eventBars id event → id ∉ winners) :
      BodyStep r anchor event { r with
        entries := entries'
        current := r.current.filter (· ≠ id)
        recent := r.recent.filter (· ≠ id)
        winnerRecovery := winners }
  | graced {eventSeq acceptFor : ℕ} {id : JobId} {old entry : RegistryEntry} {entries' : Entries}
      {winners : List JobId} (hgrace : acceptFor ≠ 0)
      (hplaced : Placed r.entries id entry entries')
      (hold : r.entries.find id = some old) (hopen : old.state = .accepting)
      (hlength : entries'.rows.length = r.entries.rows.length)
      (hstate : entry.state = .accepting) (hstorage : entry.storage = old.storage)
      (hlater : anchor < entry.acceptUntilMs) (hdeadline : entry.acceptUntilMs ≤ anchor + acceptFor)
      (hrecent : ¬ (id ∉ r.recent ∧ r.recent.length = r.config.maximumRecent))
      (hwinners : winners.Sublist r.winnerRecovery) :
      BodyStep r anchor (.jobInvalidated eventSeq id.bytes .superseded acceptFor)
        (withdraw { r with
          entries := entries'
          recent := if id ∉ r.recent then id :: r.recent else r.recent
          winnerRecovery := winners } id anchor)

section Events

variable {r r' : GenerationRegistry} {anchor eventSeq : ℕ}

@[simp] theorem rememberWinnerRecovery_entries (r : GenerationRegistry) (id : JobId) :
    (r.rememberWinnerRecovery id).entries = r.entries := by
  unfold rememberWinnerRecovery
  split <;> rfl

@[simp] theorem activateEntry_entries (r : GenerationRegistry) (entry : RegistryEntry)
    (anchor : ℕ) : (r.activateEntry entry anchor).entries = r.entries.put entry :=
  rememberWinnerRecovery_entries ..

theorem jobId_of_new {bytes : Hex32} {id : JobId} (h : JobId.new bytes = .ok id) :
    id.bytes = bytes := by
  unfold JobId.new at h
  split at h
  · cases h
  · rw [← Except.ok.inj h]

theorem JobId.ext_bytes {a b : JobId} (h : a.bytes = b.bytes) : a = b := by
  cases a
  cases b
  cases h
  rfl

/-- The winners that are left when work may be off the Zcash tip. -/
theorem forgetOnZcashTip_eq (r : GenerationRegistry) (id : JobId) (reason : JobInvalidationReason) :
    ∃ winners, r.forgetOnZcashTip id reason = { r with winnerRecovery := winners } ∧
      winners.Sublist r.winnerRecovery ∧ (reason = .zcashTipChanged → id ∉ winners) := by
  unfold forgetOnZcashTip
  split
  · exact ⟨_, rfl, List.filter_sublist, fun _ => by simp⟩
  · next hother => exact ⟨r.winnerRecovery, rfl, .refl _, fun htip => absurd htip hother⟩

/-- `JobActivated`. -/
theorem activate_step {job : JobDescriptor} (h : r.activate job anchor = (.ok (), r')) :
    BodyStep r anchor (.jobActivated eventSeq job) r' := by
  unfold activate at h
  split at h
  · cases h
  · next generation acceptUntil hcheck =>
    obtain ⟨generation', hgeneration, hcheck⟩ := bind_eq_ok.mp hcheck
    obtain ⟨_, hreused, hcheck⟩ := bind_eq_ok.mp hcheck
    obtain ⟨_, hrecent, hcheck⟩ := bind_eq_ok.mp hcheck
    obtain ⟨_, hcapacity, hcheck⟩ := bind_eq_ok.mp hcheck
    obtain ⟨acceptUntil', hdeadline, hcheck⟩ := bind_eq_ok.mp hcheck
    obtain ⟨rfl, rfl⟩ := ok_pair_inj hcheck
    have hdescriptor := BackendGeneration.fromDescriptor_spec hgeneration
    rw [rejectIf_eq_ok] at hreused hrecent hcapacity
    obtain ⟨-, rfl⟩ := checkedAdd_eq_ok.mp hdeadline
    split at h
    · cases h
    · next recovery hrecovery =>
      obtain ⟨-, rfl⟩ := checkedAdd_eq_ok.mp hrecovery
      obtain rfl := (Prod.mk.inj h).2
      have hfresh : r.entries.find generation'.id = none := by simpa using hreused
      refine .activated ⟨hdescriptor, rfl, rfl, ?_, rfl, hfresh, hrecent, hcapacity⟩
      rw [← hdescriptor]
      rfl

variable {id : JobId} {entry : RegistryEntry} {winners : List JobId} {acceptFor : ℕ}

theorem withdraw_of_not_accepting {entries' : Entries} (hplaced : Placed r.entries id entry entries')
    (hstate : entry.state ≠ .accepting) (anchor : ℕ) (winners : List JobId) :
    withdraw { r with entries := entries', winnerRecovery := winners } id anchor = { r with
      entries := entries'
      current := r.current.filter (· ≠ id)
      recent := r.recent.filter (· ≠ id)
      winnerRecovery := winners } := by
  have hat : entries'.acceptingAt anchor id = false := by
    unfold Entries.acceptingAt
    rw [hplaced.find, if_pos rfl]
    simp [RegistryEntry.accepting, hstate]
  unfold withdraw
  rw [hat]
  rfl

variable (hwinners : winners.Sublist r.winnerRecovery)

include hwinners

/-- Grace that is over at once is none. -/
theorem supersedeJob_step (hentry : r.entries.find id = some entry) (hopen : entry.state = .accepting)
    (hgrace : acceptFor ≠ 0)
    (h : supersedeJob { r with winnerRecovery := winners } id entry acceptFor anchor = .ok r') :
    BodyStep r anchor (.jobInvalidated eventSeq id.bytes .superseded acceptFor) r' := by
  obtain ⟨proposed, hproposed, h⟩ := bind_eq_ok.mp h
  obtain ⟨-, rfl⟩ := checkedAdd_eq_ok.mp hproposed
  obtain ⟨hrecent, h⟩ := rejectIf_bind_ok h
  obtain rfl := Except.ok.inj h
  have hplaced := Placed.modify (RegistryEntry.id_supersede (anchor + acceptFor) anchor) hentry
    (RegistryEntry.evolves_supersede hopen _ _)
  by_cases hlater : min entry.acceptUntilMs (anchor + acceptFor) > anchor
  · have hstate : (entry.supersede (anchor + acceptFor) anchor).state = .accepting := if_pos hlater
    simp only [hstate, true_and]
    exact .graced hgrace hplaced hentry hopen (List.length_map _) hstate rfl hlater (min_le_right _ _)
      hrecent hwinners
  · have hstate : (entry.supersede (anchor + acceptFor) anchor).state = .invalidated := if_neg hlater
    simp only [hstate, reduceCtorEq, false_and, if_false]
    rw [withdraw_of_not_accepting hplaced (by rw [hstate]; decide)]
    exact .ended rfl hplaced (by rw [hentry]; rfl) (List.length_map _) (.inr (by rw [hstate]; rfl))
      hwinners fun hbars => absurd hbars.2 (by decide)

/-- `JobInvalidated`. -/
theorem invalidateJob_step {reason : JobInvalidationReason}
    (hbars : reason = .zcashTipChanged → id ∉ winners)
    (h : invalidateJob { r with winnerRecovery := winners } id reason acceptFor anchor = .ok r') :
    BodyStep r anchor (.jobInvalidated eventSeq id.bytes reason acceptFor) r' := by
  unfold invalidateJob at h
  split at h
  · next hnone =>
    obtain rfl := Except.ok.inj h
    exact .idle (by simp) (fun id' hid' => JobId.ext_bytes hid' ▸ hnone) hwinners
  · next entry hentry =>
    have hentry : r.entries.find id = some entry := hentry
    have hknown : (r.entries.find id).isSome = true := by rw [hentry]; rfl
    split at h
    · next hover =>
      obtain rfl := Except.ok.inj h
      exact .ended rfl (.same hentry) hknown rfl (.inl ⟨hentry, hover⟩) hwinners
        fun h => hbars h.2
    · next hopen =>
      split at h
      · next hgrace =>
        obtain ⟨rfl, hgrace⟩ := hgrace
        exact supersedeJob_step hwinners hentry (not_not.mp hopen) hgrace h
      · obtain rfl := Except.ok.inj h
        have hplaced := Placed.modify (RegistryEntry.id_enter · .invalidated) hentry
          (RegistryEntry.evolves_enter fun _ => rfl)
        rw [withdraw_of_not_accepting hplaced (by simp [RegistryEntry.enter])]
        exact .ended rfl hplaced hknown (List.length_map _) (.inr rfl) hwinners fun h => hbars h.2

omit hwinners

/-- **What the body of a successful event can do.** -/
theorem applyBody_step {event : BackendEvent} (h : r.applyBody event anchor = (.ok (), r')) :
    BodyStep r anchor event r' := by
  unfold applyBody at h
  split at h
  · exact activate_step h
  · next reason _ =>
    split at h
    · cases h
    · next id hnew =>
      obtain rfl := jobId_of_new hnew
      split at h
      · cases h
      · next hinvalidate =>
        obtain rfl := (Prod.mk.inj h).2
        obtain ⟨winners, hforget, hwinners, hbars⟩ := r.forgetOnZcashTip_eq id reason
        rw [hforget] at hinvalidate
        exact invalidateJob_step hwinners hbars hinvalidate
  · split at h
    · cases h
    · next id hnew =>
      obtain rfl := jobId_of_new hnew
      obtain rfl := (Prod.mk.inj h).2
      unfold closeGeneration
      split
      · next hknown =>
        obtain ⟨entry, hentry⟩ := Option.isSome_iff_exists.mp hknown
        exact .ended rfl (.modify (RegistryEntry.id_enter · .closed) hentry
          (RegistryEntry.evolves_enter fun _ => rfl)) hknown (List.length_map _) (.inr rfl)
          List.filter_sublist fun _ => by simp
      · next hnone =>
        rw [Option.not_isSome_iff_eq_none] at hnone
        exact .idle (by simp) (fun id' hid' => JobId.ext_bytes hid' ▸ hnone) (.refl _)
  all_goals
    obtain rfl := (Prod.mk.inj h).2
    exact .idle (by simp) (fun _ hfalse => hfalse.elim) (.refl _)

/-- **One event extends the table.** -/
theorem BodyStep.extends {event : BackendEvent} (h : BodyStep r anchor event r') :
    Extends r.entries r'.entries := by
  cases h with
  | idle => exact .refl _
  | activated h =>
    rw [activateEntry_entries]
    exact (Placed.put h.fresh).extends
  | ended _ hplaced => exact hplaced.extends
  | graced _ hplaced => exact hplaced.extends

end Events

/-! ## §5. Every call -/

/-- What a call can do: it is no input; it fails, before or after it reads the clock; or it delivers
    an event or a snapshot. -/
inductive CallStep (ext : External) (r : GenerationRegistry) : RegistryCall → Outcome Unit → Prop
  | query {call : RegistryCall} {result : Except JobRegistryError Unit} {r' : GenerationRegistry}
      (hinput : call.isInput = false) (h : QueryStep r (call.reading ext r) r') :
      CallStep ext r call (result, r')
  | failed {call : RegistryCall} {e : JobRegistryError} (hreading : call.reading ext r = none) :
      CallStep ext r call (.error e, r.suspend)
  | refused {call : RegistryCall} {e : JobRegistryError} {now : ℕ}
      (hreading : call.reading ext r = some now) :
      CallStep ext r call (.error e, (r.expireAt now).suspend)
  | event {call : RegistryCall} {event : BackendEvent} {anchor policyNow now : ℕ}
      {changed : GenerationRegistry}
      (hcall : call = .applyEventAt event anchor policyNow ∨
        (call = .applyEvent event anchor ∧ policyNow = r.latest anchor))
      (hreading : call.reading ext r = some now)
      (hcheck : r.checkEvent ext event anchor policyNow = .ok now)
      (hbody : (r.expireAt now).applyBody event anchor = (.ok (), changed)) :
      CallStep ext r call
        (.ok (), (changed.expireAt now).advanceWatermark event.eventSeq anchor now)
  | snapshot {eventSeq started : ℕ} {current : Option AcceptableJob} {recent : List AcceptableJob}
      {prepared : PreparedSnapshot} {entries : List RegistryEntry}
      (hreading : (RegistryCall.applySnapshot eventSeq current recent started).reading ext r
        = some (r.latest started))
      (hspec : SnapshotSpec r current recent started prepared entries) :
      CallStep ext r (.applySnapshot eventSeq current recent started)
        (.ok (), (r.install prepared eventSeq started).rememberRoles.pruneWinnerRecovery
          (r.latest started))

section Calls

variable {ext : External} {r : GenerationRegistry}

/-- Both calls that apply an event. -/
theorem applyEventAt_step {call : RegistryCall} {event : BackendEvent} {anchor policyNow : ℕ}
    (hcall : call = .applyEventAt event anchor policyNow ∨
      (call = .applyEvent event anchor ∧ policyNow = r.latest anchor)) :
    CallStep ext r call (r.applyEventAt ext event anchor policyNow) := by
  have hreading : call.reading ext r = (r.checkEvent ext event anchor policyNow).toOption := by
    obtain rfl | ⟨rfl, rfl⟩ := hcall <;> rfl
  cases happly : r.applyEventAt ext event anchor policyNow with
  | mk result r' =>
    cases result with
    | error e =>
      obtain ⟨hcheck, rfl⟩ | ⟨now, hcheck, rfl⟩ := applyEventAt_error happly
      · exact .failed (by rw [hreading, hcheck]; rfl)
      · exact .refused (by rw [hreading, hcheck]; rfl)
    | ok _ =>
      unfold applyEventAt tryApplyEvent at happly
      cases hcheck : r.checkEvent ext event anchor policyNow with
      | error e =>
        simp only [hcheck] at happly
        cases happly
      | ok now =>
        cases hbody : (r.expireAt now).applyBody event anchor with
        | mk result changed =>
          cases result with
          | error e =>
            simp only [hcheck, hbody] at happly
            cases happly
          | ok _ =>
            simp only [hcheck, hbody] at happly
            obtain rfl := (Prod.mk.inj happly).2
            exact .event hcall (by rw [hreading, hcheck]; rfl) hcheck hbody

/-- **What a call can do.** -/
theorem perform_step (ext : External) (r : GenerationRegistry) (call : RegistryCall) :
    CallStep ext r call (r.perform ext call) := by
  cases call using RegistryCall.byInput with
  | query call hinput => exact .query hinput (perform_query ext r hinput)
  | applySnapshot eventSeq current recent started =>
    show CallStep ext r _ (r.applySnapshot eventSeq current recent started)
    unfold applySnapshot
    split
    · next e hprepared => exact .failed (by simp [RegistryCall.reading, hprepared, Except.toOption])
    · next prepared hprepared =>
      obtain ⟨entries, hspec⟩ := prepareSnapshot_spec hprepared
      exact .snapshot (by simp [RegistryCall.reading, hprepared, Except.toOption]) hspec
  | applyEvent event anchor => exact applyEventAt_step (.inr ⟨rfl, rfl⟩)
  | applyEventAt event anchor policyNow => exact applyEventAt_step (.inl rfl)

@[simp] theorem rememberRoles_entries (r : GenerationRegistry) :
    r.rememberRoles.entries = r.entries := by
  unfold rememberRoles
  generalize r.current.toList ++ r.recent = ids
  induction ids generalizing r with
  | nil => rfl
  | cons id ids ih => rw [List.foldl_cons, ih, rememberWinnerRecovery_entries]

@[simp] theorem pruneWinnerRecovery_entries (r : GenerationRegistry) (now : ℕ) :
    (r.pruneWinnerRecovery now).entries = r.entries := rfl

theorem install_extends (r : GenerationRegistry) (prepared : PreparedSnapshot)
    (eventSeq started : ℕ) :
    Extends prepared.entries (r.install prepared eventSeq started).entries :=
  .mapRows (RegistryEntry.id_expire _) (RegistryEntry.evolves_expire _)

/-- **Every call lets every entry evolve.** -/
theorem perform_extends (ext : External) (r : GenerationRegistry) (call : RegistryCall) :
    Extends r.entries (r.perform ext call).2.entries := by
  have hstep := perform_step ext r call
  generalize r.perform ext call = outcome at hstep ⊢
  cases hstep with
  | query _ h => exact h.extends
  | failed => exact r.suspend_extends
  | refused => exact (r.expireAt_extends _).trans (suspend_extends _)
  | event _ _ _ hbody =>
    exact (r.expireAt_extends _).trans ((applyBody_step hbody).extends.trans (expireAt_extends _ _))
  | snapshot _ hspec =>
    simp only [pruneWinnerRecovery_entries, rememberRoles_entries]
    exact hspec.extends.trans (install_extends r _ _ _)

end Calls

end GenerationRegistry

end WcashPool.Core
