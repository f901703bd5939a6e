/-
  WcashPool.Core.JobRuns — runs of the job registry, and what a failure leaves.

  A run is any sequence of calls, in any order, with any arguments.  Calls that
  fail stay in it, because they change the registry too.

  Inside a failing event roles, lists and entries may already have been
  rewritten; the suspension that follows wipes out every trace of that.  What is
  left is the registry before the call, suspended, and expired where the call
  came far enough to read the clock.

  Main results: `applyEventAt_error`, `applySnapshot_error` and
  `registry_error_atomic`.
-/
import WcashPool.Core.Jobs

namespace WcashPool.Core

open Fallible Protocol

/-! ## §1. Calls -/

inductive RegistryCall
  | suspend
  | applySnapshot (eventSeq : ℕ) (current : Option AcceptableJob) (recent : List AcceptableJob)
      (requestStartedMs : ℕ)
  | applyEvent (event : BackendEvent) (deliveryAnchorMs : ℕ)
  | applyEventAt (event : BackendEvent) (deliveryAnchorMs policyNowMs : ℕ)
  | admissibleJobIds (nowMs : ℕ)
  | currentGeneration (nowMs : ℕ)
  | beginAdmission (id : JobId) (nowMs : ℕ)
  | dropAdmission (id : JobId)
  | winnerRecoveryJobIds (nowMs : ℕ)
  | beginZcashWinnerRecovery (id : JobId) (nonce : Hex32) (solution : Hex1344) (nowMs : ℕ)
  | beginHistoricalZcashCandidateDuringPause (id : JobId) (nonce : Hex32) (solution : Hex1344)
      (nowMs : ℕ)
  | beginPausedZcashCandidate (id : JobId) (nonce : Hex32) (solution : Hex1344) (nowMs : ℕ)
  | collectRetired (nowMs : ℕ)

namespace GenerationRegistry

/-- The call without what it answers on success. -/
def silent {α : Type} (outcome : Outcome α) : Outcome Unit := (outcome.1.map fun _ => (), outcome.2)

def perform (ext : External) (r : GenerationRegistry) : RegistryCall → Outcome Unit
  | .suspend => (.ok (), r.suspend)
  | .applySnapshot eventSeq current recent requestStarted =>
    r.applySnapshot eventSeq current recent requestStarted
  | .applyEvent event anchor => r.applyEvent ext event anchor
  | .applyEventAt event anchor policyNow => r.applyEventAt ext event anchor policyNow
  | .admissibleJobIds now => silent (r.admissibleJobIds now)
  | .currentGeneration now => silent (r.currentGeneration now)
  | .beginAdmission id now => silent (r.beginAdmission id now)
  | .dropAdmission id => (.ok (), r.dropAdmission id)
  | .winnerRecoveryJobIds now => silent (r.winnerRecoveryJobIds now)
  | .beginZcashWinnerRecovery id nonce solution now =>
    silent (r.beginZcashWinnerRecovery ext id nonce solution now)
  | .beginHistoricalZcashCandidateDuringPause id nonce solution now =>
    silent (r.beginHistoricalZcashCandidateDuringPause ext id nonce solution now)
  | .beginPausedZcashCandidate id nonce solution now =>
    silent (r.beginPausedZcashCandidate ext id nonce solution now)
  | .collectRetired now => silent (r.collectRetired now)

/-- The registry after a run. -/
def after (ext : External) (config : GenerationRegistryConfig) (calls : List RegistryCall) :
    GenerationRegistry :=
  calls.foldl (fun r call => (r.perform ext call).2) (new config)

theorem after_concat (ext : External) (config : GenerationRegistryConfig)
    (calls : List RegistryCall) (call : RegistryCall) :
    after ext config (calls ++ [call]) = ((after ext config calls).perform ext call).2 :=
  List.foldl_concat ..

/-- **Invariant rule.** -/
theorem after_invariant {ext : External} {config : GenerationRegistryConfig}
    {P : GenerationRegistry → Prop} (hnew : P (new config))
    (hstep : ∀ r call, P r → P (r.perform ext call).2) (calls : List RegistryCall) :
    P (after ext config calls) := by
  induction calls using List.reverseRecOn with
  | nil => exact hnew
  | append_singleton calls call ih =>
    rw [after_concat]
    exact hstep _ call ih

/-! ## §2. What a failed input leaves -/

section Failures

variable {ext : External} {r r' : GenerationRegistry} {anchor : ℕ} {e : JobRegistryError}

theorem activate_error {job : JobDescriptor} (h : r.activate job anchor = (.error e, r')) :
    r'.suspend = r.suspend := by
  unfold activate at h
  split at h
  · rw [(Prod.mk.inj h).2]
  · split at h
    · -- only the list of recent jobs was extended
      rw [← (Prod.mk.inj h).2]
      rfl
    · cases h

theorem forgetOnZcashTip_suspend (r : GenerationRegistry) (id : JobId)
    (reason : JobInvalidationReason) : (r.forgetOnZcashTip id reason).suspend = r.suspend := by
  unfold forgetOnZcashTip
  split <;> rfl

theorem applyBody_error {event : BackendEvent} (h : r.applyBody event anchor = (.error e, r')) :
    r'.suspend = r.suspend := by
  unfold applyBody at h
  split at h
  · exact activate_error h
  · split at h
    · rw [(Prod.mk.inj h).2]
    · split at h
      · rw [← (Prod.mk.inj h).2]
        exact forgetOnZcashTip_suspend r _ _
      · cases h
  · split at h
    · rw [(Prod.mk.inj h).2]
    · cases h
  all_goals cases h

/-- **A failed event** suspends the registry, and expires it where the event passed its checks. -/
theorem applyEventAt_error {event : BackendEvent} {policyNow : ℕ}
    (h : r.applyEventAt ext event anchor policyNow = (.error e, r')) :
    (r.checkEvent ext event anchor policyNow = .error e ∧ r' = r.suspend) ∨
      ∃ now, r.checkEvent ext event anchor policyNow = .ok now ∧ r' = (r.expireAt now).suspend := by
  unfold applyEventAt tryApplyEvent at h
  cases hcheck : r.checkEvent ext event anchor policyNow with
  | error e' =>
    rw [hcheck] at h
    obtain ⟨he, rfl⟩ := Prod.mk.inj h
    obtain rfl := Except.error.inj he
    exact .inl ⟨rfl, rfl⟩
  | ok now =>
    rw [hcheck] at h
    refine .inr ⟨now, rfl, ?_⟩
    cases hbody : (r.expireAt now).applyBody event anchor with
    | mk result changed =>
      cases result with
      | error e' =>
        simp only [hbody] at h
        rw [← (Prod.mk.inj h).2]
        exact applyBody_error hbody
      | ok _ =>
        simp only [hbody] at h
        cases h

/-- The registry that a failed snapshot leaves, exactly. -/
theorem applySnapshot_error {eventSeq : ℕ} {current : Option AcceptableJob}
    {recent : List AcceptableJob} {started : ℕ}
    (h : r.applySnapshot eventSeq current recent started = (.error e, r')) : r' = r.suspend := by
  unfold applySnapshot at h
  split at h
  · exact (Prod.mk.inj h).2.symm
  · cases h

end Failures

end GenerationRegistry

/-! ## §3. Error atomicity -/

/-- Is the call a snapshot or an event? -/
def RegistryCall.isInput : RegistryCall → Bool
  | .applySnapshot _ _ _ _ | .applyEvent _ _ | .applyEventAt _ _ _ => true
  | _ => false

/-- **Case rule**: a call is a snapshot, an event, or no input. -/
theorem RegistryCall.byInput {P : RegistryCall → Prop} (call : RegistryCall)
    (query : ∀ call : RegistryCall, call.isInput = false → P call)
    (applySnapshot : ∀ eventSeq current recent started,
      P (.applySnapshot eventSeq current recent started))
    (applyEvent : ∀ event anchor, P (.applyEvent event anchor))
    (applyEventAt : ∀ event anchor policyNow, P (.applyEventAt event anchor policyNow)) : P call := by
  cases call with
  | applySnapshot => exact applySnapshot _ _ _ _
  | applyEvent => exact applyEvent _ _
  | applyEventAt => exact applyEventAt _ _ _
  | _ => exact query _ rfl

/-- The time at which an input that passed its checks expires entries. -/
def RegistryCall.eventTime (ext : External) (r : GenerationRegistry) : RegistryCall → Option ℕ
  | .applyEvent event anchor => (r.checkEvent ext event anchor (r.latest anchor)).toOption
  | .applyEventAt event anchor policyNow => (r.checkEvent ext event anchor policyNow).toOption
  | _ => none

/-- What a failed input does to one entry: nothing but its state changes, by suspension or by
    expiry at `time`. -/
structure FailedEntry (time : Option ℕ) (entry entry' : RegistryEntry) : Prop where
  storage : entry'.storage = entry.storage
  acceptUntilMs : entry'.acceptUntilMs = entry.acceptUntilMs
  winnerRecoveryUntilMs : entry'.winnerRecoveryUntilMs = entry.winnerRecoveryUntilMs
  state : entry'.state = entry.state ∨ (entry.state = .accepting ∧ entry'.state = .suspended) ∨
    ((entry.state = .accepting ∨ entry.state = .suspended) ∧ entry'.state = .invalidated ∧
      ∃ now ∈ time, entry.acceptUntilMs ≤ now)

/-- What a failed input leaves. -/
structure FailedInput (time : Option ℕ) (r r' : GenerationRegistry) : Prop where
  synchronized : r'.synchronized = false
  current : r'.current = none
  recent : r'.recent = []
  winnerRecovery : r'.winnerRecovery = []
  lastEventSeq : r'.lastEventSeq = r.lastEventSeq
  known : ∀ id, r'.entries.find id = none ↔ r.entries.find id = none
  entries : ∀ id entry, r.entries.find id = some entry →
    ∃ entry', r'.entries.find id = some entry' ∧ FailedEntry time entry entry'
  /-- A later snapshot cannot tell the failed input from a mere suspension and expiry. -/
  asSuspended : ∃ reference : GenerationRegistry,
    (reference = r.suspend ∨ ∃ now ∈ time, reference = (r.expireAt now).suspend) ∧
      ∀ eventSeq current recent started,
        r'.applySnapshot eventSeq current recent started
          = reference.applySnapshot eventSeq current recent started

section Atomicity

variable {ext : External} {r r' : GenerationRegistry}

theorem suspend_failedEntry (time : Option ℕ) (entry : RegistryEntry) :
    FailedEntry time entry entry.suspend := by
  unfold RegistryEntry.suspend
  split
  · next h => exact ⟨rfl, rfl, rfl, .inr (.inl ⟨h, rfl⟩)⟩
  · exact ⟨rfl, rfl, rfl, .inl rfl⟩

theorem expire_suspend_failedEntry {time : Option ℕ} {now : ℕ} (htime : now ∈ time)
    (entry : RegistryEntry) : FailedEntry time entry (entry.expire now).suspend := by
  unfold RegistryEntry.expire
  split
  · next h => exact ⟨rfl, rfl, rfl, .inr (.inr ⟨h.1, rfl, now, htime, h.2⟩)⟩
  · exact suspend_failedEntry time entry

theorem suspend_failedInput (time : Option ℕ) (r : GenerationRegistry) :
    FailedInput time r r.suspend := by
  refine ⟨rfl, rfl, rfl, rfl, rfl, fun id => ?_, fun id entry hentry => ?_,
    r.suspend, .inl rfl, fun _ _ _ _ => rfl⟩
  · rw [GenerationRegistry.find_suspend, Option.map_eq_none_iff]
  · exact ⟨entry.suspend, by rw [GenerationRegistry.find_suspend, hentry]; rfl,
      suspend_failedEntry time entry⟩

theorem expireAt_suspend_failedInput {time : Option ℕ} {now : ℕ} (htime : now ∈ time)
    (r : GenerationRegistry) : FailedInput time r (r.expireAt now).suspend := by
  have hfind : ∀ id, (r.expireAt now).suspend.entries.find id
      = (r.entries.find id).map fun entry => (entry.expire now).suspend := by
    intro id
    rw [GenerationRegistry.find_suspend, GenerationRegistry.find_expireAt, Option.map_map]
    rfl
  refine ⟨rfl, rfl, rfl, rfl, rfl, fun id => ?_, fun id entry hentry => ?_,
    (r.expireAt now).suspend, .inr ⟨now, htime, rfl⟩, fun _ _ _ _ => rfl⟩
  · rw [hfind, Option.map_eq_none_iff]
  · exact ⟨(entry.expire now).suspend, by rw [hfind, hentry]; rfl,
      expire_suspend_failedEntry htime entry⟩

theorem applyEventAt_failedInput {event : BackendEvent} {anchor policyNow : ℕ}
    {e : JobRegistryError} (h : r.applyEventAt ext event anchor policyNow = (.error e, r')) :
    FailedInput (r.checkEvent ext event anchor policyNow).toOption r r' := by
  obtain ⟨-, rfl⟩ | ⟨now, hnow, rfl⟩ := GenerationRegistry.applyEventAt_error h
  · exact suspend_failedInput _ r
  · rw [hnow]
    exact expireAt_suspend_failedInput rfl r

/-- **Error atomicity.**  Whatever the registry, a snapshot or event that fails leaves nothing
    behind but a suspension and, where it came that far, an expiry. -/
theorem registry_error_atomic (ext : External) (config : GenerationRegistryConfig)
    (calls : List RegistryCall) (call : RegistryCall) (hinput : call.isInput = true)
    (e : JobRegistryError) (r' : GenerationRegistry)
    (h : (GenerationRegistry.after ext config calls).perform ext call = (.error e, r')) :
    FailedInput (call.eventTime ext (GenerationRegistry.after ext config calls))
      (GenerationRegistry.after ext config calls) r' := by
  cases call using RegistryCall.byInput with
  | applySnapshot eventSeq current recent started =>
    rw [GenerationRegistry.applySnapshot_error h]
    exact suspend_failedInput _ _
  | applyEvent event anchor => exact applyEventAt_failedInput h
  | applyEventAt event anchor policyNow => exact applyEventAt_failedInput h
  | query call hquery => exact absurd (hquery.symm.trans hinput) (by simp)

end Atomicity

/-! ## §4. A worked run -/

/-- Stand-ins for the library functions. -/
def workedExternal : External where
  sha256 := fun _ => 1
  toJson := fun _ => []

/-- Two recent jobs, eight generations. -/
def workedConfig : GenerationRegistryConfig := ⟨2, 8, by decide, by decide⟩

/-- A job for a second on Zcash block 1, with an easy target. -/
def workedJob (n : ℕ) : JobDescriptor where
  jobId := BitVec.ofNat _ n
  wcashCandidateHashLe := 2
  headerInput := BitVec.ofNat _ (4 + 2 ^ 32 + 2 ^ 800)
  wcashPreviousHashLe := 1
  zcashPreviousHashLe := 1
  wcashCoinbaseTxidLe := 3
  zcashCoinbaseTxidLe := 4
  wcashTargetLe := 1
  zcashTargetLe := BitVec.allOnes _
  wcashHeight := 10
  zcashHeight := 10
  wcashRewardZat := 100_000
  zcashRewardZat := 100_000
  wcashMaturityConfirmations := 100
  zcashMaturityConfirmations := 100
  maxAgeMs := 1_000

/-- Job 1 is current from the start, with 900 ms left. -/
def workedSnapshot : RegistryCall := .applySnapshot 1 (some ⟨workedJob 1, 900⟩) [] 0

/-- The registry with job 1. -/
abbrev workedRegistry : GenerationRegistry := .after workedExternal workedConfig [workedSnapshot]

/-- Activating job 1 a second time fails after the expiry; nothing else stays of it. -/
theorem registry_error_atomic_reused : ∃ e r',
    workedRegistry.perform workedExternal (.applyEventAt (.jobActivated 2 (workedJob 1)) 5 10)
        = (.error e, r') ∧
      FailedInput (some 10) workedRegistry r' := by
  have herror : (workedRegistry.perform workedExternal
      (.applyEventAt (.jobActivated 2 (workedJob 1)) 5 10)).1
        = .error (.reusedJobId ⟨1, by decide⟩) := by decide +kernel
  have htime : (RegistryCall.applyEventAt (.jobActivated 2 (workedJob 1)) 5 10).eventTime
      workedExternal workedRegistry = some 10 := by decide +kernel
  generalize hperform : workedRegistry.perform workedExternal
    (.applyEventAt (.jobActivated 2 (workedJob 1)) 5 10) = outcome at herror ⊢
  obtain ⟨result, r'⟩ := outcome
  obtain rfl : result = _ := herror
  have hfailed := registry_error_atomic workedExternal workedConfig [workedSnapshot]
    (.applyEventAt (.jobActivated 2 (workedJob 1)) 5 10) rfl _ r' hperform
  rw [htime] at hfailed
  exact ⟨_, r', rfl, hfailed⟩

end WcashPool.Core
