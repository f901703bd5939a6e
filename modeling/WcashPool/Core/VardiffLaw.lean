/-
  WcashPool.Core.VardiffLaw — how far and how often the share target moves.

  Over every sequence of shares, ticks and new network targets whose times do
  not decrease: a change of the target is one bounded step in the direction of
  the measured time, its revision is new, and changes are as far apart as the
  sample they rest on.  A tick that only waits leaves no trace.

  Main results: `Moved.binding`, `observed_le_shares`, `window_after`,
  `keptResults_eq` and `vardiff_step_and_rate_law`.
-/
import WcashPool.Core.Vardiff
import Mathlib.Data.List.Basic

namespace WcashPool.Core

namespace VardiffController

/-! ## §1. One step of the target -/

section

variable (c : VardiffController)

include c

theorem toNat_window :
    (BitVec.ofNat 128 c.config.sampleWindowMs).toNat = c.config.sampleWindowMs := by
  have hfits := c.config.fits
  rw [BitVec.toNat_ofNat, Nat.mod_eq_of_lt (by omega)]

theorem toNat_factor :
    (BitVec.ofNat 64 c.config.maximumAdjustmentFactor).toNat = c.config.maximumAdjustmentFactor := by
  have hfactor := c.config.factor.2
  rw [BitVec.toNat_ofNat, Nat.mod_eq_of_lt (by unfold maximumAdjustmentFactorLimit at hfactor; omega)]

/-- The target that the elapsed time asks for. -/
theorem toNat_raw (elapsedMs : Millis) :
    (c.raw elapsedMs).number.toNat = min (2 ^ 256 - 1)
      (max 1 (c.binding.target.number.toNat * elapsedMs.toNat / c.config.sampleWindowMs)) := by
  have hwindow := c.config.window
  unfold minimumSampleWindowMs at hwindow
  have hne : BitVec.ofNat 128 c.config.sampleWindowMs ≠ 0 := fun h => by
    have hzero := congrArg BitVec.toNat h
    rw [toNat_window] at hzero
    simp at hzero
    omega
  rw [raw, toNat_scaleTarget _ _ hne, toNat_window]

theorem toNat_hardestStep :
    c.hardestStep.number.toNat =
      max 1 (c.binding.target.number.toNat / c.config.maximumAdjustmentFactor) := by
  have hfactor := c.config.factor
  have hwide : ((BitVec.ofNat 64 c.config.maximumAdjustmentFactor).setWidth 128).toNat =
      c.config.maximumAdjustmentFactor := by
    rw [BitVec.toNat_setWidth, toNat_factor, Nat.mod_eq_of_lt]
    unfold maximumAdjustmentFactorLimit at hfactor
    omega
  have hne : (BitVec.ofNat 64 c.config.maximumAdjustmentFactor).setWidth 128 ≠ 0 := fun h => by
    have hzero := congrArg BitVec.toNat h
    rw [hwide] at hzero
    simp at hzero
    omega
  have hlt := c.binding.target.number.isLt
  have hdiv := Nat.div_le_self c.binding.target.number.toNat c.config.maximumAdjustmentFactor
  rw [hardestStep, divideTarget, toNat_scaleTarget _ _ hne, hwide]
  show min _ (max 1 (_ * 1 / _)) = _
  rw [Nat.mul_one]
  omega

theorem toNat_easiestStep :
    c.easiestStep.number.toNat = min (2 ^ 256 - 1)
      (c.binding.target.number.toNat * c.config.maximumAdjustmentFactor) := by
  have hpos : 0 < c.binding.target.number.toNat * c.config.maximumAdjustmentFactor :=
    Nat.mul_pos c.binding.target.number_pos c.config.factor.1
  rw [easiestStep, toNat_multiplyTarget, toNat_factor, max_eq_right hpos]

/-- The hardest step is not easier. -/
theorem hardestStep_le : c.hardestStep ≤ c.binding.target := by
  rw [ShareTarget.le_iff, toNat_hardestStep]
  exact max_le c.binding.target.number_pos (Nat.div_le_self _ _)

/-- The easiest step is not harder. -/
theorem le_easiestStep : c.binding.target ≤ c.easiestStep := by
  have hlt := c.binding.target.number.isLt
  rw [ShareTarget.le_iff, toNat_easiestStep]
  exact le_min (by omega) (Nat.le_mul_of_pos_right _ c.config.factor.1)

end

variable {c : VardiffController}

/-- A fast window never asks for an easier target. -/
theorem raw_le {elapsedMs : Millis} (h : elapsedMs.toNat ≤ c.config.sampleWindowMs) :
    c.raw elapsedMs ≤ c.binding.target := by
  rw [ShareTarget.le_iff, toNat_raw]
  refine min_le_of_right_le (max_le c.binding.target.number_pos ?_)
  exact Nat.div_le_of_le_mul (by rw [mul_comm]; exact Nat.mul_le_mul_right _ h)

/-- A slow window never asks for a harder target. -/
theorem le_raw {elapsedMs : Millis} (h : c.config.sampleWindowMs ≤ elapsedMs.toNat) :
    c.binding.target ≤ c.raw elapsedMs := by
  have hlt := c.binding.target.number.isLt
  have hwindow := c.config.window
  unfold minimumSampleWindowMs at hwindow
  rw [ShareTarget.le_iff, toNat_raw]
  refine le_min (by omega) (le_max_of_le_right ?_)
  exact (Nat.le_div_iff_mul_le (by omega)).mpr (Nat.mul_le_mul_left _ h)

/-- **One bounded step.**  Before the network bounds clamp it, the target moves by at most the
    factor, and only in the direction of the time that the sample took. -/
structure Stepped (c : VardiffController) (nowMs : Millis) (c' : VardiffController) : Prop where
  bounded : ∃ stepped : ShareTarget,
    c'.binding.bounds = c.binding.bounds ∧ c'.binding.target = c.binding.bounds.clamp stepped ∧
    max 1 (c.binding.target.number.toNat / c.config.maximumAdjustmentFactor) ≤
      stepped.number.toNat ∧
    stepped.number.toNat ≤ c.binding.target.number.toNat * c.config.maximumAdjustmentFactor
  sample : ∃ startMs, c.windowStartMs = some startMs ∧ startMs ≤ nowMs ∧
    (c.binding.target < c'.binding.target →
      c.config.sampleWindowMs < nowMs.toNat - startMs.toNat) ∧
    (c'.binding.target < c.binding.target →
      nowMs.toNat - startMs.toNat < c.config.sampleWindowMs)

variable {nowMs : Millis}

theorem Stepped.of_adopted {c' : VardiffController} {startMs : Millis} {low : ShareTarget}
    (hstart : c.windowStartMs = some startMs) (hle : startMs ≤ nowMs) (hlow : c.hardestStep ≤ low)
    (hlow' : low ≤ c.binding.target) (hadopted : Adopted c (c.binding.bounds.clamp
      ((c.raw (nowMs - startMs)).clamp low c.easiestStep)) nowMs c') : Stepped c nowMs c' := by
  obtain ⟨hfloor, hceiling⟩ := TargetBounds.contains_iff.mp c.binding.inside
  have helapsed : (nowMs - startMs).toNat = nowMs.toNat - startMs.toNat :=
    BitVec.toNat_sub_of_le hle
  have hordered : low ≤ c.easiestStep := hlow'.trans c.le_easiestStep
  refine ⟨⟨_, hadopted.bounds, hadopted.target, ?_, ?_⟩, startMs, hstart, hle, ?_, ?_⟩
  · rw [← toNat_hardestStep]
    exact hlow.trans (ShareTarget.low_le_clamp hordered)
  · have hhigh : (c.raw (nowMs - startMs)).clamp _ _ ≤ _ := ShareTarget.clamp_le_high hordered
    rw [ShareTarget.le_iff, toNat_easiestStep] at hhigh
    exact hhigh.trans (min_le_right _ _)
  · -- a sample that was not longer than expected does not ease the target
    intro heasier
    by_contra hshort
    refine absurd heasier (not_lt.mpr ?_)
    rw [hadopted.target]
    exact ShareTarget.clamp_le
      (ShareTarget.clamp_le (raw_le (helapsed ▸ not_lt.mp hshort)) hlow') hfloor
  · intro hharder
    by_contra hlong
    refine absurd hharder (not_lt.mpr ?_)
    rw [hadopted.target]
    exact ShareTarget.le_clamp
      (ShareTarget.le_clamp (le_raw (helapsed ▸ not_lt.mp hlong)) c.le_easiestStep) hceiling

/-! ## §2. What one call keeps -/

section Moves

variable {c c' : VardiffController} {call : VardiffCall} {result : VardiffResult}

/-- No call changes the configuration. -/
theorem Moved.config (h : Moved c call result c') : c'.config = c.config := by
  cases h with
  | kept config => exact config
  | share _ _ _ adopted => exact adopted.config
  | tick _ _ _ adopted => exact adopted.config
  | rebound _ config => exact config

/-- The binding stays, or its revision is the next one and the sample starts over. -/
theorem Moved.binding (h : Moved c call result c') :
    c'.binding = c.binding ∨
      c'.binding.revision = c.binding.revision + 1 ∧ c'.observedIntervals = 0 := by
  cases h with
  | kept _ binding => exact .inl binding
  | share _ _ _ adopted => exact .inr ⟨adopted.revision, adopted.observed⟩
  | tick _ _ _ adopted => exact .inr ⟨adopted.revision, adopted.observed⟩
  | rebound _ _ revision _ observed => exact .inr ⟨revision, observed⟩

/-- A failed call keeps the binding. -/
theorem Moved.binding_of_error {error : VardiffError} (h : Moved c call (.error error) c') :
    c'.binding = c.binding := by
  cases h with
  | kept _ binding => exact binding

/-- The window starts where it did, or at the time of the call, or not yet. -/
theorem Moved.window (h : Moved c call result c') :
    c'.windowStartMs = c.windowStartMs ∨ c'.windowStartMs = call.time? ∨
      c'.windowStartMs = none := by
  cases h with
  | kept _ _ window => exact window.imp id .inl
  | share _ _ _ adopted => exact .inr (.inl adopted.window)
  | tick _ _ _ adopted => exact .inr (.inl adopted.window)
  | rebound _ _ _ window => exact .inr (.inr window)

/-- One call counts at most one interval. -/
theorem Moved.observed (h : Moved c call result c') :
    c'.observedIntervals ≤ c.observedIntervals + (call.isShareOf c.binding).toNat := by
  cases h with
  | kept _ _ _ observed => exact observed
  | share _ _ _ adopted => exact adopted.observed ▸ Nat.zero_le _
  | tick _ _ _ adopted => exact adopted.observed ▸ Nat.zero_le _
  | rebound _ _ _ _ observed => exact observed ▸ Nat.zero_le _

/-- A change by a share: the sample is full, and the share is one of the binding it replaces. -/
theorem Moved.of_share {submittedBinding : TargetBinding} {nowMs : Millis}
    (h : Moved c (.observeShare submittedBinding nowMs) result c') (hne : c'.binding ≠ c.binding) :
    submittedBinding = c.binding ∧ c.config.sampleIntervals ≤ c.observedIntervals + 1 ∧
      c'.observedIntervals = 0 ∧ Stepped c nowMs c' := by
  cases h with
  | kept _ binding => exact absurd binding hne
  | share start le full adopted =>
    exact ⟨rfl, full, adopted.observed, .of_adopted start le le_rfl c.hardestStep_le adopted⟩

/-- A change by a tick: the window is overdue, and the next one starts now. -/
theorem Moved.of_tick {nowMs : Millis} (h : Moved c (.tick nowMs) result c')
    (hne : c'.binding ≠ c.binding) :
    (∃ startMs, c.windowStartMs = some startMs ∧ startMs ≤ nowMs ∧
      c.overdue (nowMs - startMs) = true) ∧ c'.windowStartMs = some nowMs ∧
      c.binding.target ≤ c'.binding.target ∧ Stepped c nowMs c' := by
  cases h with
  | kept _ binding => exact absurd binding hne
  | tick start le late adopted =>
    refine ⟨⟨_, start, le, late⟩, adopted.window, ?_,
      .of_adopted start le c.hardestStep_le le_rfl adopted⟩
    rw [adopted.target]
    exact ShareTarget.le_clamp (ShareTarget.low_le_clamp c.le_easiestStep)
      (TargetBounds.contains_iff.mp c.binding.inside).2

end Moves

/-! ## §3. Runs -/

def after (c : VardiffController) (calls : List VardiffCall) : VardiffController :=
  calls.foldl (fun c call => (c.perform call).2) c

def results (c : VardiffController) : List VardiffCall → List VardiffResult
  | [] => []
  | call :: calls => (c.perform call).1 :: (c.perform call).2.results calls

theorem after_append (c : VardiffController) (before calls : List VardiffCall) :
    c.after (before ++ calls) = (c.after before).after calls := List.foldl_append

theorem after_concat (c : VardiffController) (calls : List VardiffCall) (call : VardiffCall) :
    c.after (calls ++ [call]) = ((c.after calls).perform call).2 := after_append c calls [call]

theorem after_config (c : VardiffController) (calls : List VardiffCall) :
    (c.after calls).config = c.config := by
  induction calls using List.reverseRecOn with
  | nil => rfl
  | append_singleton calls call ih =>
    rw [after_concat]
    exact (moved_perform _ call).config.trans ih

/-- **The sample counts shares of the binding it is for.** -/
theorem observed_le_shares (hc : c.observedIntervals = 0) (calls : List VardiffCall) :
    (c.after calls).observedIntervals ≤
      calls.countP (VardiffCall.isShareOf (c.after calls).binding) := by
  induction calls using List.reverseRecOn with
  | nil => exact hc.le
  | append_singleton calls call ih =>
    rw [after_concat]
    have hmoved := moved_perform (c.after calls) call
    by_cases hsame : ((c.after calls).perform call).2.binding = (c.after calls).binding
    · have hle := hmoved.observed
      rw [hsame, List.countP_append, List.countP_singleton]
      cases hshare : call.isShareOf (c.after calls).binding with
      | true => simp only [hshare, Bool.toNat_true, if_true] at hle ⊢; omega
      | false => simp only [hshare, Bool.toNat_false] at hle ⊢; omega
    · rw [(hmoved.binding.resolve_left hsame).2]
      exact Nat.zero_le _

/-- **No window starts before the calls of the run.** -/
theorem window_after {fromMs : Millis}
    (hc : ∀ startMs, c.windowStartMs = some startMs → fromMs ≤ startMs) (calls : List VardiffCall)
    (htimes : ∀ nowMs ∈ calls.filterMap VardiffCall.time?, fromMs ≤ nowMs) :
    ∀ startMs, (c.after calls).windowStartMs = some startMs → fromMs ≤ startMs := by
  induction calls using List.reverseRecOn with
  | nil => exact hc
  | append_singleton calls call ih =>
    intro startMs hstart
    rw [List.filterMap_append] at htimes
    have ih := ih fun nowMs hnow => htimes nowMs (List.mem_append_left _ hnow)
    rw [after_concat] at hstart
    obtain hkept | hcall | hnone := (moved_perform (c.after calls) call).window
    · exact ih startMs (hkept ▸ hstart)
    · refine htimes startMs (List.mem_append_right _ ?_)
      exact List.mem_filterMap.mpr ⟨call, List.mem_singleton.mpr rfl, hcall.symm.trans hstart⟩
    · rw [hnone] at hstart
      cases hstart

/-! ## §4. Ticks that only wait -/

/-- Two controllers that differ in the last time at most. -/
def Alike (c d : VardiffController) : Prop := d = { c with lastNowMs := d.lastNowMs }

/-- The times of the calls that follow are not behind the controller's. -/
def Reaches (c : VardiffController) (times : List Millis) : Prop :=
  ∀ lastMs, c.lastNowMs = some lastMs → ∀ nowMs ∈ times, lastMs ≤ nowMs

variable {times : List Millis}

theorem not_back (h : ∀ lastMs, c.lastNowMs = some lastMs → lastMs ≤ nowMs) :
    c.lastNowMs.any (nowMs < ·) = false := by
  cases hlast : c.lastNowMs with
  | none => rfl
  | some lastMs => simpa using BitVec.not_lt.mpr (h lastMs hlast)

theorem atTime_of_reaches {body : VardiffController → Answer VardiffUpdate}
    (h : Reaches c (nowMs :: times)) :
    c.atTime nowMs body = body { c with lastNowMs := some nowMs } := by
  rw [atTime, not_back fun lastMs hlast => h lastMs hlast nowMs (List.mem_cons_self ..)]
  rfl

/-- An adoption leaves the clock alone, asks for no more samples and does not complain about the
    time. -/
theorem adopt_clock (c : VardiffController) (next : ShareTarget) (nowMs : Millis) :
    (c.adopt next nowMs).2.lastNowMs = c.lastNowMs ∧
      (∀ observed required, (c.adopt next nowMs).1 ≠ .ok (.sampling observed required)) ∧
      (c.adopt next nowMs).1 ≠ .error .clockMovedBackwards := by
  have hrevision : c.nextRevision ≠ .error .clockMovedBackwards := by
    simp [nextRevision, Fallible.checkedAdd, ← Fallible.errorsIn_ne]
  unfold adopt
  split
  · exact ⟨rfl, by simp, by simp⟩
  · cases hnext : c.nextRevision with
    | error error =>
      rw [hnext] at hrevision
      exact ⟨rfl, by simp, by simpa using hrevision⟩
    | ok revision =>
      dsimp only
      cases TargetBinding.new revision next c.binding.bounds with
      | error error => exact ⟨rfl, by simp, by simp⟩
      | ok binding => exact ⟨rfl, by simp, by simp⟩

/-- A sample leaves the clock alone, and complains about the time only behind its window. -/
theorem sampleShare_clock (c : VardiffController) (nowMs : Millis) :
    (sampleShare nowMs c).2.lastNowMs = c.lastNowMs ∧
      ((∀ startMs, c.windowStartMs = some startMs → startMs ≤ nowMs) →
        (sampleShare nowMs c).1 ≠ .error .clockMovedBackwards) := by
  unfold sampleShare
  cases c.windowStartMs with
  | none => exact ⟨rfl, by simp⟩
  | some startMs =>
    dsimp only
    split_ifs with hfull hearly hback
    · exact ⟨rfl, by simp⟩
    · exact ⟨rfl, by simp⟩
    · exact ⟨rfl, fun h => absurd hback (BitVec.not_lt.mpr (h startMs rfl))⟩
    · exact ⟨rfl, by simp⟩
    · exact ⟨(adopt_clock ..).1, fun _ => (adopt_clock ..).2.2⟩

theorem sampleTime_clock (c : VardiffController) (nowMs : Millis) :
    (sampleTime nowMs c).2.lastNowMs = c.lastNowMs ∧
      ((∀ startMs, c.windowStartMs = some startMs → startMs ≤ nowMs) →
        (sampleTime nowMs c).1 ≠ .error .clockMovedBackwards) := by
  unfold sampleTime
  cases c.windowStartMs with
  | none => exact ⟨rfl, by simp⟩
  | some startMs =>
    dsimp only
    split_ifs with hback
    · exact ⟨rfl, fun h => absurd hback (BitVec.not_lt.mpr (h startMs rfl))⟩
    · exact ⟨(adopt_clock ..).1, fun _ => (adopt_clock ..).2.2⟩
    · exact ⟨rfl, by simp⟩

/-- New network targets do not look at the time. -/
theorem updateNetworkTargets_alike (c : VardiffController) (lastNowMs : Option Millis)
    (wcashNetwork zcashNetwork : ShareTarget) :
    { c with lastNowMs }.updateNetworkTargets wcashNetwork zcashNetwork =
      ((c.updateNetworkTargets wcashNetwork zcashNetwork).1,
        { (c.updateNetworkTargets wcashNetwork zcashNetwork).2 with lastNowMs }) := by
  unfold updateNetworkTargets nextRevision
  cases TargetBounds.new wcashNetwork zcashNetwork c.config.operatorEasiest with
  | error error => rfl
  | ok bounds =>
    dsimp only
    split
    · rfl
    · cases Fallible.checkedAdd 64 VardiffError.revisionOverflow c.binding.revision 1 with
      | error error => rfl
      | ok revision =>
        dsimp only
        rw [TargetBinding.new_clamp]
        rfl

variable {d : VardiffController}

/-- The body that both controllers run starts from one and the same state. -/
theorem Alike.atTime {body : VardiffController → Answer VardiffUpdate} (h : Alike c d)
    (hc : Reaches c (nowMs :: times)) (hd : Reaches d (nowMs :: times)) :
    d.atTime nowMs body = c.atTime nowMs body := by
  rw [atTime_of_reaches hc, atTime_of_reaches hd, h]

theorem Alike.binding (h : Alike c d) : d.binding = c.binding := by
  rw [h]

theorem Alike.refl (c : VardiffController) : Alike c c := rfl

theorem Reaches.tail (h : Reaches c (nowMs :: times)) : Reaches c times :=
  fun lastMs hlast later hlater => h lastMs hlast later (List.mem_cons_of_mem _ hlater)

theorem reaches_of_last (hlast : c.lastNowMs = some nowMs) (htimes : ∀ later ∈ times, nowMs ≤ later) :
    Reaches c times := by
  intro lastMs hlast' later hlater
  rw [hlast] at hlast'
  cases hlast'
  exact htimes later hlater

/-- A share, seen by two controllers that agree. -/
theorem observeShare_alike (submittedBinding : TargetBinding) (h : Alike c d)
    (hc : Reaches c (nowMs :: times)) (hd : Reaches d (nowMs :: times))
    (htimes : ∀ later ∈ times, nowMs ≤ later) :
    (d.observeShare submittedBinding nowMs).1 = (c.observeShare submittedBinding nowMs).1 ∧
      Alike (c.observeShare submittedBinding nowMs).2 (d.observeShare submittedBinding nowMs).2 ∧
      Reaches (c.observeShare submittedBinding nowMs).2 times ∧
      Reaches (d.observeShare submittedBinding nowMs).2 times := by
  unfold observeShare
  rw [h.binding]
  split
  · exact ⟨rfl, h, hc.tail, hd.tail⟩
  · have hreaches : Reaches (c.atTime nowMs (sampleShare nowMs)).2 times := by
      rw [atTime_of_reaches hc]
      exact reaches_of_last (sampleShare_clock _ _).1 htimes
    rw [h.atTime hc hd]
    exact ⟨rfl, .refl _, hreaches, hreaches⟩

/-- A tick, seen by two controllers that agree. -/
theorem tick_alike (h : Alike c d) (hc : Reaches c (nowMs :: times))
    (hd : Reaches d (nowMs :: times)) (htimes : ∀ later ∈ times, nowMs ≤ later) :
    d.tick nowMs = c.tick nowMs ∧ Reaches (c.tick nowMs).2 times := by
  unfold tick
  rw [h.atTime hc hd, atTime_of_reaches hc]
  exact ⟨rfl, reaches_of_last (sampleTime_clock _ _).1 htimes⟩

/-- A tick that keeps sampling in an open window changes nothing but the time. -/
theorem tick_of_sampling {observed required : ℕ} (hopen : c.windowStartMs.isSome)
    (hsampling : (c.tick nowMs).1 = .ok (.sampling observed required)) :
    (c.tick nowMs).2 = { c with lastNowMs := some nowMs } := by
  unfold tick atTime at hsampling ⊢
  split at hsampling
  · cases hsampling
  · rename_i hforward
    rw [if_neg hforward]
    obtain ⟨startMs, hstart⟩ := Option.isSome_iff_exists.mp hopen
    unfold sampleTime at hsampling ⊢
    rw [hstart] at hsampling ⊢
    dsimp only at hsampling ⊢
    split at hsampling
    · cases hsampling
    · rename_i hback
      rw [if_neg hback]
      split at hsampling
      · exact absurd hsampling ((adopt_clock _ _ _).2.1 _ _)
      · rename_i hearly
        rw [if_neg hearly]

/-- The run with extra calls, and its answers to the others. -/
def keptResults (c : VardiffController) : List (Bool × VardiffCall) → List VardiffResult
  | [] => []
  | (extra, call) :: calls =>
    if extra then (c.perform call).2.keptResults calls
    else (c.perform call).1 :: (c.perform call).2.keptResults calls

def kept (calls : List (Bool × VardiffCall)) : List VardiffCall :=
  (calls.filter (!·.1)).map (·.2)

/-- Every extra call is a tick that finds a window open and keeps sampling. -/
def Idle (c : VardiffController) : List (Bool × VardiffCall) → Prop
  | [] => True
  | (extra, call) :: calls =>
    (extra = true → c.windowStartMs.isSome ∧ ∃ nowMs observed required, call = .tick nowMs ∧
      (c.tick nowMs).1 = .ok (.sampling observed required)) ∧ (c.perform call).2.Idle calls

/-- Times that do not decrease. -/
def Timely (calls : List VardiffCall) : Prop :=
  (calls.filterMap VardiffCall.time?).Pairwise (· ≤ ·)

/-- One kept call: both answer it alike, and both stay behind the calls that follow. -/
theorem Alike.perform {call : VardiffCall} (h : Alike c d)
    (hc : Reaches c (call.time?.toList ++ times)) (hd : Reaches d (call.time?.toList ++ times))
    (htimes : (call.time?.toList ++ times).Pairwise (· ≤ ·)) :
    (d.perform call).1 = (c.perform call).1 ∧ Alike (c.perform call).2 (d.perform call).2 ∧
      Reaches (c.perform call).2 times ∧ Reaches (d.perform call).2 times := by
  cases call with
  | observeShare submittedBinding nowMs =>
    obtain ⟨hresult, hrest⟩ := observeShare_alike submittedBinding h hc hd
      (List.pairwise_cons.mp htimes).1
    exact ⟨congrArg (·.map VardiffReply.update) hresult, hrest⟩
  | tick nowMs =>
    obtain ⟨heq, hreaches⟩ := tick_alike h hc hd (List.pairwise_cons.mp htimes).1
    show ((d.tick nowMs).1.map _ = _) ∧ Alike _ (d.tick nowMs).2 ∧ _ ∧ Reaches (d.tick nowMs).2 times
    rw [heq]
    exact ⟨rfl, .refl _, hreaches, hreaches⟩
  | updateNetworkTargets wcashNetwork zcashNetwork =>
    have hself := updateNetworkTargets_alike c c.lastNowMs wcashNetwork zcashNetwork
    have hother := updateNetworkTargets_alike c d.lastNowMs wcashNetwork zcashNetwork
    rw [← show d = { c with lastNowMs := d.lastNowMs } from h] at hother
    have hlast : (c.updateNetworkTargets wcashNetwork zcashNetwork).2.lastNowMs = c.lastNowMs := by
      have hsnd := congrArg (·.2.lastNowMs) hself
      exact hsnd
    show ((d.updateNetworkTargets wcashNetwork zcashNetwork).1.map _ = _) ∧
      Alike _ (d.updateNetworkTargets wcashNetwork zcashNetwork).2 ∧ _ ∧
      Reaches (d.updateNetworkTargets wcashNetwork zcashNetwork).2 times
    rw [hother]
    refine ⟨rfl, rfl, ?_, ?_⟩
    · intro lastMs hlastMs
      exact hc lastMs (hlast ▸ hlastMs)
    · intro lastMs hlastMs
      exact hd lastMs hlastMs

/-- **Extra ticks leave no trace.** -/
theorem keptResults_eq (calls : List (Bool × VardiffCall)) (halike : Alike c d)
    (hc : Reaches c ((calls.map (·.2)).filterMap VardiffCall.time?))
    (hd : Reaches d ((calls.map (·.2)).filterMap VardiffCall.time?))
    (htimes : Timely (calls.map (·.2))) (hidle : d.Idle calls) :
    d.keptResults calls = c.results (kept calls) := by
  induction calls generalizing c d with
  | nil => rfl
  | cons marked calls ih =>
    obtain ⟨extra, call⟩ := marked
    obtain ⟨hextra, hidle⟩ := hidle
    have htimes_eq : (((extra, call) :: calls).map (·.2)).filterMap VardiffCall.time? =
        call.time?.toList ++ (calls.map (·.2)).filterMap VardiffCall.time? := by
      rw [List.map_cons, List.filterMap_cons]
      cases call.time? with
      | none => rfl
      | some nowMs => rfl
    unfold Timely at htimes
    rw [htimes_eq] at hc hd htimes
    have hlater : Timely (calls.map (·.2)) := (List.pairwise_append.mp htimes).2.1
    cases extra with
    | false =>
      obtain ⟨hresult, halike', hc', hd'⟩ := halike.perform hc hd htimes
      show (d.perform call).1 :: (d.perform call).2.keptResults calls =
        (c.perform call).1 :: (c.perform call).2.results (kept calls)
      rw [hresult, ih halike' hc' hd' hlater hidle]
    | true =>
      obtain ⟨hopen, nowMs, observed, required, rfl, hsampling⟩ := hextra rfl
      have hstate : (d.perform (.tick nowMs)).2 = { d with lastNowMs := some nowMs } :=
        tick_of_sampling hopen hsampling
      show (d.perform (.tick nowMs)).2.keptResults calls = c.results (kept calls)
      refine ih ?_ hc.tail ?_ hlater hidle
      · rw [hstate]
        unfold Alike at halike ⊢
        rw [halike]
      · rw [hstate]
        exact reaches_of_last rfl (List.pairwise_cons.mp htimes).1

/-! ## §5. The clock -/

/-- The time of the controller is not after `nowMs`. -/
structure Reached (c : VardiffController) (nowMs : Millis) : Prop where
  last : ∀ lastMs, c.lastNowMs = some lastMs → lastMs ≤ nowMs
  window : ∀ startMs, c.windowStartMs = some startMs → startMs ≤ nowMs

/-- A new controller. -/
theorem new_spec {config : VardiffConfig} {wcashNetwork zcashNetwork initial : ShareTarget}
    {initialRevision : ℕ} {start : VardiffController}
    (hnew : new config wcashNetwork zcashNetwork initial initialRevision = .ok start) :
    start.config = config ∧ start.lastNowMs = none ∧ start.windowStartMs = none := by
  obtain ⟨bounds, -, hnew⟩ := Fallible.bind_eq_ok.mp hnew
  obtain ⟨binding, -, hnew⟩ := Fallible.bind_eq_ok.mp hnew
  cases hnew
  exact ⟨rfl, rfl, rfl⟩

theorem new_ne_clock (config : VardiffConfig) (wcashNetwork zcashNetwork initial : ShareTarget)
    (initialRevision : ℕ) :
    new config wcashNetwork zcashNetwork initial initialRevision ≠ .error .clockMovedBackwards := by
  unfold new
  cases TargetBounds.new wcashNetwork zcashNetwork config.operatorEasiest with
  | error error => simp [Except.mapError]
  | ok bounds => simp [Except.mapError, TargetBinding.new_clamp]

/-- What a call at a time leaves behind is at that time. -/
theorem reached_of_window {c' : VardiffController} (h : Reached c nowMs)
    (hlast : c'.lastNowMs = some nowMs)
    (hwindow : c'.windowStartMs = c.windowStartMs ∨ c'.windowStartMs = some nowMs ∨
      c'.windowStartMs = none) : Reached c' nowMs := by
  constructor
  · intro lastMs heq
    rw [hlast] at heq
    cases heq
    exact BitVec.le_refl _
  · intro startMs heq
    obtain hsame | hnow | hnone := hwindow
    · exact h.window startMs (hsame ▸ heq)
    · rw [hnow] at heq
      cases heq
      exact BitVec.le_refl _
    · rw [hnone] at heq
      cases heq

/-- **A share that is not behind the clock is never refused for its time.** -/
theorem observeShare_on_time (submittedBinding : TargetBinding) (h : Reached c nowMs) :
    (c.observeShare submittedBinding nowMs).1 ≠ .error .clockMovedBackwards ∧
      ((c.observeShare submittedBinding nowMs).2 = c ∨
        (c.observeShare submittedBinding nowMs).2.lastNowMs = some nowMs ∧
          Reached (c.observeShare submittedBinding nowMs).2 nowMs) := by
  have hwindow := (moved_observeShare c submittedBinding nowMs).window
  unfold observeShare at hwindow ⊢
  split at hwindow
  · rename_i hstale
    rw [if_pos hstale]
    exact ⟨by simp, .inl rfl⟩
  · rename_i hcurrent
    rw [if_neg hcurrent]
    unfold atTime at hwindow ⊢
    rw [not_back h.last] at hwindow ⊢
    have hlast : (sampleShare nowMs { c with lastNowMs := some nowMs }).2.lastNowMs = some nowMs :=
      (sampleShare_clock _ _).1
    exact ⟨(sampleShare_clock _ _).2 h.window, .inr ⟨hlast, reached_of_window h hlast hwindow⟩⟩

/-- **A tick that is not behind the clock is never refused for its time.** -/
theorem tick_on_time (h : Reached c nowMs) :
    (c.tick nowMs).1 ≠ .error .clockMovedBackwards ∧ (c.tick nowMs).2.lastNowMs = some nowMs ∧
      Reached (c.tick nowMs).2 nowMs := by
  have hwindow := (moved_tick c nowMs).window
  unfold tick atTime at hwindow ⊢
  rw [not_back h.last] at hwindow ⊢
  have hlast : (sampleTime nowMs { c with lastNowMs := some nowMs }).2.lastNowMs = some nowMs :=
    (sampleTime_clock _ _).1
  exact ⟨(sampleTime_clock _ _).2 h.window, hlast, reached_of_window h hlast hwindow⟩

theorem updateNetworkTargets_on_time (c : VardiffController)
    (wcashNetwork zcashNetwork : ShareTarget) :
    (c.updateNetworkTargets wcashNetwork zcashNetwork).1 ≠ .error .clockMovedBackwards ∧
      ∀ ms, c.Reached ms → (c.updateNetworkTargets wcashNetwork zcashNetwork).2.Reached ms := by
  have hrevision : c.nextRevision ≠ .error .clockMovedBackwards := by
    simp [nextRevision, Fallible.checkedAdd, ← Fallible.errorsIn_ne]
  unfold updateNetworkTargets
  cases TargetBounds.new wcashNetwork zcashNetwork c.config.operatorEasiest with
  | error error => exact ⟨by simp, fun _ => id⟩
  | ok bounds =>
    dsimp only
    split
    · exact ⟨by simp, fun _ => id⟩
    · cases hnext : c.nextRevision with
      | error error =>
        rw [hnext] at hrevision
        exact ⟨by simpa using hrevision, fun _ => id⟩
      | ok revision =>
        dsimp only
        rw [TargetBinding.new_clamp]
        exact ⟨by simp, fun _ h => ⟨h.last, fun _ heq => nomatch heq⟩⟩

/-! ## §6. The law -/

/-- **The law of a run**: the clauses hold wherever in the run their calls stand.  The shares
    between two changes include the one that brings the second change. -/
structure VardiffLaw (start : VardiffController) (calls : List VardiffCall) : Prop where
  within : ∀ before rest, calls = before ++ rest →
    (start.after before).binding.bounds.hardestAllowed ≤ (start.after before).binding.target ∧
      (start.after before).binding.target ≤ (start.after before).binding.bounds.easiestAllowed
  revision : ∀ before call rest, calls = before ++ call :: rest →
    ((start.after before).perform call).2.binding ≠ (start.after before).binding →
    (start.after before).binding.revision <
      ((start.after before).perform call).2.binding.revision
  shareStep : ∀ before submittedBinding nowMs rest,
    calls = before ++ .observeShare submittedBinding nowMs :: rest →
    ((start.after before).observeShare submittedBinding nowMs).2.binding ≠
      (start.after before).binding →
    Stepped (start.after before) nowMs
      ((start.after before).observeShare submittedBinding nowMs).2
  tickStep : ∀ before nowMs rest, calls = before ++ .tick nowMs :: rest →
    ((start.after before).tick nowMs).2.binding ≠ (start.after before).binding →
    Stepped (start.after before) nowMs ((start.after before).tick nowMs).2
  tickEases : ∀ before nowMs rest, calls = before ++ .tick nowMs :: rest →
    (start.after before).binding.target ≤ ((start.after before).tick nowMs).2.binding.target
  shareRate : ∀ before first firstMs middle second secondMs rest,
    calls = before ++ .observeShare first firstMs ::
      (middle ++ .observeShare second secondMs :: rest) →
    let c := start.after before
    let d := start.after (before ++ .observeShare first firstMs :: middle)
    (c.observeShare first firstMs).2.binding ≠ c.binding →
    (d.observeShare second secondMs).2.binding ≠ d.binding →
    start.config.sampleIntervals ≤
      (middle ++ [VardiffCall.observeShare second secondMs]).countP (VardiffCall.isShareOf d.binding)
  tickRate : ∀ before firstMs middle secondMs rest,
    calls = before ++ .tick firstMs :: (middle ++ .tick secondMs :: rest) →
    let c := start.after before
    let d := start.after (before ++ .tick firstMs :: middle)
    (c.tick firstMs).2.binding ≠ c.binding →
    (d.tick secondMs).2.binding ≠ d.binding →
    start.config.sampleWindowMs * (basisPointsScale + start.config.hysteresisBps) <
      (secondMs.toNat - firstMs.toNat) * basisPointsScale
  idleTicks : ∀ marked, kept marked = calls → Timely (marked.map (·.2)) → start.Idle marked →
    start.keptResults marked = start.results calls
  errors : ∀ before call rest error, calls = before ++ call :: rest →
    ((start.after before).perform call).1 = .error error →
    ((start.after before).perform call).2.binding = (start.after before).binding

/-- Between two changes by shares stands a full sample. -/
theorem shareRate_of_changes {first second : TargetBinding} {firstMs secondMs : Millis}
    {middle : List VardiffCall} (hd : d = (c.observeShare first firstMs).2.after middle)
    (hfirst : (c.observeShare first firstMs).2.binding ≠ c.binding)
    (hsecond : (d.observeShare second secondMs).2.binding ≠ d.binding) :
    d.config.sampleIntervals ≤ (middle ++ [VardiffCall.observeShare second secondMs]).countP
      (VardiffCall.isShareOf d.binding) := by
  obtain ⟨-, -, hzero, -⟩ := (moved_observeShare c first firstMs).of_share hfirst
  obtain ⟨rfl, hfull, -, -⟩ := (moved_observeShare d second secondMs).of_share hsecond
  have hle := observed_le_shares hzero middle
  rw [← hd] at hle
  have hlast : VardiffCall.isShareOf d.binding (.observeShare d.binding secondMs) = true :=
    decide_eq_true rfl
  rw [List.countP_append, List.countP_singleton, if_pos hlast]
  omega

/-- Between two changes by ticks lies more than a window. -/
theorem tickRate_of_changes {firstMs secondMs : Millis} {middle : List VardiffCall}
    (hd : d = (c.tick firstMs).2.after middle)
    (htimes : ∀ nowMs ∈ middle.filterMap VardiffCall.time?, firstMs ≤ nowMs)
    (hfirst : (c.tick firstMs).2.binding ≠ c.binding)
    (hsecond : (d.tick secondMs).2.binding ≠ d.binding) :
    d.config.sampleWindowMs * (basisPointsScale + d.config.hysteresisBps) <
      (secondMs.toNat - firstMs.toNat) * basisPointsScale := by
  obtain ⟨-, hwindow, -, -⟩ := (moved_tick c firstMs).of_tick hfirst
  obtain ⟨⟨startMs, hstart, hle, hlate⟩, -, -, -⟩ := (moved_tick d secondMs).of_tick hsecond
  -- the second window starts no earlier than the first change
  have hsince : firstMs ≤ startMs := by
    refine window_after (c := (c.tick firstMs).2) ?_ middle htimes startMs (hd ▸ hstart)
    intro opened hopened
    rw [hwindow] at hopened
    cases hopened
    exact BitVec.le_refl firstMs
  have helapsed : (secondMs - startMs).toNat = secondMs.toNat - startMs.toNat :=
    BitVec.toNat_sub_of_le hle
  rw [BitVec.le_def] at hle hsince
  unfold overdue at hlate
  rw [decide_eq_true_eq, helapsed] at hlate
  unfold basisPointsScale at *
  have hexpand : d.config.sampleWindowMs * (10000 + d.config.hysteresisBps) =
      d.config.sampleWindowMs * 10000 + d.config.sampleWindowMs * d.config.hysteresisBps := by ring
  omega

/-- **Step and rate law.**  For every valid configuration and every sequence of shares, ticks and
    network targets with non-decreasing times. -/
theorem vardiff_step_and_rate_law (config : VardiffConfig)
    (wcashNetwork zcashNetwork initial : ShareTarget) (initialRevision : ℕ)
    (start : VardiffController)
    (hnew : new config wcashNetwork zcashNetwork initial initialRevision = .ok start)
    (calls : List VardiffCall) (htimes : Timely calls) : VardiffLaw start calls where
  within := fun before _ _ =>
    TargetBounds.contains_iff.mp (start.after before).binding.inside
  revision := by
    intro before call rest _ hne
    obtain hsame | ⟨hrevision, -⟩ := (moved_perform (start.after before) call).binding
    · exact absurd hsame hne
    · omega
  shareStep := by
    intro before submittedBinding nowMs rest _ hne
    exact ((moved_observeShare _ submittedBinding nowMs).of_share hne).2.2.2
  tickStep := by
    intro before nowMs rest _ hne
    exact ((moved_tick _ nowMs).of_tick hne).2.2.2
  tickEases := by
    intro before nowMs rest _
    by_cases hne : ((start.after before).tick nowMs).2.binding = (start.after before).binding
    · rw [hne]
    · exact ((moved_tick _ nowMs).of_tick hne).2.2.1
  shareRate := by
    intro before first firstMs middle second secondMs rest _ c d hfirst hsecond
    have hd : d = (c.observeShare first firstMs).2.after middle := after_append start before _
    have hrate := shareRate_of_changes hd hfirst hsecond
    rwa [show d.config = start.config from after_config start _] at hrate
  tickRate := by
    intro before firstMs middle secondMs rest hcalls c d hfirst hsecond
    have hd : d = (c.tick firstMs).2.after middle := after_append start before _
    have hordered : ∀ nowMs ∈ middle.filterMap VardiffCall.time?, firstMs ≤ nowMs := by
      intro nowMs hnow
      unfold Timely at htimes
      rw [hcalls, List.filterMap_append] at htimes
      have hfrom := (List.pairwise_append.mp htimes).2.1
      refine (List.pairwise_cons.mp hfrom).1 nowMs ?_
      rw [List.filterMap_append]
      exact List.mem_append_left _ hnow
    have hrate := tickRate_of_changes hd hordered hfirst hsecond
    rwa [show d.config = start.config from after_config start _] at hrate
  idleTicks := by
    intro marked hkept hmarked hidle
    have hreaches : ∀ times, Reaches start times := by
      intro times lastMs hlast
      rw [(new_spec hnew).2.1] at hlast
      cases hlast
    rw [← hkept]
    exact keptResults_eq marked (.refl start) (hreaches _) (hreaches _) hmarked hidle
  errors := by
    intro before call rest error _ herror
    have hmoved := moved_perform (start.after before) call
    rw [herror] at hmoved
    exact hmoved.binding_of_error

/-! A worker that falls silent twice: both overdue windows ease its target. -/

def workedVardiffConfig : VardiffConfig where
  sampleIntervals := 8
  sampleWindowMs := 80_000
  hysteresisBps := 2_500
  maximumAdjustmentFactor := 2
  operatorEasiest := ShareTarget.MAX
  enough := by decide
  window := by decide
  fits := by decide
  hysteresis := by decide
  factor := by decide

def workedTarget (number : ℕ) : ShareTarget := fromLittleLimbs [BitVec.ofNat 64 number, 0, 0, 0]

def workedController : VardiffController where
  config := workedVardiffConfig
  binding := ⟨7, workedTarget 1000,
    ⟨workedTarget 2, workedTarget 4, workedTarget 4, ShareTarget.MAX, by decide, by decide⟩,
    by decide⟩
  windowStartMs := none
  observedIntervals := 0
  lastNowMs := none

def workedCalls : List VardiffCall :=
  [.tick 5, .observeShare workedController.binding 40_000, .tick 100_006, .tick 150_000,
    .tick 300_000]

theorem vardiff_step_and_rate_law_silent :
    VardiffLaw workedController workedCalls ∧
      (workedController.after workedCalls).binding.revision = 9 ∧
      (workedController.after workedCalls).binding.target = workedTarget 2500 :=
  ⟨vardiff_step_and_rate_law workedVardiffConfig (workedTarget 2) (workedTarget 4)
    (workedTarget 1000) 7 workedController (by decide +kernel) workedCalls
    (by unfold Timely; decide +kernel), by decide +kernel, by decide +kernel⟩

end VardiffController

end WcashPool.Core
