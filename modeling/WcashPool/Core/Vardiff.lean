/-
  WcashPool.Core.Vardiff — variable share difficulty in integers.

  The controller measures how long a fixed number of accepted shares took and
  scales the target by that time over the expected one.  The scaling is exact
  256-bit arithmetic on four 64-bit limbs: a product with a fifth limb, and a
  division bit by bit whose 128-bit remainder may wrap.

  Main results: `Division.Holds.step`, `divide320By128_spec`,
  `target_scaling_exact` and `VardiffController.moved_perform`.
-/
import WcashPool.Core.Target

namespace WcashPool.Core

open Fallible

/-! ## §1. Limbs -/

def toLittleLimbs (target : ShareTarget) : List (BitVec 64) := Limbs.split 4 target.number

/-- The target of the limbs; zero becomes the hardest target. -/
def fromLittleLimbs (limbs : List (BitVec 64)) : ShareTarget :=
  if h : Limbs.join 256 limbs = 0 then ⟨1, by decide⟩ else ⟨Limbs.join 256 limbs, h⟩

def multiplyLimbs (limbs : List (BitVec 64)) (multiplier : BitVec 64) : List (BitVec 64) :=
  Limbs.mulWord multiplier 0 limbs

/-- The state of the division: the loop runs from the highest bit to the lowest. -/
structure Division where
  quotient : List (BitVec 64)
  remainder : BitVec 128
  overflow : Bool

namespace Division

/-- One bit of the quotient. -/
def step (numerator : List (BitVec 64)) (divisor : BitVec 128) (bitIndex : ℕ) (s : Division) :
    Division :=
  let inputBit : BitVec 64 := (numerator.getD (bitIndex / 64) 0 >>> (bitIndex % 64)) &&& 1
  let remainder := s.remainder <<< 1 ||| inputBit.setWidth 128
  if s.remainder >>> 127 ≠ 0 ∨ divisor ≤ remainder then
    if 256 ≤ bitIndex then { s with remainder := remainder - divisor, overflow := true }
    else { s with remainder := remainder - divisor, quotient := Limbs.setBit s.quotient bitIndex }
  else { s with remainder := remainder }

def run (numerator : List (BitVec 64)) (divisor : BitVec 128) : ℕ → Division → Division
  | 0, s => s
  | bitIndex + 1, s => run numerator divisor bitIndex (step numerator divisor bitIndex s)

end Division

/-- Long division, bit by bit. -/
def divide320By128 (numerator : List (BitVec 64)) (divisor : BitVec 128) : List (BitVec 64) :=
  let s := Division.run numerator divisor 320 ⟨List.replicate 4 0, 0, false⟩
  if s.overflow then List.replicate 4 (BitVec.allOnes 64) else s.quotient

/-- `target * multiplier / divisor`, saturating. -/
def scaleTarget (target : ShareTarget) (multiplier : BitVec 64) (divisor : BitVec 128) :
    ShareTarget :=
  fromLittleLimbs (divide320By128 (multiplyLimbs (toLittleLimbs target) multiplier) divisor)

def multiplyTarget (target : ShareTarget) (multiplier : BitVec 64) : ShareTarget :=
  let product := multiplyLimbs (toLittleLimbs target) multiplier
  if product.getD 4 0 ≠ 0 then ShareTarget.MAX else fromLittleLimbs (product.take 4)

def divideTarget (target : ShareTarget) (divisor : BitVec 64) : ShareTarget :=
  scaleTarget target 1 (divisor.setWidth 128)

/-! ## §2. The division loop -/

variable {divisor : BitVec 128}

namespace Division

/-- **The state with `n` bits left**: quotient and remainder of the bits already read, the
    quotient in its place; what does not fit into four limbs is remembered as overflow. -/
structure Holds (N d n : ℕ) (s : Division) : Prop where
  remainder : s.remainder.toNat = N / 2 ^ n % d
  length : s.quotient.length = 4
  quotient : Limbs.value s.quotient = N / 2 ^ n / d * 2 ^ n % 2 ^ 256
  overflow : s.overflow = true ↔ N / 2 ^ max n 256 / d ≠ 0

theorem toNat_inputBit (numerator : List (BitVec 64)) (k : ℕ) :
    (((numerator.getD (k / 64) 0 >>> (k % 64)) &&& 1).setWidth 128).toNat =
      ((Limbs.value numerator).testBit k).toNat := by
  rw [Limbs.testBit_value (by decide), Limbs.bit, BitVec.getLsbD, Nat.testBit_eq_decide_div_mod_eq]
  generalize numerator.getD (k / 64) 0 = limb
  have hand : ((limb >>> (k % 64)) &&& 1).toNat = limb.toNat / 2 ^ (k % 64) % 2 := by
    rw [BitVec.toNat_and, BitVec.toNat_ushiftRight, Nat.shiftRight_eq_div_pow]
    exact Nat.and_one_is_mod _
  rw [BitVec.toNat_setWidth, hand, Nat.mod_eq_of_lt (by omega)]
  obtain h | h := Nat.mod_two_eq_zero_or_one (limb.toNat / 2 ^ (k % 64))
  · rw [h]
    rfl
  · rw [h]
    rfl

/-- **One turn of the division.** -/
theorem Holds.step {numerator : List (BitVec 64)} {n : ℕ} {s : Division} (hd : 0 < divisor.toNat)
    (h : Holds (Limbs.value numerator) divisor.toNat (n + 1) s) :
    Holds (Limbs.value numerator) divisor.toNat n (Division.step numerator divisor n s) := by
  have hbit := toNat_inputBit numerator n
  dsimp only [Division.step]
  generalize ((numerator.getD (n / 64) 0 >>> (n % 64)) &&& 1).setWidth 128 = b at *
  generalize Limbs.value numerator = N at *
  have hlt : s.remainder.toNat < divisor.toNat := h.remainder ▸ Nat.mod_lt _ hd
  have hone : b.toNat ≤ 1 := hbit ▸ Bool.toNat_le _
  obtain ⟨hdecide, hsub, hkeep⟩ := Limbs.restore (by decide) hlt hone
  obtain ⟨hset, hclear⟩ := Limbs.divide_step N divisor.toNat n hd
  rw [← h.remainder, ← hbit] at hset hclear
  have hhigh : ∀ {k} q, 256 ≤ k → q * 2 ^ k % 2 ^ 256 = 0 := fun q hk =>
    Nat.mod_eq_zero_of_dvd (Dvd.dvd.mul_left (pow_dvd_pow 2 hk) q)
  split
  · -- the divisor goes in
    rename_i hin
    obtain ⟨hquotient, hremainder⟩ := hset (hdecide.mp hin)
    split
    · rename_i hn
      refine ⟨(hsub (hdecide.mp hin)).trans hremainder.symm, h.length, ?_, ?_⟩
      · rw [h.quotient, hhigh _ hn, hhigh _ (hn.trans (Nat.le_succ n))]
      · rw [max_eq_left hn, hquotient]
        simp
    · rename_i hn
      have hbits : n < 64 * s.quotient.length := by rw [h.length]; omega
      refine ⟨(hsub (hdecide.mp hin)).trans hremainder.symm, ?_, ?_, ?_⟩
      · exact (Limbs.length_setBit _ _).trans h.length
      · show Limbs.value (Limbs.setBit s.quotient n) = _
        rw [Limbs.value_setBit (by decide) hbits, h.quotient,
          Limbs.set_quotient_bit (not_le.mp hn), hquotient]
      · rw [max_eq_right (by omega), h.overflow, max_eq_right (by omega)]
  · rename_i hout
    have hless := not_le.mp (mt hdecide.mpr hout)
    obtain ⟨hquotient, hremainder⟩ := hclear hless
    refine ⟨(hkeep hless).trans hremainder.symm, h.length, ?_, ?_⟩
    · rw [h.quotient, hquotient]
      congr 1
      ring
    · rw [h.overflow]
      by_cases hn : 256 ≤ n
      · rw [max_eq_left hn, max_eq_left (by omega), hquotient]
        simp
      · rw [max_eq_right (by omega), max_eq_right (by omega)]

/-- The division loop. -/
theorem Holds.run {numerator : List (BitVec 64)} (hd : 0 < divisor.toNat) :
    ∀ (n : ℕ) {s : Division}, Holds (Limbs.value numerator) divisor.toNat n s →
      Holds (Limbs.value numerator) divisor.toNat 0 (Division.run numerator divisor n s)
  | 0, _, h => h
  | n + 1, _, h => Holds.run hd n (h.step hd)

end Division

/-- The quotient, cut to 256 bits. -/
theorem divide320By128_spec {numerator : List (BitVec 64)} (hlength : numerator.length = 5)
    (hd : 0 < divisor.toNat) :
    (divide320By128 numerator divisor).length = 4 ∧
      Limbs.value (divide320By128 numerator divisor) =
        min (2 ^ 256 - 1) (Limbs.value numerator / divisor.toNat) := by
  have hN : Limbs.value numerator < 2 ^ 320 := by
    have h := Limbs.value_lt numerator
    rwa [hlength] at h
  have hstart : Division.Holds (Limbs.value numerator) divisor.toNat 320
      ⟨List.replicate 4 0, 0, false⟩ := by
    refine ⟨?_, rfl, ?_, ?_⟩
    · rw [Nat.div_eq_of_lt hN, Nat.zero_mod]
      rfl
    · rw [Nat.div_eq_of_lt hN, Nat.zero_div, Nat.zero_mul, Nat.zero_mod]
      rfl
    · rw [max_eq_left (by decide), Nat.div_eq_of_lt hN]
      simp
  have hend := hstart.run hd 320
  unfold divide320By128
  generalize Division.run numerator divisor 320 ⟨List.replicate 4 0, 0, false⟩ = s at *
  have hquotient := hend.quotient
  have hoverflow := hend.overflow
  rw [pow_zero, Nat.div_one, Nat.mul_one] at hquotient
  rw [max_eq_right (Nat.zero_le _), Nat.div_div_eq_div_mul, Nat.mul_comm,
    ← Nat.div_div_eq_div_mul] at hoverflow
  generalize Limbs.value numerator / divisor.toNat = q at *
  have hbig : q / 2 ^ 256 ≠ 0 ↔ 2 ^ 256 ≤ q := by
    rw [ne_eq, Nat.div_eq_zero_iff_lt (by decide), not_lt]
  dsimp only
  split
  · rename_i h
    refine ⟨rfl, ?_⟩
    rw [min_eq_left (by have := hbig.mp (hoverflow.mp h); omega)]
    decide +kernel
  · rename_i h
    have hlt : q < 2 ^ 256 := not_le.mp fun hle => h (hoverflow.mpr (hbig.mpr hle))
    refine ⟨hend.length, ?_⟩
    rw [hquotient, Nat.mod_eq_of_lt hlt, min_eq_right (by omega)]

/-! ## §3. Scaling -/

variable (target : ShareTarget)

theorem length_toLittleLimbs : (toLittleLimbs target).length = 4 :=
  Limbs.length_split 4 _

theorem value_toLittleLimbs :
    Limbs.value (toLittleLimbs target) = target.number.toNat :=
  Limbs.value_split (by decide) (by decide) _

theorem toNat_fromLittleLimbs {limbs : List (BitVec 64)} (hlength : limbs.length = 4) :
    (fromLittleLimbs limbs).number.toNat = max 1 (Limbs.value limbs) := by
  have hvalue : (Limbs.join 256 limbs).toNat = Limbs.value limbs :=
    Limbs.toNat_join (by rw [hlength])
  unfold fromLittleLimbs
  split
  · rename_i hzero
    rw [← hvalue, hzero]
    rfl
  · rename_i hpos
    have hne : Limbs.value limbs ≠ 0 := fun h => hpos (BitVec.eq_of_toNat_eq (hvalue.trans h))
    show (Limbs.join 256 limbs).toNat = _
    rw [hvalue, max_eq_right (by omega)]

variable (multiplier : BitVec 64)

theorem length_multiplyLimbs :
    (multiplyLimbs (toLittleLimbs target) multiplier).length = 5 := by
  rw [multiplyLimbs, Limbs.length_mulWord, length_toLittleLimbs]

theorem value_multiplyLimbs :
    Limbs.value (multiplyLimbs (toLittleLimbs target) multiplier) =
      target.number.toNat * multiplier.toNat := by
  rw [multiplyLimbs, Limbs.value_mulWord multiplier (by decide), value_toLittleLimbs]
  rfl

/-- Scaling a target, rounded down and kept in range. -/
theorem toNat_scaleTarget (hd : divisor ≠ 0) :
    (scaleTarget target multiplier divisor).number.toNat =
      min (2 ^ 256 - 1) (max 1 (target.number.toNat * multiplier.toNat / divisor.toNat)) := by
  have hpos : 0 < divisor.toNat := Nat.pos_of_ne_zero fun h => hd (BitVec.eq_of_toNat_eq h)
  obtain ⟨hlength, hvalue⟩ :=
    divide320By128_spec (length_multiplyLimbs target multiplier) hpos
  rw [scaleTarget, toNat_fromLittleLimbs hlength, hvalue, value_multiplyLimbs]
  omega

theorem toNat_multiplyTarget :
    (multiplyTarget target multiplier).number.toNat =
      min (2 ^ 256 - 1) (max 1 (target.number.toNat * multiplier.toNat)) := by
  have hlength := length_multiplyLimbs target multiplier
  rw [← value_multiplyLimbs]
  unfold multiplyTarget
  generalize multiplyLimbs (toLittleLimbs target) multiplier = product at *
  -- the fifth limb is the product's overflow
  have hsplit : Limbs.value product =
      2 ^ 256 * (product.getD 4 0).toNat + Limbs.value (product.take 4) := by
    match product, hlength with
    | [a, b, c, d, e], _ =>
      simp only [Limbs.value, List.getD_cons_succ, List.getD_cons_zero, List.take_succ_cons,
        List.take_zero]
      ring
  have hlow := Limbs.value_lt (product.take 4)
  rw [List.length_take, hlength] at hlow
  dsimp only
  split
  · rename_i hne
    have hpos : 0 < (product.getD 4 0).toNat :=
      Nat.pos_of_ne_zero fun h => hne (BitVec.eq_of_toNat_eq h)
    have hmax : ShareTarget.MAX.number.toNat = 2 ^ 256 - 1 := by decide
    rw [hmax]
    omega
  · rename_i hzero
    rw [toNat_fromLittleLimbs (by rw [List.length_take, hlength]; rfl)]
    have hnone : (product.getD 4 0).toNat = 0 := by rw [not_not.mp hzero]; rfl
    have hfits : Limbs.value (product.take 4) < 2 ^ 256 := hlow
    omega

/-- **256-bit exactness.**  Scaling is the exact quotient and multiplying the exact product, kept
    between the hardest and the easiest target. -/
theorem target_scaling_exact (target : ShareTarget) (multiplier : BitVec 64)
    (divisor : BitVec 128) (hd : divisor ≠ 0) :
    (scaleTarget target multiplier divisor).number.toNat =
        min (2 ^ 256 - 1) (max 1 (target.number.toNat * multiplier.toNat / divisor.toNat)) ∧
      (multiplyTarget target multiplier).number.toNat =
        min (2 ^ 256 - 1) (max 1 (target.number.toNat * multiplier.toNat)) :=
  ⟨toNat_scaleTarget target multiplier hd, toNat_multiplyTarget target multiplier⟩

/-- A divisor of 128 bits, where the remainder does lose its top bit. -/
theorem target_scaling_exact_wide :
    (scaleTarget ShareTarget.MAX (BitVec.allOnes 64) (BitVec.allOnes 128)).number.toNat =
        min (2 ^ 256 - 1) (max 1 ((2 ^ 256 - 1) * (2 ^ 64 - 1) / (2 ^ 128 - 1))) ∧
      (multiplyTarget ShareTarget.MAX (BitVec.allOnes 64)).number.toNat =
        min (2 ^ 256 - 1) (max 1 ((2 ^ 256 - 1) * (2 ^ 64 - 1))) :=
  target_scaling_exact ShareTarget.MAX (BitVec.allOnes 64) (BitVec.allOnes 128) (by decide)

/-! ## §4. The controller -/

/-- Monotonic milliseconds. -/
abbrev Millis := BitVec 64

/-- The errors of the controller. -/
inductive VardiffError
  | invalidConfig
  | targetPolicy (error : TargetPolicyError)
  | clockMovedBackwards
  | intervalOverflow
  | sampleCounterOverflow
  | revisionOverflow
deriving DecidableEq

def basisPointsScale : ℕ := 10_000
def minimumSampleIntervals : ℕ := 8
def minimumSampleWindowMs : ℕ := 60_000
def minimumHysteresisBps : ℕ := 2_500
def maximumAdjustmentFactorLimit : ℕ := 4

/-- **A checked policy.** -/
structure VardiffConfig where
  sampleIntervals : ℕ
  sampleWindowMs : ℕ
  hysteresisBps : ℕ
  maximumAdjustmentFactor : ℕ
  operatorEasiest : ShareTarget
  enough : minimumSampleIntervals ≤ sampleIntervals
  window : minimumSampleWindowMs ≤ sampleWindowMs
  fits : sampleWindowMs < 2 ^ 64
  hysteresis : minimumHysteresisBps ≤ hysteresisBps ∧ hysteresisBps < basisPointsScale
  factor : 1 ≤ maximumAdjustmentFactor ∧ maximumAdjustmentFactor ≤ maximumAdjustmentFactorLimit
deriving DecidableEq

def VardiffConfig.new (targetIntervalMs sampleIntervals hysteresisBps maximumAdjustmentFactor : ℕ)
    (operatorEasiest : ShareTarget) : Except VardiffError VardiffConfig :=
  if hfits : targetIntervalMs * sampleIntervals < 2 ^ 64 then
    if h : minimumSampleIntervals ≤ sampleIntervals ∧
        minimumSampleWindowMs ≤ targetIntervalMs * sampleIntervals ∧
        (minimumHysteresisBps ≤ hysteresisBps ∧ hysteresisBps < basisPointsScale) ∧
        (1 ≤ maximumAdjustmentFactor ∧ maximumAdjustmentFactor ≤ maximumAdjustmentFactorLimit) then
      .ok ⟨sampleIntervals, targetIntervalMs * sampleIntervals, hysteresisBps,
        maximumAdjustmentFactor, operatorEasiest, h.1, h.2.1, hfits, h.2.2.1, h.2.2.2⟩
    else .error .invalidConfig
  else .error .intervalOverflow

/-- **The controller**: its target and its sample. -/
structure VardiffController where
  config : VardiffConfig
  binding : TargetBinding
  windowStartMs : Option Millis
  observedIntervals : ℕ
  lastNowMs : Option Millis
deriving DecidableEq

/-- The answers of the controller. -/
inductive VardiffUpdate
  | sampling (observedIntervals requiredIntervals : ℕ)
  | ignoredStaleBinding
  | unchanged (binding : TargetBinding)
  | changed (previous current : TargetBinding)
deriving DecidableEq

namespace VardiffController

variable (c : VardiffController)

def new (config : VardiffConfig) (wcashNetwork zcashNetwork initial : ShareTarget)
    (initialRevision : ℕ) : Except VardiffError VardiffController := do
  let bounds ← (TargetBounds.new wcashNetwork zcashNetwork config.operatorEasiest).mapError
    .targetPolicy
  let binding ← (TargetBinding.new initialRevision (bounds.clamp initial) bounds).mapError
    .targetPolicy
  pure ⟨config, binding, none, 0, none⟩

def nextRevision : Except VardiffError ℕ :=
  checkedAdd 64 .revisionOverflow c.binding.revision 1

def resetSample : VardiffController :=
  { c with windowStartMs := none, observedIntervals := 0 }

def resetSampleAt (nowMs : Millis) : VardiffController :=
  { c with windowStartMs := some nowMs, observedIntervals := 0 }

/-- The calls change the controller in place: an error leaves what was written before it. -/
abbrev Answer (α : Type) := Except VardiffError α × VardiffController

/-- New network targets move the bounds. -/
def updateNetworkTargets (wcashNetwork zcashNetwork : ShareTarget) : Answer TargetBinding :=
  match TargetBounds.new wcashNetwork zcashNetwork c.config.operatorEasiest with
  | .error error => (.error (.targetPolicy error), c)
  | .ok bounds =>
    if bounds = c.binding.bounds then (.ok c.binding, c)
    else
      match c.nextRevision with
      | .error error => (.error error, c)
      | .ok revision =>
        match TargetBinding.new revision (bounds.clamp c.binding.target) bounds with
        | .error error => (.error (.targetPolicy error), c)
        | .ok binding => (.ok binding, { c with binding }.resetSample)

/-- The common end of a sample: a target that differs becomes a new revision. -/
def adopt (nextTarget : ShareTarget) (nowMs : Millis) : Answer VardiffUpdate :=
  if nextTarget = c.binding.target then (.ok (.unchanged c.binding), c.resetSampleAt nowMs)
  else
    match c.nextRevision with
    | .error error => (.error error, c)
    | .ok revision =>
      match TargetBinding.new revision nextTarget c.binding.bounds with
      | .error error => (.error (.targetPolicy error), c)
      | .ok binding =>
        (.ok (.changed c.binding binding), { c with binding }.resetSampleAt nowMs)

/-- The target scaled by the time that the sample took. -/
def raw (elapsedMs : Millis) : ShareTarget :=
  scaleTarget c.binding.target elapsedMs (BitVec.ofNat 128 c.config.sampleWindowMs)

def hardestStep : ShareTarget :=
  divideTarget c.binding.target (BitVec.ofNat 64 c.config.maximumAdjustmentFactor)

def easiestStep : ShareTarget :=
  multiplyTarget c.binding.target (BitVec.ofNat 64 c.config.maximumAdjustmentFactor)

/-- Time never runs backwards; a later one is remembered before anything else happens. -/
def atTime (nowMs : Millis) (body : VardiffController → Answer VardiffUpdate) :
    Answer VardiffUpdate :=
  if c.lastNowMs.any (nowMs < ·) then (.error .clockMovedBackwards, c)
  else body { c with lastNowMs := some nowMs }

/-- Is the sample too close to the expected time to act on? -/
def insideHysteresis (elapsedMs : Millis) : Bool :=
  (max elapsedMs.toNat c.config.sampleWindowMs - min elapsedMs.toNat c.config.sampleWindowMs) *
    basisPointsScale ≤ c.config.sampleWindowMs * c.config.hysteresisBps

/-- What an accepted share adds to the sample. -/
def sampleShare (nowMs : Millis) (c : VardiffController) : Answer VardiffUpdate :=
  match c.windowStartMs with
  | none =>
    (.ok (.sampling 0 c.config.sampleIntervals), { c with windowStartMs := some nowMs })
  | some windowStartMs =>
    if c.observedIntervals + 1 ≥ 2 ^ 32 then (.error .sampleCounterOverflow, c)
    else
      let c := { c with observedIntervals := c.observedIntervals + 1 }
      if c.observedIntervals < c.config.sampleIntervals then
        (.ok (.sampling c.observedIntervals c.config.sampleIntervals), c)
      else if nowMs < windowStartMs then (.error .clockMovedBackwards, c)
      else if c.insideHysteresis (nowMs - windowStartMs) then
        (.ok (.unchanged c.binding), c.resetSampleAt nowMs)
      else
        c.adopt (c.binding.bounds.clamp
          ((c.raw (nowMs - windowStartMs)).clamp c.hardestStep c.easiestStep)) nowMs

/-- Observes one accepted share; one of an earlier binding changes nothing. -/
def observeShare (submittedBinding : TargetBinding) (nowMs : Millis) : Answer VardiffUpdate :=
  if submittedBinding ≠ c.binding then (.ok .ignoredStaleBinding, c)
  else c.atTime nowMs (sampleShare nowMs)

/-- Has the window run past the upper hysteresis boundary? -/
def overdue (elapsedMs : Millis) : Bool :=
  c.config.sampleWindowMs < elapsedMs.toNat ∧
    c.config.sampleWindowMs * c.config.hysteresisBps <
      (elapsedMs.toNat - c.config.sampleWindowMs) * basisPointsScale

/-- What the time alone says: that a worker is too slow, never that it is too fast. -/
def sampleTime (nowMs : Millis) (c : VardiffController) : Answer VardiffUpdate :=
  match c.windowStartMs with
  | none =>
    (.ok (.sampling c.observedIntervals c.config.sampleIntervals),
      { c with windowStartMs := some nowMs })
  | some windowStartMs =>
    if nowMs < windowStartMs then (.error .clockMovedBackwards, c)
    else if c.overdue (nowMs - windowStartMs) then
      c.adopt (c.binding.bounds.clamp
        ((c.raw (nowMs - windowStartMs)).clamp c.binding.target c.easiestStep)) nowMs
    else (.ok (.sampling c.observedIntervals c.config.sampleIntervals), c)

/-- Advances the sampling clock. -/
def tick (nowMs : Millis) : Answer VardiffUpdate :=
  c.atTime nowMs (sampleTime nowMs)

end VardiffController

/-! ## §5. All that one call can do -/

inductive VardiffCall
  | observeShare (submittedBinding : TargetBinding) (nowMs : Millis)
  | tick (nowMs : Millis)
  | updateNetworkTargets (wcashNetwork zcashNetwork : ShareTarget)
deriving DecidableEq

inductive VardiffReply
  | update (update : VardiffUpdate)
  | binding (binding : TargetBinding)
deriving DecidableEq

abbrev VardiffResult := Except VardiffError VardiffReply

namespace VardiffCall

/-- The time that a call brings, if it does. -/
def time? : VardiffCall → Option Millis
  | observeShare _ nowMs | tick nowMs => some nowMs
  | updateNetworkTargets _ _ => none

/-- Is the call a share of this binding? -/
def isShareOf (binding : TargetBinding) : VardiffCall → Bool
  | observeShare submittedBinding _ => submittedBinding = binding
  | _ => false

end VardiffCall

namespace VardiffController

/-- One call. -/
def perform (c : VardiffController) : VardiffCall → VardiffResult × VardiffController
  | .observeShare submittedBinding nowMs =>
    ((c.observeShare submittedBinding nowMs).1.map .update, (c.observeShare submittedBinding nowMs).2)
  | .tick nowMs => ((c.tick nowMs).1.map .update, (c.tick nowMs).2)
  | .updateNetworkTargets wcashNetwork zcashNetwork =>
    ((c.updateNetworkTargets wcashNetwork zcashNetwork).1.map .binding,
      (c.updateNetworkTargets wcashNetwork zcashNetwork).2)

/-- A new revision with target `next`, and a sample that starts over. -/
structure Adopted (c : VardiffController) (next : ShareTarget) (nowMs : Millis)
    (c' : VardiffController) : Prop where
  config : c'.config = c.config
  bounds : c'.binding.bounds = c.binding.bounds
  target : c'.binding.target = next
  differs : next ≠ c.binding.target
  revision : c'.binding.revision = c.binding.revision + 1
  window : c'.windowStartMs = some nowMs
  observed : c'.observedIntervals = 0

variable (c : VardiffController)

/-- A target is adopted, or only the window starts anew. -/
theorem adopt_spec (next : ShareTarget) (nowMs : Millis) :
    (∃ result c', c.adopt next nowMs = (result, c') ∧ c'.config = c.config ∧
      c'.binding = c.binding ∧ (c'.windowStartMs = c.windowStartMs ∨ c'.windowStartMs = some nowMs) ∧
      c'.observedIntervals ≤ c.observedIntervals) ∨
    ∃ c', c.adopt next nowMs = (.ok (.changed c.binding c'.binding), c') ∧
      Adopted c next nowMs c' := by
  unfold adopt
  split
  · exact .inl ⟨_, _, rfl, rfl, rfl, .inr rfl, Nat.zero_le _⟩
  · rename_i hne
    cases hrevision : c.nextRevision with
    | error error => exact .inl ⟨_, _, rfl, rfl, rfl, .inl rfl, le_rfl⟩
    | ok revision =>
      obtain ⟨-, rfl⟩ := checkedAdd_eq_ok.mp hrevision
      dsimp only
      unfold TargetBinding.new
      by_cases hinside : c.binding.bounds.contains next = true
      · rw [dif_pos hinside]
        exact .inr ⟨{ c with binding := ⟨_, next, _, hinside⟩ }.resetSampleAt nowMs, rfl,
          ⟨rfl, rfl, rfl, hne, rfl, rfl, rfl⟩⟩
      · rw [dif_neg hinside]
        exact .inl ⟨_, _, rfl, rfl, rfl, .inl rfl, le_rfl⟩

/-- **One call.**  It keeps the binding, or a full sample of shares or an overdue window adopts a
    new target, or new network targets clamp the old one. -/
inductive Moved (c : VardiffController) : VardiffCall → VardiffResult → VardiffController → Prop
  | kept {call : VardiffCall} {result : VardiffResult} {c' : VardiffController}
      (config : c'.config = c.config) (binding : c'.binding = c.binding)
      (window : c'.windowStartMs = c.windowStartMs ∨ c'.windowStartMs = call.time?)
      (observed : c'.observedIntervals ≤
        c.observedIntervals + (call.isShareOf c.binding).toNat) : Moved c call result c'
  | share {nowMs startMs : Millis} {c' : VardiffController}
      (start : c.windowStartMs = some startMs) (le : startMs ≤ nowMs)
      (full : c.config.sampleIntervals ≤ c.observedIntervals + 1)
      (adopted : Adopted c (c.binding.bounds.clamp
        ((c.raw (nowMs - startMs)).clamp c.hardestStep c.easiestStep)) nowMs c') :
      Moved c (.observeShare c.binding nowMs) (.ok (.update (.changed c.binding c'.binding))) c'
  | tick {nowMs startMs : Millis} {c' : VardiffController}
      (start : c.windowStartMs = some startMs) (le : startMs ≤ nowMs)
      (late : c.overdue (nowMs - startMs) = true)
      (adopted : Adopted c (c.binding.bounds.clamp
        ((c.raw (nowMs - startMs)).clamp c.binding.target c.easiestStep)) nowMs c') :
      Moved c (.tick nowMs) (.ok (.update (.changed c.binding c'.binding))) c'
  | rebound {wcashNetwork zcashNetwork : ShareTarget} (c' : VardiffController)
      (config : c'.config = c.config)
      (revision : c'.binding.revision = c.binding.revision + 1)
      (window : c'.windowStartMs = none) (observed : c'.observedIntervals = 0) :
      Moved c (.updateNetworkTargets wcashNetwork zcashNetwork) (.ok (.binding c'.binding)) c'

/-- All that a share can do. -/
theorem moved_observeShare (submittedBinding : TargetBinding) (nowMs : Millis) :
    Moved c (.observeShare submittedBinding nowMs)
      ((c.observeShare submittedBinding nowMs).1.map .update)
      (c.observeShare submittedBinding nowMs).2 := by
  unfold observeShare
  split
  · exact .kept rfl rfl (.inl rfl) (Nat.le_add_right _ _)
  · rename_i hsame
    obtain rfl : submittedBinding = c.binding := not_not.mp hsame
    have hone : (VardiffCall.isShareOf c.binding (.observeShare c.binding nowMs)).toNat = 1 := by
      simp [VardiffCall.isShareOf]
    unfold atTime
    split
    · exact .kept rfl rfl (.inl rfl) (Nat.le_add_right _ _)
    · unfold sampleShare
      cases hstart : c.windowStartMs with
      | none => exact .kept rfl rfl (.inr rfl) (Nat.le_add_right _ _)
      | some startMs =>
        dsimp only
        split
        · exact .kept rfl rfl (.inl hstart.symm) (Nat.le_add_right _ _)
        · split
          · exact .kept rfl rfl (.inl hstart.symm) (by rw [hone])
          · rename_i hfull
            split
            · exact .kept rfl rfl (.inl hstart.symm) (by rw [hone])
            · rename_i hle
              split
              · exact .kept rfl rfl (.inr rfl) (Nat.zero_le _)
              · obtain ⟨result, c', heq, hconfig, hbinding, hwindow, hobserved⟩ |
                    ⟨c', heq, hadopted⟩ := adopt_spec
                  { c with windowStartMs := some startMs
                           observedIntervals := c.observedIntervals + 1
                           lastNowMs := some nowMs } _ nowMs
                · rw [heq]
                  exact .kept hconfig hbinding (hwindow.imp (·.trans hstart.symm) id)
                    (by rw [hone]; exact hobserved)
                · rw [heq]
                  exact .share hstart (BitVec.not_lt.mp hle) (not_lt.mp hfull)
                    ⟨hadopted.config, hadopted.bounds, hadopted.target, hadopted.differs,
                      hadopted.revision, hadopted.window, hadopted.observed⟩

/-- All that a tick can do. -/
theorem moved_tick (nowMs : Millis) :
    Moved c (.tick nowMs) ((c.tick nowMs).1.map .update) (c.tick nowMs).2 := by
  unfold tick atTime
  split
  · exact .kept rfl rfl (.inl rfl) (Nat.le_add_right _ _)
  · unfold sampleTime
    cases hstart : c.windowStartMs with
    | none => exact .kept rfl rfl (.inr rfl) (Nat.le_add_right _ _)
    | some startMs =>
      dsimp only
      split
      · exact .kept rfl rfl (.inl hstart.symm) (Nat.le_add_right _ _)
      · rename_i hle
        split
        · rename_i hlate
          obtain ⟨result, c', heq, hconfig, hbinding, hwindow, hobserved⟩ |
              ⟨c', heq, hadopted⟩ := adopt_spec
            { c with windowStartMs := some startMs, lastNowMs := some nowMs } _ nowMs
          · rw [heq]
            exact .kept hconfig hbinding (hwindow.imp (·.trans hstart.symm) id)
              (hobserved.trans (Nat.le_add_right _ _))
          · rw [heq]
            exact .tick hstart (BitVec.not_lt.mp hle) hlate
              ⟨hadopted.config, hadopted.bounds, hadopted.target, hadopted.differs,
                hadopted.revision, hadopted.window, hadopted.observed⟩
        · exact .kept rfl rfl (.inl hstart.symm) (Nat.le_add_right _ _)

/-- All that new network targets can do. -/
theorem moved_updateNetworkTargets (wcashNetwork zcashNetwork : ShareTarget) :
    Moved c (.updateNetworkTargets wcashNetwork zcashNetwork)
      ((c.updateNetworkTargets wcashNetwork zcashNetwork).1.map .binding)
      (c.updateNetworkTargets wcashNetwork zcashNetwork).2 := by
  unfold updateNetworkTargets
  cases TargetBounds.new wcashNetwork zcashNetwork c.config.operatorEasiest with
  | error error => exact .kept rfl rfl (.inl rfl) (Nat.le_add_right _ _)
  | ok bounds =>
    dsimp only
    split
    · exact .kept rfl rfl (.inl rfl) (Nat.le_add_right _ _)
    · cases hrevision : c.nextRevision with
      | error error => exact .kept rfl rfl (.inl rfl) (Nat.le_add_right _ _)
      | ok revision =>
        obtain ⟨-, rfl⟩ := checkedAdd_eq_ok.mp hrevision
        dsimp only
        rw [TargetBinding.new_clamp]
        exact Moved.rebound (c := c) { c with binding := ⟨c.binding.revision + 1,
          bounds.clamp c.binding.target, bounds, bounds.contains_clamp _⟩ }.resetSample
          rfl rfl rfl rfl

/-- **All that one call can do.** -/
theorem moved_perform (call : VardiffCall) :
    Moved c call (c.perform call).1 (c.perform call).2 := by
  cases call with
  | observeShare submittedBinding nowMs => exact moved_observeShare c submittedBinding nowMs
  | tick nowMs => exact moved_tick c nowMs
  | updateNetworkTargets wcashNetwork zcashNetwork =>
    exact moved_updateNetworkTargets c wcashNetwork zcashNetwork

end VardiffController

end WcashPool.Core
