/-
  WcashPool.Core.Target — share targets and their bounds.

  A share target is a non-zero 256-bit number; the larger the number, the easier
  the target.  A miner's target must lie between the easier of the two network
  targets, so that no winner is discarded as a weak share, and the operator's
  easiest target.  Bounds and bindings carry these facts: a binding outside its
  bounds cannot be built.
-/
import WcashPool.Lib.Fallible
import WcashPool.Lib.Limbs
import WcashPool.Protocol.Messages
import Mathlib.Order.Basic
import Mathlib.Order.Lattice

namespace WcashPool

open Fallible

/-- The bytes in reverse order: a target between its two byte orders. -/
def FixedHex.reverseBytes {n : ℕ} (h : FixedHex n) : FixedHex n :=
  Limbs.join (8 * n) (Limbs.split n h : List (BitVec 8)).reverse

/-- The bytes of a list, the first one lowest. -/
def FixedHex.ofBytes (n : ℕ) (bytes : List UInt8) : FixedHex n :=
  Limbs.join (8 * n) (bytes.map (·.toBitVec))

namespace Core

/-! ## §1. Share targets -/

/-- **A share target**, by the number that its 32 big-endian bytes are. -/
structure ShareTarget where
  number : BitVec 256
  nonzero : number ≠ 0
deriving DecidableEq

inductive ShareTargetError
  | zero
deriving DecidableEq, Repr

namespace ShareTarget

theorem toNat_injective : Function.Injective fun t : ShareTarget => t.number.toNat := by
  rintro ⟨a, ha⟩ ⟨b, hb⟩ h
  obtain rfl : a = b := BitVec.eq_of_toNat_eq h
  rfl

/-- The order of the big-endian bytes is the order of the numbers. -/
instance : LinearOrder ShareTarget := LinearOrder.lift' _ toNat_injective

theorem le_iff {a b : ShareTarget} : a ≤ b ↔ a.number.toNat ≤ b.number.toNat := Iff.rfl

theorem number_pos (t : ShareTarget) : 0 < t.number.toNat :=
  Nat.pos_of_ne_zero fun h => t.nonzero (BitVec.eq_of_toNat_eq h)

/-- The easiest target. -/
def MAX : ShareTarget := ⟨BitVec.allOnes 256, by decide⟩

def fromBeBytes (bytes : FixedHex 32) : Except ShareTargetError ShareTarget :=
  if h : bytes.reverseBytes = 0 then .error .zero else .ok ⟨bytes.reverseBytes, h⟩

def fromZip301 (target : TargetBe) : Except ShareTargetError ShareTarget := fromBeBytes target

def fromBackend (target : TargetLe) : Except ShareTargetError ShareTarget :=
  fromZip301 target.reverseBytes

def toZip301 (target : ShareTarget) : TargetBe := FixedHex.reverseBytes (n := 32) target.number

def toBackend (target : ShareTarget) : TargetLe := target.toZip301.reverseBytes

def clamp (target low high : ShareTarget) : ShareTarget :=
  if target < low then low else if high < target then high else target

variable {high low target : ShareTarget}

theorem low_le_clamp (h : low ≤ high) : low ≤ target.clamp low high := by
  unfold clamp
  split
  · exact le_rfl
  · rename_i hlow
    split
    · exact h
    · exact not_lt.mp hlow

theorem clamp_le_high (h : low ≤ high) : target.clamp low high ≤ high := by
  unfold clamp
  split
  · exact h
  · split
    · exact le_rfl
    · rename_i hhigh
      exact not_lt.mp hhigh

/-- Clamping does not pass a target that it leaves room for. -/
theorem clamp_le {bound : ShareTarget} (htarget : target ≤ bound) (hlow : low ≤ bound) :
    target.clamp low high ≤ bound := by
  unfold clamp
  split
  · exact hlow
  · split
    · rename_i hhigh
      exact hhigh.le.trans htarget
    · exact htarget

theorem le_clamp {bound : ShareTarget} (htarget : bound ≤ target) (hhigh : bound ≤ high) :
    bound ≤ target.clamp low high := by
  unfold clamp
  split
  · rename_i hlow
    exact htarget.trans hlow.le
  · split
    · exact hhigh
    · exact htarget

end ShareTarget

/-! ## §2. Bounds and bindings -/

inductive TargetPolicyError
  | operatorLimitExcludesNetworkWinner (required configured : ShareTarget)
  | outsideBounds (target hardest easiest : ShareTarget)
deriving DecidableEq

/-- **The bounds of one pair of network templates.**  A share that either network would accept
    is never too weak for the pool. -/
structure TargetBounds where
  wcashNetwork : ShareTarget
  zcashNetwork : ShareTarget
  hardestAllowed : ShareTarget
  easiestAllowed : ShareTarget
  floor : hardestAllowed = max wcashNetwork zcashNetwork
  ordered : hardestAllowed ≤ easiestAllowed
deriving DecidableEq

namespace TargetBounds

def new (wcashNetwork zcashNetwork operatorEasiest : ShareTarget) :
    Except TargetPolicyError TargetBounds :=
  if h : operatorEasiest < max wcashNetwork zcashNetwork then
    .error (.operatorLimitExcludesNetworkWinner (max wcashNetwork zcashNetwork) operatorEasiest)
  else
    .ok ⟨wcashNetwork, zcashNetwork, max wcashNetwork zcashNetwork, operatorEasiest, rfl,
      not_lt.mp h⟩

def clamp (bounds : TargetBounds) (target : ShareTarget) : ShareTarget :=
  target.clamp bounds.hardestAllowed bounds.easiestAllowed

def contains (bounds : TargetBounds) (target : ShareTarget) : Bool :=
  bounds.hardestAllowed ≤ target ∧ target ≤ bounds.easiestAllowed

theorem contains_iff {bounds : TargetBounds} {target : ShareTarget} :
    bounds.contains target = true ↔
      bounds.hardestAllowed ≤ target ∧ target ≤ bounds.easiestAllowed := decide_eq_true_iff

theorem contains_clamp (bounds : TargetBounds) (target : ShareTarget) :
    bounds.contains (bounds.clamp target) = true :=
  contains_iff.mpr ⟨ShareTarget.low_le_clamp bounds.ordered, ShareTarget.clamp_le_high bounds.ordered⟩

end TargetBounds

/-- **A target frozen into one job assignment**, inside the bounds of its templates. -/
structure TargetBinding where
  revision : ℕ
  target : ShareTarget
  bounds : TargetBounds
  inside : bounds.contains target = true
deriving DecidableEq

namespace TargetBinding

def new (revision : ℕ) (target : ShareTarget) (bounds : TargetBounds) :
    Except TargetPolicyError TargetBinding :=
  if h : bounds.contains target = true then .ok ⟨revision, target, bounds, h⟩
  else .error (.outsideBounds target bounds.hardestAllowed bounds.easiestAllowed)

theorem new_clamp (revision : ℕ) (target : ShareTarget) (bounds : TargetBounds) :
    new revision (bounds.clamp target) bounds =
      .ok ⟨revision, bounds.clamp target, bounds, bounds.contains_clamp target⟩ :=
  dif_pos (bounds.contains_clamp target)

end TargetBinding

end Core

end WcashPool
