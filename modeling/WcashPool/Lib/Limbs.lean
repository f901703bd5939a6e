/-
  WcashPool.Lib.Limbs — numbers as lists of machine words.

  Words are `BitVec w`, the lowest first.  The value of a list is a natural
  number; bits are read and set in the words, and one multiplication by a word
  runs through the list with a carry of double width.

  The second part is division bit by bit with a remainder register of `v` bits
  that may lose its top bit when it is shifted: the bit that falls out says that
  the divisor goes in, and the subtraction that wraps around is exact again.

  Main results: `testBit_value`, `value_setBit`, `value_mulWord` and `restore`.
-/
import Mathlib.Data.Nat.Bitwise
import Mathlib.Tactic.Common
import Mathlib.Tactic.Ring
import Mathlib.Tactic.Linarith

namespace Limbs

variable {w : ℕ}

/-! ## §1. Values and bits -/

def value : List (BitVec w) → ℕ
  | [] => 0
  | limb :: limbs => 2 ^ w * value limbs + limb.toNat

/-- The value fits the width of its words. -/
theorem value_lt (limbs : List (BitVec w)) : value limbs < 2 ^ (w * limbs.length) := by
  induction limbs with
  | nil => simp [value]
  | cons limb limbs ih =>
    have hlimb := limb.isLt
    have hpow : 2 ^ (w * (limb :: limbs).length) = 2 ^ w * 2 ^ (w * limbs.length) := by
      rw [List.length_cons, Nat.mul_succ, Nat.add_comm, Nat.pow_add]
    rw [value, hpow]
    calc 2 ^ w * value limbs + limb.toNat
        < 2 ^ w * value limbs + 2 ^ w := Nat.add_lt_add_left hlimb _
      _ = 2 ^ w * (value limbs + 1) := by ring
      _ ≤ 2 ^ w * 2 ^ (w * limbs.length) := Nat.mul_le_mul_left _ ih

variable {limbs : List (BitVec w)} {v : ℕ}

/-- Words of one length are known from their value. -/
theorem value_inj {limbs' : List (BitVec w)} (hlength : limbs.length = limbs'.length)
    (h : value limbs = value limbs') : limbs = limbs' := by
  induction limbs generalizing limbs' with
  | nil => exact (List.eq_nil_of_length_eq_zero hlength.symm).symm
  | cons limb limbs ih =>
    obtain _ | ⟨limb', limbs'⟩ := limbs'
    · cases hlength
    have hmod := congrArg (· % 2 ^ w) h
    simp only [value, Nat.mul_add_mod, BitVec.toNat_mod_cancel] at hmod
    obtain rfl := BitVec.eq_of_toNat_eq hmod
    rw [ih (Nat.succ.inj hlength)
      (Nat.eq_of_mul_eq_mul_left (Nat.two_pow_pos w) (Nat.add_right_cancel h))]

/-- The word that holds bit `k`, and the bit in it. -/
def bit (limbs : List (BitVec w)) (k : ℕ) : Bool := (limbs.getD (k / w) 0).getLsbD (k % w)

/-- A bit of the value is a bit of its words. -/
theorem testBit_value (hw : 0 < w) (limbs : List (BitVec w)) (k : ℕ) :
    (value limbs).testBit k = bit limbs k := by
  induction limbs generalizing k with
  | nil => simp [value, bit]
  | cons limb limbs ih =>
    rw [value, Nat.testBit_two_pow_mul_add _ limb.isLt]
    unfold bit
    split_ifs with hk
    · rw [Nat.div_eq_of_lt hk, Nat.mod_eq_of_lt hk]
      rfl
    · rw [ih]
      obtain ⟨j, rfl⟩ := Nat.exists_eq_add_of_le (not_lt.mp hk)
      have hdiv : (w + j) / w = j / w + 1 := by
        rw [Nat.add_comm, Nat.add_div_right j hw]
      rw [hdiv, Nat.add_mod_left, List.getD_cons_succ, Nat.add_sub_cancel_left]
      rfl

def setBit (limbs : List (BitVec w)) (k : ℕ) : List (BitVec w) :=
  limbs.modify (k / w) fun limb => limb ||| 1#w <<< (k % w)

theorem length_setBit (limbs : List (BitVec w)) (k : ℕ) :
    (setBit limbs k).length = limbs.length := List.length_modify _ _ _

/-- Setting a bit of the words sets it in the value. -/
theorem value_setBit (hw : 0 < w) {k : ℕ} (hk : k < w * limbs.length) :
    value (setBit limbs k) = value limbs ||| 2 ^ k := by
  have hword : k / w < limbs.length := Nat.div_lt_of_lt_mul hk
  apply Nat.eq_of_testBit_eq
  intro j
  rw [testBit_value hw, Nat.testBit_or, testBit_value hw, Nat.testBit_two_pow]
  unfold bit setBit
  rw [List.getD_eq_getElem?_getD, List.getD_eq_getElem?_getD, List.getElem?_modify]
  have hmod := Nat.mod_lt j hw
  by_cases hsame : k / w = j / w
  · -- the same word: the bit is the one set exactly if it is the same bit
    have hget : limbs[j / w]? = some limbs[j / w] := List.getElem?_eq_getElem (hsame ▸ hword)
    have hbit : (k = j) ↔ j % w = k % w := by
      constructor
      · rintro rfl
        rfl
      · intro h
        rw [← Nat.div_add_mod k w, ← Nat.div_add_mod j w, hsame, h]
    rw [hget]
    simp only [hsame, if_true, Option.map_eq_map, Option.map_some, Option.getD_some,
      BitVec.getLsbD_or]
    congr 1
    rw [← BitVec.twoPow_eq, BitVec.getLsbD_twoPow]
    have hlow : k % w < w := Nat.mod_lt k hw
    simp [hbit, hlow, eq_comm]
  · have hne : k ≠ j := by
      rintro rfl
      exact hsame rfl
    simp [hsame, hne]

/-- The lowest `k` words of a number. -/
def split (k : ℕ) {v : ℕ} (number : BitVec v) : List (BitVec w) :=
  (List.range k).map fun i => number.extractLsb' (w * i) w

theorem length_split (k : ℕ) (number : BitVec v) :
    (split k number : List (BitVec w)).length = k := by
  rw [split, List.length_map, List.length_range]

/-- Splitting keeps the value. -/
theorem value_split (hw : 0 < w) {k : ℕ} (hk : v ≤ w * k) (number : BitVec v) :
    value (split k number : List (BitVec w)) = number.toNat := by
  apply Nat.eq_of_testBit_eq
  intro j
  rw [testBit_value hw, BitVec.testBit_toNat, bit, split, List.getD_eq_getElem?_getD,
    List.getElem?_map]
  by_cases hj : j / w < k
  · rw [List.getElem?_range hj, Option.map_some, Option.getD_some, BitVec.getLsbD_extractLsb',
      Nat.div_add_mod, decide_eq_true (Nat.mod_lt j hw), Bool.true_and]
  · rw [List.getElem?_eq_none (by rw [List.length_range]; omega)]
    have hge : w * k ≤ j := by
      rw [mul_comm]
      exact (Nat.le_div_iff_mul_le hw).mp (not_lt.mp hj)
    rw [BitVec.getLsbD_of_ge _ _ (hk.trans hge)]
    simp

/-- The number whose words these are. -/
def join (v : ℕ) (limbs : List (BitVec w)) : BitVec v :=
  limbs.foldr (fun limb number => number <<< w ||| limb.setWidth v) 0

/-- Joining keeps the value. -/
theorem toNat_join (hv : w * limbs.length ≤ v) : (join v limbs).toNat = value limbs := by
  induction limbs with
  | nil => simp [join, value]
  | cons limb limbs ih =>
    rw [List.length_cons, Nat.mul_succ] at hv
    have hlow : 2 ^ w ≤ 2 ^ v := Nat.pow_le_pow_right (by decide) (by omega)
    have hfits : value limbs * 2 ^ w < 2 ^ v := by
      calc value limbs * 2 ^ w < 2 ^ (w * limbs.length) * 2 ^ w :=
            Nat.mul_lt_mul_of_pos_right (value_lt limbs) (Nat.two_pow_pos w)
        _ = 2 ^ (w * limbs.length + w) := (pow_add _ _ _).symm
        _ ≤ 2 ^ v := Nat.pow_le_pow_right (by decide) hv
    rw [join, List.foldr_cons, ← join, BitVec.toNat_or, BitVec.toNat_shiftLeft, ih (by omega),
      Nat.shiftLeft_eq, Nat.mod_eq_of_lt hfits, BitVec.toNat_setWidth,
      Nat.mod_eq_of_lt (limb.isLt.trans_le hlow), mul_comm, value]
    exact (Nat.two_pow_add_eq_or_of_lt limb.isLt _).symm

/-! ## §2. Multiplication by a word -/

/-- The carry and the product have room for two words. -/
def mulWord (multiplier : BitVec w) : BitVec (2 * w) → List (BitVec w) → List (BitVec w)
  | carry, [] => [carry.setWidth w]
  | carry, limb :: limbs =>
    (limb.setWidth (2 * w) * multiplier.setWidth (2 * w) + carry).setWidth w ::
      mulWord multiplier ((limb.setWidth (2 * w) * multiplier.setWidth (2 * w) + carry) >>> w) limbs

theorem length_mulWord (multiplier : BitVec w) (carry : BitVec (2 * w)) (limbs : List (BitVec w)) :
    (mulWord multiplier carry limbs).length = limbs.length + 1 := by
  induction limbs generalizing carry with
  | nil => rfl
  | cons limb limbs ih => rw [mulWord, List.length_cons, ih, List.length_cons]

/-- A product of words and a carry fit into two words. -/
theorem mul_add_lt {a m c : ℕ} (ha : a < 2 ^ w) (hm : m < 2 ^ w) (hc : c < 2 ^ w) :
    a * m + c < 2 ^ (2 * w) := by
  have hmul : a * m ≤ (2 ^ w - 1) * (2 ^ w - 1) := Nat.mul_le_mul (by omega) (by omega)
  have hpow : 2 ^ (2 * w) = 2 ^ w * 2 ^ w := by rw [two_mul, pow_add]
  generalize 2 ^ w = b at *
  nlinarith

theorem toNat_product (limb multiplier : BitVec w) {carry : BitVec (2 * w)}
    (hcarry : carry.toNat < 2 ^ w) :
    (limb.setWidth (2 * w) * multiplier.setWidth (2 * w) + carry).toNat =
      limb.toNat * multiplier.toNat + carry.toNat := by
  have hwide : 2 ^ w ≤ 2 ^ (2 * w) := Nat.pow_le_pow_right (by decide) (by omega)
  have hfits := mul_add_lt limb.isLt multiplier.isLt hcarry
  rw [BitVec.toNat_add, BitVec.toNat_mul, BitVec.toNat_setWidth, BitVec.toNat_setWidth,
    Nat.mod_eq_of_lt (limb.isLt.trans_le hwide), Nat.mod_eq_of_lt (multiplier.isLt.trans_le hwide),
    Nat.mod_eq_of_lt (lt_of_le_of_lt (Nat.le_add_right _ carry.toNat) hfits),
    Nat.mod_eq_of_lt hfits]

/-- **The product**, with what was carried in. -/
theorem value_mulWord (multiplier : BitVec w) {carry : BitVec (2 * w)}
    (hcarry : carry.toNat < 2 ^ w) (limbs : List (BitVec w)) :
    value (mulWord multiplier carry limbs) = value limbs * multiplier.toNat + carry.toNat := by
  induction limbs generalizing carry with
  | nil => simp [mulWord, value, Nat.mod_eq_of_lt hcarry]
  | cons limb limbs ih =>
    have hproduct := toNat_product limb multiplier hcarry
    have hfits := mul_add_lt limb.isLt multiplier.isLt hcarry
    rw [mulWord]
    generalize limb.setWidth (2 * w) * multiplier.setWidth (2 * w) + carry = product at hproduct ⊢
    have hnext : (product >>> w).toNat = product.toNat / 2 ^ w := by
      rw [BitVec.toNat_ushiftRight, Nat.shiftRight_eq_div_pow]
    have hbound : (product >>> w).toNat < 2 ^ w := by
      rw [hnext, Nat.div_lt_iff_lt_mul (Nat.two_pow_pos w), ← pow_add, ← two_mul, hproduct]
      exact hfits
    rw [value, value, ih hbound, hnext, BitVec.toNat_setWidth]
    have hsplit := Nat.div_add_mod product.toNat (2 ^ w)
    calc 2 ^ w * (value limbs * multiplier.toNat + product.toNat / 2 ^ w) + product.toNat % 2 ^ w
        = 2 ^ w * value limbs * multiplier.toNat +
            (2 ^ w * (product.toNat / 2 ^ w) + product.toNat % 2 ^ w) := by ring
      _ = (2 ^ w * value limbs + limb.toNat) * multiplier.toNat + carry.toNat := by
          rw [hsplit, hproduct]
          ring

/-! ## §3. Division bit by bit -/

/-- The quotient and the remainder of the bits from `n` on, from those of the bits behind. -/
theorem divide_step (N d n : ℕ) (hd : 0 < d) :
    (d ≤ 2 * (N / 2 ^ (n + 1) % d) + (N.testBit n).toNat →
      N / 2 ^ n / d = 2 * (N / 2 ^ (n + 1) / d) + 1 ∧
        N / 2 ^ n % d = 2 * (N / 2 ^ (n + 1) % d) + (N.testBit n).toNat - d) ∧
    (2 * (N / 2 ^ (n + 1) % d) + (N.testBit n).toNat < d →
      N / 2 ^ n / d = 2 * (N / 2 ^ (n + 1) / d) ∧
        N / 2 ^ n % d = 2 * (N / 2 ^ (n + 1) % d) + (N.testBit n).toNat) := by
  have hbit : N / 2 ^ n = 2 * (N / 2 ^ (n + 1)) + (N.testBit n).toNat := by
    rw [Nat.testBit_eq_decide_div_mod_eq, pow_succ, ← Nat.div_div_eq_div_mul]
    have hmod := Nat.mod_two_eq_zero_or_one (N / 2 ^ n)
    have hdiv := Nat.div_add_mod (N / 2 ^ n) 2
    obtain h | h := hmod
    · simp [h]
      omega
    · simp [h]
      omega
  have hsplit := Nat.div_add_mod (N / 2 ^ (n + 1)) d
  have hlt := Nat.mod_lt (N / 2 ^ (n + 1)) hd
  have hone : (N.testBit n).toNat ≤ 1 := Bool.toNat_le _
  rw [hbit]
  generalize N / 2 ^ (n + 1) = M at *
  generalize (N.testBit n).toNat = b at *
  have hdouble : 2 * M + b = d * (2 * (M / d)) + (2 * (M % d) + b) := by
    calc 2 * M + b = 2 * (d * (M / d) + M % d) + b := by rw [hsplit]
      _ = d * (2 * (M / d)) + (2 * (M % d) + b) := by ring
  have htwice : 2 * (M % d) + b < 2 * d := by omega
  rw [hdouble, Nat.mul_add_div hd, Nat.mul_add_mod]
  generalize 2 * (M % d) + b = rest at *
  constructor
  · intro hle
    obtain ⟨more, rfl⟩ := Nat.exists_eq_add_of_le hle
    have hmore : more < d := by omega
    rw [Nat.add_div_left _ hd, Nat.div_eq_of_lt hmore, Nat.add_mod_left, Nat.mod_eq_of_lt hmore,
      Nat.add_sub_cancel_left]
    exact ⟨rfl, rfl⟩
  · intro hless
    rw [Nat.div_eq_of_lt hless, Nat.mod_eq_of_lt hless]
    exact ⟨rfl, rfl⟩

/-- The quotient so far stands in the upper bits, with room for the bits that follow. -/
theorem set_quotient_bit {q n m : ℕ} (hn : n < m) :
    q * 2 ^ (n + 1) % 2 ^ m ||| 2 ^ n = (2 * q + 1) * 2 ^ n % 2 ^ m := by
  obtain ⟨k, rfl⟩ := Nat.exists_eq_add_of_lt hn
  have hpow : 2 ^ (n + k + 1) = 2 ^ n * (2 * 2 ^ k) := by ring
  have heven : q * 2 ^ (n + 1) % 2 ^ (n + k + 1) = 2 ^ (n + 1) * (q % 2 ^ k) := by
    rw [show 2 ^ (n + k + 1) = 2 ^ (n + 1) * 2 ^ k by ring, mul_comm q, Nat.mul_mod_mul_left]
  have hodd : (2 * q + 1) * 2 ^ n % 2 ^ (n + k + 1) = 2 ^ (n + 1) * (q % 2 ^ k) + 2 ^ n := by
    rw [hpow, mul_comm _ (2 ^ n), Nat.mul_mod_mul_left]
    have hmod : (2 * q + 1) % (2 * 2 ^ k) = 2 * (q % 2 ^ k) + 1 := by
      have hsplit := Nat.div_add_mod q (2 ^ k)
      have hlt := Nat.mod_lt q (Nat.two_pow_pos k)
      calc (2 * q + 1) % (2 * 2 ^ k)
          = (2 * 2 ^ k * (q / 2 ^ k) + (2 * (q % 2 ^ k) + 1)) % (2 * 2 ^ k) := by
            congr 1
            nlinarith
        _ = 2 * (q % 2 ^ k) + 1 := by
            rw [Nat.mul_add_mod, Nat.mod_eq_of_lt (by omega)]
    rw [hmod]
    ring
  rw [heven, hodd]
  exact (Nat.two_pow_add_eq_or_of_lt (Nat.pow_lt_pow_right (by decide) (Nat.lt_succ_self n)) _).symm

/-- **One shift of the remainder.**  The register holds one bit less than twice the divisor may
    need; the bit that is lost decides as if it were still there, and the difference fits. -/
theorem restore (hv : 0 < v) {r d b : BitVec v} (hr : r.toNat < d.toNat) (hb : b.toNat ≤ 1) :
    (r >>> (v - 1) ≠ 0 ∨ d ≤ (r <<< 1 ||| b) ↔ d.toNat ≤ 2 * r.toNat + b.toNat) ∧
    (d.toNat ≤ 2 * r.toNat + b.toNat →
      ((r <<< 1 ||| b) - d).toNat = 2 * r.toNat + b.toNat - d.toNat) ∧
    (2 * r.toNat + b.toNat < d.toNat → (r <<< 1 ||| b).toNat = 2 * r.toNat + b.toNat) := by
  obtain ⟨k, rfl⟩ : ∃ k, v = k + 1 := ⟨v - 1, by omega⟩
  have hpow : 2 ^ (k + 1) = 2 * 2 ^ k := by ring
  have hrlt := r.isLt
  have hdlt := d.isLt
  have hlost : r >>> (k + 1 - 1) ≠ 0 ↔ 2 ^ k ≤ r.toNat := by
    rw [Nat.add_sub_cancel, ne_eq, BitVec.toNat_inj.symm, BitVec.toNat_ushiftRight,
      Nat.shiftRight_eq_div_pow]
    show ¬r.toNat / 2 ^ k = 0 ↔ _
    rw [Nat.div_eq_zero_iff_lt (Nat.two_pow_pos k), not_lt]
  have hshift : (r <<< 1 ||| b).toNat = 2 * (r.toNat % 2 ^ k) + b.toNat := by
    rw [BitVec.toNat_or, BitVec.toNat_shiftLeft, Nat.shiftLeft_eq, mul_comm, hpow, pow_one,
      Nat.mul_mod_mul_left]
    exact (Nat.two_pow_add_eq_or_of_lt (i := 1) (by omega) _).symm
  have hdiff : ((r <<< 1 ||| b) - d).toNat =
      (2 * 2 ^ k - d.toNat + (2 * (r.toNat % 2 ^ k) + b.toNat)) % (2 * 2 ^ k) := by
    rw [BitVec.toNat_sub, hshift, hpow]
  rw [hlost, BitVec.le_def, hdiff, hshift]
  rw [hpow] at hrlt hdlt
  generalize 2 ^ k = h at *
  by_cases hhigh : h ≤ r.toNat
  · have hmod : r.toNat % h = r.toNat - h := by
      rw [Nat.mod_eq_sub_mod hhigh, Nat.mod_eq_of_lt (by omega)]
    rw [hmod]
    refine ⟨⟨fun _ => by omega, fun _ => .inl hhigh⟩, fun hle => ?_, fun hlt => by omega⟩
    rw [Nat.mod_eq_of_lt (by omega)]
    omega
  · have hmod : r.toNat % h = r.toNat := Nat.mod_eq_of_lt (by omega)
    rw [hmod]
    refine ⟨⟨fun hor => hor.resolve_left hhigh, .inr⟩, fun hle => ?_, fun _ => rfl⟩
    rw [Nat.mod_eq_sub_mod (by omega), Nat.mod_eq_of_lt (by omega)]
    omega

end Limbs
