/-
  WcashPool.Store.PayoutCap — the random cap of a payout cycle
  (`payout_cap_from_draws`, `random_payout_cap`).

  A cycle is skipped at a configured rate; otherwise a cap is drawn from the
  configured range.  Both scale a 64-bit draw by a multiplication and a shift,
  which sends almost the same number of draws to every value.

  Main results: `ncard_scaled`, `payoutCapFromDraws_eq` and `payout_cap_draw`.
-/
import Mathlib.Algebra.Order.Floor.Div
import Mathlib.Data.Set.Card
import Mathlib.GroupTheory.GroupAction.Ring
import Mathlib.Order.Interval.Finset.Nat
import WcashPool.Store.PayoutBatches

namespace WcashPool.Store

open Fallible Protocol

/-! ## §1. Scaled draws -/

section Scaled

variable {span : ℕ}

/-- Which draws fall below a bound. -/
theorem scaled_lt_iff (hspan : 0 < span) (draw bound : ℕ) :
    draw * span / 2 ^ 64 < bound ↔ draw < bound * 2 ^ 64 ⌈/⌉ span := by
  rw [Nat.div_lt_iff_lt_mul (by decide), ← not_le, ← not_le, ceilDiv_le_iff_le_mul hspan,
    mul_comm span]

theorem scaled_le (width : ℕ) (draw : UInt64) : draw.toNat * (width + 1) / 2 ^ 64 ≤ width :=
  Nat.lt_succ_iff.mp (Nat.div_lt_of_lt_mul (Nat.mul_lt_mul_of_pos_right draw.toNat_lt width.succ_pos))

/-- The length of a step between two rounded-up quotients. -/
theorem ceilDiv_add_sub (hspan : 0 < span) (a n : ℕ) :
    (a + n) ⌈/⌉ span - a ⌈/⌉ span = n / span ∨ (a + n) ⌈/⌉ span - a ⌈/⌉ span = n ⌈/⌉ span := by
  have hfloor : span * (n / span) ≤ n := Nat.mul_div_le n span
  have htotal : a + n ≤ span * ((a + n) ⌈/⌉ span) := le_smul_ceilDiv hspan
  have hlow : a ⌈/⌉ span ≤ (a + n) ⌈/⌉ span - n / span := by
    rw [ceilDiv_le_iff_le_mul hspan, Nat.mul_sub]
    omega
  have hhigh : (a + n) ⌈/⌉ span ≤ a ⌈/⌉ span + n ⌈/⌉ span := by
    rw [ceilDiv_le_iff_le_mul hspan, mul_add]
    exact Nat.add_le_add (le_smul_ceilDiv hspan) (le_smul_ceilDiv hspan)
  have hnext : n ⌈/⌉ span ≤ n / span + 1 := by
    rw [ceilDiv_le_iff_le_mul hspan]
    exact (Nat.lt_mul_div_succ n hspan).le
  have hfits : n / span ≤ (a + n) ⌈/⌉ span :=
    Nat.le_of_mul_le_mul_left (hfloor.trans ((Nat.le_add_left n a).trans htotal)) hspan
  omega

/-- **Every value is hit by the same number of draws**, but for one. -/
theorem ncard_scaled {value : ℕ} (hvalue : value < span) :
    {draw : UInt64 | draw.toNat * span / 2 ^ 64 = value}.ncard = 2 ^ 64 / span ∨
      {draw : UInt64 | draw.toNat * span / 2 ^ 64 = value}.ncard = 2 ^ 64 ⌈/⌉ span := by
  have hspan : 0 < span := Nat.zero_lt_of_lt hvalue
  have hscaled : ∀ n, n * span / 2 ^ 64 = value ↔
      value * 2 ^ 64 ⌈/⌉ span ≤ n ∧ n < (value + 1) * 2 ^ 64 ⌈/⌉ span := by
    intro n
    rw [← not_lt, ← scaled_lt_iff hspan, ← scaled_lt_iff hspan]
    omega
  have himage : UInt64.toNat '' {draw : UInt64 | draw.toNat * span / 2 ^ 64 = value}
      = Finset.Ico (value * 2 ^ 64 ⌈/⌉ span) ((value + 1) * 2 ^ 64 ⌈/⌉ span) := by
    ext n
    simp only [Set.mem_image, Set.mem_ofPred_eq, Finset.coe_Ico, Set.mem_Ico, hscaled]
    constructor
    · rintro ⟨draw, hdraw, rfl⟩
      exact hdraw
    · intro hn
      have hlast : (value + 1) * 2 ^ 64 ⌈/⌉ span ≤ 2 ^ 64 :=
        (ceilDiv_le_iff_le_mul hspan).mpr (Nat.mul_le_mul_right _ hvalue)
      have hround : (UInt64.ofNat n).toNat = n := UInt64.toNat_ofNat_of_lt (hn.2.trans_le hlast)
      exact ⟨UInt64.ofNat n, by rwa [hround], hround⟩
  rw [← Set.ncard_image_of_injective _ fun _ _ => UInt64.toNat.inj, himage, Set.ncard_coe_finset,
    Nat.card_Ico, Nat.succ_mul]
  exact ceilDiv_add_sub hspan _ _

end Scaled

/-! ## §2. The cap -/

section Cap

variable {minimumZat maximumZat skipBps : ℕ}

/-- **The cap in closed form.** -/
theorem payoutCapFromDraws_eq (hmin : 1 ≤ minimumZat) (hle : minimumZat ≤ maximumZat)
    (hmax : maximumZat < 2 ^ 64) (hskip : skipBps ≤ 10_000) (skipDraw amountDraw : UInt64) :
    payoutCapFromDraws minimumZat maximumZat skipBps skipDraw amountDraw
      = .ok (if skipDraw.toNat < skipBps * 2 ^ 64 ⌈/⌉ 10_000 then none
        else some (minimumZat + amountDraw.toNat * (maximumZat - minimumZat + 1) / 2 ^ 64)) := by
  have hoffset := scaled_le (maximumZat - minimumZat) amountDraw
  unfold payoutCapFromDraws
  simp only [← scaled_lt_iff (by decide : 0 < 10_000)]
  rw [rejectIf_of_not _ (by omega), ok_bind]
  split
  · rfl
  · rw [checkedSub_of_le _ hle, ok_bind, checkedAdd_of_lt _ (by omega), ok_bind,
      checkedAdd_of_lt _ (by omega), ok_bind]
    rfl

/-- A cap that was drawn lies in the configured range. -/
theorem randomPayoutCap_range {draws : Option (UInt64 × UInt64)} {cap : ℕ}
    (hmax : maximumZat < 2 ^ 64)
    (h : randomPayoutCap minimumZat maximumZat skipBps draws = .ok (some cap)) :
    minimumZat ≤ cap ∧ cap ≤ maximumZat := by
  unfold randomPayoutCap at h
  split at h
  · next hfixed =>
    obtain rfl := Option.some.inj (Except.ok.inj h)
    exact ⟨hfixed.2.le, le_rfl⟩
  · obtain ⟨⟨skipDraw, amountDraw⟩, -, h⟩ := bind_eq_ok.mp h
    obtain ⟨_, hvalid, -⟩ := bind_eq_ok.mp h
    rw [rejectIf_eq_ok] at hvalid
    have hoffset := scaled_le (maximumZat - minimumZat) amountDraw
    dsimp only at h
    rw [payoutCapFromDraws_eq (by omega) (by omega) hmax (by omega)] at h
    split at h
    · cases h
    · obtain rfl := Option.some.inj (Except.ok.inj h)
      omega

end Cap

/-! ## §3. What is reserved -/

/-- **The law of the payout cap.**  No configured range overflows; the smallest draws skip the
    cycle, and every cap of the range is equally likely, but for one draw.  What a new batch then
    reserves of a balance lies within the limits of the policy. -/
theorem payout_cap_draw :
    (∀ minimumZat maximumZat skipBps, 1 ≤ minimumZat → minimumZat ≤ maximumZat →
      maximumZat < 2 ^ 64 → skipBps ≤ 10_000 →
      (∀ skipDraw amountDraw, skipDraw.toNat < skipBps * 2 ^ 64 ⌈/⌉ 10_000 →
        payoutCapFromDraws minimumZat maximumZat skipBps skipDraw amountDraw = .ok none) ∧
      ∀ skipDraw, skipBps * 2 ^ 64 ⌈/⌉ 10_000 ≤ skipDraw.toNat → ∃ cap : UInt64 → ℕ,
        (∀ amountDraw, payoutCapFromDraws minimumZat maximumZat skipBps skipDraw amountDraw
          = .ok (some (cap amountDraw)) ∧
          minimumZat ≤ cap amountDraw ∧ cap amountDraw ≤ maximumZat) ∧
        (∀ low high, low ≤ high → cap low ≤ cap high) ∧
        ∀ value, minimumZat ≤ value → value ≤ maximumZat →
          {amountDraw | cap amountDraw = value}.ncard = 2 ^ 64 / (maximumZat - minimumZat + 1) ∨
          {amountDraw | cap amountDraw = value}.ncard
            = 2 ^ 64 ⌈/⌉ (maximumZat - minimumZat + 1)) ∧
    ∀ cfg db draw chain idempotencyKey reconciliationId db' batch,
      createPayoutBatch cfg db draw chain idempotencyKey reconciliationId = .ok (db', .ok batch) →
      (∀ row ∈ db.payoutBatches.rows, row.idempotencyKey ≠ idempotencyKey) →
      ∃ policy, db.chainPolicies.get chain = some policy ∧ ∀ o ∈ batch.outputs,
        policy.minimumPayoutZat ≤ o.liabilityAmountZat ∧
        o.liabilityAmountZat ≤ policy.maximumPayoutZat ∧
        (o.liabilityAmountZat : ℤ) ≤ db.payableLiability chain o.accountId := by
  refine ⟨fun minimumZat maximumZat skipBps hmin hle hmax hskip => ?_, ?_⟩
  · have hcap := payoutCapFromDraws_eq hmin hle hmax hskip
    refine ⟨fun skipDraw amountDraw hdraw => ?_, fun skipDraw hdraw => ?_⟩
    · rw [hcap, if_pos hdraw]
    · refine ⟨fun amountDraw =>
        minimumZat + amountDraw.toNat * (maximumZat - minimumZat + 1) / 2 ^ 64, ?_, ?_, ?_⟩
      · intro amountDraw
        have hoffset := scaled_le (maximumZat - minimumZat) amountDraw
        rw [hcap, if_neg (not_lt.mpr hdraw)]
        exact ⟨rfl, Nat.le_add_right _ _, by dsimp only; omega⟩
      · intro low high hlow
        exact Nat.add_le_add_left (Nat.div_le_div_right (Nat.mul_le_mul_right _ hlow)) _
      · intro value hvalue hle'
        have hset : {amountDraw : UInt64 | minimumZat
            + amountDraw.toNat * (maximumZat - minimumZat + 1) / 2 ^ 64 = value}
            = {amountDraw | amountDraw.toNat * (maximumZat - minimumZat + 1) / 2 ^ 64
              = value - minimumZat} := by
          ext amountDraw
          simp only [Set.mem_ofPred_eq]
          omega
        rw [hset]
        exact ncard_scaled (by omega)
  · intro cfg db draw chain idempotencyKey reconciliationId db' batch h hnew
    obtain ⟨destinations, policy, outputs, hderived⟩ := createPayoutBatch_new h hnew
    obtain ⟨cap, rows, hrows, hcap, houtputs⟩ := hderived.derived
    obtain ⟨hlow, hhigh⟩ := randomPayoutCap_range (by have := policy.maximum_fits; omega) hcap
    obtain ⟨root, cutoff, hreserved⟩ := reserveBatch_cases hderived.reserved
    refine ⟨policy, hderived.policy_eq, fun o ho => ?_⟩
    obtain rfl := Except.ok.inj hreserved.answered
    obtain ⟨r, hr, hnonneg, haccount, hliability⟩ := payoutOutputs_origin houtputs ho
    obtain ⟨d, heligible, hrow⟩ := payableRows_origin hrows hr
    obtain ⟨hd, -, hamount⟩ := payableRow_spec hrow
    simp only [eligible, decide_eq_true_eq] at heligible
    have hthreshold := heligible.2.2.2.2.2.2
    have hbalance : r.amountZat = db.payableLiability chain r.accountId := by
      rw [hamount, hd]
      rfl
    rw [hliability, haccount, ← hbalance]
    rw [← hamount] at hthreshold
    unfold payoutAmountForLiability
    split <;> omega

end WcashPool.Store
