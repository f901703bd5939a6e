/-
  WcashPool.Lib.LargestRemainder — splitting a whole number of units over
  weighted claimants by the largest-remainder method.

  Claimant `x` has the exact quota `units * weight x / total`.  Everyone gets
  the floor of the quota; the units still missing go, one each, to the
  claimants with the largest remainders, ties to the smaller key.  The file has
  two layers:

    * `shares` — the method itself over unbounded naturals, with what it
      guarantees whatever the claimants are;
    * `largestRemainder` — the method as a program computes it: fixed-width
      floors, a running total, a sort of the claimants' indexes and a loop that
      adds one at each of the first `leftover` of them, every step checked.

  Main results: `largestRemainder_eq_ok`, `sum_shares`, `share_floor_or_succ`,
  `share_of_dvd`, `share_mono`, `share_tie`, `share_le_weight` and
  `shares_eq_map_rankShare`.
-/
import Mathlib.Data.List.Sort
import Mathlib.Algebra.BigOperators.Group.List.Basic
import Mathlib.Algebra.Order.BigOperators.Group.List
import Mathlib.Tactic.Ring
import Mathlib.Tactic.Linarith
import WcashPool.Lib.Fallible

namespace LargestRemainder

open Fallible

variable {ε α κ : Type} [LinearOrder κ]

/-! ## §1. The method -/

/-- `x` is served no later than `y`: larger remainder first, then smaller key. -/
def ServedBefore (rem : α → ℕ) (key : α → κ) (x y : α) : Prop :=
  rem y < rem x ∨ (rem x = rem y ∧ key x ≤ key y)

instance (rem : α → ℕ) (key : α → κ) (x y : α) : Decidable (ServedBefore rem key x y) :=
  inferInstanceAs (Decidable (_ ∨ _))

/-- The remainder of the quota of `x`. -/
def remainder (units total : ℕ) (weight : α → ℕ) (x : α) : ℕ := units * weight x % total

/-- The claimants, tagged with their position, in the order in which they are served. -/
def servingOrder (rem : α → ℕ) (key : α → κ) (xs : List α) : List (α × ℕ) :=
  xs.zipIdx.insertionSort (fun p q => ServedBefore rem key p.1 q.1)

/-- The positions of the first `k` claimants served. -/
def servedFirst (rem : α → ℕ) (key : α → κ) (k : ℕ) (xs : List α) : List ℕ :=
  ((servingOrder rem key xs).map Prod.snd).take k

/-- The units that the floors leave over. -/
def leftover (units total : ℕ) (weight : α → ℕ) (xs : List α) : ℕ :=
  units - (xs.map fun x => units * weight x / total).sum

/-- **The largest-remainder split** of `units`, one share per claimant. -/
def shares (units total : ℕ) (weight : α → ℕ) (key : α → κ) (xs : List α) : List ℕ :=
  xs.zipIdx.map fun p => units * weight p.1 / total +
    if p.2 ∈ servedFirst (remainder units total weight) key (leftover units total weight xs) xs
    then 1 else 0

/-! ## §2. The serving order -/

/-- The positions do not matter to a function of the claimants. -/
theorem map_zipIdx_fst {β : Type} (f : α → β) (xs : List α) :
    (xs.zipIdx.map fun p => f p.1) = xs.map f := by
  conv_rhs => rw [← List.zipIdx_map_fst 0 xs, List.map_map]
  rfl

section Order

variable (rem : α → ℕ) (key : α → κ)

theorem servedBefore_total (x y : α) : ServedBefore rem key x y ∨ ServedBefore rem key y x := by
  rcases lt_trichotomy (rem x) (rem y) with h | h | h
  · exact Or.inr (Or.inl h)
  · rcases le_total (key x) (key y) with hk | hk
    · exact Or.inl (Or.inr ⟨h, hk⟩)
    · exact Or.inr (Or.inr ⟨h.symm, hk⟩)
  · exact Or.inl (Or.inl h)

theorem servedBefore_trans {x y z : α} (hxy : ServedBefore rem key x y)
    (hyz : ServedBefore rem key y z) : ServedBefore rem key x z := by
  unfold ServedBefore at *
  rcases hxy with h₁ | ⟨h₁, k₁⟩ <;> rcases hyz with h₂ | ⟨h₂, k₂⟩
  · exact Or.inl (by omega)
  · exact Or.inl (by omega)
  · exact Or.inl (by omega)
  · exact Or.inr ⟨by omega, k₁.trans k₂⟩

theorem servingOrder_perm (xs : List α) : (servingOrder rem key xs).Perm xs.zipIdx :=
  List.perm_insertionSort _ _

theorem servingOrder_pairwise (xs : List α) :
    (servingOrder rem key xs).Pairwise (fun p q => ServedBefore rem key p.1 q.1) := by
  have : Std.Total (fun p q : α × ℕ => ServedBefore rem key p.1 q.1) :=
    ⟨fun p q => servedBefore_total rem key p.1 q.1⟩
  have : IsTrans (α × ℕ) (fun p q => ServedBefore rem key p.1 q.1) :=
    ⟨fun _ _ _ => servedBefore_trans rem key⟩
  exact List.pairwise_insertionSort _ _

theorem servingOrder_snd_nodup (xs : List α) : ((servingOrder rem key xs).map Prod.snd).Nodup := by
  have hperm := (servingOrder_perm rem key xs).map Prod.snd
  rw [hperm.nodup_iff, List.zipIdx_map_snd]
  exact List.nodup_range' ..

/-- Positions tell the tagged claimants apart. -/
theorem mem_servedFirst_iff {k : ℕ} {xs : List α} {p : α × ℕ} (hp : p ∈ xs.zipIdx) :
    p.2 ∈ servedFirst rem key k xs ↔ p ∈ (servingOrder rem key xs).take k := by
  unfold servedFirst
  rw [← List.map_take]
  refine ⟨fun h => ?_, fun h => List.mem_map_of_mem h⟩
  obtain ⟨q, hq, hqp⟩ := List.mem_map.mp h
  have hp' := (servingOrder_perm rem key xs).mem_iff.mpr hp
  have : q = p := List.inj_on_of_nodup_map (servingOrder_snd_nodup rem key xs)
    (List.mem_of_mem_take hq) hp' hqp
  exact this ▸ hq

/-- Whoever is among the first `k` is served before whoever is not. -/
theorem served_before_unserved {k : ℕ} {xs : List α} {p q : α × ℕ} (hp : p ∈ xs.zipIdx)
    (hq : q ∈ xs.zipIdx) (hps : p.2 ∈ servedFirst rem key k xs)
    (hqs : q.2 ∉ servedFirst rem key k xs) : ServedBefore rem key p.1 q.1 := by
  rw [mem_servedFirst_iff rem key hp] at hps
  rw [mem_servedFirst_iff rem key hq] at hqs
  have hq' := (servingOrder_perm rem key xs).mem_iff.mpr hq
  have hsplit := servingOrder_pairwise rem key xs
  rw [← List.take_append_drop k (servingOrder rem key xs)] at hq' hsplit
  have hqd := (List.mem_append.mp hq').resolve_left hqs
  exact (List.pairwise_append.mp hsplit).2.2 p hps q hqd

/-- Exactly `min k n` of the `n` claimants are among the first `k`. -/
theorem sum_servedFirst (k : ℕ) (xs : List α) :
    (xs.zipIdx.map fun p => if p.2 ∈ servedFirst rem key k xs then 1 else 0).sum
      = min k xs.length := by
  have hperm := (servingOrder_perm rem key xs).symm.map
    (fun p => if p.2 ∈ servedFirst rem key k xs then 1 else 0)
  have hlen : (servingOrder rem key xs).length = xs.length := by
    rw [(servingOrder_perm rem key xs).length_eq, List.length_zipIdx]
  have hsplit := List.take_append_drop k (servingOrder rem key xs)
  have hnodup := servingOrder_snd_nodup rem key xs
  rw [← hsplit, List.map_append, List.nodup_append] at hnodup
  have htake : ((servingOrder rem key xs).take k).map
      (fun p => if p.2 ∈ servedFirst rem key k xs then 1 else 0)
      = List.replicate (min k xs.length) 1 := by
    rw [List.eq_replicate_iff]
    refine ⟨by simp [hlen], fun b hb => ?_⟩
    obtain ⟨p, hp, rfl⟩ := List.mem_map.mp hb
    have hps : p.2 ∈ servedFirst rem key k xs := by
      unfold servedFirst
      rw [← List.map_take]
      exact List.mem_map_of_mem hp
    exact if_pos hps
  have hdrop : ((servingOrder rem key xs).drop k).map
      (fun p => if p.2 ∈ servedFirst rem key k xs then 1 else 0)
      = List.replicate ((servingOrder rem key xs).drop k).length 0 := by
    rw [List.eq_replicate_iff]
    refine ⟨by simp, fun b hb => ?_⟩
    obtain ⟨p, hp, rfl⟩ := List.mem_map.mp hb
    refine if_neg fun hps => ?_
    unfold servedFirst at hps
    rw [← List.map_take] at hps
    exact hnodup.2.2 p.2 hps p.2 (List.mem_map_of_mem hp) rfl
  rw [hperm.sum_eq, ← hsplit, List.map_append, List.sum_append, htake, hdrop]
  simp

end Order

/-! ## §3. How many units the floors leave over -/

/-- The positions of the claimants that get a left-over unit. -/
abbrev roundedUp (units total : ℕ) (weight : α → ℕ) (key : α → κ) (xs : List α) : List ℕ :=
  servedFirst (remainder units total weight) key (leftover units total weight xs) xs

section Leftover

variable (units total : ℕ) (weight : α → ℕ)

theorem sum_quotas (xs : List α) :
    units * (xs.map weight).sum
      = total * (xs.map fun x => units * weight x / total).sum
        + (xs.map (remainder units total weight)).sum := by
  induction xs with
  | nil => simp
  | cons x xs ih =>
    have hx := Nat.div_add_mod (units * weight x) total
    simp only [List.map_cons, List.sum_cons, remainder, mul_add] at ih ⊢
    omega

theorem sum_remainders_le (hpos : 0 < total) (ys : List (α × ℕ)) :
    (ys.map fun p => remainder units total weight p.1).sum ≤ ys.length * (total - 1) := by
  have h := List.sum_le_card_nsmul (ys.map fun p => remainder units total weight p.1) (total - 1)
    (fun r hr => by
      obtain ⟨p, -, rfl⟩ := List.mem_map.mp hr
      exact Nat.le_sub_one_of_lt (Nat.mod_lt _ hpos))
  simpa using h

variable {total} {weight} {xs : List α} (hpos : 0 < total) (htotal : (xs.map weight).sum = total)

include hpos htotal

/-- The floors never exceed the units. -/
theorem sum_floors_le :
    (xs.map fun x => units * weight x / total).sum ≤ units := by
  have h := sum_quotas units total weight xs
  rw [htotal] at h
  refine Nat.le_of_mul_le_mul_left ?_ hpos
  rw [mul_comm total units]
  omega

/-- Each left-over unit stands for one whole `total` of remainders. -/
theorem leftover_mul_total :
    leftover units total weight xs * total = (xs.map (remainder units total weight)).sum := by
  have h := sum_quotas units total weight xs
  have hle := sum_floors_le units hpos htotal
  rw [htotal] at h
  unfold leftover
  rw [Nat.sub_mul, h, mul_comm total]
  omega

/-- There are at least as many claimants as left-over units. -/
theorem leftover_le_length :
    leftover units total weight xs ≤ xs.length := by
  have h := leftover_mul_total units hpos htotal
  have hle := sum_remainders_le units total weight hpos xs.zipIdx
  rw [map_zipIdx_fst, List.length_zipIdx, ← h] at hle
  refine Nat.le_of_mul_le_mul_right (hle.trans ?_) hpos
  exact Nat.mul_le_mul_left _ (Nat.sub_le _ _)

/-- **Only fractional quotas are rounded up.**  A claimant served with zero
    remainder would mean that everyone not served has zero remainder too, so the
    remainders of the OTHER claimants served would have to add up to
    `leftover * total` with each of them below `total`. -/
theorem remainder_ne_zero_of_served (key : α → κ) {p : α × ℕ} (hp : p ∈ xs.zipIdx)
    (hps : p.2 ∈ roundedUp units total weight key xs) :
    remainder units total weight p.1 ≠ 0 := by
  intro hzero
  set k := leftover units total weight xs with hk
  set order := servingOrder (remainder units total weight) key xs with horder
  have hpt : p ∈ order.take k := (mem_servedFirst_iff _ key hp).mp hps
  have hsum : (order.map fun q => remainder units total weight q.1).sum = k * total := by
    rw [((servingOrder_perm _ key xs).map _).sum_eq, map_zipIdx_fst, hk,
      leftover_mul_total units hpos htotal]
  have hdrop : ((order.drop k).map fun q => remainder units total weight q.1).sum = 0 := by
    refine List.sum_eq_zero fun r hr => ?_
    obtain ⟨q, hq, rfl⟩ := List.mem_map.mp hr
    have hpair := servingOrder_pairwise (remainder units total weight) key xs
    rw [← horder, ← List.take_append_drop k order] at hpair
    have hpq := (List.pairwise_append.mp hpair).2.2 p hpt q hq
    unfold ServedBefore at hpq
    omega
  obtain ⟨front, back, htake⟩ := List.append_of_mem hpt
  have hlen : front.length + back.length + 1 ≤ k := by
    have := congrArg List.length htake
    have hk' : (order.take k).length ≤ k := by simp
    simp only [List.length_append, List.length_cons] at this
    omega
  have hfront := sum_remainders_le units total weight hpos front
  have hback := sum_remainders_le units total weight hpos back
  rw [← List.take_append_drop k order, List.map_append, List.sum_append, hdrop, htake,
    List.map_append, List.sum_append, List.map_cons, List.sum_cons, hzero] at hsum
  have hlt : (front.length + back.length) * (total - 1) < k * total :=
    calc (front.length + back.length) * (total - 1)
        ≤ (front.length + back.length) * total := Nat.mul_le_mul_left _ (Nat.sub_le _ _)
      _ < k * total := Nat.mul_lt_mul_of_pos_right (by omega) hpos
  rw [add_mul] at hlt
  omega

end Leftover

/-! ## §4. What the split guarantees -/

section Guarantees

variable {units total : ℕ} {weight : α → ℕ} {key : α → κ} {xs : List α}

@[simp] theorem length_shares : (shares units total weight key xs).length = xs.length := by
  simp [shares]

/-- A claimant with its share, as a position of the split. -/
theorem mem_zip_shares {x : α} {c : ℕ} (h : (x, c) ∈ xs.zip (shares units total weight key xs)) :
    ∃ i, (x, i) ∈ xs.zipIdx ∧ c = units * weight x / total +
      if i ∈ roundedUp units total weight key xs
      then 1 else 0 := by
  unfold shares at h
  nth_rewrite 1 [← List.zipIdx_map_fst 0 xs] at h
  rw [List.zip_map'] at h
  obtain ⟨p, hp, hpx⟩ := List.mem_map.mp h
  obtain ⟨rfl, rfl⟩ := Prod.mk.inj hpx
  exact ⟨p.2, hp, rfl⟩

/-- **Ties**: claimants of one weight differ by at most one unit, and the smaller key
    never gets less. -/
theorem share_tie {x y : α} {c d : ℕ}
    (hx : (x, c) ∈ xs.zip (shares units total weight key xs))
    (hy : (y, d) ∈ xs.zip (shares units total weight key xs)) (heq : weight x = weight y)
    (hkey : key x < key y) : d ≤ c ∧ c ≤ d + 1 := by
  obtain ⟨i, hi, rfl⟩ := mem_zip_shares hx
  obtain ⟨j, hj, rfl⟩ := mem_zip_shares hy
  rw [heq]
  by_cases hj' : j ∈ roundedUp units total weight key xs
  · have hi' : i ∈ roundedUp units total weight key xs := by
      by_contra hno
      have hbefore : ServedBefore (remainder units total weight) key y x :=
        served_before_unserved _ key hj hi hj' hno
      unfold ServedBefore remainder at hbefore
      rw [heq] at hbefore
      rcases hbefore with h | ⟨-, h⟩
      · exact lt_irrefl _ h
      · exact absurd h (not_le.mpr hkey)
    simp only [hi', hj', if_true]
    omega
  · simp only [hj', if_false]
    split <;> omega

variable (hpos : 0 < total) (htotal : (xs.map weight).sum = total)

include hpos htotal

/-- **Conservation**: no unit is lost and none is created. -/
theorem sum_shares :
    (shares units total weight key xs).sum = units := by
  have hle := sum_floors_le units hpos htotal
  unfold shares
  rw [List.sum_map_add, sum_servedFirst, map_zipIdx_fst fun x => units * weight x / total,
    min_eq_left (leftover_le_length units hpos htotal)]
  unfold leftover
  omega

/-- **Quota rule**: every share is the quota rounded down, or rounded up where the
    quota is fractional. -/
theorem share_floor_or_succ {x : α} {c : ℕ}
    (h : (x, c) ∈ xs.zip (shares units total weight key xs)) :
    c = units * weight x / total ∨
      (c = units * weight x / total + 1 ∧ ¬ total ∣ units * weight x) := by
  obtain ⟨i, hi, rfl⟩ := mem_zip_shares h
  split
  · next hs =>
    refine Or.inr ⟨rfl, fun hdvd => ?_⟩
    exact remainder_ne_zero_of_served units hpos htotal key hi hs (Nat.mod_eq_zero_of_dvd hdvd)
  · exact Or.inl (by omega)

/-- An integral quota is paid exactly. -/
theorem share_of_dvd {x : α} {c : ℕ}
    (h : (x, c) ∈ xs.zip (shares units total weight key xs)) (hdvd : total ∣ units * weight x) :
    c = units * weight x / total := by
  rcases share_floor_or_succ hpos htotal h with hc | ⟨-, hc⟩
  · exact hc
  · exact absurd hdvd hc

/-- While there are no more units than weight, nobody gets more than its weight:
    a quota that is rounded up is fractional, hence strictly below the weight. -/
theorem share_le_weight (hunits : units ≤ total) {x : α} {c : ℕ}
    (h : (x, c) ∈ xs.zip (shares units total weight key xs)) : c ≤ weight x := by
  have hmul : units * weight x ≤ weight x * total := by
    rw [mul_comm (weight x)]
    exact Nat.mul_le_mul_right _ hunits
  rcases share_floor_or_succ hpos htotal h with rfl | ⟨rfl, hfrac⟩
  · exact Nat.div_le_of_le_mul (by rwa [mul_comm total])
  · refine (Nat.div_lt_iff_lt_mul hpos).mpr (lt_of_le_of_ne hmul fun heq => hfrac ?_)
    exact heq ▸ Dvd.intro_left _ rfl

/-- With as many units as weight everybody gets exactly its weight. -/
theorem shares_self :
    shares total total weight key xs = xs.map weight := by
  have hsnd : (xs.zip (shares total total weight key xs)).map Prod.snd
      = shares total total weight key xs := List.map_snd_zip (by rw [length_shares])
  have hfst : (xs.zip (shares total total weight key xs)).map (fun p => weight p.1)
      = xs.map weight := by
    rw [show (fun p : α × ℕ => weight p.1) = weight ∘ Prod.fst from rfl, ← List.map_map,
      List.map_fst_zip (by rw [length_shares])]
  rw [← hsnd, ← hfst]
  apply List.map_congr_left
  intro p hp
  rw [share_of_dvd hpos htotal hp (Dvd.intro _ rfl), Nat.mul_div_cancel_left _ hpos]

/-- What the weights exceed the shares by, altogether. -/
theorem sum_weight_sub_share (hunits : units ≤ total) :
    ((xs.zip (shares units total weight key xs)).map fun p => weight p.1 - p.2).sum
      = total - units := by
  have hsnd : ((xs.zip (shares units total weight key xs)).map Prod.snd).sum = units := by
    rw [List.map_snd_zip (by rw [length_shares]), sum_shares hpos htotal]
  have hfst : ((xs.zip (shares units total weight key xs)).map fun p => weight p.1).sum
      = total := by
    rw [show (fun p : α × ℕ => weight p.1) = weight ∘ Prod.fst from rfl, ← List.map_map,
      List.map_fst_zip (by rw [length_shares]), htotal]
  have hadd : ((xs.zip (shares units total weight key xs)).map fun p =>
      (weight p.1 - p.2) + p.2).sum = total := by
    refine Eq.trans (congrArg List.sum (List.map_congr_left ?_)) hfst
    intro p hp
    exact Nat.sub_add_cancel (share_le_weight hpos htotal hunits hp)
  rw [List.sum_map_add, hsnd] at hadd
  omega

/-- **Monotonicity**: a larger weight never gets the smaller share.  Where the floors
    agree, the larger weight has the strictly larger remainder and is served first. -/
theorem share_mono {x y : α} {c d : ℕ}
    (hx : (x, c) ∈ xs.zip (shares units total weight key xs))
    (hy : (y, d) ∈ xs.zip (shares units total weight key xs)) (hlt : weight y < weight x) :
    d ≤ c := by
  obtain ⟨i, hi, rfl⟩ := mem_zip_shares hx
  obtain ⟨j, hj, rfl⟩ := mem_zip_shares hy
  have hfloor : units * weight y / total ≤ units * weight x / total :=
    Nat.div_le_div_right (Nat.mul_le_mul_left _ hlt.le)
  by_cases hserved : j ∈ roundedUp units total weight key xs
  · by_cases hboth : i ∈ roundedUp units total weight key xs
    · simp only [hserved, hboth, if_true]
      omega
    · -- `y` is rounded up and `x` is not: then `x` must win by its floor
      have hbefore : ServedBefore (remainder units total weight) key y x :=
        served_before_unserved _ key hj hi hserved hboth
      have hfrac := remainder_ne_zero_of_served units hpos htotal key hj hserved
      have hunits : 0 < units := by
        rcases Nat.eq_zero_or_pos units with h0 | h0
        · simp [remainder, h0] at hfrac
        · exact h0
      have hmul : units * weight y < units * weight x := Nat.mul_lt_mul_of_pos_left hlt hunits
      have hdx := Nat.div_add_mod (units * weight x) total
      have hdy := Nat.div_add_mod (units * weight y) total
      have hne : units * weight y / total ≠ units * weight x / total := by
        intro heq
        rw [heq] at hdy
        unfold ServedBefore remainder at hbefore
        omega
      simp only [hserved, hboth, if_true, if_false]
      omega
  · simp only [hserved, if_false]
    omega

end Guarantees

/-! ## §5. Independence of the listing order -/

/-- The share of `x` by its RANK: how many claimants are served strictly before it.
    Nothing here depends on positions. -/
def rankShare (units total : ℕ) (weight : α → ℕ) (key : α → κ) (xs : List α) (x : α) : ℕ :=
  units * weight x / total +
    if xs.countP (fun y => ¬ ServedBefore (remainder units total weight) key x y)
      < leftover units total weight xs then 1 else 0

theorem rankShare_perm (units total : ℕ) (weight : α → ℕ) (key : α → κ) {xs ys : List α}
    (h : xs.Perm ys) : rankShare units total weight key xs = rankShare units total weight key ys := by
  have hleft : leftover units total weight xs = leftover units total weight ys := by
    unfold leftover
    rw [(h.map fun x => units * weight x / total).sum_eq]
  funext x
  unfold rankShare
  rw [h.countP_eq, hleft]

/-- In the serving order, the rank of a claimant is its position: with distinct keys
    whoever stands before it is served strictly before it. -/
theorem served_iff_rank_lt (rem : α → ℕ) (key : α → κ) (k : ℕ) {xs : List α}
    (hkeys : (xs.map key).Nodup) {p : α × ℕ} (hp : p ∈ xs.zipIdx) :
    p.2 ∈ servedFirst rem key k xs ↔ xs.countP (fun y => ¬ ServedBefore rem key p.1 y) < k := by
  have hperm := servingOrder_perm rem key xs
  have hpair := servingOrder_pairwise rem key xs
  have hnodup := servingOrder_snd_nodup rem key xs
  have hkeys' : ((servingOrder rem key xs).map fun q => key q.1).Nodup := by
    rw [(hperm.map _).nodup_iff]
    rwa [map_zipIdx_fst]
  have hcount : xs.countP (fun y => ¬ ServedBefore rem key p.1 y)
      = (servingOrder rem key xs).countP (fun q => ¬ ServedBefore rem key p.1 q.1) := by
    rw [hperm.countP_eq]
    conv_lhs => rw [← List.zipIdx_map_fst 0 xs, List.countP_map]
    rfl
  rw [mem_servedFirst_iff rem key hp, hcount]
  obtain ⟨front, back, horder⟩ := List.append_of_mem (hperm.mem_iff.mpr hp)
  rw [horder] at hpair hnodup hkeys' ⊢
  have hfront : ∀ q ∈ front, ¬ ServedBefore rem key p.1 q.1 := by
    intro q hq hpq
    have hqp : ServedBefore rem key q.1 p.1 :=
      (List.pairwise_append.mp hpair).2.2 q hq p List.mem_cons_self
    have hne : key q.1 ≠ key p.1 := by
      rw [List.map_append, List.nodup_append] at hkeys'
      exact hkeys'.2.2 _ (List.mem_map_of_mem hq) _ (by simp)
    unfold ServedBefore at hpq hqp
    refine hne (le_antisymm ?_ ?_)
    · rcases hqp with h | ⟨-, h⟩
      · omega
      · exact h
    · rcases hpq with h | ⟨-, h⟩
      · omega
      · exact h
  have hback : ∀ q ∈ p :: back, ServedBefore rem key p.1 q.1 := by
    intro q hq
    rcases List.mem_cons.mp hq with rfl | hq
    · exact Or.inr ⟨rfl, le_rfl⟩
    · exact List.rel_of_pairwise_cons (List.pairwise_append.mp hpair).2.1 hq
  have hrank : (front ++ p :: back).countP (fun q => ¬ ServedBefore rem key p.1 q.1)
      = front.length := by
    rw [List.countP_append, List.countP_eq_length.mpr (by simpa using hfront),
      List.countP_eq_zero.mpr (by simpa using hback), Nat.add_zero]
  rw [hrank]
  constructor
  · intro hmem
    by_contra hge
    rw [List.take_append_of_le_length (by omega)] at hmem
    rw [List.map_append, List.nodup_append] at hnodup
    exact hnodup.2.2 _ (List.mem_map_of_mem (List.mem_of_mem_take hmem)) p.2 (by simp) rfl
  · intro hlt
    rw [List.take_append, List.mem_append, show k - front.length = k - front.length - 1 + 1 by omega,
      List.take_succ_cons]
    exact Or.inr List.mem_cons_self

/-- **Order independence**: with distinct keys the split is a function of the claimant and
    of the COLLECTION of claimants, not of their listing. -/
theorem shares_eq_map_rankShare (units total : ℕ) (weight : α → ℕ) (key : α → κ) {xs : List α}
    (hkeys : (xs.map key).Nodup) :
    shares units total weight key xs = xs.map (rankShare units total weight key xs) := by
  conv_rhs => rw [← List.zipIdx_map_fst 0 xs, List.map_map, List.zipIdx_map_fst]
  refine List.map_congr_left fun p hp => ?_
  simp only [served_iff_rank_lt _ key _ hkeys hp, rankShare, Function.comp]

/-! ## §6. The method as a program -/

/-- One pass over the claimants: every floor as a `w`-bit integer, and their running
    total from `acc` on. -/
def floorPass (w : ℕ) (overflow : ε) (units total : ℕ) (weight : α → ℕ) :
    ℕ → List α → Except ε (List ℕ × ℕ)
  | acc, [] => .ok ([], acc)
  | acc, x :: xs => do
    let floor ← narrow w overflow (units * weight x / total)
    let acc ← checkedAdd w overflow acc floor
    let (floors, acc) ← floorPass w overflow units total weight acc xs
    pure (floor :: floors, acc)

/-- Add one at each of the given positions, in turn. -/
def addOneAt (w : ℕ) (overflow : ε) : List ℕ → List ℕ → Except ε (List ℕ)
  | amounts, [] => .ok amounts
  | amounts, i :: is => do
    let amount ← checkedAdd w overflow (amounts.getD i 0) 1
    addOneAt w overflow (amounts.set i amount) is

/-- **The checked program**: floors, leftover, and one more unit for each of the first
    `leftover` claimants in the serving order. -/
def largestRemainder (w : ℕ) (overflow rounding : ε) (units total : ℕ) (weight : α → ℕ)
    (key : α → κ) (xs : List α) : Except ε (List ℕ) := do
  let (floors, floorTotal) ← floorPass w overflow units total weight 0 xs
  let left ← checkedSub overflow units floorTotal
  rejectIf (xs.length < left) rounding
  addOneAt w overflow floors (servedFirst (remainder units total weight) key left xs)

theorem floorPass_eq_ok {w : ℕ} (overflow : ε) {units total : ℕ} {weight : α → ℕ} (xs : List α)
    (acc : ℕ) (hfit : acc + (xs.map fun x => units * weight x / total).sum < 2 ^ w) :
    floorPass w overflow units total weight acc xs
      = .ok (xs.map fun x => units * weight x / total,
          acc + (xs.map fun x => units * weight x / total).sum) := by
  induction xs generalizing acc with
  | nil => simp [floorPass]
  | cons x xs ih =>
    simp only [List.map_cons, List.sum_cons] at hfit ⊢
    unfold floorPass
    rw [narrow_of_lt _ (by omega), ok_bind, checkedAdd_of_lt _ (by omega), ok_bind,
      ih _ (by omega), ok_bind]
    simp [Nat.add_assoc]

theorem addOneAt_eq_ok {w : ℕ} (overflow : ε) (is : List ℕ) (amounts : List ℕ) (hnodup : is.Nodup)
    (hbound : ∀ i ∈ is, i < amounts.length) (hfit : ∀ i ∈ is, amounts.getD i 0 + 1 < 2 ^ w) :
    addOneAt w overflow amounts is
      = .ok (amounts.zipIdx.map fun p => p.1 + if p.2 ∈ is then 1 else 0) := by
  induction is generalizing amounts with
  | nil => simp [addOneAt]
  | cons i is ih =>
    obtain ⟨hi, hnodup⟩ := List.nodup_cons.mp hnodup
    unfold addOneAt
    rw [checkedAdd_of_lt _ (hfit i List.mem_cons_self), ok_bind, ih _ hnodup
      (fun j hj => by
        rw [List.length_set]
        exact hbound j (List.mem_cons_of_mem _ hj))
      (fun j hj => by
        have hij : i ≠ j := fun h => hi (h ▸ hj)
        rw [List.getD_eq_getElem?_getD, List.getElem?_set_ne hij, ← List.getD_eq_getElem?_getD]
        exact hfit j (List.mem_cons_of_mem _ hj))]
    -- position by position: `i` has just been raised and does not occur again
    congr 1
    refine List.ext_getElem (by simp) fun j hj _ => ?_
    have hj' : j < amounts.length := by simpa using hj
    simp only [List.getElem_map, List.getElem_zipIdx, List.getElem_set, List.mem_cons, Nat.zero_add]
    by_cases hij : i = j
    · subst hij
      simp [hi, hj']
    · have hji : j ≠ i := fun h => hij h.symm
      simp [hij, hji]

/-- **The program computes the method.**  With `total` the sum of the weights and `units`
    representable, none of its checks fires. -/
theorem largestRemainder_eq_ok {w : ℕ} (overflow rounding : ε) {units total : ℕ} {weight : α → ℕ}
    {key : α → κ} {xs : List α} (hfit : units < 2 ^ w) (hpos : 0 < total)
    (htotal : (xs.map weight).sum = total) :
    largestRemainder w overflow rounding units total weight key xs
      = .ok (shares units total weight key xs) := by
  have hle := sum_floors_le units hpos htotal
  have hlen := leftover_le_length units hpos htotal
  unfold largestRemainder
  rw [floorPass_eq_ok _ _ _ (by omega), ok_bind, Nat.zero_add]
  dsimp only
  rw [checkedSub_of_le _ hle, ok_bind, show units - (xs.map fun x => units * weight x / total).sum
    = leftover units total weight xs from rfl, rejectIf_of_not _ (not_lt.mpr hlen), ok_bind]
  have hserved : ∀ i ∈ roundedUp units total weight key xs, i < xs.length := by
    intro i hi
    have hi' := List.mem_of_mem_take hi
    rw [((servingOrder_perm _ key xs).map Prod.snd).mem_iff, List.zipIdx_map_snd] at hi'
    simpa using hi'
  rw [addOneAt_eq_ok]
  · rw [List.zipIdx_map, List.map_map]
    rfl
  · exact (List.take_sublist _ _).nodup (servingOrder_snd_nodup _ key xs)
  · simpa using hserved
  · -- a floor that is rounded up is part of a split of `units`, hence below `2 ^ w`
    intro i hi
    have hlt := hserved i hi
    have hshare : units * weight xs[i] / total + 1 ∈ shares units total weight key xs := by
      refine List.mem_map.mpr ⟨(xs[i], i), ?_, by simp only [hi, if_true]⟩
      exact List.mem_zipIdx_iff_getElem?.mpr (List.getElem?_eq_getElem hlt)
    have hsum := List.single_le_sum (fun _ _ => Nat.zero_le _) _ hshare
    rw [sum_shares hpos htotal] at hsum
    rw [List.getD_eq_getElem?_getD, List.getElem?_map, List.getElem?_eq_getElem hlt]
    simp only [Option.map_some, Option.getD_some]
    omega

end LargestRemainder
