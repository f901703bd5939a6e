/-
  WcashPool.Lib.Sequence — items that carry consecutive numbers.

  A journal numbers its items without gaps.  A reader that stands behind number
  `n` and takes the items one by one holds items numbered `n + 1`, `n + 2`, …:
  the list FOLLOWS `n`.

  Main results: `follows_append`, `follows_iff_range`, `Follows.bounds` and
  `Follows.nodup`.
-/
import Mathlib.Data.List.Range
import Mathlib.Data.List.Nodup
import Mathlib.Tactic.Common

namespace Sequence

variable {α : Type} (number : α → ℕ)

/-- The items carry the numbers after `n`, in order and without a gap. -/
def Follows : ℕ → List α → Prop
  | _, [] => True
  | n, x :: xs => number x = n + 1 ∧ Follows (n + 1) xs

variable {number} {n : ℕ} {x : α} {xs ys : List α}

theorem Follows.nil : Follows number n [] := trivial

/-- A list follows `n` piece by piece. -/
theorem follows_append :
    Follows number n (xs ++ ys) ↔
      Follows number n xs ∧ Follows number (n + xs.length) ys := by
  induction xs generalizing n with
  | nil => simp [Follows]
  | cons x xs ih =>
    have hlength : n + (x :: xs).length = n + 1 + xs.length := by
      rw [List.length_cons, Nat.add_assoc, Nat.add_comm 1]
    rw [List.cons_append, Follows, Follows, ih, hlength, and_assoc]

/-- **The numbers of the list are exactly the next ones.** -/
theorem follows_iff_range :
    Follows number n xs ↔ xs.map number = List.range' (n + 1) xs.length := by
  induction xs generalizing n with
  | nil => simp [Follows]
  | cons x xs ih =>
    rw [Follows, ih, List.map_cons, List.length_cons, List.range'_succ, List.cons.injEq]

/-- The numbers that a list takes up. -/
theorem Follows.bounds (h : Follows number n xs) (hx : x ∈ xs) :
    n < number x ∧ number x ≤ n + xs.length := by
  have hmem : number x ∈ xs.map number := List.mem_map_of_mem hx
  rw [follows_iff_range.mp h, List.mem_range'_1] at hmem
  omega

/-- No number comes twice. -/
theorem Follows.nodup (h : Follows number n xs) : (xs.map number).Nodup := by
  rw [follows_iff_range.mp h]
  exact List.nodup_range'

end Sequence
