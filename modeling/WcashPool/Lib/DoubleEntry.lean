/-
  WcashPool.Lib.DoubleEntry — journals of signed lines and their sub-ledgers.

  A line puts a signed amount at a place of the chart of accounts.  A question
  to a list of lines is a predicate on places, and its answer is the sum of the
  lines there; two lists AGREE when they answer every question alike.  Each
  transaction of a journal carries a reference, the thing in the world it is
  about, and the lines posted under one reference form its sub-ledger.

  Main results: `Agree.append_negate`, `sumWhere_flatMap_eq_sum_subledger` and
  `sumWhere_le_sumWhere`.
-/
import Mathlib.Algebra.BigOperators.Group.List.Basic
import Mathlib.Algebra.BigOperators.Ring.List
import Mathlib.Algebra.Order.BigOperators.Group.List
import Mathlib.Data.List.Dedup
import Mathlib.Tactic.Ring

namespace DoubleEntry

/-- One signed amount at one place. -/
structure Line (A : Type) where
  place : A
  amount : ℤ
deriving DecidableEq, Repr

/-! ## §1. Questions to a list of lines -/

section Lines

variable {A B : Type} (p : A → Prop) [DecidablePred p]

/-- What the lines put at the places that satisfy `p`. -/
def sumWhere (lines : List (Line A)) : ℤ :=
  (lines.map fun l => if p l.place then l.amount else 0).sum

@[simp] theorem sumWhere_nil : sumWhere p [] = 0 := rfl

@[simp] theorem sumWhere_cons (l : Line A) (lines : List (Line A)) :
    sumWhere p (l :: lines) = (if p l.place then l.amount else 0) + sumWhere p lines := rfl

/-- A credit in front. -/
theorem sumWhere_cons_neg (a : A) (v : ℤ) (lines : List (Line A)) :
    sumWhere p (⟨a, -v⟩ :: lines) = -(if p a then v else 0) + sumWhere p lines := by
  rw [sumWhere_cons]
  split <;> simp

@[simp] theorem sumWhere_append (xs ys : List (Line A)) :
    sumWhere p (xs ++ ys) = sumWhere p xs + sumWhere p ys := by
  simp [sumWhere]

/-- Lines in pairs, one of each kind per element. -/
theorem sumWhere_flatMap_pair (xs : List B) (f g : B → Line A) :
    sumWhere p (xs.flatMap fun x => [f x, g x])
      = sumWhere p (xs.map f) + sumWhere p (xs.map g) := by
  induction xs with
  | nil => rfl
  | cons x xs ih =>
    rw [List.flatMap_cons, sumWhere_append, ih, List.map_cons, List.map_cons, sumWhere_cons,
      sumWhere_cons, sumWhere_cons, sumWhere_cons, sumWhere_nil]
    ring

/-- The mirror lines of a reversal. -/
def negate (lines : List (Line A)) : List (Line A) := lines.map fun l => ⟨l.place, -l.amount⟩

@[simp] theorem sumWhere_negate (lines : List (Line A)) :
    sumWhere p (negate lines) = -sumWhere p lines := by
  induction lines with
  | nil => rfl
  | cons l lines ih =>
    show (if p l.place then -l.amount else 0) + sumWhere p (negate lines) = _
    rw [ih, sumWhere_cons]
    split <;> ring

end Lines

/-! ## §2. Agreement -/

section Agreement

variable {A : Type} {xs ys zs : List (Line A)}

/-- The two lists answer every question alike. -/
def Agree (xs ys : List (Line A)) : Prop :=
  ∀ (p : A → Prop) [DecidablePred p], sumWhere p xs = sumWhere p ys

namespace Agree

theorem rfl (xs : List (Line A)) : Agree xs xs := fun _ _ => Eq.refl _

theorem symm (h : Agree xs ys) : Agree ys xs := fun p _ => (h p).symm

theorem trans (h₁ : Agree xs ys) (h₂ : Agree ys zs) : Agree xs zs := fun p _ =>
  (h₁ p).trans (h₂ p)

/-- The order of the lines does not matter. -/
theorem of_perm (h : xs.Perm ys) : Agree xs ys := fun _ _ => (h.map _).sum_eq

theorem append_right (h : Agree xs ys) (zs : List (Line A)) : Agree (xs ++ zs) (ys ++ zs) := by
  intro p _
  rw [sumWhere_append, sumWhere_append, h p]

/-- **A reversal takes back what was posted**, and leaves what stood before. -/
theorem append_negate (h : Agree xs (ys ++ zs)) : Agree (xs ++ negate zs) ys := by
  intro p _
  rw [sumWhere_append, h p, sumWhere_append, sumWhere_negate]
  ring

end Agree

end Agreement

/-! ## §3. Journals -/

section Journal

variable {T R A : Type} (lines : T → List (Line A)) (reference : T → R) [DecidableEq R]

/-- The lines posted under one reference. -/
def subledger (r : R) (journal : List T) : List (Line A) :=
  (journal.filter fun t => reference t = r).flatMap lines

@[simp] theorem subledger_nil (r : R) : subledger lines reference r [] = [] := rfl

@[simp] theorem subledger_append (r : R) (xs ys : List T) :
    subledger lines reference r (xs ++ ys)
      = subledger lines reference r xs ++ subledger lines reference r ys := by
  simp [subledger]

theorem subledger_singleton {r : R} {t : T} (h : reference t = r) :
    subledger lines reference r [t] = lines t := by
  simp [subledger, h]

theorem subledger_of_ne {r : R} {journal : List T} (h : ∀ t ∈ journal, reference t ≠ r) :
    subledger lines reference r journal = [] := by
  have hnone : journal.filter (fun t => reference t = r) = [] :=
    List.filter_eq_nil_iff.mpr fun t ht => by simpa using h t ht
  unfold subledger
  rw [hnone]
  rfl

theorem subledger_cons (r : R) (t : T) (journal : List T) :
    subledger lines reference r (t :: journal)
      = (if reference t = r then lines t else []) ++ subledger lines reference r journal := by
  by_cases h : reference t = r
  · simp [subledger, h]
  · simp [subledger, h]

variable (p : A → Prop) [DecidablePred p]

/-- Among distinct references the one of `t` is met once. -/
theorem sum_ite_reference {refs : List R} (hnodup : refs.Nodup) (t : T) :
    (refs.map fun r => sumWhere p (if reference t = r then lines t else [])).sum
      = if reference t ∈ refs then sumWhere p (lines t) else 0 := by
  induction refs with
  | nil => rfl
  | cons r refs ih =>
    obtain ⟨hr, hnodup⟩ := List.nodup_cons.mp hnodup
    rw [List.map_cons, List.sum_cons, ih hnodup]
    by_cases heq : reference t = r
    · subst heq
      simp [hr]
    · simp [heq]

/-- **Decomposition.**  A balance is the sum of its sub-ledgers. -/
theorem sumWhere_flatMap_eq_sum_subledger {refs : List R} (hnodup : refs.Nodup)
    (journal : List T) (hcover : ∀ t ∈ journal, reference t ∈ refs) :
    sumWhere p (journal.flatMap lines)
      = (refs.map fun r => sumWhere p (subledger lines reference r journal)).sum := by
  induction journal with
  | nil => simp
  | cons t journal ih =>
    simp only [subledger_cons, sumWhere_append, List.sum_map_add]
    rw [sum_ite_reference lines reference p hnodup t, if_pos (hcover t List.mem_cons_self),
      ← ih (fun t' ht' => hcover t' (List.mem_cons_of_mem _ ht'))]
    simp

end Journal

/-! ## §4. Place by place -/

section Places

variable {A : Type} [DecidableEq A] {lines : List (Line A)} {p q : A → Prop} [DecidablePred p]
  [DecidablePred q]

/-- What stands at one place of a set. -/
theorem sumWhere_filter_place (p : A → Prop) [DecidablePred p] (a : A) (lines : List (Line A)) :
    sumWhere p (lines.filter fun l => l.place = a)
      = if p a then sumWhere (· = a) lines else 0 := by
  induction lines with
  | nil => simp
  | cons l lines ih =>
    by_cases hplace : l.place = a
    · rw [List.filter_cons_of_pos (by simpa using hplace), sumWhere_cons, sumWhere_cons, ih, hplace]
      split <;> simp
    · rw [List.filter_cons_of_neg (by simpa using hplace), ih, sumWhere_cons, if_neg hplace, zero_add]

/-- A set of places without a debit balance has none together. -/
theorem sumWhere_nonpos (h : ∀ a, p a → sumWhere (· = a) lines ≤ 0) : sumWhere p lines ≤ 0 := by
  -- the journal whose transactions are the single lines, each about its place
  have hsum := sumWhere_flatMap_eq_sum_subledger (fun l : Line A => [l]) (fun l => l.place) p
    (List.nodup_dedup (lines.map fun l => l.place)) lines
    fun l hl => List.mem_dedup.mpr (List.mem_map_of_mem hl)
  rw [List.flatMap_singleton'] at hsum
  rw [hsum]
  refine (List.sum_le_card_nsmul _ 0 fun v hv => ?_).trans (by simp)
  obtain ⟨a, -, rfl⟩ := List.mem_map.mp hv
  unfold subledger
  rw [List.flatMap_singleton', sumWhere_filter_place]
  split
  · next ha => exact h a ha
  · exact le_refl 0

/-- Leaving out places without a debit balance. -/
theorem sumWhere_le_sumWhere (hqp : ∀ a, q a → p a)
    (h : ∀ a, p a → ¬ q a → sumWhere (· = a) lines ≤ 0) : sumWhere p lines ≤ sumWhere q lines := by
  have hrest : sumWhere (fun a => p a ∧ ¬ q a) lines ≤ 0 := sumWhere_nonpos fun a ha => h a ha.1 ha.2
  have hsplit : sumWhere p lines = sumWhere q lines + sumWhere (fun a => p a ∧ ¬ q a) lines := by
    clear h hrest
    induction lines with
    | nil => rfl
    | cons l lines ih =>
      rw [sumWhere_cons, sumWhere_cons, sumWhere_cons, ih]
      by_cases hq : q l.place
      · rw [if_pos (hqp _ hq), if_pos hq, if_neg fun hboth => hboth.2 hq]
        ring
      · by_cases hp : p l.place
        · rw [if_pos hp, if_neg hq, if_pos ⟨hp, hq⟩]
          ring
        · rw [if_neg hp, if_neg hq, if_neg fun hboth => hp hboth.1]
          ring
  omega

end Places

end DoubleEntry
