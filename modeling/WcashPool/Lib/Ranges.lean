/-
  WcashPool.Lib.Ranges — ranges handed out from a counter.

  A counter that only grows gives away half-open ranges: each new range starts
  where the counter stands and moves it to the range's end.  The ranges then
  TILE the numbers below the counter: each starts where the one before it ends,
  so that any two are disjoint, and the ranges of any stretch of the history
  follow one another without a gap.

  Main results: `Tiles.concat`, `Tiles.pairwise`, `Tiles.adjacent` and
  `infix_filter_of_pairwise_le`.
-/
import Mathlib.Data.List.Infix
import Mathlib.Data.List.Range
import Mathlib.Data.List.Nodup
import Mathlib.Tactic.Common

namespace Ranges

section Tiles

variable {ρ : Type} (start stop : ρ → ℕ)

/-- The ranges lead from `lo` to `hi`, none of them empty. -/
def Tiles : ℕ → List ρ → ℕ → Prop
  | lo, [], hi => lo = hi
  | lo, r :: rs, hi => start r = lo ∧ start r < stop r ∧ Tiles (stop r) rs hi

variable {start stop} {lo mid hi : ℕ} {rs ss : List ρ} {r s : ρ}

theorem tiles_append :
    Tiles start stop lo (rs ++ ss) hi ↔
      ∃ mid, Tiles start stop lo rs mid ∧ Tiles start stop mid ss hi := by
  induction rs generalizing lo with
  | nil => simp [Tiles]
  | cons r rs ih =>
    simp only [List.cons_append, Tiles, ih]
    constructor
    · rintro ⟨hstart, hlt, mid, hfront, hback⟩
      exact ⟨mid, ⟨hstart, hlt, hfront⟩, hback⟩
    · rintro ⟨mid, ⟨hstart, hlt, hfront⟩, hback⟩
      exact ⟨hstart, hlt, mid, hfront, hback⟩

/-- **The next range** starts where the counter stands. -/
theorem Tiles.concat (h : Tiles start stop lo rs hi) (hstart : start r = hi)
    (hlt : start r < stop r) : Tiles start stop lo (rs ++ [r]) (stop r) :=
  tiles_append.mpr ⟨hi, h, hstart, hlt, rfl⟩

theorem tiles_map {σ : Type} {f : σ → ρ} {ts : List σ} :
    Tiles start stop lo (ts.map f) hi ↔ Tiles (start ∘ f) (stop ∘ f) lo ts hi := by
  induction ts generalizing lo with
  | nil => exact Iff.rfl
  | cons t ts ih => simp only [List.map_cons, Tiles, Function.comp, ih]

theorem Tiles.le (h : Tiles start stop lo rs hi) : lo ≤ hi := by
  induction rs generalizing lo with
  | nil => exact le_of_eq h
  | cons r rs ih =>
    obtain ⟨hstart, hlt, hrest⟩ := h
    have := ih hrest
    omega

/-- Every range lies between the ends. -/
theorem Tiles.bounds (h : Tiles start stop lo rs hi) (hr : r ∈ rs) :
    lo ≤ start r ∧ start r < stop r ∧ stop r ≤ hi := by
  obtain ⟨front, back, rfl⟩ := List.append_of_mem hr
  obtain ⟨mid, hfront, hstart, hlt, hback⟩ := tiles_append.mp h
  have := hfront.le
  have := hback.le
  omega

/-- **Disjointness**: an earlier range ends before a later one starts. -/
theorem Tiles.pairwise (h : Tiles start stop lo rs hi) :
    rs.Pairwise fun r s => stop r ≤ start s := by
  induction rs generalizing lo with
  | nil => exact List.Pairwise.nil
  | cons r rs ih =>
    obtain ⟨-, -, hrest⟩ := h
    exact List.Pairwise.cons (fun s hs => (hrest.bounds hs).1) (ih hrest)

/-- **No gap**: in any stretch, a range starts where the one before it ends. -/
theorem Tiles.adjacent (h : Tiles start stop lo rs hi) (hstretch : ss ++ [r, s] <:+: rs) :
    start s = stop r := by
  obtain ⟨front, back, rfl⟩ := hstretch
  rw [List.append_assoc, List.append_assoc] at h
  obtain ⟨_, -, hstretch⟩ := tiles_append.mp h
  obtain ⟨_, -, -, -, hs, -⟩ := tiles_append.mp hstretch
  exact hs

end Tiles

section Stamps

variable {α : Type} {stamp : α → ℕ}

/-- Where no stamp is smaller, the elements of one stamp come first. -/
theorem isPrefix_filter_of_le {l : List α} (h : l.Pairwise fun a b => stamp a ≤ stamp b) {g : ℕ}
    (hg : ∀ a ∈ l, g ≤ stamp a) : l.filter (fun a => stamp a = g) <+: l := by
  induction l with
  | nil => exact List.prefix_rfl
  | cons a l ih =>
    obtain ⟨ha, hl⟩ := List.pairwise_cons.mp h
    by_cases hstamp : stamp a = g
    · rw [List.filter_cons_of_pos (by simpa using hstamp)]
      exact (List.prefix_cons_inj a).mpr (ih hl fun b hb => hg b (List.mem_cons_of_mem _ hb))
    · have hnone : (a :: l).filter (fun a => stamp a = g) = [] := by
        refine List.filter_eq_nil_iff.mpr fun b hb heq => ?_
        have hfirst := hg a List.mem_cons_self
        have hafter : stamp a ≤ stamp b := by
          cases List.mem_cons.mp hb with
          | inl hsame => rw [hsame]
          | inr htail => exact ha b htail
        have hb : stamp b = g := of_decide_eq_true heq
        omega
      rw [hnone]
      exact List.nil_prefix

/-- **One stamp, one stretch**: in a list sorted by a stamp, the elements of one stamp are
    adjacent. -/
theorem infix_filter_of_pairwise_le {l : List α} (h : l.Pairwise fun a b => stamp a ≤ stamp b)
    (g : ℕ) : l.filter (fun a => stamp a = g) <:+: l := by
  induction l with
  | nil => exact List.infix_rfl
  | cons a l ih =>
    obtain ⟨ha, hl⟩ := List.pairwise_cons.mp h
    by_cases hstamp : stamp a = g
    · refine (isPrefix_filter_of_le h fun b hb => ?_).isInfix
      cases List.mem_cons.mp hb with
      | inl hsame => rw [hsame, hstamp]
      | inr htail => exact hstamp ▸ ha b htail
    · rw [List.filter_cons_of_neg (by simpa using hstamp)]
      exact (ih hl).trans (List.suffix_cons a l).isInfix

end Stamps

/-! ## The numbers of a range -/

/-- The numbers from `lo` up to, but not including, `hi`. -/
def numbers (lo hi : ℕ) : List ℕ := List.range' lo (hi - lo)

@[simp] theorem mem_numbers {lo hi n : ℕ} : n ∈ numbers lo hi ↔ lo ≤ n ∧ n < hi := by
  unfold numbers
  rw [List.mem_range'_1]
  omega

theorem nodup_numbers (lo hi : ℕ) : (numbers lo hi).Nodup := List.nodup_range'

theorem numbers_append {lo mid hi : ℕ} (h : lo ≤ mid) (h' : mid ≤ hi) :
    numbers lo mid ++ numbers mid hi = numbers lo hi := by
  unfold numbers
  have hmid : mid = lo + 1 * (mid - lo) := by omega
  have hcount : hi - lo = (mid - lo) + (hi - mid) := by omega
  rw [hcount, ← List.range'_append, ← hmid]

theorem numbers_cons {lo hi : ℕ} (h : lo < hi) : numbers lo hi = lo :: numbers (lo + 1) hi := by
  unfold numbers
  rw [show hi - lo = (hi - (lo + 1)) + 1 by omega, List.range'_succ]

end Ranges
