/-
  WcashPool.Lib.Matching — greedy matching against a list of wanted keys.

  A list of keys is wanted, with repetitions.  Keys arrive one by one; each
  arrival CLAIMS the first wanted place that has the same key and is still
  unmarked, and fails when there is none.  Because places with one key are
  interchangeable, greedy is exact: the arrivals can all be served, with every
  place marked in the end, exactly when they are a permutation of what is
  wanted.

  Main results: `claim_eq_findIdx?` and `claimAll_iff_perm`.
-/
import Mathlib.Data.List.Perm.Basic
import Mathlib.Data.Option.Basic
import Mathlib.Tactic.Common

namespace Matching

variable {κ : Type}

/-! ## §1. Places -/

/-- The keys whose places are not marked. -/
def unmarked : List κ → List Bool → List κ
  | key :: keys, mark :: marks => if mark then unmarked keys marks else key :: unmarked keys marks
  | _, _ => []

theorem unmarked_map_false (keys : List κ) : unmarked keys (keys.map fun _ => false) = keys := by
  induction keys with
  | nil => rfl
  | cons key keys ih => rw [List.map_cons, unmarked, if_neg (by decide), ih]

/-- Nothing is unmarked where every place has its mark, and nowhere else. -/
theorem unmarked_eq_nil {keys : List κ} {marks : List Bool} (h : marks.length = keys.length) :
    unmarked keys marks = [] ↔ ∀ mark ∈ marks, mark = true := by
  induction keys generalizing marks with
  | nil =>
    obtain rfl := List.length_eq_zero_iff.mp h
    simp [unmarked]
  | cons key keys ih =>
    cases marks with
    | nil => simp at h
    | cons mark marks =>
      have hlength : marks.length = keys.length := by simpa using h
      cases mark <;> simp [unmarked, ih hlength]

/-! ## §2. Claims -/

variable [DecidableEq κ]

/-- The first place that has the key and is still unmarked gets its mark. -/
def claim : List κ → List Bool → κ → Option (List Bool)
  | key :: keys, mark :: marks, k =>
    if mark = false ∧ key = k then some (true :: marks) else (claim keys marks k).map (mark :: ·)
  | _, _, _ => none

/-- Arrivals, in order. -/
def claimAll (keys : List κ) (marks : List Bool) (ks : List κ) : Option (List Bool) :=
  ks.foldlM (claim keys) marks

section Claims

variable {keys : List κ} {marks marks' : List Bool} {k : κ}

/-- The search for the first index, and the mark there. -/
theorem claim_eq_findIdx? (keys : List κ) (marks : List Bool) (k : κ) :
    ((keys.zip marks).findIdx? fun p => !p.2 && p.1 == k).map (marks.set · true)
      = claim keys marks k := by
  induction keys generalizing marks with
  | nil => simp [claim]
  | cons key keys ih =>
    cases marks with
    | nil => simp [claim]
    | cons mark marks =>
      rw [List.zip_cons_cons, List.findIdx?_cons, claim, ← ih]
      by_cases hhead : mark = false ∧ key = k
      · simp [hhead]
      · have hne : (!mark && key == k) = false := by
          simpa [Bool.and_eq_false_iff, not_and] using hhead
        rw [if_neg hhead, if_neg (by simp [hne])]
        simp [Option.map_map, Function.comp_def]

theorem claim_length (h : claim keys marks k = some marks') : marks'.length = marks.length := by
  induction keys generalizing marks marks' with
  | nil => simp [claim] at h
  | cons key keys ih =>
    cases marks with
    | nil => simp [claim] at h
    | cons mark marks =>
      rw [claim] at h
      split at h
      · obtain rfl := Option.some.inj h
        simp
      · obtain ⟨rest, hrest, rfl⟩ := Option.map_eq_some_iff.mp h
        simp [ih hrest]

/-- A claim takes one occurrence of its key away from what is unmarked. -/
theorem claim_perm (h : claim keys marks k = some marks') :
    (unmarked keys marks).Perm (k :: unmarked keys marks') := by
  induction keys generalizing marks marks' with
  | nil => simp [claim] at h
  | cons key keys ih =>
    cases marks with
    | nil => simp [claim] at h
    | cons mark marks =>
      rw [claim] at h
      split at h
      · next hhead =>
        obtain ⟨rfl, rfl⟩ := hhead
        obtain rfl := Option.some.inj h
        simp [unmarked]
      · obtain ⟨rest, hrest, rfl⟩ := Option.map_eq_some_iff.mp h
        cases mark with
        | true => simpa [unmarked] using ih hrest
        | false =>
          simp only [unmarked, Bool.false_eq_true, if_false]
          exact ((ih hrest).cons key).trans (List.Perm.swap k key _)

/-- What is unmarked can be claimed. -/
theorem claim_of_mem (h : k ∈ unmarked keys marks) : ∃ marks', claim keys marks k = some marks' := by
  induction keys generalizing marks with
  | nil => simp [unmarked] at h
  | cons key keys ih =>
    cases marks with
    | nil => simp [unmarked] at h
    | cons mark marks =>
      rw [claim]
      by_cases hhead : mark = false ∧ key = k
      · exact ⟨_, if_pos hhead⟩
      · have hrest : k ∈ unmarked keys marks := by
          cases mark with
          | true => simpa [unmarked] using h
          | false =>
            simp only [unmarked, Bool.false_eq_true, if_false, List.mem_cons] at h
            exact h.resolve_left fun heq => hhead ⟨rfl, heq.symm⟩
        obtain ⟨rest, hclaim⟩ := ih hrest
        exact ⟨mark :: rest, by rw [if_neg hhead, hclaim]; rfl⟩

end Claims

section Arrivals

variable {keys ks : List κ} {marks marks' : List Bool}

theorem claimAll_cons {k : κ} : claimAll keys marks (k :: ks) = some marks' ↔
    ∃ mid, claim keys marks k = some mid ∧ claimAll keys mid ks = some marks' := by
  unfold claimAll
  rw [List.foldlM_cons]
  exact Option.bind_eq_some_iff

theorem claimAll_append {ks' : List κ} : claimAll keys marks (ks ++ ks') = some marks' ↔
    ∃ mid, claimAll keys marks ks = some mid ∧ claimAll keys mid ks' = some marks' := by
  unfold claimAll
  rw [List.foldlM_append]
  exact Option.bind_eq_some_iff

theorem claimAll_length (h : claimAll keys marks ks = some marks') :
    marks'.length = marks.length := by
  induction ks generalizing marks with
  | nil =>
    obtain rfl := Option.some.inj h
    rfl
  | cons k ks ih =>
    obtain ⟨mid, hclaim, h⟩ := claimAll_cons.mp h
    rw [ih h, claim_length hclaim]

/-- What was unmarked is what arrived and what is unmarked still. -/
theorem claimAll_perm (h : claimAll keys marks ks = some marks') :
    (unmarked keys marks).Perm (ks ++ unmarked keys marks') := by
  induction ks generalizing marks with
  | nil =>
    obtain rfl := Option.some.inj h
    exact List.Perm.refl _
  | cons k ks ih =>
    obtain ⟨mid, hclaim, h⟩ := claimAll_cons.mp h
    exact (claim_perm hclaim).trans ((ih h).cons k)

theorem claimAll_of_perm {rest : List κ} (h : (unmarked keys marks).Perm (ks ++ rest)) :
    ∃ marks', claimAll keys marks ks = some marks' := by
  induction ks generalizing marks with
  | nil => exact ⟨marks, rfl⟩
  | cons k ks ih =>
    obtain ⟨mid, hclaim⟩ := claim_of_mem (h.mem_iff.mpr List.mem_cons_self)
    have hrest : (unmarked keys mid).Perm (ks ++ rest) :=
      (((claim_perm hclaim).symm.trans h).cons_inv)
    obtain ⟨marks', hall⟩ := ih hrest
    exact ⟨marks', claimAll_cons.mpr ⟨mid, hclaim, hall⟩⟩

/-- **Greedy is exact.** -/
theorem claimAll_iff_perm (keys ks : List κ) :
    (∃ marks, claimAll keys (keys.map fun _ => false) ks = some marks ∧
      ∀ mark ∈ marks, mark = true) ↔ keys.Perm ks := by
  constructor
  · rintro ⟨marks, hall, hmarked⟩
    have hlength : marks.length = keys.length := by
      rw [claimAll_length hall, List.length_map]
    have hperm := claimAll_perm hall
    rwa [unmarked_map_false, (unmarked_eq_nil hlength).mpr hmarked, List.append_nil] at hperm
  · intro hperm
    have hstart : (unmarked keys (keys.map fun _ => false)).Perm (ks ++ []) := by
      rwa [unmarked_map_false, List.append_nil]
    obtain ⟨marks, hall⟩ := claimAll_of_perm hstart
    have hlength : marks.length = keys.length := by
      rw [claimAll_length hall, List.length_map]
    have hrest : (ks ++ []).Perm (ks ++ unmarked keys marks) :=
      hstart.symm.trans (claimAll_perm hall)
    have hnil : unmarked keys marks = [] :=
      List.nil_perm.mp ((List.perm_append_left_iff ks).mp hrest)
    exact ⟨marks, hall, (unmarked_eq_nil hlength).mp hnil⟩

end Arrivals

end Matching
