/-
  WcashPool.Lib.Tally — adding amounts up by key in an ordered map.

  A tally is the list of its `(key, amount)` entries in strictly increasing key
  order, as an ordered map iterates.  `add` finds the key's entry or makes one
  and adds to it.  What a tally IS, is the function `amountOf`: how much was
  added for each key (`amountOf_add`).  Two tallies of positive amounts with
  the same `amountOf` are the same list (`ext_amountOf`), so the order in which
  the amounts came in leaves no trace.
-/
import Mathlib.Data.List.Sort
import Mathlib.Algebra.BigOperators.Group.List.Basic
import Mathlib.Tactic.Ring

namespace Tally

variable {κ : Type} [LinearOrder κ]

/-- Add `v` to the entry of `k`, making the entry if there is none. -/
def add (k : κ) (v : ℕ) : List (κ × ℕ) → List (κ × ℕ)
  | [] => [(k, v)]
  | e :: m =>
    if k < e.1 then (k, v) :: e :: m
    else if k = e.1 then (e.1, e.2 + v) :: m
    else e :: add k v m

/-- How much the tally holds for `k`. -/
def amountOf (m : List (κ × ℕ)) (k : κ) : ℕ := ((m.filter fun e => e.1 = k).map Prod.snd).sum

/-- Entries in strictly increasing key order, none of them empty. -/
structure Ordered (m : List (κ × ℕ)) : Prop where
  keys : m.Pairwise fun e f => e.1 < f.1
  pos : ∀ e ∈ m, 0 < e.2

theorem ordered_nil : Ordered ([] : List (κ × ℕ)) := ⟨List.Pairwise.nil, by simp⟩

theorem Ordered.tail {e : κ × ℕ} {m : List (κ × ℕ)} (h : Ordered (e :: m)) : Ordered m :=
  ⟨(List.pairwise_cons.mp h.keys).2, fun f hf => h.pos f (List.mem_cons_of_mem _ hf)⟩

variable {m : List (κ × ℕ)} {e : κ × ℕ}

theorem Ordered.nodup (h : Ordered m) : m.Nodup := by
  refine h.keys.imp fun {e f} hlt heq => ?_
  rw [heq] at hlt
  exact lt_irrefl _ hlt

theorem mem_add {k : κ} {v : ℕ} (h : e ∈ add k v m) : e ∈ m ∨ (e.1 = k ∧ v ≤ e.2) := by
  induction m with
  | nil => simp_all [add]
  | cons f m ih =>
    unfold add at h
    split_ifs at h with hlt heq
    · rcases List.mem_cons.mp h with rfl | h
      · exact Or.inr ⟨rfl, le_rfl⟩
      · exact Or.inl h
    · rcases List.mem_cons.mp h with rfl | h
      · exact Or.inr ⟨heq.symm, Nat.le_add_left _ _⟩
      · exact Or.inl (List.mem_cons_of_mem _ h)
    · rcases List.mem_cons.mp h with rfl | h
      · exact Or.inl List.mem_cons_self
      · exact (ih h).imp_left (List.mem_cons_of_mem _)

theorem ordered_add {k : κ} {v : ℕ} (hv : 0 < v) (hm : Ordered m) : Ordered (add k v m) := by
  refine ⟨?_, fun e he => ?_⟩
  · induction m with
    | nil => simp [add]
    | cons f m ih =>
      obtain ⟨hf, hpair⟩ := List.pairwise_cons.mp hm.keys
      unfold add
      split_ifs with hlt heq
      · refine List.pairwise_cons.mpr ⟨fun e he => ?_, hm.keys⟩
        rcases List.mem_cons.mp he with rfl | he
        · exact hlt
        · exact hlt.trans (hf e he)
      · exact List.pairwise_cons.mpr ⟨hf, hpair⟩
      · refine List.pairwise_cons.mpr ⟨fun e he => ?_, ih hm.tail⟩
        rcases mem_add he with he | ⟨he, -⟩
        · exact hf e he
        · exact he ▸ lt_of_le_of_ne (not_lt.mp hlt) (Ne.symm heq)
  · rcases mem_add he with he | ⟨-, he⟩
    · exact hm.pos e he
    · exact hv.trans_le he

@[simp] theorem amountOf_nil (k : κ) : amountOf ([] : List (κ × ℕ)) k = 0 := rfl

theorem amountOf_cons (e : κ × ℕ) (m : List (κ × ℕ)) (k : κ) :
    amountOf (e :: m) k = (if e.1 = k then e.2 else 0) + amountOf m k := by
  unfold amountOf
  by_cases h : e.1 = k <;> simp [h]

theorem amountOf_of_not_mem {k : κ} (h : k ∉ m.map Prod.fst) : amountOf m k = 0 := by
  have hnone : m.filter (fun e => e.1 = k) = [] :=
    List.filter_eq_nil_iff.mpr fun e he => by
      simpa using fun heq : e.1 = k => h (heq ▸ List.mem_map_of_mem he)
  unfold amountOf
  rw [hnone]
  rfl

/-- A key that occurs once has its one entry. -/
theorem amountOf_le_of_nodup (hnodup : (m.map Prod.fst).Nodup) {k : κ} {bound : ℕ}
    (h : ∀ e ∈ m, e.1 = k → e.2 ≤ bound) : amountOf m k ≤ bound := by
  induction m with
  | nil => exact Nat.zero_le bound
  | cons e m ih =>
    rw [List.map_cons, List.nodup_cons] at hnodup
    have hrest := ih hnodup.2 fun e' he' => h e' (List.mem_cons_of_mem e he')
    rw [amountOf_cons]
    split
    · next heq =>
      have hzero : amountOf m k = 0 := amountOf_of_not_mem (heq ▸ hnodup.1)
      have hle := h e List.mem_cons_self heq
      omega
    · omega

/-- **What `add` does**, whatever the tally. -/
theorem amountOf_add (k : κ) (v : ℕ) (m : List (κ × ℕ)) (j : κ) :
    amountOf (add k v m) j = amountOf m j + if k = j then v else 0 := by
  induction m with
  | nil => simp [add, amountOf_cons]
  | cons e m ih =>
    unfold add
    split_ifs with hlt heq hj hj hj
    all_goals
      simp only [amountOf_cons, ih]
      split_ifs <;> simp_all <;> omega

/-- An ordered tally holds one entry per key. -/
theorem amountOf_of_mem (hm : Ordered m) (he : e ∈ m) : amountOf m e.1 = e.2 := by
  induction m with
  | nil => simp at he
  | cons f m ih =>
    have hf := (List.pairwise_cons.mp hm.keys).1
    rw [amountOf_cons]
    rcases List.mem_cons.mp he with rfl | he
    · have hzero : amountOf m e.1 = 0 := by
        refine amountOf_of_not_mem fun hmem => ?_
        obtain ⟨g, hg, heq⟩ := List.mem_map.mp hmem
        exact (hf g hg).ne' heq
      simp [hzero]
    · rw [if_neg (hf e he).ne, ih hm.tail he, Nat.zero_add]

theorem mem_iff_amountOf (hm : Ordered m) : e ∈ m ↔ 0 < e.2 ∧ amountOf m e.1 = e.2 := by
  refine ⟨fun he => ⟨hm.pos e he, amountOf_of_mem hm he⟩, fun ⟨hpos, he⟩ => ?_⟩
  -- the key has SOME entry, and that entry holds all of the key's amount
  have hne : (m.filter fun f => f.1 = e.1) ≠ [] := by
    intro hnil
    unfold amountOf at he
    rw [hnil] at he
    simp at he
    omega
  obtain ⟨f, hf⟩ := List.exists_mem_of_ne_nil _ hne
  obtain ⟨hfm, hfe⟩ := List.mem_filter.mp hf
  have hkey : f.1 = e.1 := by simpa using hfe
  have hval : f.2 = e.2 := by rw [← amountOf_of_mem hm hfm, hkey, he]
  exact (Prod.ext hkey hval : f = e) ▸ hfm

/-- **Extensionality**: a tally of positive amounts is its `amountOf`. -/
theorem ext_amountOf {m' : List (κ × ℕ)} (hm : Ordered m) (hm' : Ordered m')
    (h : ∀ k, amountOf m k = amountOf m' k) : m = m' := by
  have hperm : m.Perm m' := by
    rw [List.perm_ext_iff_of_nodup hm.nodup hm'.nodup]
    intro e
    rw [mem_iff_amountOf hm, mem_iff_amountOf hm', h]
  refine hperm.eq_of_pairwise (fun e f _ _ hef hfe => ?_) hm.keys hm'.keys
  exact absurd (hef.trans hfe) (lt_irrefl _)

end Tally
