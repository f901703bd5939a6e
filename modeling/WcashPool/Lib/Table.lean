/-
  WcashPool.Lib.Table — tables with a primary key.

  A table is the list of its rows in insertion order together with the proof
  that no two rows have one key, so that a table with a duplicate key cannot be
  built.  `insert` answers nothing where the key is taken; `modify` rewrites the
  row of one key by a function that keeps the key.  The lemmas say what `find`
  returns after each.
-/
import Mathlib.Data.List.Nodup

/-- Rows with pairwise distinct keys. -/
structure Table {κ ρ : Type} (key : ρ → κ) where
  rows : List ρ
  nodup : (rows.map key).Nodup

namespace Table

variable {κ ρ : Type} {key : ρ → κ} {r : ρ} {rows : List ρ} {k : κ} {u : Table key}

/-- A row with a free key may be added. -/
theorem nodup_map_concat (h : (rows.map key).Nodup) (hfresh : key r ∉ rows.map key) :
    ((rows ++ [r]).map key).Nodup := by
  rw [List.map_append, List.nodup_append]
  refine ⟨h, List.nodup_singleton _, ?_⟩
  intro a ha b hb hab
  rw [List.map_singleton, List.mem_singleton] at hb
  exact hfresh (hb ▸ hab ▸ ha)

/-- The same for a key that a row need not have. -/
theorem nodup_filterMap_concat {key : ρ → Option κ} (h : (rows.filterMap key).Nodup)
    (hfresh : ¬ ∃ k ∈ key r, k ∈ rows.filterMap key) : ((rows ++ [r]).filterMap key).Nodup := by
  rw [List.filterMap_append]
  cases hkey : key r with
  | none =>
    simp only [List.filterMap_cons, hkey, List.filterMap_nil, List.append_nil]
    exact h
  | some k =>
    simp only [List.filterMap_cons, hkey, List.filterMap_nil]
    rw [List.nodup_append]
    refine ⟨h, List.nodup_singleton _, ?_⟩
    intro a ha b hb hab
    rw [List.mem_singleton] at hb
    exact hfresh ⟨k, hkey, hb ▸ hab ▸ ha⟩

/-- The rows of one key value are the one row that has it. -/
theorem filter_eq_singleton {key : ρ → Option κ} [DecidableEq κ] (h : (rows.filterMap key).Nodup)
    (hr : r ∈ rows) (hk : key r = some k) : rows.filter (fun r => key r = some k) = [r] := by
  have hother : ∀ {l : List ρ}, k ∉ l.filterMap key → l.filter (fun r => key r = some k) = [] := by
    intro l hl
    refine List.filter_eq_nil_iff.mpr fun r' hr' heq => ?_
    exact hl (List.mem_filterMap.mpr ⟨r', hr', of_decide_eq_true heq⟩)
  obtain ⟨front, back, rfl⟩ := List.append_of_mem hr
  simp only [List.filterMap_append, List.filterMap_cons, hk, List.nodup_append,
    List.nodup_cons] at h
  obtain ⟨-, ⟨hback, -⟩, hdisj⟩ := h
  have hfront : k ∉ front.filterMap key := fun hmem => hdisj k hmem k List.mem_cons_self rfl
  rw [List.filter_append, List.filter_cons_of_pos (by simp [hk]), hother hfront, hother hback]
  rfl

theorem ext_rows {t : Table key} (h : t.rows = u.rows) : t = u := by
  cases t
  cases u
  simp only at h
  subst h
  rfl

instance [DecidableEq ρ] : DecidableEq (Table key) := fun t u =>
  decidable_of_iff (t.rows = u.rows) ⟨ext_rows, fun h => congrArg Table.rows h⟩

/-- The table without rows. -/
def empty : Table key := ⟨[], List.nodup_nil⟩

@[simp] theorem rows_empty : (empty : Table key).rows = [] := rfl

variable [DecidableEq κ] {t : Table key}

/-- The row of a key. -/
def find (t : Table key) (k : κ) : Option ρ := t.rows.find? fun r => key r = k

/-- Add a row at the end; nothing if its key is taken. -/
def insert (t : Table key) (r : ρ) : Option (Table key) :=
  if h : key r ∈ t.rows.map key then none
  else some ⟨t.rows ++ [r], nodup_map_concat t.nodup h⟩

/-- Rewrite the row of key `k`. -/
def modify (t : Table key) (k : κ) (f : ρ → ρ) (hf : ∀ r, key (f r) = key r) : Table key :=
  ⟨t.rows.map fun r => if key r = k then f r else r, by
    rw [List.map_map]
    have hkeys : (key ∘ fun r => if key r = k then f r else r) = key := by
      funext r
      simp only [Function.comp]
      split
      · exact hf r
      · rfl
    rw [hkeys]
    exact t.nodup⟩

/-- Rewrite every row. -/
def mapRows (t : Table key) (f : ρ → ρ) (hf : ∀ r, key (f r) = key r) : Table key :=
  ⟨t.rows.map f, by
    rw [List.map_map, show key ∘ f = key from funext hf]
    exact t.nodup⟩

/-- Write a row: in place where its key is taken, at the end otherwise. -/
def put (t : Table key) (r : ρ) : Table key :=
  if h : key r ∈ t.rows.map key then
    ⟨t.rows.map fun r' => if key r' = key r then r else r', by
      rw [List.map_map]
      have hkeys : (key ∘ fun r' => if key r' = key r then r else r') = key := by
        funext r'
        simp only [Function.comp]
        split
        · next heq => exact heq.symm
        · rfl
      rw [hkeys]
      exact t.nodup⟩
  else ⟨t.rows ++ [r], nodup_map_concat t.nodup h⟩

/-- Delete the rows that fail a test. -/
def retain (t : Table key) (p : ρ → Bool) : Table key :=
  ⟨t.rows.filter p, (t.nodup.sublist (List.filter_sublist.map key))⟩

/-- Delete the row of key `k`. -/
def erase (t : Table key) (k : κ) : Table key := t.retain fun r => key r ≠ k

/-! ## §1. Reading a row -/

/-- What is found. -/
theorem find_eq_some : t.find k = some r ↔ r ∈ t.rows ∧ key r = k := by
  unfold find
  constructor
  · intro h
    exact ⟨List.mem_of_find?_eq_some h, by simpa using List.find?_some h⟩
  · rintro ⟨hr, hk⟩
    cases hfind : t.rows.find? (fun r => key r = k) with
    | none =>
      have := List.find?_eq_none.mp hfind r hr
      exact absurd hk (by simpa using this)
    | some r' =>
      have hr' := List.mem_of_find?_eq_some hfind
      have hk' : key r' = k := by simpa using List.find?_some hfind
      rw [List.inj_on_of_nodup_map t.nodup hr' hr (hk'.trans hk.symm)]

theorem find_eq_none : t.find k = none ↔ ∀ r ∈ t.rows, key r ≠ k := by
  unfold find
  rw [List.find?_eq_none]
  simp

theorem find_of_mem (h : r ∈ t.rows) : t.find (key r) = some r :=
  find_eq_some.mpr ⟨h, rfl⟩

theorem mem_of_find (h : t.find k = some r) : r ∈ t.rows :=
  (find_eq_some.mp h).1

theorem key_of_find (h : t.find k = some r) : key r = k :=
  (find_eq_some.mp h).2

/-! ## §2. Adding a row -/

theorem insert_eq_some (h : t.insert r = some u) :
    t.find (key r) = none ∧ u.rows = t.rows ++ [r] := by
  unfold insert at h
  split at h
  · cases h
  · next hfresh =>
    injection h with h
    subst h
    refine ⟨find_eq_none.mpr fun r' hr' heq => hfresh ?_, rfl⟩
    exact List.mem_map.mpr ⟨r', hr', heq⟩

theorem insert_of_find_none (h : t.find (key r) = none) : ∃ u, t.insert r = some u := by
  unfold insert
  split
  · next hmem =>
    obtain ⟨r', hr', heq⟩ := List.mem_map.mp hmem
    exact absurd heq (find_eq_none.mp h r' hr')
  · exact ⟨_, rfl⟩

/-- A lookup after an insertion. -/
theorem find_insert (h : t.insert r = some u) (k : κ) :
    u.find k = if key r = k then some r else t.find k := by
  obtain ⟨hfresh, hrows⟩ := insert_eq_some h
  split
  · next hk =>
    refine find_eq_some.mpr ⟨?_, hk⟩
    rw [hrows]
    simp
  · next hk =>
    unfold find
    rw [hrows, List.find?_append]
    simp [hk]

/-! ## §3. Rewriting a row -/

theorem mem_modify {f : ρ → ρ} {hf : ∀ r, key (f r) = key r} {r' : ρ}
    (h : r' ∈ (t.modify k f hf).rows) : ∃ r ∈ t.rows, r' = if key r = k then f r else r := by
  obtain ⟨r, hr, heq⟩ := List.mem_map.mp h
  exact ⟨r, hr, heq.symm⟩

/-- Where no row has the key, nothing is rewritten. -/
theorem modify_of_find_none (h : t.find k = none) (f : ρ → ρ) (hf : ∀ r, key (f r) = key r) :
    t.modify k f hf = t := by
  apply ext_rows
  refine Eq.trans (List.map_congr_left fun r hr => ?_) (List.map_id' t.rows)
  rw [if_neg (find_eq_none.mp h r hr)]

/-- A lookup after an update. -/
theorem find_modify (t : Table key) (k : κ) (f : ρ → ρ) (hf : ∀ r, key (f r) = key r) (k' : κ) :
    (t.modify k f hf).find k' = if k' = k then (t.find k).map f else t.find k' := by
  have hkey : ∀ r, key (if key r = k then f r else r) = key r := by
    intro r
    split
    · exact hf r
    · rfl
  cases hfind : t.find k' with
  | none =>
    have hnone : (t.modify k f hf).find k' = none := by
      refine find_eq_none.mpr fun r' hr' => ?_
      obtain ⟨r, hr, rfl⟩ := mem_modify hr'
      rw [hkey]
      exact find_eq_none.mp hfind r hr
    rw [hnone]
    split
    · next heq =>
      subst heq
      rw [hfind]
      rfl
    · rfl
  | some r =>
    obtain ⟨hr, hk⟩ := find_eq_some.mp hfind
    have hsome : (t.modify k f hf).find k' = some (if key r = k then f r else r) :=
      find_eq_some.mpr ⟨List.mem_map.mpr ⟨r, hr, rfl⟩, (hkey r).trans hk⟩
    rw [hsome, hk]
    split
    · next heq =>
      subst heq
      rw [hfind]
      rfl
    · rfl

/-- The rewritten row itself. -/
theorem find_modify_self (h : t.find k = some r) (f : ρ → ρ) (hf : ∀ r, key (f r) = key r) :
    (t.modify k f hf).find k = some (f r) := by
  rw [find_modify, if_pos rfl, h]
  rfl

theorem find_mapRows (t : Table key) (f : ρ → ρ) (hf : ∀ r, key (f r) = key r) (k : κ) :
    (t.mapRows f hf).find k = (t.find k).map f := by
  cases hfind : t.find k with
  | none =>
    refine find_eq_none.mpr fun r' hr' => ?_
    obtain ⟨r, hr, rfl⟩ := List.mem_map.mp hr'
    rw [hf]
    exact find_eq_none.mp hfind r hr
  | some r =>
    obtain ⟨hr, hk⟩ := find_eq_some.mp hfind
    exact find_eq_some.mpr ⟨List.mem_map.mpr ⟨r, hr, rfl⟩, (hf r).trans hk⟩

/-- A lookup after an upsert. -/
theorem find_put (t : Table key) (r : ρ) (k : κ) :
    (t.put r).find k = if key r = k then some r else t.find k := by
  unfold put
  split
  · next hmem =>
    obtain ⟨old, hold, hkey⟩ := List.mem_map.mp hmem
    split
    · next hk =>
      refine find_eq_some.mpr ⟨List.mem_map.mpr ⟨old, hold, ?_⟩, hk⟩
      rw [if_pos hkey]
    · next hk =>
      cases hfind : t.find k with
      | none =>
        refine find_eq_none.mpr fun r' hr' => ?_
        obtain ⟨r₀, hr₀, rfl⟩ := List.mem_map.mp hr'
        split
        · exact hk
        · exact find_eq_none.mp hfind r₀ hr₀
      | some r₀ =>
        obtain ⟨hr₀, hk₀⟩ := find_eq_some.mp hfind
        refine find_eq_some.mpr ⟨List.mem_map.mpr ⟨r₀, hr₀, ?_⟩, hk₀⟩
        exact if_neg fun heq => hk (heq.symm.trans hk₀)
  · next hfresh =>
    exact find_insert (show t.insert r = some ⟨t.rows ++ [r], _⟩ from dif_neg hfresh) k

/-- Rows with distinct keys, written one after another. -/
theorem find_foldl_put (t : Table key) (h : (rows.map key).Nodup) (k : κ) :
    (rows.foldl put t).find k = (rows.find? fun r => key r = k).or (t.find k) := by
  induction rows generalizing t with
  | nil => simp
  | cons r rows ih =>
    rw [List.map_cons, List.nodup_cons] at h
    rw [List.foldl_cons, ih _ h.2, find_put, List.find?_cons]
    by_cases hk : key r = k
    · -- no later row has the key of `r`
      have hnone : rows.find? (fun r => key r = k) = none := by
        rw [List.find?_eq_none]
        intro r' hr' heq
        exact h.1 (List.mem_map.mpr ⟨r', hr', (of_decide_eq_true heq).trans hk.symm⟩)
      simp [hk, hnone]
    · simp [hk]

/-- A row with a new key makes the table longer by one. -/
theorem rows_put_of_fresh (h : key r ∉ t.rows.map key) : (t.put r).rows = t.rows ++ [r] := by
  rw [put, dif_neg h]

/-- Without the first row, the others remain. -/
theorem rows_erase_head (h : t.rows = r :: rows) : (t.erase (key r)).rows = rows := by
  have hnodup := t.nodup
  rw [h, List.map_cons, List.nodup_cons] at hnodup
  show t.rows.filter (fun r' => key r' ≠ key r) = rows
  rw [h, List.filter_cons_of_neg (by simp), List.filter_eq_self]
  intro r' hr'
  refine decide_eq_true fun heq => hnodup.1 ?_
  rw [← heq]
  exact List.mem_map_of_mem hr'

theorem length_put_of_find_none (h : t.find (key r) = none) :
    (t.put r).rows.length = t.rows.length + 1 := by
  unfold put
  split
  · next hmem =>
    obtain ⟨old, hold, hkey⟩ := List.mem_map.mp hmem
    exact absurd hkey (find_eq_none.mp h old hold)
  · simp

end Table
