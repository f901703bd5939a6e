/-
  WcashPool.Store.PplnsWindow — the window that a first plan is computed on.

  `firstAllocationPlan` reads at most `maxPplnsShares` share rows and the loop
  of `allocatePplns` stops as soon as the window is spent.  This file shows that
  neither cut can be seen in the plan: a truncation that matters is answered by
  `pplnsWindowTooLarge`, and every other one leaves out only shares that are
  behind the window.

  Main results: `allocatePplns_congr`, `windowWork_sharesUpTo` and
  `winnerAllocationPlan_exact`.
-/
import WcashPool.Store.Winners

namespace WcashPool.Accounting

open Fallible

/-! ## §1. The window over a list of shares -/

/-- The checks of the loop pass on every share of the list. -/
structure ValidShares (shares : List WeightedShare) : Prop where
  accounts : ∀ s ∈ shares, ¬ s.accountId.isNil
  ids : ∀ s ∈ shares, ¬ s.shareId.isZero
  works : ∀ s ∈ shares, s.work ≠ 0
  nodup : (shares.map (·.shareId)).Nodup

variable {shares : List WeightedShare} {window : ℕ}

theorem ValidShares.perm {shares' : List WeightedShare} (h : ValidShares shares)
    (hperm : shares'.Perm shares) : ValidShares shares' :=
  { accounts := fun s hs => h.accounts s (hperm.mem_iff.mp hs)
    ids := fun s hs => h.ids s (hperm.mem_iff.mp hs)
    works := fun s hs => h.works s (hperm.mem_iff.mp hs)
    nodup := (hperm.map (·.shareId)).nodup_iff.mpr h.nodup }

/-- On valid shares that were not seen before the loop succeeds. -/
theorem selectWindow_of_valid (remaining : ℕ) {seen : List Hex32} (byAccount : List (Uuid × ℕ))
    (h : ValidShares shares) (hseen : ∀ s ∈ shares, s.shareId ∉ seen) :
    ∃ selected, selectWindow remaining seen byAccount shares = .ok selected := by
  induction shares generalizing remaining seen byAccount with
  | nil => exact ⟨byAccount, rfl⟩
  | cons share older ih =>
    unfold selectWindow
    rw [rejectIf_of_not _ (h.accounts share List.mem_cons_self), ok_bind,
      rejectIf_of_not _ (h.ids share List.mem_cons_self), ok_bind,
      rejectIf_of_not _ (hseen share List.mem_cons_self), ok_bind,
      rejectIf_of_not _ (h.works share List.mem_cons_self), ok_bind]
    split
    · exact ⟨byAccount, rfl⟩
    · obtain ⟨hfresh, hnodup⟩ := List.nodup_cons.mp h.nodup
      have holder : ValidShares older :=
        { accounts := fun s hs => h.accounts s (List.mem_cons_of_mem _ hs)
          ids := fun s hs => h.ids s (List.mem_cons_of_mem _ hs)
          works := fun s hs => h.works s (List.mem_cons_of_mem _ hs)
          nodup := hnodup }
      apply ih _ _ holder
      intro s hs hmem
      -- an older share repeats neither the share just read nor an earlier one
      cases List.mem_cons.mp hmem with
      | inl heq => exact hfresh (List.mem_map.mpr ⟨s, hs, heq⟩)
      | inr hin => exact hseen s (List.mem_cons_of_mem _ hs) hin

/-- **The plan depends on the shares only through the window.** -/
theorem allocatePplns_congr {shares' : List WeightedShare} {rewardZat feeBps : ℕ}
    {plan : AllocationPlan} (h : allocatePplns shares window rewardZat feeBps = .ok plan)
    (hvalid : ValidShares shares')
    (hwork : ∀ a, windowWork window shares' a = windowWork window shares a) :
    allocatePplns shares' window rewardZat feeBps = .ok plan := by
  obtain ⟨hwindow, hpos, hmax, hfee, byAccount, hsel, hne, hordered, rfl⟩ := allocatePplns_spec h
  obtain ⟨byAccount', hsel'⟩ := selectWindow_of_valid window [] hvalid
    (fun _ _ => List.not_mem_nil)
  have hordered' := selectWindow_ordered Tally.ordered_nil hsel'
  have heq : byAccount' = byAccount := by
    refine Tally.ext_amountOf hordered' hordered fun a => ?_
    rw [amountOf_selectWindow hsel' a, amountOf_selectWindow hsel a, hwork a]
  exact allocatePplns_of_window hwindow hpos hmax hfee (heq ▸ hsel') hne

/-- Shares behind a spent window do not count. -/
theorem windowWork_append_of_le {newer : List WeightedShare} (h : window ≤ (newer.map (·.work)).sum)
    (older : List WeightedShare) (a : Uuid) :
    windowWork window (newer ++ older) a = windowWork window newer a := by
  induction newer generalizing window with
  | nil =>
    have hzero : window = 0 := by simpa using h
    subst hzero
    rw [windowWork_zero, windowWork_zero]
  | cons s newer ih =>
    rw [List.map_cons, List.sum_cons] at h
    rw [List.cons_append, windowWork_cons, windowWork_cons, ih (by omega)]

/-- A window that covers all the work counts every share in full. -/
theorem windowWork_of_le (h : (shares.map (·.work)).sum ≤ window) (a : Uuid) :
    windowWork window shares a = (shares.map fun s => if s.accountId = a then s.work else 0).sum := by
  induction shares generalizing window with
  | nil => rfl
  | cons s shares ih =>
    rw [List.map_cons, List.sum_cons] at h
    rw [windowWork_cons, ih (by omega), List.map_cons, List.sum_cons, Nat.min_eq_left (by omega)]

end WcashPool.Accounting

namespace WcashPool.Store

open Fallible Accounting

/-! ## §2. The window over the share rows -/

/-- The work of `account` inside the window that ends at `shareEventSeq`: each of its share rows
    counts with its work, cut to what the rows of later events leave of the window. -/
def windowShareWork (rows : List ShareRow) (window shareEventSeq : ℕ) (account : Uuid) : ℕ :=
  ((rows.filter fun s => s.eventSeq ≤ shareEventSeq ∧ s.accountId = account).map fun s =>
    min s.work (window - ((rows.filter fun r =>
      s.eventSeq < r.eventSeq ∧ r.eventSeq ≤ shareEventSeq).map (·.work)).sum)).sum

variable {rows : List ShareRow} {db : Database}

/-- The closed form over a strictly descending list of rows. -/
theorem windowWork_of_descending (h : rows.Pairwise fun a b => b.eventSeq < a.eventSeq) (window : ℕ)
    (account : Uuid) :
    windowWork window (rows.map (·.weighted)) account
      = (rows.map fun s => if s.accountId = account
          then min s.work (window - ((rows.filter fun r => s.eventSeq < r.eventSeq).map (·.work)).sum)
          else 0).sum := by
  induction rows generalizing window with
  | nil => rfl
  | cons x older ih =>
    obtain ⟨hx, holder⟩ := List.pairwise_cons.mp h
    rw [List.map_cons, windowWork_cons, ih holder, List.map_cons, List.sum_cons]
    congr 1
    · -- no row is newer than the first
      have hnone : (x :: older).filter (fun r => x.eventSeq < r.eventSeq) = [] := by
        refine List.filter_eq_nil_iff.mpr fun r hr => ?_
        cases List.mem_cons.mp hr with
        | inl heq => simp [heq]
        | inr hmem => simpa using (hx r hmem).le
      rw [hnone]
      simp
    · -- an older row has the first one before it
      congr 1
      apply List.map_congr_left
      intro s hs
      rw [List.filter_cons_of_pos (by simpa using hx s hs), List.map_cons, List.sum_cons,
        Nat.sub_sub]

theorem sum_map_filter {α : Type} (p : α → Prop) [DecidablePred p] (f : α → ℕ) (xs : List α) :
    ((xs.filter fun x => p x).map f).sum = (xs.map fun x => if p x then f x else 0).sum := by
  induction xs with
  | nil => rfl
  | cons x xs ih =>
    by_cases h : p x
    · simp [h, ih]
    · simp [h, ih]

theorem sharesUpTo_perm (db : Database) (seq : ℕ) :
    (sharesUpTo db seq).Perm (db.shares.rows.filter fun s => s.eventSeq ≤ seq) :=
  List.perm_insertionSort _ _

/-- Distinct events make the order of the query strict. -/
theorem sharesUpTo_descending (hunique : (db.shares.rows.map (·.eventSeq)).Nodup) (seq : ℕ) :
    (sharesUpTo db seq).Pairwise fun a b => b.eventSeq < a.eventSeq := by
  have : Std.Total (fun a b : ShareRow => a.eventSeq ≥ b.eventSeq) :=
    ⟨fun a b => Nat.le_total b.eventSeq a.eventSeq⟩
  have : IsTrans ShareRow (fun a b => a.eventSeq ≥ b.eventSeq) :=
    ⟨fun _ _ _ hab hbc => Nat.le_trans hbc hab⟩
  have hsorted : (sharesUpTo db seq).Pairwise (fun a b => a.eventSeq ≥ b.eventSeq) :=
    List.pairwise_insertionSort _ _
  have hdistinct : (sharesUpTo db seq).Pairwise (fun a b => a.eventSeq ≠ b.eventSeq) := by
    have hfilter : ((db.shares.rows.filter fun s => s.eventSeq ≤ seq).map (·.eventSeq)).Nodup :=
      (List.filter_sublist.map _).nodup hunique
    exact List.pairwise_map.mp (((sharesUpTo_perm db seq).map _).nodup_iff.mpr hfilter)
  exact hsorted.imp₂ (fun _ _ hge hne => lt_of_le_of_ne hge (Ne.symm hne)) hdistinct

/-- **The window without list order.** -/
theorem windowWork_sharesUpTo (hunique : (db.shares.rows.map (·.eventSeq)).Nodup) (window seq : ℕ)
    (account : Uuid) :
    windowWork window ((sharesUpTo db seq).map (·.weighted)) account
      = windowShareWork db.shares.rows window seq account := by
  have hperm := sharesUpTo_perm db seq
  have hnewer : ∀ s : ShareRow,
      (((sharesUpTo db seq).filter fun r => s.eventSeq < r.eventSeq).map (·.work)).sum
        = ((db.shares.rows.filter fun r =>
            s.eventSeq < r.eventSeq ∧ r.eventSeq ≤ seq).map (·.work)).sum := by
    intro s
    have hfilter := (hperm.filter fun r => s.eventSeq < r.eventSeq).map ShareRow.work
    rw [hfilter.sum_eq, List.filter_filter]
    simp only [Bool.decide_and]
  rw [windowWork_of_descending (sharesUpTo_descending hunique seq)]
  simp only [hnewer]
  rw [(hperm.map _).sum_eq, ← sum_map_filter (fun s : ShareRow => s.accountId = account),
    List.filter_filter]
  unfold windowShareWork
  simp only [Bool.decide_and, Bool.and_comm]

/-- The truncated query reads the same window: it reads every row, or enough work. -/
theorem windowWork_take {window limit : ℕ}
    (h : ¬ ((rows.take limit).length = limit ∧ ((rows.take limit).map (·.work)).sum < window))
    (account : Uuid) :
    windowWork window (rows.map (·.weighted)) account
      = windowWork window ((rows.take limit).map (·.weighted)) account := by
  by_cases hall : rows.length < limit
  · rw [List.take_of_length_le hall.le]
  · have hlen : (rows.take limit).length = limit := by
      rw [List.length_take]
      omega
    have hwork : window ≤ ((rows.take limit).map (·.work)).sum := by
      by_contra hlt
      exact h ⟨hlen, by omega⟩
    have hsplit : rows.map (·.weighted)
        = (rows.take limit).map (·.weighted) ++ (rows.drop limit).map (·.weighted) := by
      rw [← List.map_append, List.take_append_drop]
    rw [hsplit]
    apply windowWork_append_of_le
    rw [List.map_map]
    exact hwork

/-! ## §3. Exactness of the first plan -/

/-- The loop's checks pass on the stored rows, in whatever order they are read. -/
theorem validShares_of_perm
    (hvalid : ∀ s ∈ db.shares.rows, ¬ s.shareId.isZero ∧ ¬ s.accountId.isNil ∧ 0 < s.work) {seq : ℕ}
    (hperm : rows.Perm (db.shares.rows.filter fun s => s.eventSeq ≤ seq)) :
    ValidShares (rows.map (·.weighted)) := by
  have hfiltered : ValidShares
      ((db.shares.rows.filter fun s => s.eventSeq ≤ seq).map (·.weighted)) := by
    have hmem : ∀ s ∈ (db.shares.rows.filter fun s => s.eventSeq ≤ seq).map (·.weighted),
        ¬ s.shareId.isZero ∧ ¬ s.accountId.isNil ∧ 0 < s.work := by
      intro s hs
      obtain ⟨r, hr, rfl⟩ := List.mem_map.mp hs
      exact hvalid r (List.mem_of_mem_filter hr)
    refine ⟨fun s hs => (hmem s hs).2.1, fun s hs => (hmem s hs).1,
      fun s hs => Nat.pos_iff_ne_zero.mp (hmem s hs).2.2, ?_⟩
    rw [List.map_map]
    exact (List.filter_sublist.map _).nodup db.shares.nodup
  exact hfiltered.perm (hperm.map _)

/-- **Exactness of the window.**  The plan that the truncated query gives to a winner's first
    observation counts, for every account, exactly the work of its shares inside the window; it
    is the plan of the untruncated history; shares of later events never change it; and when
    the window covers all the work, the order of the shares does not matter. -/
theorem winnerAllocationPlan_exact {db : Database} {key : Chain × Hex32}
    {rewardZat shareEventSeq version : ℕ} {plan : AllocationPlan}
    (hunique : (db.shares.rows.map (·.eventSeq)).Nodup)
    (hvalid : ∀ s ∈ db.shares.rows, ¬ s.shareId.isZero ∧ ¬ s.accountId.isNil ∧ 0 < s.work)
    (hfirst : originalAllocations db key = [])
    (h : winnerAllocationPlan db key rewardZat shareEventSeq = .ok (plan, version)) :
    ∃ policy, db.chainPolicies.get key.1 = some policy ∧
      (∀ a ∈ plan.accounts, a.work =
        windowShareWork db.shares.rows policy.pplnsWindowWork shareEventSeq a.accountId) ∧
      (∀ account, account ∉ plan.accounts.map (·.accountId) →
        windowShareWork db.shares.rows policy.pplnsWindowWork shareEventSeq account = 0) ∧
      allocatePplns ((sharesUpTo db shareEventSeq).map (·.weighted)) policy.pplnsWindowWork
        rewardZat policy.feeBps = .ok plan ∧
      (∀ (shares : Table ShareRow.shareId) (later : List ShareRow),
        shares.rows = db.shares.rows ++ later → (∀ s ∈ later, shareEventSeq < s.eventSeq) →
        winnerAllocationPlan { db with shares := shares } key rewardZat shareEventSeq
          = .ok (plan, version)) ∧
      (∀ order : List ShareRow,
        order.Perm (db.shares.rows.filter fun s => s.eventSeq ≤ shareEventSeq) →
        (order.map (·.work)).sum ≤ policy.pplnsWindowWork →
        allocatePplns (order.map (·.weighted)) policy.pplnsWindowWork rewardZat policy.feeBps
          = .ok plan) := by
  have h' := h
  rw [winnerAllocationPlan_of_first hfirst] at h
  obtain ⟨policy, hpolicy, -, hlimit, hplan⟩ := firstAllocationPlan_spec h
  have hwhole := allocatePplns_congr hplan (validShares_of_perm hvalid (sharesUpTo_perm db _))
    (fun a => windowWork_take hlimit a)
  obtain ⟨-, -, -, -, byAccount, hsel, -, hordered, rfl⟩ := allocatePplns_spec hwhole
  have hamount : ∀ a, Tally.amountOf byAccount a
      = windowShareWork db.shares.rows policy.pplnsWindowWork shareEventSeq a := by
    intro a
    rw [amountOf_selectWindow hsel a, windowWork_sharesUpTo hunique]
    exact Nat.zero_add _
  have hentries := planFor_entries byAccount rewardZat policy.feeBps
  refine ⟨policy, hpolicy, ?_, ?_, hwhole, ?_, ?_⟩
  · intro a ha
    have hmem : (a.accountId, a.work) ∈ byAccount := by
      rw [← hentries]
      exact List.mem_map_of_mem ha
    rw [← hamount]
    exact (Tally.amountOf_of_mem hordered hmem).symm
  · intro account habsent
    rw [← hamount]
    by_contra hne
    have hmem : (account, Tally.amountOf byAccount account) ∈ byAccount :=
      (Tally.mem_iff_amountOf hordered).mpr ⟨Nat.pos_of_ne_zero hne, rfl⟩
    rw [← hentries] at hmem
    obtain ⟨a, ha, heq⟩ := List.mem_map.mp hmem
    exact habsent (List.mem_map.mpr ⟨a, ha, congrArg Prod.fst heq⟩)
  · intro shares later hrows hlater
    -- the query over the longer table reads the same rows
    have hsame : sharesUpTo { db with shares := shares } shareEventSeq
        = sharesUpTo db shareEventSeq := by
      have hnil : later.filter (fun s => s.eventSeq ≤ shareEventSeq) = [] := by
        refine List.filter_eq_nil_iff.mpr fun s hs => ?_
        simpa using hlater s hs
      unfold sharesUpTo
      rw [hrows, List.filter_append, hnil, List.append_nil]
    rw [← h']
    unfold winnerAllocationPlan firstAllocationPlan
    rw [hsame]
    rfl
  · intro order hperm htotal
    refine allocatePplns_congr hwhole (validShares_of_perm hvalid hperm) fun a => ?_
    have hsame := hperm.trans (sharesUpTo_perm db shareEventSeq).symm
    have hsum := (hsame.map (·.work)).sum_eq
    rw [windowWork_of_le (by rw [List.map_map]; exact htotal),
      windowWork_of_le (by rw [List.map_map]; exact hsum ▸ htotal), List.map_map, List.map_map]
    exact (hsame.map _).sum_eq

/-- Two shares against a window of 4: the newer one counts in full, the older one with what is
    left of the window. -/
def twoShares : Database :=
  { Database.bootstrap 2 ⟨some samplePolicy, none⟩ with
    shares := ⟨[⟨1, 1, 1, 1, 1, 1, 3, 1⟩, ⟨2, 2, 1, 2, 2, 1, 2, 1⟩], by decide⟩ }

theorem winnerAllocationPlan_exact_two_shares :
    winnerAllocationPlan twoShares (.wcash, 1) 100 2 = .ok (⟨4, 1, [⟨1, 2, 50⟩, ⟨2, 2, 49⟩]⟩, 1) ∧
      ∃ policy, twoShares.chainPolicies.get .wcash = some policy ∧
        windowShareWork twoShares.shares.rows policy.pplnsWindowWork 2 1 = 2 := by
  have hplan : winnerAllocationPlan twoShares (.wcash, 1) 100 2
      = .ok (⟨4, 1, [⟨1, 2, 50⟩, ⟨2, 2, 49⟩]⟩, 1) := by decide +kernel
  obtain ⟨policy, hpolicy, hwork, -⟩ := winnerAllocationPlan_exact
    (show (twoShares.shares.rows.map (·.eventSeq)).Nodup by decide)
    (show ∀ s ∈ twoShares.shares.rows, ¬ s.shareId.isZero ∧ ¬ s.accountId.isNil ∧ 0 < s.work
      by decide)
    (show originalAllocations twoShares (.wcash, 1) = [] by decide) hplan
  exact ⟨hplan, policy, hpolicy, (hwork ⟨1, 2, 50⟩ (by simp)).symm⟩

end WcashPool.Store
