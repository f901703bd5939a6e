/-
  WcashPool.Store.RecordedPlan — the plan that a winner keeps for life.

  Each observation of a winner records its plan under the event that observed
  it, and the plan of the FIRST observation is the one that every later one
  copies.  This file says what recording a plan does to the two queries over
  the recorded rows: the query for one observation, and the query for the
  first.

  Main results: `winnerAllocationPlan_spec` and `firstSplit_record`.
-/
import WcashPool.Store.WinnerLifecycle

namespace WcashPool.Store

open Fallible Accounting

/-! ## §1. The first observation -/

/-- The `(account, amount)` pairs of the first observation. -/
def firstSplit (db : Database) (key : Chain × Hex32) : List (Uuid × ℕ) :=
  (originalAllocations db key).map fun a => (a.accountId, a.amountZat)

variable {db db' : Database} {key : Chain × Hex32} {o : ℕ}

theorem mem_allocationsAt {a : WinnerAllocationRow} :
    a ∈ allocationsAt db key o ↔
      a ∈ db.winnerAllocations.rows ∧ (a.chain, a.blockHashLe) = key ∧ a.observationEventSeq = o := by
  unfold allocationsAt
  rw [List.mem_insertionSort, List.mem_filter]
  simp

theorem firstObservation_eq_some :
    firstObservation db key = some o ↔
      (∃ a ∈ db.winnerAllocations.rows,
        (a.chain, a.blockHashLe) = key ∧ a.observationEventSeq = o) ∧
      ∀ a ∈ db.winnerAllocations.rows,
        (a.chain, a.blockHashLe) = key → o ≤ a.observationEventSeq := by
  unfold firstObservation
  rw [List.min?_eq_some_iff]
  simp only [List.mem_map, List.mem_filter, decide_eq_true_eq]
  constructor
  · rintro ⟨⟨a, ⟨ha, hkey⟩, hseq⟩, hmin⟩
    exact ⟨⟨a, ha, hkey, hseq⟩, fun b hb hkey' => hmin _ ⟨b, ⟨hb, hkey'⟩, rfl⟩⟩
  · rintro ⟨⟨a, ha, hkey, hseq⟩, hmin⟩
    refine ⟨⟨a, ⟨ha, hkey⟩, hseq⟩, ?_⟩
    rintro _ ⟨b, ⟨hb, hkey'⟩, rfl⟩
    exact hmin b hb hkey'

theorem firstObservation_eq_none :
    firstObservation db key = none ↔
      ∀ a ∈ db.winnerAllocations.rows, (a.chain, a.blockHashLe) ≠ key := by
  unfold firstObservation
  rw [List.min?_eq_none_iff, List.map_eq_nil_iff, List.filter_eq_nil_iff]
  simp

/-- A winner has an original plan as soon as it has any recorded row. -/
theorem originalAllocations_eq_nil :
    originalAllocations db key = [] ↔ firstObservation db key = none := by
  unfold originalAllocations
  cases hfirst : firstObservation db key with
  | none => simp
  | some o =>
    obtain ⟨a, ha, hkey, hseq⟩ := (firstObservation_eq_some.mp hfirst).1
    have hmem : a ∈ allocationsAt db key o := mem_allocationsAt.mpr ⟨ha, hkey, hseq⟩
    simp only [reduceCtorEq, iff_false]
    exact List.ne_nil_of_mem hmem

theorem firstSplit_eq_nil : firstSplit db key = [] ↔ firstObservation db key = none := by
  unfold firstSplit
  rw [List.map_eq_nil_iff, originalAllocations_eq_nil]

theorem firstSplit_of_first (h : firstObservation db key = some o) :
    firstSplit db key = recordedSplit db key o := by
  unfold firstSplit recordedSplit originalAllocations
  rw [h]

/-- Without new rows every plan stays. -/
theorem recordedSplit_congr (h : db'.winnerAllocations = db.winnerAllocations)
    (key : Chain × Hex32) (o : ℕ) : recordedSplit db' key o = recordedSplit db key o := by
  unfold recordedSplit allocationsAt
  rw [h]

theorem firstSplit_congr (h : db'.winnerAllocations = db.winnerAllocations)
    (key : Chain × Hex32) : firstSplit db' key = firstSplit db key := by
  unfold firstSplit originalAllocations firstObservation allocationsAt
  rw [h]

/-! ## §2. The shape of a plan -/

theorem sortedByAccount (db : Database) (key : Chain × Hex32) (o : ℕ) :
    (allocationsAt db key o).Pairwise fun a b => a.accountId ≤ b.accountId := by
  have : Std.Total (fun a b : WinnerAllocationRow => a.accountId ≤ b.accountId) :=
    ⟨fun a b => le_total a.accountId b.accountId⟩
  have : IsTrans WinnerAllocationRow (fun a b => a.accountId ≤ b.accountId) :=
    ⟨fun _ _ _ hab hbc => le_trans hab hbc⟩
  exact List.pairwise_insertionSort _ _

/-- What every plan of an observation satisfies: accounts in order, some account, and a pool fee
    that is the rest of the reward. -/
structure PlanOf (plan : AllocationPlan) (rewardZat : ℕ) : Prop where
  sorted : plan.accounts.Pairwise fun a b => a.accountId ≤ b.accountId
  nonempty : plan.accounts ≠ []
  covered : (plan.split.map (·.2)).sum ≤ rewardZat
  fee : plan.poolFeeZat = rewardZat - (plan.split.map (·.2)).sum

variable {plan : AllocationPlan} {rewardZat : ℕ}

theorem PlanOf.split_ne_nil (h : PlanOf plan rewardZat) :
    plan.split ≠ [] := fun hnil => h.nonempty (List.map_eq_nil_iff.mp hnil)

/-- What PPLNS allocates is a plan of the reward. -/
theorem allocatePplns_planOf {shares : List WeightedShare} {window feeBps : ℕ}
    (h : allocatePplns shares window rewardZat feeBps = .ok plan) : PlanOf plan rewardZat := by
  obtain ⟨-, -, -, hfee, byAccount, -, hne, hordered, rfl⟩ := allocatePplns_spec h
  have hentries := planFor_entries byAccount rewardZat feeBps
  have hle := fee_le_reward rewardZat hfee
  have hsum : ((planFor byAccount rewardZat feeBps).split.map (·.2)).sum
      = rewardZat - rewardZat * feeBps / basisPoints := by
    rw [List.map_map]
    exact planFor_miner_sum hordered hne rewardZat feeBps
  refine ⟨?_, ?_, ?_, ?_⟩
  · have hkeys := hordered.keys
    rw [← hentries, List.pairwise_map] at hkeys
    exact hkeys.imp fun hlt => le_of_lt hlt
  · intro hnil
    rw [hnil] at hentries
    exact hne hentries.symm
  · rw [hsum]
    exact Nat.sub_le _ _
  · rw [hsum]
    exact (Nat.sub_sub_self hle).symm

/-- **Every plan**, first or repeated: its shape, and that a repeated one is the first one. -/
theorem winnerAllocationPlan_spec {shareEventSeq version : ℕ}
    (h : winnerAllocationPlan db key rewardZat shareEventSeq = .ok (plan, version)) :
    PlanOf plan rewardZat ∧ (firstObservation db key ≠ none → plan.split = firstSplit db key) := by
  unfold winnerAllocationPlan at h
  split at h
  · next hnil =>
    obtain ⟨policy, -, -, -, hplan⟩ := firstAllocationPlan_spec h
    exact ⟨allocatePplns_planOf hplan, fun hsome => absurd (originalAllocations_eq_nil.mp hnil) hsome⟩
  · next first rest horiginal =>
    obtain ⟨total, htotal, h⟩ := bind_eq_ok.mp h
    obtain ⟨fee, hfee, h⟩ := bind_eq_ok.mp h
    obtain ⟨rfl, -⟩ := ok_pair_inj h
    obtain ⟨hle, rfl⟩ := checkedSub_eq_ok.mp hfee
    have hsplit : ((first :: rest).map fun a : WinnerAllocationRow =>
        (⟨a.accountId, a.selectedWork, a.amountZat⟩ : AccountAllocation)).map
          (fun a => (a.accountId, a.amountZat)) = firstSplit db key := by
      unfold firstSplit
      rw [horiginal, List.map_map]
      rfl
    have hsum : total = ((firstSplit db key).map (·.2)).sum := by
      rw [storedMinerTotal_spec htotal, Nat.zero_add]
      unfold firstSplit
      rw [horiginal, List.map_map]
      rfl
    refine ⟨⟨?_, by simp, ?_, ?_⟩, fun _ => hsplit⟩
    · rw [List.pairwise_map]
      have hsorted : (originalAllocations db key).Pairwise fun a b => a.accountId ≤ b.accountId := by
        unfold originalAllocations
        split
        · exact sortedByAccount db key _
        · exact List.Pairwise.nil
      rw [horiginal] at hsorted
      exact hsorted
    · rw [AllocationPlan.split, hsplit, ← hsum]
      exact hle
    · rw [AllocationPlan.split, hsplit, ← hsum]

/-! ## §3. Recording a plan -/

/-- `db'` records `plan` for the winner `key` under the event `s`, which recorded nothing yet. -/
structure Records (db db' : Database) (key : Chain × Hex32) (s version : ℕ)
    (plan : AllocationPlan) : Prop where
  rows : db'.winnerAllocations.rows
    = db.winnerAllocations.rows ++ plan.accounts.map (allocationRow key s version)
  fresh : ∀ a ∈ db.winnerAllocations.rows, a.observationEventSeq < s

variable {s version : ℕ} {plan : AllocationPlan}

section

variable (h : Records db db' key s version plan)

include h

variable {key' : Chain × Hex32}

/-- Another winner, or another observation: the recorded rows stay. -/
theorem allocationsAt_record_of_ne (hne : key' ≠ key ∨ o ≠ s) :
    allocationsAt db' key' o = allocationsAt db key' o := by
  have hnone : (plan.accounts.map (allocationRow key s version)).filter (fun a =>
      (a.chain, a.blockHashLe) = key' ∧ a.observationEventSeq = o) = [] := by
    refine List.filter_eq_nil_iff.mpr fun a ha => ?_
    obtain ⟨b, -, rfl⟩ := List.mem_map.mp ha
    simp only [decide_eq_true_eq, not_and]
    intro hkey hseq
    cases hne with
    | inl hkey' => exact hkey' hkey.symm
    | inr hseq' => exact hseq' hseq.symm
  unfold allocationsAt
  rw [h.rows, List.filter_append, hnone, List.append_nil]

/-- The observation itself: the recorded rows are the plan's accounts, already in order. -/
theorem allocationsAt_record (hsorted : plan.accounts.Pairwise fun a b => a.accountId ≤ b.accountId) :
    allocationsAt db' key s = plan.accounts.map (allocationRow key s version) := by
  have hold : db.winnerAllocations.rows.filter (fun a =>
      (a.chain, a.blockHashLe) = key ∧ a.observationEventSeq = s) = [] := by
    refine List.filter_eq_nil_iff.mpr fun a ha => ?_
    have := h.fresh a ha
    simp only [decide_eq_true_eq, not_and]
    intro _
    omega
  have hnew : (plan.accounts.map (allocationRow key s version)).filter (fun a =>
      (a.chain, a.blockHashLe) = key ∧ a.observationEventSeq = s)
        = plan.accounts.map (allocationRow key s version) := by
    refine List.filter_eq_self.mpr fun a ha => ?_
    obtain ⟨b, -, rfl⟩ := List.mem_map.mp ha
    simp
  unfold allocationsAt
  rw [h.rows, List.filter_append, hold, hnew, List.nil_append]
  apply List.Pairwise.insertionSort_eq
  rw [List.pairwise_map]
  exact hsorted

/-- A recorded plan is read back. -/
theorem recordedSplit_record (hsorted : plan.accounts.Pairwise fun a b => a.accountId ≤ b.accountId) :
    recordedSplit db' key s = plan.split := by
  unfold recordedSplit
  rw [allocationsAt_record h hsorted, List.map_map]
  rfl

/-- Other winners keep their first observation. -/
theorem firstObservation_record_of_ne (hne : key' ≠ key) :
    firstObservation db' key' = firstObservation db key' := by
  have hnone : (plan.accounts.map (allocationRow key s version)).filter (fun a =>
      (a.chain, a.blockHashLe) = key') = [] := by
    refine List.filter_eq_nil_iff.mpr fun a ha => ?_
    obtain ⟨b, -, rfl⟩ := List.mem_map.mp ha
    simpa using fun hkey : key = key' => hne hkey.symm
  unfold firstObservation
  rw [h.rows, List.filter_append, hnone, List.append_nil]

/-- The first observation of the winner itself: this one, unless there was one before. -/
theorem firstObservation_record (hnonempty : plan.accounts ≠ []) :
    firstObservation db' key = some ((firstObservation db key).getD s) := by
  have hmem : ∀ a, a ∈ db'.winnerAllocations.rows ↔ a ∈ db.winnerAllocations.rows ∨
      ∃ b ∈ plan.accounts, allocationRow key s version b = a := by
    intro a
    rw [h.rows, List.mem_append, List.mem_map]
  obtain ⟨b, hb⟩ := List.exists_mem_of_ne_nil _ hnonempty
  cases hfirst : firstObservation db key with
  | none =>
    have hnone := firstObservation_eq_none.mp hfirst
    refine firstObservation_eq_some.mpr
      ⟨⟨allocationRow key s version b, (hmem _).mpr (Or.inr ⟨b, hb, rfl⟩), rfl, rfl⟩, ?_⟩
    intro a ha hkey
    cases (hmem a).mp ha with
    | inl hold => exact absurd hkey (hnone a hold)
    | inr hnew =>
      obtain ⟨c, -, rfl⟩ := hnew
      exact Nat.le_refl s
  | some o =>
    obtain ⟨⟨a, ha, hkey, hseq⟩, hmin⟩ := firstObservation_eq_some.mp hfirst
    refine firstObservation_eq_some.mpr ⟨⟨a, (hmem a).mpr (Or.inl ha), hkey, hseq⟩, ?_⟩
    intro c hc hkey'
    cases (hmem c).mp hc with
    | inl hold => exact hmin c hold hkey'
    | inr hnew =>
      obtain ⟨d, -, rfl⟩ := hnew
      have := h.fresh a ha
      show o ≤ s
      omega

/-- Other winners keep their plan. -/
theorem firstSplit_record_of_ne (hne : key' ≠ key) : firstSplit db' key' = firstSplit db key' := by
  unfold firstSplit originalAllocations
  rw [firstObservation_record_of_ne h hne]
  cases firstObservation db key' with
  | none => rfl
  | some o => simp only [allocationsAt_record_of_ne h (Or.inl hne)]

/-- **After an observation** the first plan is the plan of this observation. -/
theorem firstSplit_record (hsorted : plan.accounts.Pairwise fun a b => a.accountId ≤ b.accountId)
    (hnonempty : plan.accounts ≠ [])
    (hfirst : firstObservation db key ≠ none → plan.split = firstSplit db key) :
    firstSplit db' key = plan.split := by
  have hobs := firstObservation_record h hnonempty
  rw [firstSplit_of_first hobs]
  cases hold : firstObservation db key with
  | none => exact recordedSplit_record h hsorted
  | some o =>
    have hlt : o < s := by
      obtain ⟨a, ha, -, hseq⟩ := (firstObservation_eq_some.mp hold).1
      have := h.fresh a ha
      omega
    rw [hfirst (by simp [hold]), firstSplit_of_first hold]
    show recordedSplit db' key o = recordedSplit db key o
    unfold recordedSplit
    rw [allocationsAt_record_of_ne h (Or.inr (by omega))]

end

end WcashPool.Store
