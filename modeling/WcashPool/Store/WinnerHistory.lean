/-
  WcashPool.Store.WinnerHistory — one reward, one plan, one credit.

  A winner may be observed, matured, dematured, orphaned and observed again any
  number of times, through any of its proofs.  Its ledger nevertheless knows
  only two pictures of it, immature and spendable, and both carry the plan of
  the FIRST observation: the one that the database of that moment gave.

  Main results: `after_firstPlan` and `winner_ledger_law`.
-/
import WcashPool.Store.Coverage

namespace WcashPool.Store

open Accounting DoubleEntry Machine

/-! ## §1. What one event does to a plan -/

/-- The plan that `db` gives for a winner. -/
def Planned (db : Database) (key : Chain × Hex32) (w : WinnerRow) (plan : AllocationPlan) : Prop :=
  ∃ share version, db.shares.find w.shareId = some share ∧
    winnerAllocationPlan db key w.rewardZat share.eventSeq = .ok (plan, version)

/-- The claim of a reward: what no later event rewrites. -/
def SameClaim (w w' : WinnerRow) : Prop := w'.rewardZat = w.rewardZat ∧ w'.shareId = w.shareId

variable {plan : AllocationPlan} {w : WinnerRow}

theorem Planned.of_sameClaim {db : Database} {key : Chain × Hex32} {w' : WinnerRow}
    (h : Planned db key w plan) (hsame : SameClaim w w') : Planned db key w' plan := by
  unfold Planned
  rw [hsame.1, hsame.2]
  exact h

theorem Planned.planOf {db : Database} {key : Chain × Hex32} (h : Planned db key w plan) :
    PlanOf plan w.rewardZat := by
  obtain ⟨share, version, -, hplan⟩ := h
  exact (winnerAllocationPlan_spec hplan).1

section Steps

variable {s : ℕ} {start db db' : Database} {key : Chain × Hex32} {w : WinnerRow}

/-- Rewriting the row of some winner keeps every claim. -/
theorem sameClaim_modify (hw : db.winners.find key = some w) {key' : Chain × Hex32}
    {f : WinnerRow → WinnerRow} (hf : ∀ w, (f w).key = w.key)
    (hwinners : db'.winners = db.winners.modify key' f hf) (hclaim : ∀ w, SameClaim w (f w)) :
    ∃ w', db'.winners.find key = some w' ∧ SameClaim w w' := by
  rw [hwinners, Table.find_modify]
  split
  · next heq =>
    rw [← heq, hw]
    exact ⟨f w, rfl, hclaim w⟩
  · exact ⟨w, hw, rfl, rfl⟩

theorem EventStep.sameClaim (h : EventStep start s db db') (hw : db.winners.find key = some w) :
    ∃ w', db'.winners.find key = some w' ∧ SameClaim w w' := by
  cases h with
  | records | freeze => exact ⟨w, hw, rfl, rfl⟩
  | claim new winners hinsert =>
    refine ⟨w, ?_, rfl, rfl⟩
    show winners.find key = some w
    rw [Table.find_insert hinsert, if_neg]
    · exact hw
    · intro heq
      have hfresh := (Table.insert_eq_some hinsert).1
      rw [heq, hw] at hfresh
      cases hfresh
  | select | rest | observe | mature | demature | reverse =>
    exact sameClaim_modify hw (fun _ => by rfl) rfl fun _ => ⟨rfl, rfl⟩

/-- **One step** keeps the plan of a winner, or gives it its first one. -/
theorem EventStep.firstSplit (h : EventStep start s db db') (hinv : WinnerInv s db)
    (key : Chain × Hex32) :
    firstSplit db' key = firstSplit db key ∨
      (firstSplit db key = [] ∧ ∃ w plan, db.winners.find key = some w ∧ Planned start key w plan ∧
        firstSplit db' key = plan.split) := by
  cases h with
  | records | claim | select | rest | freeze | mature | demature | reverse => exact Or.inl rfl
  | observe key' w share plan version allocations ledger hw hstate hshare horigin hplan hrows
      hledger =>
    have hrecord : Records db { db with
        winnerAllocations := allocations
        ledger := ledger
        winners := db.winners.modify key' (·.enter .observed (some s) none) fun _ => rfl }
        key' s version plan := hinv.records hrows hledger rfl
    obtain ⟨hshape, hrepeat⟩ := winnerAllocationPlan_spec hplan
    by_cases hkey : key = key'
    · subst hkey
      have hfirst := firstSplit_record hrecord hshape.sorted hshape.nonempty hrepeat
      by_cases hnil : Store.firstSplit db key = []
      · exact Or.inr ⟨hnil, w, plan, hw, ⟨share, version, hshare, horigin⟩, hfirst⟩
      · exact Or.inl (hfirst.trans (hrepeat fun hnone => hnil (firstSplit_eq_nil.mpr hnone)))
    · exact Or.inl (firstSplit_record_of_ne hrecord hkey)

theorem EventSteps.sameClaim (h : EventSteps start s db db') (hw : db.winners.find key = some w) :
    ∃ w', db'.winners.find key = some w' ∧ SameClaim w w' := by
  induction h with
  | refl => exact ⟨w, hw, rfl, rfl⟩
  | tail _ hstep ih =>
    obtain ⟨w₁, hw₁, hsame₁⟩ := ih
    obtain ⟨w₂, hw₂, hsame₂⟩ := hstep.sameClaim hw₁
    exact ⟨w₂, hw₂, hsame₂.1.trans hsame₁.1, hsame₂.2.trans hsame₁.2⟩

/-- **A whole event** keeps the plan of a winner, or gives it its first one. -/
theorem EventSteps.firstSplit (h : EventSteps start s db db') (hinv : WinnerInv s db)
    (key : Chain × Hex32) :
    firstSplit db' key = firstSplit db key ∨
      (firstSplit db key = [] ∧ ∃ w plan, db'.winners.find key = some w ∧
        Planned start key w plan ∧ firstSplit db' key = plan.split) := by
  induction h with
  | refl => exact Or.inl rfl
  | tail hsteps hstep ih =>
    have hmid := EventSteps.winnerInv hsteps hinv
    obtain hkept | ⟨hnil, w, plan, hw, hplanned, hsplit⟩ := ih
    · obtain hkept' | ⟨hnil, w, plan, hw, hplanned, hsplit⟩ := hstep.firstSplit hmid key
      · exact Or.inl (hkept'.trans hkept)
      · obtain ⟨w', hw', hsame⟩ := hstep.sameClaim hw
        exact Or.inr ⟨hkept ▸ hnil, w', plan, hw', hplanned.of_sameClaim hsame, hsplit⟩
    · obtain ⟨w', hw', hsame⟩ := hstep.sameClaim hw
      obtain hkept | ⟨hnone, -⟩ := hstep.firstSplit hmid key
      · exact Or.inr ⟨hnil, w', plan, hw', hplanned.of_sameClaim hsame, hkept.trans hsplit⟩
      · -- a plan is never empty, so a second first observation is impossible
        exact absurd (hsplit.symm.trans hnone) hplanned.planOf.split_ne_nil

end Steps

/-! ## §2. What one operation does to a plan -/

section Operations

variable {cfg : Config} {db db' : Database} {op : Operation} {u : Unit} {key : Chain × Hex32}

theorem step_sameClaim (h : step cfg db op = .ok (db', u)) (hw : db.winners.find key = some w) :
    ∃ w', db'.winners.find key = some w' ∧ SameClaim w w' := by
  obtain ⟨call, r, -, hcall⟩ | hsteps := step_cases h
  · obtain ⟨-, rfl, -⟩ | ⟨-, -, events, mid, -, happly, rfl⟩ := projectOne_spec hcall
    · exact ⟨w, hw, rfl, rfl⟩
    · exact (applyEvent_steps happly).sameClaim hw
  · rw [hsteps.frame.winners]
    exact ⟨w, hw, rfl, rfl⟩

/-- **One operation** keeps the plan of a winner; only an event can give it its first one, and it
    gives the plan that the database before the event determines. -/
theorem step_firstSplit (h : step cfg db op = .ok (db', u)) (hinv : WinnerInv db.lastEventSeq db)
    (key : Chain × Hex32) :
    firstSplit db' key = firstSplit db key ∨
      (firstSplit db key = [] ∧ ∃ call w plan, op = .projectEvent call ∧
        db'.winners.find key = some w ∧ Planned db key w plan ∧ firstSplit db' key = plan.split) := by
  obtain ⟨call, r, rfl, hcall⟩ | hsteps := step_cases h
  · obtain ⟨-, rfl, -⟩ | ⟨-, hseq, events, mid, -, happly, rfl⟩ := projectOne_spec hcall
    · exact Or.inl rfl
    · have hnext : WinnerInv call.event.eventSeq { db with backendEvents := events } :=
        (hinv.mono (by omega)).congr rfl rfl rfl
      obtain hkept | ⟨hnil, w, plan, hw, hplanned, hsplit⟩ :=
        (applyEvent_steps happly).firstSplit hnext key
      · exact Or.inl hkept
      · exact Or.inr ⟨hnil, call, w, plan, rfl, hw, hplanned, hsplit⟩
  · exact Or.inl (firstSplit_congr hsteps.frame.winnerAllocations key)

end Operations

/-! ## §3. Where the plan in force comes from -/

section Runs

variable {cfg : Config} {db : Database} {key : Chain × Hex32} {w : WinnerRow}

/-- Who has a recorded plan has a row. -/
theorem WinnerInv.find_of_firstSplit {s : ℕ} (h : WinnerInv s db) (hne : firstSplit db key ≠ []) :
    ∃ w, db.winners.find key = some w := by
  have hfirst : firstObservation db key ≠ none := fun hnone => hne (firstSplit_eq_nil.mpr hnone)
  obtain ⟨o, ho⟩ := Option.ne_none_iff_exists'.mp hfirst
  obtain ⟨a, ha, hkey, -⟩ := (firstObservation_eq_some.mp ho).1
  obtain ⟨-, t, ht, -, href⟩ := h.recorded a ha
  rw [hkey] at href
  exact Option.isSome_iff_exists.mp (h.known t ht key href).2

/-- The plan of the first observation: the event `call` found nothing recorded for the winner,
    recorded a plan, and that plan is the one the database before the event determines. -/
def FirstPlan (cfg : Config) (db : Database) (ops : List Operation) (key : Chain × Hex32)
    (w : WinnerRow) (plan : AllocationPlan) : Prop :=
  ∃ earlier call later, ops = earlier ++ .projectEvent call :: later ∧
    firstObservation (after cfg db earlier) key = none ∧
    firstObservation (after cfg db (earlier ++ [.projectEvent call])) key ≠ none ∧
    Planned (after cfg db earlier) key w plan

/-- More operations do not change which plan was the first. -/
theorem FirstPlan.concat {ops : List Operation} (h : FirstPlan cfg db ops key w plan)
    (op : Operation) : FirstPlan cfg db (ops ++ [op]) key w plan := by
  obtain ⟨earlier, call, later, rfl, hbefore, hafter, hplanned⟩ := h
  exact ⟨earlier, call, later ++ [op], by simp, hbefore, hafter, hplanned⟩

/-- **The plan in force** is the plan of the first observation. -/
theorem after_firstPlan (hfresh : Fresh db) (ops : List Operation)
    (hw : (after cfg db ops).winners.find key = some w)
    (hne : firstSplit (after cfg db ops) key ≠ []) :
    ∃ plan, FirstPlan cfg db ops key w plan ∧ firstSplit (after cfg db ops) key = plan.split := by
  induction ops using List.reverseRecOn generalizing w with
  | nil =>
    -- a fresh deployment has recorded nothing
    refine absurd (firstSplit_eq_nil.mpr (firstObservation_eq_none.mpr fun a ha => ?_)) hne
    have ha' : a ∈ db.winnerAllocations.rows := ha
    rw [hfresh.allocations] at ha'
    exact absurd ha' (by simp)
  | append_singleton ops op ih =>
    have hinv : WinnerInv _ (after cfg db ops) := (after_solvent hfresh ops).winners
    have hlast : after cfg db (ops ++ [op]) = attempt (step cfg) (after cfg db ops) op :=
      run_concat (step cfg) db ops op
    cases hstep : step cfg (after cfg db ops) op with
    | error e =>
      rw [hlast, attempt_of_error _ hstep] at hw hne ⊢
      obtain ⟨plan, hfirst, hsplit⟩ := ih hw hne
      exact ⟨plan, hfirst.concat op, hsplit⟩
    | ok r =>
      have hstep' : step cfg (after cfg db ops) op = .ok (r.1, r.2) := hstep
      have hdb : after cfg db (ops ++ [op]) = r.1 := hlast.trans (attempt_of_ok _ hstep')
      rw [hdb] at hw hne ⊢
      obtain hkept | ⟨hnil, call, w', plan, rfl, hw', hplanned, hsplit⟩ :=
        step_firstSplit hstep' hinv key
      · rw [hkept] at hne ⊢
        obtain ⟨w₀, hw₀⟩ := hinv.find_of_firstSplit hne
        obtain ⟨w₁, hw₁, hsame⟩ := step_sameClaim hstep' hw₀
        obtain rfl : w = w₁ := Option.some.inj (hw.symm.trans hw₁)
        obtain ⟨plan, ⟨earlier, call, later, hops, hbefore, hafter, hplanned⟩, hsplit⟩ := ih hw₀ hne
        exact ⟨plan, FirstPlan.concat ⟨earlier, call, later, hops, hbefore, hafter,
          hplanned.of_sameClaim hsame⟩ op, hsplit⟩
      · obtain rfl : w = w' := Option.some.inj (hw.symm.trans hw')
        refine ⟨plan, ⟨ops, call, [], rfl, firstSplit_eq_nil.mp hnil, fun hnone => hne ?_, hplanned⟩,
          hsplit⟩
        rw [hdb] at hnone
        exact firstSplit_eq_nil.mpr hnone

end Runs

/-! ## §4. The ledger of a winner -/

/-- The balances of an observed winner: everything immature. -/
def observedBalance (rewardZat : ℕ) (plan : AllocationPlan) : LedgerPlace → ℤ
  | .collectorImmatureAsset => rewardZat
  | .minerImmature accountId => -(Tally.amountOf plan.split accountId : ℤ)
  | .poolFeeUnearned => -(plan.poolFeeZat : ℤ)
  | _ => 0

/-- The balances of a matured winner: nothing immature is left. -/
def maturedBalance (rewardZat : ℕ) (plan : AllocationPlan) : LedgerPlace → ℤ
  | .collectorSpendableAsset => rewardZat
  | .minerPayable accountId => -(Tally.amountOf plan.split accountId : ℤ)
  | .poolEquity => -(plan.poolFeeZat : ℤ)
  | _ => 0

theorem sumWhere_observedEntries_at (rewardZat : ℕ) (plan : AllocationPlan) (place : LedgerPlace) :
    sumWhere (· = place) (observedEntries rewardZat plan.split plan.poolFeeZat)
      = observedBalance rewardZat plan place := by
  rw [sumWhere_observedEntries]
  cases place with
  | minerImmature a =>
    rw [splitAt_eq_amountOf (a := a) (by simp)]
    simp only [reduceCtorEq, if_false, zero_sub, sub_zero]
    rfl
  | _ =>
    rw [splitAt_of_forall_not (by simp)]
    simp only [reduceCtorEq, if_false, if_true, sub_zero, zero_sub, sub_self]
    rfl

theorem sumWhere_maturedEffect_at (rewardZat : ℕ) (plan : AllocationPlan) (place : LedgerPlace) :
    sumWhere (· = place) (maturedEffect rewardZat plan.split plan.poolFeeZat)
      = maturedBalance rewardZat plan place := by
  rw [sumWhere_maturedEffect]
  cases place with
  | minerPayable a =>
    rw [splitAt_eq_amountOf (a := a) (by simp)]
    simp only [reduceCtorEq, if_false, zero_sub, sub_zero]
    rfl
  | _ =>
    rw [splitAt_of_forall_not (by simp)]
    simp only [reduceCtorEq, if_false, if_true, sub_zero, zero_sub, sub_self]
    rfl

/-- A reward is credited to the collector once at most. -/
theorem WinnerRow.sumWhere_effect_asset (w : WinnerRow) (split : List (Uuid × ℕ)) :
    sumWhere (fun place => place = .collectorImmatureAsset ∨ place = .collectorSpendableAsset)
      (w.effect split) ≤ w.rewardZat := by
  cases hstate : w.state with
  | observed =>
    rw [effect_of_observed hstate, sumWhere_observedEntries, splitAt_of_forall_not (by simp)]
    simp
  | matured =>
    rw [effect_of_matured hstate, agree_maturedEffect, sumWhere_maturedEffect,
      splitAt_of_forall_not (by simp)]
    simp
  | submitted | sideChain | quarantined | requeued | orphaned =>
    rw [effect_of_inactive (by rw [hstate]; rfl), sumWhere_nil]
    exact Int.natCast_nonneg _

/-- **The winner ledger law.**  After every run from a fresh deployment, the lines posted under one
    economic winner add up, at every place of the chart of accounts, to what its state says:
    nothing while it is neither observed nor matured, the plan of its first observation with
    everything immature while it is observed, and the same plan with nothing immature once it is
    matured.  The collector is never credited more than the reward. -/
theorem winner_ledger_law {cfg : Config} {db : Database} (hfresh : Fresh db) (ops : List Operation)
    (key : Chain × Hex32) :
    ((after cfg db ops).winners.find key = none →
      (after cfg db ops).linesUnder (.winner key) = []) ∧
    ∀ w, (after cfg db ops).winners.find key = some w →
      (w.state ≠ .observed → w.state ≠ .matured → ∀ place,
        sumWhere (· = place) ((after cfg db ops).linesUnder (.winner key)) = 0) ∧
      (w.state = .observed → ∃ plan, FirstPlan cfg db ops key w plan ∧ ∀ place,
        sumWhere (· = place) ((after cfg db ops).linesUnder (.winner key))
          = observedBalance w.rewardZat plan place) ∧
      (w.state = .matured → ∃ plan, FirstPlan cfg db ops key w plan ∧ ∀ place,
        sumWhere (· = place) ((after cfg db ops).linesUnder (.winner key))
          = maturedBalance w.rewardZat plan place) ∧
      sumWhere (fun place => place = .collectorImmatureAsset ∨ place = .collectorSpendableAsset)
        ((after cfg db ops).linesUnder (.winner key)) ≤ w.rewardZat := by
  have hinv : WinnerInv _ (after cfg db ops) := (after_solvent hfresh ops).winners
  refine ⟨fun hnone => subledger_of_ne _ _ fun t ht href => ?_, fun w hw => ?_⟩
  · have hsome := (hinv.known t ht key href).2
    rw [hnone] at hsome
    cases hsome
  have hok := hinv.winners key w hw
  -- the plan in force, and its fee, are those of the first observation
  have hplan : ∀ o, ActiveWinner (after cfg db ops) key w o →
      ∃ plan, FirstPlan cfg db ops key w plan ∧
        firstSplit (after cfg db ops) key = plan.split ∧
        poolShare w.rewardZat (firstSplit (after cfg db ops) key) = plan.poolFeeZat := by
    intro o hactive
    obtain ⟨plan, hfirst, hsplit⟩ := after_firstPlan hfresh ops hw hactive.nonempty
    obtain ⟨earlier, call, later, hops, hbefore, hafter, hplanned⟩ := hfirst
    refine ⟨plan, ⟨earlier, call, later, hops, hbefore, hafter, hplanned⟩, hsplit, ?_⟩
    rw [hsplit, hplanned.planOf.fee]
    rfl
  refine ⟨fun hobserved hmatured place => ?_, fun hobserved => ?_, fun hmatured => ?_, ?_⟩
  · have hinactive : w.state.inactive := by
      cases hstate : w.state <;> simp_all [WinnerState.inactive]
    rw [hok.agrees, WinnerRow.effect_of_inactive hinactive, sumWhere_nil]
  · obtain ⟨-, o, hactive⟩ := hok.observed hobserved
    obtain ⟨plan, hfirst, hsplit, hfee⟩ := hplan o hactive
    refine ⟨plan, hfirst, fun place => ?_⟩
    rw [hok.agrees, WinnerRow.effect_of_observed hobserved, hfee, hsplit,
      sumWhere_observedEntries_at]
  · obtain ⟨o, m, hactive, -⟩ := hok.matured hmatured
    obtain ⟨plan, hfirst, hsplit, hfee⟩ := hplan o hactive
    refine ⟨plan, hfirst, fun place => ?_⟩
    rw [hok.agrees, WinnerRow.effect_of_matured hmatured, hfee, hsplit, agree_maturedEffect,
      sumWhere_maturedEffect_at]
  · rw [hok.agrees]
    exact w.sumWhere_effect_asset _

/-- The worked reward, matured: the plan of its first observation is what the ledger holds. -/
theorem winner_ledger_law_sample :
    ∃ w plan, (sampleAfter sampleReward).winners.find sampleWinner.key = some w ∧
      w.state = .matured ∧
      FirstPlan sampleConfig sampleStart sampleReward sampleWinner.key w plan ∧
      ∀ place, sumWhere (· = place)
          ((sampleAfter sampleReward).linesUnder (.winner sampleWinner.key))
        = maturedBalance w.rewardZat plan place := by
  have hstate : ((sampleAfter sampleReward).winners.find sampleWinner.key).map
      (·.state) = some .matured := by decide +kernel
  obtain ⟨w, hw, hmatured⟩ := Option.map_eq_some_iff.mp hstate
  obtain ⟨plan, hfirst, hlines⟩ := ((@winner_ledger_law sampleConfig sampleStart
    (Fresh.bootstrap _ _) sampleReward sampleWinner.key).2 w hw).2.2.1 hmatured
  exact ⟨w, plan, hw, hmatured, hfirst, hlines⟩

end WcashPool.Store
