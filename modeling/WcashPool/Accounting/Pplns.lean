/-
  WcashPool.Accounting.Pplns — deterministic integer PPLNS weighting and reward
  allocation (`accounting.rs`).

  `allocatePplns` walks the shares newest first, spends the work window on
  them, adds the selected work up by account, takes the pool fee off the reward
  and splits the rest over the accounts by the largest-remainder method.

  Main results: `allocatePplns_spec`, `allocatePplns_conserves`,
  `allocatePplns_fair` and `amountOf_selectWindow`.
-/
import WcashPool.Lib.LargestRemainder
import WcashPool.Lib.Tally
import WcashPool.Protocol.Basic

namespace WcashPool.Accounting

open Fallible LargestRemainder

/-! ## §1. The model of `accounting.rs` -/

/-- Launch ceiling for a configured pool fee (10%). -/
def maxPoolFeeBps : ℕ := 1_000

def basisPoints : ℕ := 10_000

/-- One unique accepted proof. -/
structure WeightedShare where
  shareId : Hex32
  accountId : Uuid
  work : ℕ
deriving DecidableEq, Repr

/-- Conserving allocation for one account. -/
structure AccountAllocation where
  accountId : Uuid
  work : ℕ
  amountZat : ℕ
deriving DecidableEq, Repr

/-- Complete allocation of one accepted block reward. -/
structure AllocationPlan where
  selectedWork : ℕ
  poolFeeZat : ℕ
  accounts : List AccountAllocation
deriving DecidableEq, Repr

/-- What each account gets. -/
abbrev AllocationPlan.split (plan : AllocationPlan) : List (Uuid × ℕ) :=
  plan.accounts.map fun a => (a.accountId, a.amountZat)

/-- Invalid PPLNS input or a failure to conserve the reward. -/
inductive PplnsError
  | zeroTarget
  | zeroWindow
  | invalidReward (rewardZat : ℕ)
  | feeTooHigh (feeBps : ℕ)
  | noEligibleWork
  | nilAccount
  | zeroShareId
  | duplicateShare
  | zeroWork
  | arithmeticOverflow
  | conservationFailure
deriving DecidableEq, Repr

/-- The exact amount assigned to miners, added up in 64 bits. -/
def AllocationPlan.minerTotalZat (plan : AllocationPlan) : ℕ :=
  (plan.accounts.map (·.amountZat)).sum % 2 ^ 64

/-- Target-derived work, `floor (2^256 / (target + 1))`. -/
def targetWork (target : TargetLe) : Except PplnsError ℕ := do
  let numericTarget := target.toNat
  rejectIf (numericTarget = 0) .zeroTarget
  pure (2 ^ 256 / (numericTarget + 1))

/-- The loop over the shares, newest first: every share is checked BEFORE the test for an
    exhausted window, so the first share outside the window is checked too. -/
def selectWindow : ℕ → List Hex32 → List (Uuid × ℕ) → List WeightedShare →
    Except PplnsError (List (Uuid × ℕ))
  | _, _, byAccount, [] => .ok byAccount
  | remaining, seen, byAccount, share :: older => do
    rejectIf share.accountId.isNil .nilAccount
    rejectIf share.shareId.isZero .zeroShareId
    rejectIf (share.shareId ∈ seen) .duplicateShare
    rejectIf (share.work = 0) .zeroWork
    if remaining = 0 then .ok byAccount
    else
      let selected := min share.work remaining
      selectWindow (remaining - selected) (share.shareId :: seen)
        (Tally.add share.accountId selected byAccount) older

/-- Select a newest-first work window and allocate every post-fee unit of the reward. -/
def allocatePplns (newestFirst : List WeightedShare) (windowWork rewardZat feeBps : ℕ) :
    Except PplnsError AllocationPlan := do
  rejectIf (windowWork = 0) .zeroWindow
  rejectIf (rewardZat = 0 ∨ rewardZat > maxChainValueZat) (.invalidReward rewardZat)
  rejectIf (feeBps > maxPoolFeeBps) (.feeTooHigh feeBps)
  let byAccount ← selectWindow windowWork [] [] newestFirst
  rejectIf (byAccount = []) .noEligibleWork
  let selectedWork := (byAccount.map (·.2)).sum
  let feeProduct ← checkedMul 64 .arithmeticOverflow rewardZat feeBps
  let poolFeeZat := feeProduct / basisPoints
  let minerRewardZat ← checkedSub .arithmeticOverflow rewardZat poolFeeZat
  let amounts ← largestRemainder 64 .arithmeticOverflow .arithmeticOverflow
    minerRewardZat selectedWork (·.2) (·.1) byAccount
  let plan : AllocationPlan :=
    { selectedWork := selectedWork
      poolFeeZat := poolFeeZat
      accounts := (byAccount.zip amounts).map fun e => ⟨e.1.1, e.1.2, e.2⟩ }
  rejectIf (plan.minerTotalZat + plan.poolFeeZat ≥ 2 ^ 64
    ∨ plan.minerTotalZat + plan.poolFeeZat ≠ rewardZat) .conservationFailure
  pure plan

/-! ## §2. The selected window -/

/-- The work that `account` has inside the window, in closed form: a share counts with its
    work, cut to what the NEWER shares have left of the window. -/
def windowWork (windowWork : ℕ) (newestFirst : List WeightedShare) (account : Uuid) : ℕ :=
  (newestFirst.zipIdx.map fun p =>
    if p.1.accountId = account
    then min p.1.work (windowWork - ((newestFirst.take p.2).map (·.work)).sum) else 0).sum

theorem windowWork_nil (window : ℕ) (a : Uuid) : windowWork window [] a = 0 := rfl

theorem windowWork_cons (window : ℕ) (share : WeightedShare) (older : List WeightedShare)
    (a : Uuid) :
    windowWork window (share :: older) a
      = (if share.accountId = a then min share.work window else 0)
        + windowWork (window - share.work) older a := by
  have htail : (older.zipIdx 1).map (fun p => if p.1.accountId = a
        then min p.1.work (window - (((share :: older).take p.2).map (·.work)).sum) else 0)
      = older.zipIdx.map (fun p => if p.1.accountId = a
        then min p.1.work (window - share.work - ((older.take p.2).map (·.work)).sum) else 0) := by
    rw [show (1 : ℕ) = 0 + 1 from rfl, List.zipIdx_succ, List.map_map]
    refine List.map_congr_left fun p _ => ?_
    simp only [Function.comp, List.take_succ_cons, List.map_cons, List.sum_cons, Nat.sub_sub]
  unfold windowWork
  rw [List.zipIdx_cons, List.map_cons, List.sum_cons, htail]
  simp

theorem windowWork_zero (shares : List WeightedShare) (a : Uuid) : windowWork 0 shares a = 0 := by
  induction shares with
  | nil => rfl
  | cons share older ih =>
    rw [windowWork_cons, Nat.zero_sub, ih]
    simp

variable {byAccount : List (Uuid × ℕ)} {remaining feeBps rewardZat window : ℕ} {seen : List Hex32}
  {newestFirst : List WeightedShare}

/-- **The loop computes the closed form.** -/
theorem amountOf_selectWindow {shares : List WeightedShare} {selected : List (Uuid × ℕ)}
    (h : selectWindow remaining seen byAccount shares = .ok selected) (a : Uuid) :
    Tally.amountOf selected a = Tally.amountOf byAccount a + windowWork remaining shares a := by
  induction shares generalizing remaining seen byAccount with
  | nil =>
    injection h with h
    subst h
    rw [windowWork_nil, Nat.add_zero]
  | cons share older ih =>
    unfold selectWindow at h
    simp only [bind_eq_ok, rejectIf_eq_ok] at h
    obtain ⟨_, -, _, -, _, -, _, -, h⟩ := h
    split at h
    · next hexhausted =>
      injection h with h
      subst h hexhausted
      rw [windowWork_zero, Nat.add_zero]
    · rw [ih h, Tally.amountOf_add, windowWork_cons, Nat.add_assoc]
      congr 2
      -- what the share leaves of the window is the same cut or uncut
      have hcut : remaining - min share.work remaining = remaining - share.work := by omega
      rw [hcut]

/-- The loop keeps the tally in order. -/
theorem selectWindow_ordered {shares : List WeightedShare} {selected : List (Uuid × ℕ)}
    (hm : Tally.Ordered byAccount)
    (h : selectWindow remaining seen byAccount shares = .ok selected) : Tally.Ordered selected := by
  induction shares generalizing remaining seen byAccount with
  | nil =>
    injection h with h
    exact h ▸ hm
  | cons share older ih =>
    unfold selectWindow at h
    simp only [bind_eq_ok, rejectIf_eq_ok] at h
    obtain ⟨_, -, _, -, _, -, _, hwork, h⟩ := h
    split at h
    · injection h with h
      exact h ▸ hm
    · next hopen => exact ih (Tally.ordered_add (by omega) hm) h

/-- The errors of the loop. -/
theorem selectWindow_error {shares : List WeightedShare} {e : PplnsError}
    (h : selectWindow remaining seen byAccount shares = .error e) :
    e ∈ [.nilAccount, .zeroShareId, .duplicateShare, .zeroWork] := by
  induction shares generalizing remaining seen byAccount with
  | nil => simp [selectWindow] at h
  | cons share older ih =>
    unfold selectWindow at h
    simp only [bind_eq_error, rejectIf_eq_error, rejectIf_eq_ok] at h
    -- the first guard that fires gives the error; past all four the loop goes on
    obtain ⟨-, rfl⟩ | ⟨_, -, ⟨-, rfl⟩ | ⟨_, -, ⟨-, rfl⟩ | ⟨_, -, ⟨-, rfl⟩ | ⟨_, -, h⟩⟩⟩⟩ := h
    · simp
    · simp
    · simp
    · simp
    split at h
    · cases h
    · exact ih h

/-! ## §3. The plan of a window -/

/-- The plan that the selected work of a window gets, without the checks. -/
def planFor (byAccount : List (Uuid × ℕ)) (rewardZat feeBps : ℕ) : AllocationPlan :=
  { selectedWork := (byAccount.map (·.2)).sum
    poolFeeZat := rewardZat * feeBps / basisPoints
    accounts := (byAccount.zip (shares (rewardZat - rewardZat * feeBps / basisPoints)
      (byAccount.map (·.2)).sum (·.2) (·.1) byAccount)).map fun e => ⟨e.1.1, e.1.2, e.2⟩ }

theorem planFor_amounts (byAccount : List (Uuid × ℕ)) (rewardZat feeBps : ℕ) :
    (planFor byAccount rewardZat feeBps).accounts.map (·.amountZat)
      = shares (rewardZat - rewardZat * feeBps / basisPoints)
          (byAccount.map (·.2)).sum (·.2) (·.1) byAccount := by
  unfold planFor
  rw [List.map_map]
  exact List.map_snd_zip (by simp)

theorem planFor_entries (byAccount : List (Uuid × ℕ)) (rewardZat feeBps : ℕ) :
    (planFor byAccount rewardZat feeBps).accounts.map (fun e => (e.accountId, e.work))
      = byAccount := by
  unfold planFor
  rw [List.map_map]
  exact List.map_fst_zip (by simp)

/-- A fee within the ceiling is at most the reward. -/
theorem fee_le_reward (rewardZat : ℕ) (hfee : feeBps ≤ maxPoolFeeBps) :
    rewardZat * feeBps / basisPoints ≤ rewardZat := by
  unfold maxPoolFeeBps basisPoints at *
  apply Nat.div_le_of_le_mul
  rw [Nat.mul_comm 10_000]
  exact Nat.mul_le_mul_left _ (by omega)

/-- A selected window has work in it. -/
theorem totalWork_pos (hm : Tally.Ordered byAccount) (hne : byAccount ≠ []) :
    0 < (byAccount.map (·.2)).sum := by
  cases byAccount with
  | nil => exact absurd rfl hne
  | cons e m =>
    have he := hm.pos e List.mem_cons_self
    simp only [List.map_cons, List.sum_cons]
    omega

/-- The miners get all but the fee. -/
theorem planFor_miner_sum (hm : Tally.Ordered byAccount) (hne : byAccount ≠ [])
    (rewardZat feeBps : ℕ) :
    ((planFor byAccount rewardZat feeBps).accounts.map (·.amountZat)).sum
      = rewardZat - rewardZat * feeBps / basisPoints := by
  rw [planFor_amounts]
  exact sum_shares (totalWork_pos hm hne) rfl

/-- Once a window is selected, none of the later checks fires. -/
theorem allocatePplns_of_window (hwindow : window ≠ 0) (hpos : 0 < rewardZat)
    (hmax : rewardZat ≤ maxChainValueZat) (hfee : feeBps ≤ maxPoolFeeBps)
    (hsel : selectWindow window [] [] newestFirst = .ok byAccount) (hne : byAccount ≠ []) :
    allocatePplns newestFirst window rewardZat feeBps
      = .ok (planFor byAccount rewardZat feeBps) := by
  have hm := selectWindow_ordered Tally.ordered_nil hsel
  have hle := fee_le_reward rewardZat hfee
  have hbound : rewardZat * feeBps < 2 ^ 64 := by
    calc rewardZat * feeBps ≤ maxChainValueZat * maxPoolFeeBps := Nat.mul_le_mul hmax hfee
      _ < 2 ^ 64 := by decide
  have hminer : rewardZat - rewardZat * feeBps / basisPoints < 2 ^ 64 :=
    lt_of_le_of_lt ((Nat.sub_le _ _).trans hmax) (by decide)
  unfold allocatePplns
  rw [rejectIf_of_not _ hwindow, ok_bind, rejectIf_of_not _ (by omega), ok_bind,
    rejectIf_of_not _ (by omega), ok_bind, hsel, ok_bind, rejectIf_of_not _ hne, ok_bind]
  dsimp only
  rw [checkedMul_of_lt _ hbound, ok_bind, checkedSub_of_le _ hle, ok_bind,
    largestRemainder_eq_ok _ _ hminer (totalWork_pos hm hne) rfl, ok_bind]
  -- the plan built here is `planFor`, whose miner total is the reward less the fee
  have hsum := planFor_miner_sum hm hne rewardZat feeBps
  have hconserved : (planFor byAccount rewardZat feeBps).minerTotalZat
      + (planFor byAccount rewardZat feeBps).poolFeeZat = rewardZat := by
    unfold AllocationPlan.minerTotalZat
    rw [hsum, Nat.mod_eq_of_lt hminer]
    exact Nat.sub_add_cancel hle
  have hreward : rewardZat < 2 ^ 64 := lt_of_le_of_lt hmax (by decide)
  show (rejectIf ((planFor byAccount rewardZat feeBps).minerTotalZat
        + (planFor byAccount rewardZat feeBps).poolFeeZat ≥ 2 ^ 64
      ∨ (planFor byAccount rewardZat feeBps).minerTotalZat
        + (planFor byAccount rewardZat feeBps).poolFeeZat ≠ rewardZat)
      PplnsError.conservationFailure >>= fun _ => pure (planFor byAccount rewardZat feeBps)) = _
  rw [rejectIf_of_not _ (by omega), ok_bind]
  rfl

/-- **What a successful call establishes.** -/
theorem allocatePplns_spec {plan : AllocationPlan}
    (h : allocatePplns newestFirst window rewardZat feeBps = .ok plan) :
    window ≠ 0 ∧ 0 < rewardZat ∧ rewardZat ≤ maxChainValueZat ∧ feeBps ≤ maxPoolFeeBps ∧
      ∃ byAccount, selectWindow window [] [] newestFirst = .ok byAccount ∧ byAccount ≠ [] ∧
        Tally.Ordered byAccount ∧ plan = planFor byAccount rewardZat feeBps := by
  have h' := h
  unfold allocatePplns at h
  simp only [bind_eq_ok, rejectIf_eq_ok] at h
  obtain ⟨_, hwindow, _, hreward, _, hfee, byAccount, hsel, _, hne, -⟩ := h
  rw [allocatePplns_of_window hwindow (by omega) (by omega) (by omega) hsel hne] at h'
  injection h' with h'
  exact ⟨hwindow, by omega, by omega, by omega, byAccount, hsel, hne,
    selectWindow_ordered Tally.ordered_nil hsel, h'.symm⟩

/-! ## §4. Conservation -/

/-- An error comes from an input check or from the loop, never from the arithmetic after it. -/
theorem allocatePplns_error {e : PplnsError}
    (h : allocatePplns newestFirst window rewardZat feeBps = .error e) :
    e ≠ .arithmeticOverflow ∧ e ≠ .conservationFailure := by
  have h' := h
  unfold allocatePplns at h
  simp only [bind_eq_error, rejectIf_eq_error, rejectIf_eq_ok] at h
  obtain ⟨-, rfl⟩ | ⟨_, hwindow, ⟨-, rfl⟩ | ⟨_, hreward, ⟨-, rfl⟩ | ⟨_, hfee, hsel |
    ⟨byAccount, hsel, ⟨-, rfl⟩ | ⟨_, hne, -⟩⟩⟩⟩⟩ := h
  · simp
  · simp
  · simp
  · have hmem := selectWindow_error hsel
    constructor
    · intro heq
      simp [heq] at hmem
    · intro heq
      simp [heq] at hmem
  · simp
  · rw [allocatePplns_of_window hwindow (by omega) (by omega) (by omega) hsel hne] at h'
    exact absurd h' (by simp)

/-- **Conservation.**  The arithmetic and conservation errors are unreachable, whatever the
    shares, the window, the reward and the fee; a plan takes exactly the disclosed fee, pays
    out every other unit, reports the work it selected and lists the accounts in strictly
    increasing order. -/
theorem allocatePplns_conserves (newestFirst : List WeightedShare) (window rewardZat feeBps : ℕ) :
    allocatePplns newestFirst window rewardZat feeBps ≠ .error .arithmeticOverflow ∧
    allocatePplns newestFirst window rewardZat feeBps ≠ .error .conservationFailure ∧
    ∀ plan, allocatePplns newestFirst window rewardZat feeBps = .ok plan →
      plan.poolFeeZat = rewardZat * feeBps / basisPoints ∧
      plan.poolFeeZat + (plan.accounts.map (·.amountZat)).sum = rewardZat ∧
      plan.selectedWork = (plan.accounts.map (·.work)).sum ∧
      plan.accounts.Pairwise (fun e f => e.accountId < f.accountId) := by
  refine ⟨fun h => (allocatePplns_error h).1 rfl, fun h => (allocatePplns_error h).2 rfl, ?_⟩
  intro plan h
  obtain ⟨-, -, -, hfee, byAccount, -, hne, hm, rfl⟩ := allocatePplns_spec h
  have hentries := planFor_entries byAccount rewardZat feeBps
  refine ⟨rfl, ?_, ?_, ?_⟩
  · have hle := fee_le_reward rewardZat hfee
    rw [planFor_miner_sum hm hne]
    show rewardZat * feeBps / basisPoints + (rewardZat - rewardZat * feeBps / basisPoints)
      = rewardZat
    omega
  · have hworks : (planFor byAccount rewardZat feeBps).accounts.map (·.work)
        = byAccount.map (·.2) := by
      conv_rhs => rw [← hentries, List.map_map]
      rfl
    rw [hworks]
    rfl
  · have hkeys := hm.keys
    rw [← hentries, List.pairwise_map] at hkeys
    exact hkeys

theorem allocatePplns_conserves_three_shares :
    allocatePplns [⟨1, 1, 70⟩, ⟨2, 2, 70⟩, ⟨3, 3, 70⟩] 100 1001 100
      = .ok ⟨100, 10, [⟨1, 70, 694⟩, ⟨2, 30, 297⟩]⟩ ∧ 10 + [694, 297].sum = 1001 :=
  ⟨by decide, ((allocatePplns_conserves [⟨1, 1, 70⟩, ⟨2, 2, 70⟩, ⟨3, 3, 70⟩] 100 1001 100).2.2
    ⟨100, 10, [⟨1, 70, 694⟩, ⟨2, 30, 297⟩]⟩ (by decide)).2.1⟩

/-! ## §5. Fairness -/

/-- **Fairness.**  With `q` the exact share `minerReward * work / selectedWork` of an account:
    the account gets `q` rounded down or up, exactly `q` where `q` is an integer; more selected
    work never gets less; equal work differs by at most one unit, in favour of the smaller UUID. -/
theorem allocatePplns_fair {newestFirst : List WeightedShare} {window rewardZat feeBps : ℕ}
    {plan : AllocationPlan} (h : allocatePplns newestFirst window rewardZat feeBps = .ok plan) :
    (∀ e ∈ plan.accounts,
      let q := (rewardZat - plan.poolFeeZat) * e.work / plan.selectedWork
      (e.amountZat = q ∨ e.amountZat = q + 1) ∧
      (plan.selectedWork ∣ (rewardZat - plan.poolFeeZat) * e.work → e.amountZat = q)) ∧
    (∀ e ∈ plan.accounts, ∀ f ∈ plan.accounts, f.work < e.work → f.amountZat ≤ e.amountZat) ∧
    (∀ e ∈ plan.accounts, ∀ f ∈ plan.accounts, e.work = f.work → e.accountId < f.accountId →
      f.amountZat ≤ e.amountZat ∧ e.amountZat ≤ f.amountZat + 1) := by
  obtain ⟨-, -, -, -, byAccount, -, hne, hm, rfl⟩ := allocatePplns_spec h
  have hpos := totalWork_pos hm hne
  -- an account of the plan is an entry of the tally next to its share of the split
  have hsplit : ∀ e ∈ (planFor byAccount rewardZat feeBps).accounts,
      ((e.accountId, e.work), e.amountZat) ∈ byAccount.zip
        (shares (rewardZat - rewardZat * feeBps / basisPoints) (byAccount.map (·.2)).sum
          (·.2) (·.1) byAccount) := by
    intro e he
    obtain ⟨p, hp, rfl⟩ := List.mem_map.mp he
    exact hp
  refine ⟨fun e he => ⟨?_, fun hdvd => ?_⟩, fun e he f hf hlt => ?_, fun e he f hf heq hid => ?_⟩
  · cases share_floor_or_succ hpos rfl (hsplit e he) with
    | inl hfloor => exact Or.inl hfloor
    | inr hceil => exact Or.inr hceil.1
  · exact share_of_dvd hpos rfl (hsplit e he) hdvd
  · exact share_mono hpos rfl (hsplit e he) (hsplit f hf) hlt
  · exact share_tie (hsplit e he) (hsplit f hf) heq hid

theorem allocatePplns_fair_three_accounts :
    allocatePplns [⟨1, 2, 1⟩, ⟨2, 1, 1⟩, ⟨3, 3, 1⟩] 3 2 0
      = .ok ⟨3, 0, [⟨1, 1, 1⟩, ⟨2, 1, 1⟩, ⟨3, 1, 0⟩]⟩ ∧ 0 ≤ 1 ∧ 1 ≤ 0 + 1 :=
  ⟨by decide, (allocatePplns_fair
    (show allocatePplns [⟨1, 2, 1⟩, ⟨2, 1, 1⟩, ⟨3, 3, 1⟩] 3 2 0
      = .ok ⟨3, 0, [⟨1, 1, 1⟩, ⟨2, 1, 1⟩, ⟨3, 1, 0⟩]⟩ by decide)).2.2
    ⟨2, 1, 1⟩ (by decide) ⟨3, 1, 0⟩ (by decide) rfl (by decide)⟩

end WcashPool.Accounting
