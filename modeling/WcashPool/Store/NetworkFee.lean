/-
  WcashPool.Store.NetworkFee — who pays the network fee of a payout
  (`deduct_network_fee_reserve`, `allocate_actual_network_fee`).

  A batch reserves the gross liability of every account and takes a MAXIMUM fee
  off the outputs, in proportion to the liabilities.  When the transaction
  confirms, the fee that was really paid is charged in proportion to those
  reserves and the rest goes back.  Both splits are the largest-remainder method
  with ties broken by account and allocation.

  Main results: `deductNetworkFeeReserve_exact`,
  `deductNetworkFeeReserve_not_gross` and
  `allocateActualNetworkFee_within_reserve`.
-/
import Mathlib.Data.Prod.Lex
import WcashPool.Lib.LargestRemainder
import WcashPool.Store.Error

namespace WcashPool.Store

open Fallible LargestRemainder

/-! ## §1. Payout outputs -/

/-- Receiver class attested by an authoritative chain address parser. -/
inductive ReceiverKind
  | transparent
  | ironwood
deriving DecidableEq, Repr

/-- One exact output in an accounting-reserved payout batch. -/
structure PayoutInstruction where
  allocationId : Uuid
  accountId : Uuid
  destinationId : Uuid
  receiverKind : ReceiverKind
  address : Text
  liabilityAmountZat : ℕ
  amountZat : ℕ
deriving DecidableEq, Repr

namespace PayoutInstruction

/-- Ties go to the smaller account, then to the smaller allocation. -/
def key (output : PayoutInstruction) : Uuid ×ₗ Uuid := toLex (output.accountId, output.allocationId)

/-- What the output contributes to the fee reserve. -/
def reserve (output : PayoutInstruction) : ℕ := output.liabilityAmountZat - output.amountZat

end PayoutInstruction

/-! ## §2. The two fee splits -/

/-- The gross total; every output must still carry its whole, positive liability. -/
def grossTotal : ℕ → List PayoutInstruction → Except StoreError ℕ
  | sum, [] => .ok sum
  | sum, output :: outputs => do
    rejectIf (output.liabilityAmountZat = 0 ∨ output.amountZat ≠ output.liabilityAmountZat)
      .invalidPayoutBatch
    let sum ← checkedAdd 64 .moneyOverflow sum output.liabilityAmountZat
    grossTotal sum outputs

/-- Take each contribution off its output, which must stay positive. -/
def takeContributions : List (PayoutInstruction × ℕ) → Except StoreError (List PayoutInstruction)
  | [] => .ok []
  | (output, contribution) :: rest => do
    let amount ← checkedSub .excessivePayoutFee output.liabilityAmountZat contribution
    rejectIf (amount = 0) .excessivePayoutFee
    let rest ← takeContributions rest
    pure ({ output with amountZat := amount } :: rest)

/-- Deduct one immutable fee reserve from gross account liabilities. -/
def deductNetworkFeeReserve (outputs : List PayoutInstruction) (maximumFeeZat : ℕ) :
    Except StoreError (List PayoutInstruction) := do
  rejectIf (outputs = [] ∨ maximumFeeZat = 0) .invalidPayoutBatch
  let total ← grossTotal 0 outputs
  rejectIf (maximumFeeZat ≥ total ∨ ∃ output ∈ outputs, maximumFeeZat ≥ output.liabilityAmountZat)
    .excessivePayoutFee
  let contributions ← largestRemainder 64 .moneyOverflow
    (.corruptDatabaseState "payout fee reserve rounding")
    maximumFeeZat total (·.liabilityAmountZat) PayoutInstruction.key outputs
  takeContributions (outputs.zip contributions)

/-- The sum of the reserves; no output may exceed its liability. -/
def reserveTotal : ℕ → List PayoutInstruction → Except StoreError ℕ
  | sum, [] => .ok sum
  | sum, output :: outputs => do
    let reserve ← checkedSub (.corruptDatabaseState "payout fee contribution")
      output.liabilityAmountZat output.amountZat
    let sum ← checkedAdd 64 .moneyOverflow sum reserve
    reserveTotal sum outputs

/-- Allocate the signer's actual fee across the previously reserved contributions. -/
def allocateActualNetworkFee (outputs : List PayoutInstruction) (actualFeeZat : ℕ) :
    Except StoreError (List ℕ) := do
  let total ← reserveTotal 0 outputs
  rejectIf (total = 0 ∨ actualFeeZat = 0 ∨ actualFeeZat > total) .excessivePayoutFee
  let contributions ← largestRemainder 64 .moneyOverflow
    (.corruptDatabaseState "actual payout fee rounding")
    actualFeeZat total PayoutInstruction.reserve PayoutInstruction.key outputs
  rejectIf (∃ p ∈ outputs.zip contributions, p.2 > p.1.reserve)
    (.corruptDatabaseState "actual payout fee contribution")
  pure contributions

/-! ## §3. What the reserve establishes -/

/-- The gross liability of a list of outputs. -/
def liabilityTotal (outputs : List PayoutInstruction) : ℕ := (outputs.map (·.liabilityAmountZat)).sum

/-- An output with a contribution taken off its liability. -/
def PayoutInstruction.less (p : PayoutInstruction × ℕ) : PayoutInstruction :=
  { p.1 with amountZat := p.1.liabilityAmountZat - p.2 }

/-- The outputs with the fee taken off, without the checks. -/
def withReserve (outputs : List PayoutInstruction) (maximumFeeZat : ℕ) : List PayoutInstruction :=
  (outputs.zip (shares maximumFeeZat (liabilityTotal outputs) (·.liabilityAmountZat)
    PayoutInstruction.key outputs)).map PayoutInstruction.less

variable {outputs : List PayoutInstruction}

/-- When the liabilities add up. -/
theorem grossTotal_eq_ok_iff {sum total : ℕ} (hsum : sum < 2 ^ 64) :
    grossTotal sum outputs = .ok total ↔
      (∀ o ∈ outputs, 0 < o.liabilityAmountZat ∧ o.amountZat = o.liabilityAmountZat) ∧
        total = sum + liabilityTotal outputs ∧ total < 2 ^ 64 := by
  unfold liabilityTotal
  induction outputs generalizing sum with
  | nil =>
    simp only [grossTotal, List.map_nil, List.sum_nil, List.not_mem_nil]
    constructor
    · intro h
      injection h with h
      exact ⟨fun o ho => absurd ho (by simp), by omega, by omega⟩
    · intro h
      rw [h.2.1, Nat.add_zero]
  | cons o outputs ih =>
    unfold grossTotal
    simp only [bind_eq_ok, rejectIf_eq_ok, checkedAdd_eq_ok, List.map_cons, List.sum_cons,
      List.forall_mem_cons]
    constructor
    · intro h
      obtain ⟨_, hgross, _, ⟨hfit, rfl⟩, h⟩ := h
      obtain ⟨hall, htotal, hlt⟩ := (ih hfit).mp h
      exact ⟨⟨⟨by omega, by omega⟩, hall⟩, by omega, hlt⟩
    · intro h
      obtain ⟨⟨⟨hpos, heq⟩, hall⟩, htotal, hlt⟩ := h
      refine ⟨(), by omega, _, ⟨by omega, rfl⟩, (ih (by omega)).mpr ⟨hall, by omega, hlt⟩⟩

/-- Each output gives its contribution. -/
theorem takeContributions_eq_ok {ps : List (PayoutInstruction × ℕ)}
    (h : ∀ p ∈ ps, p.2 < p.1.liabilityAmountZat) :
    takeContributions ps = .ok (ps.map PayoutInstruction.less) := by
  induction ps with
  | nil => rfl
  | cons p ps ih =>
    obtain ⟨output, contribution⟩ := p
    have hlt := h _ List.mem_cons_self
    simp only at hlt
    unfold takeContributions
    rw [checkedSub_of_le _ hlt.le, ok_bind, rejectIf_of_not _ (by omega), ok_bind,
      ih (fun p hp => h p (List.mem_cons_of_mem _ hp)), ok_bind]
    rfl

theorem liability_le_total {o : PayoutInstruction} (ho : o ∈ outputs) :
    o.liabilityAmountZat ≤ liabilityTotal outputs :=
  List.single_le_sum (fun _ _ => Nat.zero_le _) _ (List.mem_map_of_mem ho)

theorem liabilityTotal_pos (hne : outputs ≠ []) (hpos : ∀ o ∈ outputs, 0 < o.liabilityAmountZat) :
    0 < liabilityTotal outputs := by
  obtain ⟨o, ho⟩ := List.exists_mem_of_ne_nil _ hne
  exact lt_of_lt_of_le (hpos o ho) (liability_le_total ho)

/-- Nobody contributes more than the whole fee. -/
theorem contribution_le_fee {fee : ℕ} (hpos : 0 < liabilityTotal outputs)
    {p : PayoutInstruction × ℕ}
    (hp : p ∈ outputs.zip (shares fee (liabilityTotal outputs) (·.liabilityAmountZat)
      PayoutInstruction.key outputs)) : p.2 ≤ fee := by
  have hmem := (List.of_mem_zip hp).2
  have hle := List.single_le_sum (fun _ _ => Nat.zero_le _) _ hmem
  rwa [sum_shares hpos rfl] at hle

/-- **The reserve succeeds on gross outputs above the fee.** -/
theorem deductNetworkFeeReserve_eq_ok {fee : ℕ} (hne : outputs ≠ [])
    (hgross : ∀ o ∈ outputs, 0 < o.liabilityAmountZat ∧ o.amountZat = o.liabilityAmountZat)
    (hfit : liabilityTotal outputs < 2 ^ 64) (hfee : 0 < fee)
    (hsmall : ∀ o ∈ outputs, fee < o.liabilityAmountZat) :
    deductNetworkFeeReserve outputs fee = .ok (withReserve outputs fee) := by
  have hpos := liabilityTotal_pos hne (fun o ho => (hgross o ho).1)
  have htotal : grossTotal 0 outputs = .ok (liabilityTotal outputs) :=
    (grossTotal_eq_ok_iff (by decide)).mpr ⟨hgross, by omega, hfit⟩
  obtain ⟨o, ho⟩ := List.exists_mem_of_ne_nil _ hne
  have hlt : fee < liabilityTotal outputs := lt_of_lt_of_le (hsmall o ho) (liability_le_total ho)
  have hnot : ¬ (fee ≥ liabilityTotal outputs ∨ ∃ o ∈ outputs, fee ≥ o.liabilityAmountZat) := by
    rintro (h | ⟨o, ho, h⟩)
    · omega
    · exact absurd (hsmall o ho) (by omega)
  unfold deductNetworkFeeReserve
  rw [rejectIf_of_not _ (by simp only [hne, false_or]; omega), ok_bind, htotal, ok_bind,
    rejectIf_of_not _ hnot, ok_bind, largestRemainder_eq_ok _ _ (by omega) hpos rfl, ok_bind]
  apply takeContributions_eq_ok
  intro p hp
  exact lt_of_le_of_lt (contribution_le_fee hpos hp) (hsmall _ (List.of_mem_zip hp).1)

/-- **What a successful reserve establishes.** -/
theorem deductNetworkFeeReserve_spec {result : List PayoutInstruction} {fee : ℕ}
    (h : deductNetworkFeeReserve outputs fee = .ok result) :
    outputs ≠ [] ∧ 0 < fee ∧
      (∀ o ∈ outputs, 0 < o.liabilityAmountZat ∧ o.amountZat = o.liabilityAmountZat) ∧
      liabilityTotal outputs < 2 ^ 64 ∧ (∀ o ∈ outputs, fee < o.liabilityAmountZat) ∧
      result = withReserve outputs fee := by
  have h' := h
  unfold deductNetworkFeeReserve at h
  simp only [bind_eq_ok, rejectIf_eq_ok] at h
  obtain ⟨_, hinput, total, htotal, _, hsmall, -⟩ := h
  obtain ⟨hgross, rfl, hfit⟩ := (grossTotal_eq_ok_iff (by decide)).mp htotal
  have hne : outputs ≠ [] := fun hnil => hinput (Or.inl hnil)
  have hfee : 0 < fee := Nat.pos_of_ne_zero fun hzero => hinput (Or.inr hzero)
  have hbelow : ∀ o ∈ outputs, fee < o.liabilityAmountZat := fun o ho =>
    not_le.mp fun hle => hsmall (Or.inr ⟨o, ho, hle⟩)
  rw [Nat.zero_add] at hfit
  rw [deductNetworkFeeReserve_eq_ok hne hgross hfit hfee hbelow] at h'
  injection h' with h'
  exact ⟨hne, hfee, hgross, hfit, hbelow, h'.symm⟩

section Reserve

variable {outputs : List PayoutInstruction} {fee : ℕ}

/-- An output of the reserve is an output of the batch next to its share of the fee. -/
theorem mem_withReserve {r : PayoutInstruction} (hr : r ∈ withReserve outputs fee)
    (hpos : 0 < liabilityTotal outputs) (hsmall : ∀ o ∈ outputs, fee < o.liabilityAmountZat) :
    ∃ o ∈ outputs, (o, r.reserve) ∈ outputs.zip (shares fee (liabilityTotal outputs)
        (·.liabilityAmountZat) PayoutInstruction.key outputs) ∧
      r.liabilityAmountZat = o.liabilityAmountZat ∧ 0 < r.amountZat ∧
      r.amountZat ≤ r.liabilityAmountZat := by
  obtain ⟨⟨o, c⟩, hp, rfl⟩ := List.mem_map.mp hr
  have ho := (List.of_mem_zip hp).1
  have hc : c < o.liabilityAmountZat :=
    lt_of_le_of_lt (contribution_le_fee hpos hp) (hsmall o ho)
  have hreserve : PayoutInstruction.reserve (PayoutInstruction.less (o, c)) = c := by
    show o.liabilityAmountZat - (o.liabilityAmountZat - c) = c
    omega
  refine ⟨o, ho, ?_, rfl, ?_, Nat.sub_le _ _⟩
  · rw [hreserve]
    exact hp
  · show 0 < o.liabilityAmountZat - c
    omega

/-- Only the amount of an output changes. -/
theorem origin_withReserve {r : PayoutInstruction} (hr : r ∈ withReserve outputs fee) :
    ∃ o ∈ outputs, r.accountId = o.accountId ∧ r.liabilityAmountZat = o.liabilityAmountZat := by
  obtain ⟨p, hp, rfl⟩ := List.mem_map.mp hr
  exact ⟨p.1, (List.of_mem_zip hp).1, rfl, rfl⟩

theorem liabilities_withReserve :
    (withReserve outputs fee).map (·.liabilityAmountZat) = outputs.map (·.liabilityAmountZat) := by
  unfold withReserve
  rw [List.map_map]
  show (outputs.zip _).map ((·.liabilityAmountZat) ∘ Prod.fst) = _
  rw [← List.map_map, List.map_fst_zip (by rw [length_shares])]

theorem liabilityTotal_withReserve :
    liabilityTotal (withReserve outputs fee) = liabilityTotal outputs :=
  congrArg List.sum liabilities_withReserve

theorem withReserve_ne_nil (hne : outputs ≠ []) : withReserve outputs fee ≠ [] := by
  intro hnil
  have hlength := congrArg List.length hnil
  unfold withReserve at hlength
  rw [List.length_map, List.length_zip, length_shares, min_self, List.length_nil] at hlength
  exact hne (List.eq_nil_of_length_eq_zero hlength)

/-- The reserves are the shares of the fee. -/
theorem reserves_withReserve (hpos : 0 < liabilityTotal outputs)
    (hsmall : ∀ o ∈ outputs, fee < o.liabilityAmountZat) :
    (withReserve outputs fee).map PayoutInstruction.reserve
      = shares fee (liabilityTotal outputs) (·.liabilityAmountZat) PayoutInstruction.key outputs := by
  unfold withReserve
  rw [List.map_map]
  refine Eq.trans (List.map_congr_left ?_) (List.map_snd_zip (by rw [length_shares]))
  intro p hp
  have hc := lt_of_le_of_lt (contribution_le_fee hpos hp) (hsmall _ (List.of_mem_zip hp).1)
  show p.1.liabilityAmountZat - (p.1.liabilityAmountZat - p.2) = p.2
  omega

/-- The fee is reserved exactly. -/
theorem sum_reserves_withReserve (hpos : 0 < liabilityTotal outputs)
    (hsmall : ∀ o ∈ outputs, fee < o.liabilityAmountZat) :
    ((withReserve outputs fee).map PayoutInstruction.reserve).sum = fee := by
  rw [reserves_withReserve hpos hsmall, sum_shares hpos rfl]

/-- With distinct keys ONE function of the output gives the result, for every listing of the
    same outputs. -/
theorem withReserve_eq_map (hkeys : (outputs.map PayoutInstruction.key).Nodup) :
    withReserve outputs fee = outputs.map fun o =>
      PayoutInstruction.less (o, rankShare fee (liabilityTotal outputs) (·.liabilityAmountZat)
        PayoutInstruction.key outputs o) := by
  unfold withReserve
  rw [shares_eq_map_rankShare _ _ _ _ hkeys, ← List.map_prod_left_eq_zip, List.map_map]
  rfl

end Reserve

/-- **The fee reserve is exact.**  On a nonempty list of gross outputs, all above a positive
    fee: the call succeeds; only the amounts change; every output stays positive; the
    contributions add up to the fee; each is the proportional part rounded down or up; a larger
    liability never contributes less; and with distinct keys one function of the output gives
    the result whatever the listing order. -/
theorem deductNetworkFeeReserve_exact (outputs : List PayoutInstruction) (fee : ℕ)
    (hne : outputs ≠ [])
    (hgross : ∀ o ∈ outputs, 0 < o.liabilityAmountZat ∧ o.amountZat = o.liabilityAmountZat)
    (hfit : (outputs.map (·.liabilityAmountZat)).sum < 2 ^ 64) (hfee : 1 ≤ fee)
    (hsmall : ∀ o ∈ outputs, fee < o.liabilityAmountZat) :
    ∃ result, deductNetworkFeeReserve outputs fee = .ok result ∧
      (result.map fun r => { r with amountZat := r.liabilityAmountZat }) = outputs ∧
      (∀ r ∈ result, 0 < r.amountZat ∧ r.amountZat ≤ r.liabilityAmountZat) ∧
      (result.map PayoutInstruction.reserve).sum = fee ∧
      (∀ r ∈ result, let total := (outputs.map (·.liabilityAmountZat)).sum
        r.reserve = fee * r.liabilityAmountZat / total ∨
        r.reserve = (fee * r.liabilityAmountZat + (total - 1)) / total) ∧
      (∀ r ∈ result, ∀ s ∈ result, s.liabilityAmountZat < r.liabilityAmountZat →
        s.reserve ≤ r.reserve) ∧
      ((outputs.map PayoutInstruction.key).Nodup →
        ∃ f : PayoutInstruction → PayoutInstruction, result = outputs.map f ∧
          ∀ relisted, relisted.Perm outputs →
            deductNetworkFeeReserve relisted fee = .ok (relisted.map f)) := by
  have hpos := liabilityTotal_pos hne (fun o ho => (hgross o ho).1)
  refine ⟨withReserve outputs fee, deductNetworkFeeReserve_eq_ok hne hgross hfit hfee hsmall,
    ?_, ?_, sum_reserves_withReserve hpos hsmall, ?_, ?_, ?_⟩
  · -- restoring the amounts gives back the gross outputs
    unfold withReserve
    rw [List.map_map]
    refine Eq.trans (List.map_congr_left ?_) (List.map_fst_zip (by rw [length_shares]))
    intro p hp
    have hp' := (hgross p.1 (List.of_mem_zip hp).1).2
    show { p.1 with amountZat := p.1.liabilityAmountZat } = p.1
    rw [← hp']
  · intro r hr
    obtain ⟨o, -, -, -, hamount⟩ := mem_withReserve hr hpos hsmall
    exact hamount
  · intro r hr
    obtain ⟨o, -, hzip, hliab, -⟩ := mem_withReserve hr hpos hsmall
    rw [hliab]
    cases share_floor_or_succ hpos rfl hzip with
    | inl hfloor => exact Or.inl hfloor
    | inr hceil =>
      -- a quota that is not whole has its ceiling one above its floor
      refine Or.inr (hceil.1.trans ?_)
      have hmod : fee * o.liabilityAmountZat % liabilityTotal outputs ≠ 0 := fun hzero =>
        hceil.2 (Nat.dvd_of_mod_eq_zero hzero)
      have hdiv := Nat.div_add_mod (fee * o.liabilityAmountZat) (liabilityTotal outputs)
      have hlt := Nat.mod_lt (fee * o.liabilityAmountZat) hpos
      symm
      apply Nat.div_eq_of_lt_le
      · rw [Nat.add_mul, Nat.one_mul, Nat.mul_comm (_ / _)]
        unfold liabilityTotal at *
        omega
      · rw [Nat.succ_mul, Nat.add_mul, Nat.one_mul, Nat.mul_comm (_ / _)]
        unfold liabilityTotal at *
        omega
  · intro r hr s hs hlt
    obtain ⟨o, -, hzip, hliab, -⟩ := mem_withReserve hr hpos hsmall
    obtain ⟨o', -, hzip', hliab', -⟩ := mem_withReserve hs hpos hsmall
    rw [hliab, hliab'] at hlt
    exact share_mono hpos rfl hzip hzip' hlt
  · intro hkeys
    refine ⟨_, withReserve_eq_map hkeys, ?_⟩
    intro relisted hperm
    have htotal : liabilityTotal relisted = liabilityTotal outputs := (hperm.map _).sum_eq
    have hkeys' : (relisted.map PayoutInstruction.key).Nodup :=
      (hperm.map PayoutInstruction.key).nodup_iff.mpr hkeys
    have hne' : relisted ≠ [] := by
      intro hnil
      subst hnil
      exact hne hperm.nil_eq.symm
    rw [deductNetworkFeeReserve_eq_ok hne'
      (fun o ho => hgross o (hperm.mem_iff.mp ho)) (by rw [htotal]; exact hfit) hfee
      (fun o ho => hsmall o (hperm.mem_iff.mp ho)), withReserve_eq_map hkeys', htotal,
      rankShare_perm _ _ _ _ hperm]

theorem deductNetworkFeeReserve_exact_three_outputs :
    ∃ result, deductNetworkFeeReserve
        [⟨11, 1, 21, .ironwood, [], 5, 5⟩, ⟨12, 2, 22, .ironwood, [], 7, 7⟩,
          ⟨13, 3, 23, .ironwood, [], 8, 8⟩] 4 = .ok result ∧
      (result.map PayoutInstruction.reserve).sum = 4 := by
  obtain ⟨result, hok, -, -, hsum, -⟩ := deductNetworkFeeReserve_exact
    [⟨11, 1, 21, .ironwood, [], 5, 5⟩, ⟨12, 2, 22, .ironwood, [], 7, 7⟩,
      ⟨13, 3, 23, .ironwood, [], 8, 8⟩] 4 (by decide) (by decide) (by decide) (by decide)
    (by decide)
  exact ⟨result, hok, hsum⟩

/-- An output that pays less than its liability before the reserve is taken is refused. -/
theorem deductNetworkFeeReserve_not_gross :
    let outputs : List PayoutInstruction := [⟨11, 1, 21, .ironwood, [], 5, 4⟩]
    (outputs ≠ [] ∧ (∀ o ∈ outputs, 0 < o.liabilityAmountZat) ∧
      (outputs.map (·.liabilityAmountZat)).sum < 2 ^ 64 ∧ ∀ o ∈ outputs, 1 < o.liabilityAmountZat) ∧
      deductNetworkFeeReserve outputs 1 = .error .invalidPayoutBatch :=
  ⟨by decide, rfl⟩

/-! ## §4. What the charge establishes -/

/-- What the outputs reserve for the fee altogether. -/
def reserveSum (outputs : List PayoutInstruction) : ℕ :=
  (outputs.map PayoutInstruction.reserve).sum

/-- When the reserves add up. -/
theorem reserveTotal_eq_ok_iff {sum total : ℕ} (hsum : sum < 2 ^ 64) :
    reserveTotal sum outputs = .ok total ↔
      (∀ o ∈ outputs, o.amountZat ≤ o.liabilityAmountZat) ∧
        total = sum + reserveSum outputs ∧ total < 2 ^ 64 := by
  unfold reserveSum
  induction outputs generalizing sum with
  | nil =>
    simp only [reserveTotal, List.map_nil, List.sum_nil, List.not_mem_nil]
    constructor
    · intro h
      injection h with h
      exact ⟨fun o ho => absurd ho (by simp), by omega, by omega⟩
    · intro h
      rw [h.2.1, Nat.add_zero]
  | cons o outputs ih =>
    unfold reserveTotal
    simp only [bind_eq_ok, checkedSub_eq_ok, checkedAdd_eq_ok, List.map_cons, List.sum_cons,
      List.forall_mem_cons]
    constructor
    · intro h
      obtain ⟨_, ⟨hle, rfl⟩, _, ⟨hfit, rfl⟩, h⟩ := h
      obtain ⟨hall, htotal, hlt⟩ := (ih hfit).mp h
      exact ⟨⟨hle, hall⟩, by unfold PayoutInstruction.reserve at *; omega, hlt⟩
    · intro h
      obtain ⟨⟨hle, hall⟩, htotal, hlt⟩ := h
      have ho : o.reserve = o.liabilityAmountZat - o.amountZat := rfl
      exact ⟨_, ⟨hle, rfl⟩, _, ⟨by omega, rfl⟩, (ih (by omega)).mpr ⟨hall, by omega, hlt⟩⟩

/-- The charges of an actual fee, without the checks. -/
def charges (outputs : List PayoutInstruction) (actualFeeZat : ℕ) : List ℕ :=
  shares actualFeeZat (reserveSum outputs) PayoutInstruction.reserve PayoutInstruction.key outputs

/-- **The charge succeeds whenever the actual fee is positive and was reserved.**  The rounding
    and contribution errors cannot occur. -/
theorem allocateActualNetworkFee_eq_ok {actual : ℕ}
    (hle : ∀ o ∈ outputs, o.amountZat ≤ o.liabilityAmountZat) (hfit : reserveSum outputs < 2 ^ 64)
    (hpos : 0 < actual) (hactual : actual ≤ reserveSum outputs) :
    allocateActualNetworkFee outputs actual = .ok (charges outputs actual) := by
  have hreserve : 0 < reserveSum outputs := by omega
  have htotal : reserveTotal 0 outputs = .ok (reserveSum outputs) :=
    (reserveTotal_eq_ok_iff (by decide)).mpr ⟨hle, by omega, hfit⟩
  unfold allocateActualNetworkFee
  rw [htotal, ok_bind, rejectIf_of_not _ (by omega), ok_bind,
    largestRemainder_eq_ok _ _ (by omega) hreserve rfl, ok_bind, rejectIf_of_not, ok_bind]
  · rfl
  · -- a charge above its own reserve would be a share above its weight
    rintro ⟨p, hp, hgt⟩
    exact absurd (share_le_weight hreserve rfl hactual hp) (not_le.mpr hgt)

/-- **What a successful charge establishes.** -/
theorem allocateActualNetworkFee_spec {actual : ℕ} {result : List ℕ}
    (h : allocateActualNetworkFee outputs actual = .ok result) :
    (∀ o ∈ outputs, o.amountZat ≤ o.liabilityAmountZat) ∧ reserveSum outputs < 2 ^ 64 ∧
      0 < actual ∧ actual ≤ reserveSum outputs ∧ result = charges outputs actual := by
  have h' := h
  unfold allocateActualNetworkFee at h
  simp only [bind_eq_ok, rejectIf_eq_ok] at h
  obtain ⟨total, htotal, _, hactual, -⟩ := h
  obtain ⟨hle, rfl, hfit⟩ := (reserveTotal_eq_ok_iff (by decide)).mp htotal
  rw [Nat.zero_add] at hactual hfit
  rw [allocateActualNetworkFee_eq_ok hle hfit (by omega) (by omega)] at h'
  injection h' with h'
  exact ⟨hle, hfit, by omega, by omega, h'.symm⟩

section Charges

variable {outputs : List PayoutInstruction} {actual : ℕ}

@[simp] theorem length_charges : (charges outputs actual).length = outputs.length := length_shares

/-- The charges add up to the actual fee. -/
theorem sum_charges (hreserve : 0 < reserveSum outputs) : (charges outputs actual).sum = actual :=
  sum_shares hreserve rfl

/-- Nobody is charged beyond its reserve. -/
theorem charge_le_reserve (hreserve : 0 < reserveSum outputs) (hactual : actual ≤ reserveSum outputs)
    {p : PayoutInstruction × ℕ} (hp : p ∈ outputs.zip (charges outputs actual)) :
    p.2 ≤ p.1.reserve :=
  share_le_weight hreserve rfl hactual hp

end Charges

/-- **The actual fee stays within the reserve.**  On the outputs of a successful reserve and for
    every actual fee up to it: the call succeeds; the charges add up to the actual fee; nobody
    is charged beyond its own reserve, in particular nothing without one; charging the whole
    reserve charges each reserve; and the refunds add up to what is left. -/
theorem allocateActualNetworkFee_within_reserve {gross outputs : List PayoutInstruction}
    {fee actual : ℕ} (hreserve : deductNetworkFeeReserve gross fee = .ok outputs)
    (hpos : 1 ≤ actual) (hactual : actual ≤ (outputs.map PayoutInstruction.reserve).sum) :
    ∃ result, allocateActualNetworkFee outputs actual = .ok result ∧
      result.length = outputs.length ∧ result.sum = actual ∧
      (∀ p ∈ outputs.zip result, p.2 ≤ p.1.reserve ∧ (p.1.reserve = 0 → p.2 = 0)) ∧
      (actual = (outputs.map PayoutInstruction.reserve).sum →
        result = outputs.map PayoutInstruction.reserve) ∧
      ((outputs.zip result).map fun p => p.1.reserve - p.2).sum
        = (outputs.map PayoutInstruction.reserve).sum - actual := by
  obtain ⟨hne, hfee, hgross, hfit, hsmall, rfl⟩ := deductNetworkFeeReserve_spec hreserve
  have htotal := liabilityTotal_pos hne (fun o ho => (hgross o ho).1)
  have hsum : reserveSum (withReserve gross fee) = fee := sum_reserves_withReserve htotal hsmall
  have hle : ∀ o ∈ withReserve gross fee, o.amountZat ≤ o.liabilityAmountZat := by
    intro o ho
    obtain ⟨_, -, -, -, -, h⟩ := mem_withReserve ho htotal hsmall
    exact h
  obtain ⟨o, ho⟩ := List.exists_mem_of_ne_nil _ hne
  have hfee64 : fee < 2 ^ 64 :=
    lt_of_lt_of_le (hsmall o ho) ((liability_le_total ho).trans hfit.le)
  have hrpos : 0 < reserveSum (withReserve gross fee) := by omega
  have hcharges : (charges (withReserve gross fee) actual).sum = actual := sum_charges hrpos
  have hwithin : ∀ p ∈ (withReserve gross fee).zip (charges (withReserve gross fee) actual),
      p.2 ≤ p.1.reserve := fun p hp => charge_le_reserve hrpos hactual hp
  refine ⟨charges (withReserve gross fee) actual,
    allocateActualNetworkFee_eq_ok hle (by omega) hpos hactual, length_charges, hcharges,
    fun p hp => ⟨hwithin p hp, fun hzero => ?_⟩, fun heq => ?_, ?_⟩
  · have := hwithin p hp
    omega
  · subst heq
    exact shares_self hrpos rfl
  · exact sum_weight_sub_share hrpos rfl hactual

theorem allocateActualNetworkFee_within_reserve_two_outputs :
    ∃ result, allocateActualNetworkFee
        [⟨11, 1, 21, .ironwood, [], 50, 48⟩, ⟨12, 2, 22, .ironwood, [], 70, 67⟩] 3 = .ok result ∧
      result.sum = 3 := by
  have hreserve : deductNetworkFeeReserve
      [⟨11, 1, 21, .ironwood, [], 50, 50⟩, ⟨12, 2, 22, .ironwood, [], 70, 70⟩] 5
      = .ok [⟨11, 1, 21, .ironwood, [], 50, 48⟩, ⟨12, 2, 22, .ironwood, [], 70, 67⟩] := by decide
  obtain ⟨result, hok, -, hsum, -⟩ := allocateActualNetworkFee_within_reserve hreserve
    (show 1 ≤ 3 by decide) (by decide)
  exact ⟨result, hok, hsum⟩

end WcashPool.Store
