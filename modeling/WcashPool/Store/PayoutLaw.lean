/-
  WcashPool.Store.PayoutLaw — the ledger of a batch is a function of its state.

  The counterpart of `WinnerLaw` for payouts: whatever calls were made, the
  lines posted under a batch AGREE with the effect of the state it is in.  A
  live batch holds its reservation, a released one holds nothing, and a settled
  one holds reservation and settlement together.

  Main results: `PayoutStep.batchInv`, `EventStep.batchInv` and
  `PayoutBatchRow.Sound.settled`.
-/
import WcashPool.Store.PayoutLifecycle
import WcashPool.Store.WinnerLaw

namespace WcashPool.Store

open DoubleEntry

/-! ## §1. The effect of a state -/

/-- The states of a batch whose payment entered the ledger. -/
def PayoutBatchState.isSettled : PayoutBatchState → Bool
  | .confirmed | .reorged => true
  | _ => false

/-- The lines of a reservation and of its settlement. -/
def settledEffect (outputs : List PayoutInstruction) (feeZat : ℕ) : List LedgerEntry :=
  reservedEntries outputs ++ settledEntries outputs (charges outputs feeZat) feeZat

/-- The net lines that a batch in its state stands for. -/
def PayoutBatchRow.effect (row : PayoutBatchRow) : List LedgerEntry :=
  match row.state with
  | .confirmed | .reorged => settledEffect row.outputs (row.networkFeeZat.getD 0)
  | .cancelled | .expired => []
  | _ => reservedEntries row.outputs

namespace PayoutBatchRow

variable (row : PayoutBatchRow)

theorem effect_of_live (h : row.state.isLive) : row.effect = reservedEntries row.outputs := by
  unfold effect
  cases hstate : row.state <;> simp_all [PayoutBatchState.isLive]

theorem effect_of_released (h : row.state.isReleased) : row.effect = [] := by
  unfold effect
  cases hstate : row.state <;> simp_all [PayoutBatchState.isReleased]

theorem effect_of_settled (h : row.state.isSettled) {fee : ℕ} (hfee : row.networkFeeZat = some fee) :
    row.effect = settledEffect row.outputs fee := by
  unfold effect
  cases hstate : row.state <;> simp_all [PayoutBatchState.isSettled]

/-- Every batch is live, released or settled. -/
theorem state_cases :
    row.state.isLive ∨ row.state.isReleased ∨ row.state.isSettled := by
  cases row.state <;> decide

end PayoutBatchRow

theorem PayoutBatchState.isSigned_of_isSettled {state : PayoutBatchState} (h : state.isSettled) :
    state.isSigned := by
  cases state <;> simp_all [isSettled, isSigned]

theorem PayoutBatchState.isLive_of_isMinable {state : PayoutBatchState} (h : state.isMinable) :
    state.isLive := by
  cases state <;> simp_all [isMinable, isLive]

/-! ## §2. The invariant -/

structure BatchOk (db : Database) (row : PayoutBatchRow) : Prop where
  sound : row.Sound
  policy : ∃ policy, db.chainPolicies.get row.chain = some policy ∧
    policy.policyVersion = row.policyVersion
  safety : (db.chainSafety.get row.chain).isSome
  agrees : Agree (db.linesUnder (.payout row.id)) row.effect

structure BatchInv (db : Database) : Prop where
  batches : ∀ batchId row, db.payoutBatches.find batchId = some row → BatchOk db row
  known : ∀ t ∈ db.ledger.transactions, ∀ batchId, t.reference = .payout batchId →
    ∃ row, db.payoutBatches.find batchId = some row ∧ t.chain = row.chain

section Frames

variable {db db' : Database} {row : PayoutBatchRow} {batchId : Uuid}
  {new : List LedgerTransaction}

/-- Policies and safety rows that are there stay. -/
structure KeepsPolicies (db db' : Database) : Prop where
  policies : ∀ c p, db.chainPolicies.get c = some p → db'.chainPolicies.get c = some p
  safety : ∀ c, (db.chainSafety.get c).isSome → (db'.chainSafety.get c).isSome

theorem KeepsPolicies.of_eq (hpolicies : db'.chainPolicies = db.chainPolicies)
    (hsafety : db'.chainSafety = db.chainSafety) : KeepsPolicies db db' := by
  refine ⟨fun c p hp => ?_, fun c hc => ?_⟩
  · rw [hpolicies]
    exact hp
  · rw [hsafety]
    exact hc

/-- A freeze only fills a safety row. -/
theorem KeepsPolicies.freeze (db : Database) (chain : Chain) (safety : ChainSafety) :
    KeepsPolicies db { db with chainSafety := db.chainSafety.set chain (some safety) } := by
  refine ⟨fun c p hp => hp, fun c hc => ?_⟩
  show ((db.chainSafety.set chain (some safety)).get c).isSome
  rw [PerChain.get_set]
  split
  · rfl
  · exact hc

/-- A batch that a change is not about keeps what it relies on. -/
theorem BatchOk.frame (h : BatchOk db row) (hkeeps : KeepsPolicies db db')
    (hledger : db'.ledger.transactions = db.ledger.transactions ++ new)
    (hnew : ∀ t ∈ new, t.reference ≠ .payout row.id) : BatchOk db' row := by
  obtain ⟨policy, hpolicy, hversion⟩ := h.policy
  refine ⟨h.sound, ⟨policy, hkeeps.policies _ _ hpolicy, hversion⟩, hkeeps.safety _ h.safety, ?_⟩
  rw [linesUnder_append_of_ne hledger hnew]
  exact h.agrees

/-- **A change about something else**: nothing is posted under any batch. -/
theorem BatchInv.frame (h : BatchInv db) (hbatches : db'.payoutBatches = db.payoutBatches)
    (hkeeps : KeepsPolicies db db')
    (hledger : db'.ledger.transactions = db.ledger.transactions ++ new)
    (hnew : ∀ t ∈ new, ∀ batchId, t.reference ≠ .payout batchId) : BatchInv db' := by
  refine ⟨fun batchId row hrow => ?_, fun t ht batchId href => ?_⟩
  · rw [hbatches] at hrow
    exact (h.batches batchId row hrow).frame hkeeps hledger fun t ht => hnew t ht _
  · rw [hledger, List.mem_append] at ht
    rw [hbatches]
    cases ht with
    | inl hold => exact h.known t hold batchId href
    | inr hin => exact absurd href (hnew t hin batchId)

/-- The special case without any posting. -/
theorem BatchInv.congr (h : BatchInv db) (hbatches : db'.payoutBatches = db.payoutBatches)
    (hkeeps : KeepsPolicies db db') (hledger : db'.ledger = db.ledger) : BatchInv db' := by
  have happend : db'.ledger.transactions = db.ledger.transactions ++ [] := by
    rw [hledger, List.append_nil]
  exact h.frame hbatches hkeeps happend (by simp)

/-- **A change about one batch.**  It rewrites the row and posts only under it; then the invariant
    needs a proof for that batch alone. -/
theorem BatchInv.update (h : BatchInv db) (hrow : db.payoutBatches.find batchId = some row)
    (f : PayoutBatchRow → PayoutBatchRow) (hf : ∀ row, (f row).id = row.id)
    (hchain : (f row).chain = row.chain)
    (hbatches : db'.payoutBatches = db.payoutBatches.modify batchId f hf)
    (hkeeps : KeepsPolicies db db')
    (hledger : db'.ledger.transactions = db.ledger.transactions ++ new)
    (hnew : ∀ t ∈ new, t.reference = .payout batchId ∧ t.chain = row.chain)
    (hok : BatchOk db' (f row)) : BatchInv db' := by
  have hfind : ∀ id, db'.payoutBatches.find id
      = if id = batchId then some (f row) else db.payoutBatches.find id := by
    intro id
    rw [hbatches, Table.find_modify, hrow]
    rfl
  refine ⟨fun id row' hrow' => ?_, fun t ht id href => ?_⟩
  · rw [hfind] at hrow'
    split at hrow'
    · injection hrow' with hrow'
      exact hrow' ▸ hok
    · next hne =>
      refine (h.batches id row' hrow').frame hkeeps hledger fun t ht heq => ?_
      rw [(hnew t ht).1, Table.key_of_find hrow'] at heq
      injection heq with heq
      exact hne heq.symm
  · rw [hledger, List.mem_append] at ht
    rw [hfind]
    cases ht with
    | inl hold =>
      obtain ⟨row', hrow', hchain'⟩ := h.known t hold id href
      split
      · next heq =>
        obtain rfl : row' = row := Option.some.inj (hrow'.symm.trans (heq ▸ hrow))
        exact ⟨f row', rfl, hchain'.trans hchain.symm⟩
      · exact ⟨row', hrow', hchain'⟩
    | inr hin =>
      obtain ⟨href', hchain'⟩ := hnew t hin
      rw [href'] at href
      injection href with href
      rw [if_pos href.symm]
      exact ⟨f row, rfl, hchain'.trans hchain.symm⟩

end Frames

/-! ## §3. Every payout step keeps the invariant -/

section Preservation

variable {db db' : Database} {row : PayoutBatchRow} {batchId : Uuid}

theorem PayoutBatchRow.Sound.enter (h : row.Sound) {next : PayoutBatchState}
    (hsigned : next.isSigned → row.state.isSigned) : (row.enter next).Sound :=
  ⟨h.nonempty, h.amounts, h.accounts, h.fits, h.length, fun hnext => h.signed (hsigned hnext)⟩

section

variable (h : BatchInv db) (hrow : db.payoutBatches.find batchId = some row)
  (f : PayoutBatchRow → PayoutBatchRow) (hf : ∀ row, (f row).id = row.id)
  (hchain : (f row).chain = row.chain) (hversion : (f row).policyVersion = row.policyVersion)
  (hsound : (f row).Sound)

include h hrow f hf hchain hversion hsound

/-- A row change that posts nothing, because the two states stand for the same lines. -/
theorem BatchInv.update_row (heffect : (f row).effect = row.effect) :
    BatchInv { db with payoutBatches := db.payoutBatches.modify batchId f hf } := by
  have hok := h.batches batchId row hrow
  refine h.update hrow f hf hchain rfl (.of_eq rfl rfl) (List.append_nil _).symm (by simp)
    ⟨hsound, ?_, ?_, ?_⟩
  · rw [hchain, hversion]
    exact hok.policy
  · rw [hchain]
    exact hok.safety
  · rw [heffect, hf]
    exact hok.agrees

/-- A row change with one posting, which leads from the lines of the old state to those of the
    new one. -/
theorem BatchInv.post {posting : Posting} {ledger : Ledger}
    (hledger : db.ledger.Extends ledger posting) (href : posting.reference = .payout row.id)
    (hpchain : posting.chain = row.chain)
    (heffect : Agree (row.effect ++ posting.entries) (f row).effect) :
    BatchInv { db with
      ledger := ledger
      payoutBatches := db.payoutBatches.modify batchId f hf } := by
  have hok := h.batches batchId row hrow
  have hid : row.id = batchId := Table.key_of_find hrow
  obtain ⟨new, happend, hnew⟩ := hledger.about
  rw [href, hpchain, hid] at hnew
  refine h.update hrow f hf hchain rfl (.of_eq rfl rfl) happend hnew ⟨hsound, ?_, ?_, ?_⟩
  · rw [hchain, hversion]
    exact hok.policy
  · rw [hchain]
    exact hok.safety
  · rw [hf, linesUnder_extends hledger href]
    exact (hok.agrees.append_right _).trans heffect

end

theorem BatchInv.reserve (h : BatchInv db) {batches : Table PayoutBatchRow.id} {ledger : Ledger}
    (hdraft : Draft db row) (hinsert : db.payoutBatches.insert row = some batches)
    (hledger : db.ledger.Extends ledger (reservation row.chain row.id row.items)) :
    BatchInv { db with payoutBatches := batches, ledger := ledger } := by
  have hfresh := (Table.insert_eq_some hinsert).1
  have hfind := Table.find_insert hinsert
  -- nobody can have posted about a batch without a row
  have hnone : db.linesUnder (.payout row.id) = [] := by
    refine subledger_of_ne _ _ fun t ht href => ?_
    obtain ⟨row', hrow', -⟩ := h.known t ht row.id href
    rw [hfresh] at hrow'
    exact absurd hrow' (by simp)
  have hsound : row.Sound := by
    refine ⟨hdraft.payable.nonempty, fun o ho => ?_, hdraft.accounts, hdraft.payable.fits,
      hdraft.length, fun hsigned => ?_⟩
    · obtain ⟨hpos, hle⟩ := hdraft.payable.amounts o ho
      exact ⟨hpos, hle, hdraft.narrow o ho⟩
    · rw [hdraft.state] at hsigned
      cases hsigned
  have hlines : Database.linesUnder { db with payoutBatches := batches, ledger := ledger }
      (.payout row.id) = reservedEntries row.items := by
    refine Eq.trans (linesUnder_extends hledger rfl) ?_
    rw [hnone]
    rfl
  have hagree : Agree (reservedEntries row.items) row.effect := by
    rw [row.effect_of_live (by rw [hdraft.state]; rfl)]
    exact .of_perm (row.outputs_perm.symm.flatMap_right _)
  obtain ⟨new, happend, hnew⟩ := hledger.about
  refine ⟨fun id row' hrow' => ?_, fun t ht id href => ?_⟩
  · rw [hfind] at hrow'
    split at hrow'
    · injection hrow' with hrow'
      subst hrow'
      refine ⟨hsound, hdraft.policy, hdraft.safety, ?_⟩
      rw [hlines]
      exact hagree
    · next hne =>
      refine (h.batches id row' hrow').frame (.of_eq rfl rfl) happend fun t ht heq => ?_
      rw [(hnew t ht).1, Table.key_of_find hrow'] at heq
      injection heq with heq
      exact hne heq
  · rw [hfind]
    rw [show ({ db with payoutBatches := batches, ledger := ledger } : Database).ledger.transactions
      = db.ledger.transactions ++ new from happend, List.mem_append] at ht
    cases ht with
    | inl hold =>
      obtain ⟨row', hrow', hchain⟩ := h.known t hold id href
      rw [if_neg fun heq => by
        rw [heq] at hfresh
        rw [hfresh] at hrow'
        exact absurd hrow' (by simp)]
      exact ⟨row', hrow', hchain⟩
    | inr hin =>
      obtain ⟨href', hchain⟩ := hnew t hin
      rw [href'] at href
      injection href with href
      rw [if_pos href]
      exact ⟨row, rfl, hchain⟩

theorem BatchInv.sign (h : BatchInv db) (hrow : db.payoutBatches.find batchId = some row)
    (hstate : row.state = .signing) {facts : SignedTransitionFacts} (hpos : 0 < facts.networkFeeZat)
    (hle : facts.networkFeeZat ≤ liabilityTotal row.items - payoutTotal row.items) :
    BatchInv { db with
      payoutBatches :=
        db.payoutBatches.modify batchId (·.advance .signed (some facts)) fun _ => rfl } := by
  have hsound := (h.batches batchId row hrow).sound
  refine h.update_row hrow _ _ rfl rfl ⟨hsound.nonempty, hsound.amounts, hsound.accounts,
    hsound.fits, hsound.length, fun _ => ⟨facts.networkFeeZat, rfl, hpos, ?_⟩⟩ ?_
  · have htotals := PayoutBatchRow.payoutTotal_add_reserveSum fun o ho => (hsound.amounts o ho).2.1
    show facts.networkFeeZat ≤ reserveSum row.items
    omega
  · rw [(row.advance .signed (some facts)).effect_of_live rfl,
      row.effect_of_live (by rw [hstate]; rfl)]
    rfl

/-- A release takes the reservation back. -/
theorem agree_reserved_released (outputs : List PayoutInstruction) :
    Agree (reservedEntries outputs ++ releasedEntries outputs) [] := by
  intro p _
  rw [sumWhere_append, sumWhere_releasedEntries, sumWhere_nil]
  ring

/-- **One step** of a payout call keeps the invariant. -/
theorem PayoutStep.batchInv (h : PayoutStep db db') (hinv : BatchInv db) : BatchInv db' := by
  cases h with
  | records => exact hinv.congr rfl (.of_eq rfl rfl) rfl
  | bind policies safety hpolicies hsafety =>
    refine hinv.congr rfl ⟨hpolicies, fun c hc => ?_⟩ rfl
    obtain ⟨s, hs⟩ := Option.isSome_iff_exists.mp hc
    exact Option.isSome_iff_exists.mpr ⟨s, hsafety c s hs⟩
  | freeze chain safety => exact hinv.congr rfl (.freeze db chain safety) rfl
  | fund chain surplusZat ledger hfirst hledger =>
    obtain ⟨new, happend, hnew⟩ := hledger.about
    refine hinv.frame rfl (.of_eq rfl rfl) happend fun t ht id href => ?_
    rw [(hnew t ht).1] at href
    cases href
  | reserve row batches ledger hunfrozen hdraft hinsert hledger =>
    exact hinv.reserve hdraft hinsert hledger
  | move batchId row next hrow hlive hnext hsigned =>
    refine hinv.update_row hrow _ _ rfl rfl ((hinv.batches batchId row hrow).sound.enter hsigned) ?_
    rw [row.effect_of_live hlive,
      (row.enter next).effect_of_live hnext]
    rfl
  | sign batchId row facts hrow hstate hpos hle => exact hinv.sign hrow hstate hpos hle
  | release batchId row next ledger hrow hlive hnext hsigned hledger =>
    refine hinv.post hrow _ _ rfl rfl ((hinv.batches batchId row hrow).sound.enter hsigned) hledger
      rfl rfl ?_
    rw [row.effect_of_live hlive,
      (row.enter next).effect_of_released hnext]
    exact agree_reserved_released row.outputs
  | settle batchId row fee confirmation ledger hrow hstate hfee hpos hle hledger =>
    have hsound := (hinv.batches batchId row hrow).sound
    refine hinv.post hrow _ _ rfl rfl ⟨hsound.nonempty, hsound.amounts, hsound.accounts,
      hsound.fits, hsound.length, fun _ => ⟨fee, hfee, hpos, ?_⟩⟩ hledger rfl rfl ?_
    · rw [PayoutBatchRow.reserveSum_outputs] at hle
      exact hle
    · rw [row.effect_of_live (PayoutBatchState.isLive_of_isMinable hstate),
        (row.confirm confirmation).effect_of_settled rfl hfee]
      exact Agree.rfl _
  | reorganise batchId row hrow hstate =>
    have hsound := (hinv.batches batchId row hrow).sound
    refine hinv.update_row hrow _ _ rfl rfl (hsound.enter fun _ => by rw [hstate]; rfl) ?_
    -- the debit stays: the same bytes may be mined again
    obtain ⟨fee, hfee, -⟩ := hsound.signed (by rw [hstate]; rfl)
    rw [row.effect_of_settled (by rw [hstate]; rfl) hfee,
      (row.enter .reorged).effect_of_settled rfl hfee]
    rfl

end Preservation

/-! ## §4. Events leave the batches alone -/

theorem EventStep.keepsPolicies {start db db' : Database} {s : ℕ} (h : EventStep start s db db') :
    KeepsPolicies db db' := by
  cases h with
  | freeze chain safety => exact .freeze db chain safety
  | records | claim | select | rest | observe | mature | demature | reverse =>
    exact .of_eq rfl rfl

/-- **One step** of an event keeps the invariant. -/
theorem EventStep.batchInv {start db db' : Database} {s : ℕ} (h : EventStep start s db db')
    (hinv : BatchInv db) : BatchInv db' := by
  obtain ⟨new, happend, hnew⟩ := h.posts
  refine hinv.frame h.frame.payoutBatches h.keepsPolicies happend fun t ht batchId href => ?_
  obtain ⟨key, hkey⟩ := hnew t ht
  rw [hkey] at href
  cases href

/-! ## §5. What a batch adds to each question -/

section Balances

variable {row : PayoutBatchRow}

/-- A settled batch: each account gave what was paid and charged for it, and the collector what
    left the wallet. -/
theorem PayoutBatchRow.Sound.settled (h : row.Sound) (hstate : row.state.isSettled) :
    ∃ fee, row.networkFeeZat = some fee ∧ 0 < fee ∧ fee ≤ reserveSum row.outputs ∧
      ∀ (q : LedgerPlace → Prop) [DecidablePred q], sumWhere q row.effect
        = splitAt q .minerPayable (spent (row.outputs.zip (charges row.outputs fee)))
          + (if q .networkFeeExpense then (fee : ℤ) else 0)
          - (if q .minerNetworkFeeContribution then (fee : ℤ) else 0)
          - if q .collectorSpendableAsset then ((payoutTotal row.outputs + fee : ℕ) : ℤ) else 0 := by
  obtain ⟨fee, hfee, hpos, hle⟩ := h.signed (PayoutBatchState.isSigned_of_isSettled hstate)
  rw [← PayoutBatchRow.reserveSum_outputs] at hle
  refine ⟨fee, hfee, hpos, hle, fun q _ => ?_⟩
  rw [row.effect_of_settled hstate hfee, settledEffect, sumWhere_append,
    sumWhere_settled q h.outputs_le hpos hle]

/-- Places of the pending account: the gross liabilities, as long as the batch is live. -/
theorem PayoutBatchRow.Sound.sumWhere_pending (h : row.Sound) {q : LedgerPlace → Prop}
    [DecidablePred q] (hq : ∀ place, q place → ∃ a, place = .payoutPending a) :
    sumWhere q row.effect
      = -(if row.state.isLive then splitAt q .payoutPending (owed row.items) else 0) := by
  have hother : ∀ {place : LedgerPlace}, (∀ a, place ≠ .payoutPending a) → ¬ q place := by
    intro place hne hplace
    obtain ⟨a, ha⟩ := hq place hplace
    exact hne a ha
  obtain hlive | hreleased | hsettled := row.state_cases
  · have hperm : (owed row.outputs).Perm (owed row.items) := row.outputs_perm.map _
    rw [row.effect_of_live hlive, if_pos hlive, sumWhere_reservedEntries,
      splitAt_of_forall_not fun a => hother (by simp), splitAt_perm _ hperm]
    ring
  · have hdead : ¬ row.state.isLive := by
      cases hstate : row.state <;> simp_all [PayoutBatchState.isReleased, PayoutBatchState.isLive]
    rw [row.effect_of_released hreleased, if_neg hdead, sumWhere_nil, neg_zero]
  · have hdead : ¬ row.state.isLive := by
      cases hstate : row.state <;> simp_all [PayoutBatchState.isSettled, PayoutBatchState.isLive]
    obtain ⟨fee, -, -, -, hsum⟩ := h.settled hsettled
    rw [hsum, splitAt_of_forall_not fun a => hother (by simp), if_neg (hother (by simp)),
      if_neg (hother (by simp)), if_neg (hother (by simp)), if_neg hdead]
    rfl

end Balances

end WcashPool.Store
