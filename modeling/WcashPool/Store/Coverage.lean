/-
  WcashPool.Store.Coverage — no account is overdrawn while a chain is unfrozen.

  A reservation takes at most what an account has, so only the way back of a
  matured reward can leave an account below zero.  That way back freezes the
  chain whenever a batch of it is not cancelled; and where every batch is
  cancelled, the payable balances are those of the matured rewards.

  Main results: `EventStep.covered`, `PayoutStep.covered` and `after_solvent`.
-/
import WcashPool.Store.Books

namespace WcashPool.Store

open DoubleEntry Machine

/-! ## §1. What a winner stands for besides immature lines -/

/-- At places that are not immature a winner counts once it is matured. -/
theorem WinnerRow.sumWhere_effect (w : WinnerRow) (split : List (Uuid × ℕ))
    {p : LedgerPlace → Prop} [DecidablePred p] (hasset : ¬ p .collectorImmatureAsset)
    (hminer : ∀ a, ¬ p (.minerImmature a)) (hfee : ¬ p .poolFeeUnearned) :
    sumWhere p (w.effect split) = if w.state = .matured
      then sumWhere p (maturedEffect w.rewardZat split (poolShare w.rewardZat split)) else 0 := by
  by_cases hmatured : w.state = .matured
  · rw [if_pos hmatured, effect_of_matured hmatured, agree_maturedEffect]
  · rw [if_neg hmatured]
    by_cases hobserved : w.state = .observed
    · rw [effect_of_observed hobserved, sumWhere_observedEntries, if_neg hasset, if_neg hfee,
        splitAt_of_forall_not hminer]
      rfl
    · have hinactive : w.state.inactive := by
        cases hstate : w.state <;> simp_all [WinnerState.inactive]
      rw [effect_of_inactive hinactive, sumWhere_nil]

/-- The payable line of an account. -/
theorem WinnerRow.sumWhere_effect_payable (w : WinnerRow) (split : List (Uuid × ℕ)) (a : Uuid) :
    sumWhere (· = .minerPayable a) (w.effect split)
      = -(if w.state = .matured then (Tally.amountOf split a : ℤ) else 0) := by
  rw [w.sumWhere_effect split (by simp) (by simp) (by simp), sumWhere_maturedEffect,
    splitAt_eq_amountOf (a := a) (by simp)]
  split <;> simp

/-! ## §2. What one posting adds -/

section Postings

variable {db db' : Database} {posting : Posting}

/-- A posting counts on its own chain. -/
theorem sumOn_extends (h : db.ledger.Extends db'.ledger posting) (chain : Chain)
    (p : LedgerPlace → Prop) [DecidablePred p] :
    db'.sumOn chain p
      = db.sumOn chain p + if posting.chain = chain then sumWhere p posting.entries else 0 := by
  obtain ⟨t, rfl, happend⟩ := h
  unfold Database.sumOn Database.linesOn
  rw [happend, List.filter_append, List.flatMap_append, sumWhere_append]
  by_cases hchain : t.chain = chain
  · rw [if_pos hchain]
    simp [hchain]
  · rw [if_neg hchain]
    simp [hchain]

/-- An account keeps its cover through a posting that takes nothing from its payable line. -/
theorem payableLiability_extends (h : db.ledger.Extends db'.ledger posting) (chain : Chain) (a : Uuid) :
    db'.payableLiability chain a = db.payableLiability chain a
      - if posting.chain = chain then sumWhere (· = .minerPayable a) posting.entries else 0 := by
  unfold Database.payableLiability
  rw [sumOn_extends h]
  ring

end Postings

/-! ## §3. Coverage -/

/-- No account of an unfrozen chain is overdrawn. -/
def Covered (db : Database) : Prop :=
  ∀ chain, ¬ db.Frozen chain → ∀ a, 0 ≤ db.payableLiability chain a

/-- The books, and the cover of every unfrozen chain. -/
structure Solvent (s : ℕ) (db : Database) : Prop extends Books s db where
  covered : Covered db

section Payouts

variable {db db' : Database} {posting : Posting}

/-- A posting that takes nothing from any payable line. -/
theorem Covered.of_posting (h : Covered db) (hledger : db.ledger.Extends db'.ledger posting)
    (hfrozen : ∀ chain, db.Frozen chain → db'.Frozen chain)
    (hentries : ∀ a, sumWhere (· = .minerPayable a) posting.entries ≤ 0) : Covered db' := by
  intro chain hunfrozen a
  have hbefore := h chain (fun hf => hunfrozen (hfrozen chain hf)) a
  have hline := hentries a
  rw [payableLiability_extends hledger]
  split <;> omega

/-- A freeze frees its own chain of the obligation, and no other. -/
theorem Covered.freeze (h : Covered db) (chain : Chain) {safety : ChainSafety}
    (hfrozen : safety.payoutsFrozen = true) :
    Covered { db with chainSafety := db.chainSafety.set chain (some safety) } := by
  intro c hunfrozen a
  refine h c (fun hf => hunfrozen ?_) a
  obtain ⟨safety', hget, hfrozen'⟩ := hf
  by_cases hc : c = chain
  · refine ⟨safety, ?_, hfrozen⟩
    show (db.chainSafety.set chain (some safety)).get c = some safety
    rw [PerChain.get_set, if_pos hc]
  · refine ⟨safety', ?_, hfrozen'⟩
    show (db.chainSafety.set chain (some safety)).get c = some safety'
    rw [PerChain.get_set, if_neg hc]
    exact hget

/-- A reservation takes at most what each account has. -/
theorem Covered.reserve (h : Covered db) {row : PayoutBatchRow} (hdraft : Draft db row)
    (hledger : db.ledger.Extends db'.ledger (reservation row.chain row.id row.items))
    (hsafety : db'.chainSafety = db.chainSafety) : Covered db' := by
  intro chain hunfrozen a
  have hunfrozen' : ¬ db.Frozen chain := by
    rintro ⟨safety, hget, hfrozen⟩
    exact hunfrozen ⟨safety, by rw [hsafety]; exact hget, hfrozen⟩
  have hbefore := h chain hunfrozen' a
  rw [payableLiability_extends hledger]
  split
  · next hchain =>
    have hwithin : Tally.amountOf (owed row.items) a ≤ (db.payableLiability chain a).toNat := by
      refine Tally.amountOf_le_of_nodup ?_ fun e he hea => ?_
      · unfold owed
        rw [List.map_map]
        exact hdraft.accounts
      · obtain ⟨o, ho, rfl⟩ := List.mem_map.mp he
        have hle := hdraft.payable.within o ho
        rw [show row.chain = chain from hchain, show o.accountId = a from hea] at hle
        simp only
        omega
    have hline : sumWhere (· = .minerPayable a) (reservation row.chain row.id row.items).entries
        = Tally.amountOf (owed row.items) a := by
      show sumWhere (· = .minerPayable a) (reservedEntries row.items) = _
      rw [sumWhere_reservedEntries, splitAt_eq_amountOf (a := a) (by simp),
        splitAt_of_forall_not (by simp)]
      ring
    rw [hline]
    omega
  · omega

/-- A settlement returns the unused reserve and takes nothing. -/
theorem sumWhere_payable_settledEntries_le (outputs : List PayoutInstruction) (fee : ℕ) (a : Uuid) :
    sumWhere (· = .minerPayable a) (settledEntries outputs (charges outputs fee) fee) ≤ 0 := by
  have hlines : ∀ ps : List (PayoutInstruction × ℕ),
      sumWhere (· = .minerPayable a) (ps.flatMap settledLines) ≤ 0 := by
    intro ps
    induction ps with
    | nil => simp
    | cons p ps ih =>
      rw [List.flatMap_cons, sumWhere_append, sumWhere_settledLines, if_neg (by simp)]
      split <;> omega
  have houtputs := hlines (outputs.zip (charges outputs fee))
  unfold settledEntries
  rw [sumWhere_append, sumWhere_append, sumWhere_feePair, sumWhere_cons_neg, sumWhere_nil]
  simp only [reduceCtorEq, if_false]
  omega

/-- **One step of a payout call** keeps unfrozen chains covered. -/
theorem PayoutStep.covered (h : PayoutStep db db') (hcovered : Covered db) : Covered db' := by
  cases h with
  | records | move | sign | reorganise => exact hcovered
  | bind policies safety hpolicies hsafety =>
    intro chain hunfrozen a
    refine hcovered chain (fun hf => hunfrozen ?_) a
    obtain ⟨safety', hget, hfrozen⟩ := hf
    exact ⟨safety', hsafety chain safety' hget, hfrozen⟩
  | freeze chain safety hfrozen => exact hcovered.freeze chain hfrozen
  | fund chain surplusZat ledger hfirst hledger =>
    refine hcovered.of_posting hledger (fun _ hf => hf) fun a => ?_
    show sumWhere (· = .minerPayable a) (openingEntries surplusZat) ≤ 0
    rw [sumWhere_openingEntries]
    simp
  | reserve row batches ledger hunfrozen hdraft hinsert hledger =>
    exact hcovered.reserve hdraft hledger rfl
  | release batchId row next ledger hrow hlive hnext hsigned hledger =>
    refine hcovered.of_posting hledger (fun _ hf => hf) fun a => ?_
    show sumWhere (· = .minerPayable a) (releasedEntries row.outputs) ≤ 0
    have hpayable := splitAt_nonneg (p := (· = .minerPayable a)) .minerPayable (owed row.outputs)
    have hpending : splitAt (· = .minerPayable a) .payoutPending (owed row.outputs) = 0 :=
      splitAt_of_forall_not (by simp) _
    rw [sumWhere_releasedEntries, sumWhere_reservedEntries, hpending]
    omega
  | settle batchId row fee confirmation ledger hrow hstate hfee hpos hle hledger =>
    exact hcovered.of_posting hledger (fun _ hf => hf) fun a =>
      sumWhere_payable_settledEntries_le row.outputs fee a

end Payouts

section Events

variable {s : ℕ} {start db db' : Database} {chain : Chain} {key : Chain × Hex32} {w : WinnerRow}

/-- Where every batch is cancelled, an account has what the matured rewards left it. -/
theorem Books.payable_of_unexposed (h : Books s db) (hunexposed : ¬ payoutExposure db chain)
    (a : Uuid) : 0 ≤ db.payableLiability chain a := by
  have hwinners : ((db.winnersOn chain).map fun w =>
      sumWhere (· = .minerPayable a) (w.effect (firstSplit db w.key))).sum ≤ 0 := by
    refine (List.sum_le_card_nsmul _ 0 fun v hv => ?_).trans (by simp)
    obtain ⟨w, -, rfl⟩ := List.mem_map.mp hv
    rw [w.sumWhere_effect_payable]
    split <;> omega
  have hbatches : ((db.batchesOn chain).map fun b =>
      sumWhere (· = .minerPayable a) b.effect).sum ≤ 0 := by
    refine (List.sum_le_card_nsmul _ 0 fun v hv => ?_).trans (by simp)
    obtain ⟨b, hb, rfl⟩ := List.mem_map.mp hv
    obtain ⟨hmem, hchain⟩ := List.mem_filter.mp hb
    have hcancelled : b.state = .cancelled := by
      by_contra hne
      exact hunexposed ⟨b, hmem, by simpa using hchain, hne⟩
    rw [b.effect_of_released (by rw [hcancelled]; rfl), sumWhere_nil]
  unfold Database.payableLiability
  rw [h.sumOn_eq, sumWhere_openingEntries, if_neg (by simp), if_neg (by simp)]
  omega

/-- **The way back of a matured reward**: with payouts at risk the chain is frozen, without them
    nothing is overdrawn. -/
theorem Covered.of_exposure (h : Covered db) (hbooks : Books s db') {posting : Posting}
    (hledger : db.ledger.Extends db'.ledger posting) (hsafety : db'.chainSafety = db.chainSafety)
    (hbatches : db'.payoutBatches = db.payoutBatches)
    (hexposed : payoutExposure db posting.chain → db.Frozen posting.chain) : Covered db' := by
  have hfrozen : ∀ chain, db.Frozen chain → db'.Frozen chain := by
    rintro c ⟨safety, hget, hf⟩
    exact ⟨safety, by rw [hsafety]; exact hget, hf⟩
  intro chain hunfrozen a
  by_cases hchain : posting.chain = chain
  · refine hbooks.payable_of_unexposed (fun hexposure => ?_) a
    unfold payoutExposure at hexposure
    rw [hbatches, ← hchain] at hexposure
    exact hunfrozen (hchain ▸ hfrozen _ (hexposed hexposure))
  · rw [payableLiability_extends hledger, if_neg hchain, sub_zero]
    exact h chain (fun hf => hunfrozen (hfrozen chain hf)) a

/-- Maturity pays the accounts and takes nothing. -/
theorem sumWhere_payable_maturedEntries (rewardZat : ℕ) (split : List (Uuid × ℕ)) (poolFeeZat : ℕ)
    (a : Uuid) : sumWhere (· = .minerPayable a) (maturedEntries rewardZat split poolFeeZat)
      = -(Tally.amountOf split a : ℤ) := by
  have hobserved : sumWhere (· = .minerPayable a) (observedEntries rewardZat split poolFeeZat) = 0 := by
    rw [sumWhere_observedEntries, splitAt_of_forall_not (by simp)]
    simp
  have hboth := agree_maturedEffect rewardZat split poolFeeZat (· = .minerPayable a)
  rw [sumWhere_append, hobserved, sumWhere_maturedEffect, splitAt_eq_amountOf (a := a) (by simp)]
    at hboth
  simpa using hboth

/-- The way back of a winner that was only observed touches no payable line. -/
theorem WinnerOk.payable_postedBy (h : WinnerOk db key w) (hstate : w.state.inactive = false) {o : ℕ}
    (hobs : w.activeObservationEventSeq = some o) (himmature : w.activeMaturityEventSeq = none)
    (a : Uuid) :
    sumWhere (· = .minerPayable a) (negate (db.ledger.postedBy (w.postings o))) = 0 := by
  have hmatured : w.state ≠ .matured := by
    intro hmatured
    obtain ⟨o', m, -, hsome, -⟩ := h.matured hmatured
    rw [himmature] at hsome
    cases hsome
  rw [sumWhere_negate, ← h.agree_postedBy hstate hobs, w.sumWhere_effect_payable, if_neg hmatured]
  rfl

/-- **One step of an event** keeps unfrozen chains covered. -/
theorem EventStep.covered (h : EventStep start s db db') (hbooks : Books s db)
    (hcovered : Covered db) : Covered db' := by
  have hbooks' := h.books hbooks
  cases h with
  | records | claim | select | rest => exact hcovered
  | freeze chain safety hfrozen => exact hcovered.freeze chain hfrozen
  | observe key w share plan version allocations ledger hw hstate hshare horigin hplan hrows
      hledger =>
    refine hcovered.of_posting hledger (fun _ hf => hf) fun a => ?_
    rw [sumWhere_observedEntries, splitAt_of_forall_not (by simp)]
    simp
  | mature key w o ledger hw hstate hobs hledger =>
    refine hcovered.of_posting hledger (fun _ hf => hf) fun a => ?_
    rw [sumWhere_payable_maturedEntries]
    omega
  | demature key w o m ledger hw hstate hobs hmat hexposed hledger =>
    exact hcovered.of_exposure hbooks' hledger rfl rfl hexposed
  | reverse key w o kind next ledger hw hstate hobs hnext hexposed hledger =>
    cases hmat : w.activeMaturityEventSeq with
    | some m =>
      exact hcovered.of_exposure hbooks' hledger rfl rfl (hexposed (by rw [hmat]; rfl))
    | none =>
      refine hcovered.of_posting hledger (fun _ hf => hf) fun a => ?_
      exact ((hbooks.winners.winners key w hw).payable_postedBy hstate hobs hmat a).le

end Events

/-! ## §4. Runs -/

section Runs

variable {s : ℕ} {start db db' : Database}

theorem EventSteps.solvent (h : EventSteps start s db db') (hsolvent : Solvent s db) :
    Solvent s db' := by
  induction h with
  | refl => exact hsolvent
  | tail _ hstep ih => exact ⟨hstep.books ih.toBooks, hstep.covered ih.toBooks ih.covered⟩

theorem PayoutSteps.solvent (h : PayoutSteps db db') (hsolvent : Solvent s db) : Solvent s db' := by
  induction h with
  | refl => exact hsolvent
  | tail _ hstep ih => exact ⟨hstep.books ih.toBooks, hstep.covered ih.covered⟩

/-- The journal is not part of it. -/
theorem Solvent.journal (h : Solvent s db) (lastEventSeq : ℕ)
    (backendEvents : Table EventRow.eventSeq) :
    Solvent s { db with lastEventSeq := lastEventSeq, backendEvents := backendEvents } :=
  ⟨h.toBooks.congr rfl rfl rfl rfl rfl rfl, h.covered⟩

theorem Fresh.solvent (h : Fresh db) (s : ℕ) : Solvent s db := by
  have hlines : ∀ r, db.linesUnder r = [] := by
    intro r
    unfold Database.linesUnder
    rw [h.ledger]
    rfl
  have hbatch : ∀ batchId row, db.payoutBatches.find batchId ≠ some row := by
    intro batchId row hrow
    have hmem := Table.mem_of_find hrow
    rw [h.batches] at hmem
    cases hmem
  have hwinner : ∀ key w, db.winners.find key ≠ some w := by
    intro key w hw
    have hmem := Table.mem_of_find hw
    rw [h.winners] at hmem
    cases hmem
  have hnone : ∀ t, t ∉ db.ledger.transactions := by
    intro t ht
    rw [h.ledger] at ht
    cases ht
  refine ⟨⟨⟨fun key w hw => absurd hw (hwinner key w), fun t ht => absurd ht (hnone t), fun a ha => ?_⟩,
    ⟨fun batchId row hrow => absurd hrow (hbatch batchId row), fun t ht => absurd ht (hnone t)⟩,
    ⟨fun t ht => absurd ht (hnone t), fun chain => ⟨0, ?_⟩⟩⟩, fun chain _ a => ?_⟩
  · rw [h.allocations] at ha
    cases ha
  · rw [hlines]
    intro p _
    rw [sumWhere_openingEntries]
    simp
  · unfold Database.payableLiability Database.sumOn Database.linesOn
    rw [h.ledger]
    exact le_refl 0

/-- **One operation** keeps books and coverage. -/
theorem step_solvent {cfg : Config} {op : Operation} {u : Unit}
    (h : step cfg db op = .ok (db', u)) (hsolvent : Solvent db.lastEventSeq db) :
    Solvent db'.lastEventSeq db' := by
  obtain ⟨call, r, -, hcall⟩ | hsteps := step_cases h
  · obtain ⟨-, rfl, -⟩ | ⟨-, hseq, events, mid, -, happly, rfl⟩ := projectOne_spec hcall
    · exact hsolvent
    · have hnext : Solvent call.event.eventSeq { db with backendEvents := events } :=
        ⟨((hsolvent.journal db.lastEventSeq events).toBooks).mono (by omega), hsolvent.covered⟩
      exact ((applyEvent_steps happly).solvent hnext).journal _ mid.backendEvents
  · rw [hsteps.frame.lastEventSeq]
    exact hsteps.solvent hsolvent

/-- **Every run** from a fresh deployment keeps books and coverage. -/
theorem after_solvent {cfg : Config} (hfresh : Fresh db) (ops : List Operation) :
    Solvent (after cfg db ops).lastEventSeq (after cfg db ops) :=
  run_invariant (P := fun db => Solvent db.lastEventSeq db)
    (fun _ _ _ _ hsolvent hstep => step_solvent hstep hsolvent) (hfresh.solvent _) ops

end Runs

end WcashPool.Store
