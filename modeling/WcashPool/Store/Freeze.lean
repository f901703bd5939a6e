/-
  WcashPool.Store.Freeze — what a freeze of a chain takes away, and what not.

  A freeze is sticky, and it withholds exactly two authorisations: nothing new
  may be signed or broadcast, and nothing new may be drafted.  What was
  authorised before is completed whatever happens: a batch in signing can still
  record its transaction, a batch in broadcasting its submission.  And the two
  events that make a payout doubtful always leave the chain frozen.

  Main results: `checkSignedFacts_of_acceptable`, `Signable.exists_acceptable`,
  `EventSteps.frozen_of_unmatured` and `freeze_authority`.
-/
import WcashPool.Store.BatchMoves
import WcashPool.Store.Solvency

namespace WcashPool.Store

open Fallible Protocol DoubleEntry Machine

/-! ## §1. Completing what was authorised -/

/-- Facts about a batch that the store has no reason to refuse. -/
structure Acceptable (db : Database) (row : PayoutBatchRow) (policy : ChainPolicy)
    (facts : SignedTransitionFacts) : Prop extends facts.WellFormed where
  unused : ∀ b ∈ db.payoutBatches.rows, b.chain = row.chain → b.id ≠ row.id →
    b.transactionId ≠ some facts.transactionId
  fee_pos : 0 < facts.networkFeeZat
  fee_absolute : facts.networkFeeZat ≤ policy.maximumNetworkFeeZat
  fee_relative :
    facts.networkFeeZat * 10_000 ≤ liabilityTotal row.items * policy.maximumNetworkFeeBps
  fee_reserved : facts.networkFeeZat ≤ reserveSum row.items

/-- What a batch offers to its signer: a fee of one zatoshi is within policy and reserve, and the
    totals fit their columns. -/
structure Signable (db : Database) (row : PayoutBatchRow) : Prop where
  policy : ∃ policy, db.chainPolicies.get row.chain = some policy ∧
    policy.policyVersion = row.policyVersion ∧ 0 < policy.maximumNetworkFeeZat ∧
    10_000 ≤ liabilityTotal row.items * policy.maximumNetworkFeeBps
  reserved : 0 < reserveSum row.items
  fits : liabilityTotal row.items < i64Limit

section Completing

variable {db : Database} {row : PayoutBatchRow} {policy : ChainPolicy} {batchId : Uuid}
  {facts : SignedTransitionFacts}

/-- Facts that there is no reason to refuse are not refused, where the totals fit their columns. -/
theorem checkSignedFacts_of_acceptable (hfacts : Acceptable db row policy facts)
    (hsound : row.Sound) (hfits : liabilityTotal row.items < i64Limit)
    (hpolicy : db.chainPolicies.get row.chain = some policy)
    (hversion : policy.policyVersion = row.policyVersion) :
    checkSignedFacts db row facts = .ok () := by
  have htotals := PayoutBatchRow.payoutTotal_add_reserveSum fun o ho => (hsound.amounts o ho).2.1
  have hreserved := hfacts.fee_reserved
  have hpos := hfacts.fee_pos
  have habsolute := hfacts.fee_absolute
  have hrelative := hfacts.fee_relative
  have hbatchPolicy : batchPolicy db row.chain row.policyVersion = .ok policy := by
    unfold batchPolicy
    rw [hpolicy, Option.filter_some, if_pos (by simpa using hversion)]
    rfl
  have hcast : ∀ {v : ℕ}, v < i64Limit → castBigint (v : ℤ) = .ok (v : ℤ) := by
    intro v hv
    exact castBigint_eq_ok.mpr ⟨⟨by omega, by omega⟩, rfl⟩
  unfold checkSignedFacts
  rw [rejectIf_of_not, ok_bind, hbatchPolicy, ok_bind, hcast (by omega), ok_bind, hcast hfits,
    ok_bind, checkedSub_of_le _ (by omega), ok_bind, rejectIf_of_not _ (by omega), ok_bind,
    rejectIf_of_not _ (by omega)]
  rintro ⟨b, hb, hchain, hne, htxid⟩
  exact hfacts.unused b hb hchain hne htxid

/-- For a batch in signing only the facts are left to check, frozen or not. -/
theorem markPayoutSigned_eq (hfacts : facts.WellFormed)
    (hrow : db.payoutBatches.find batchId = some row) (hstate : row.state = .signing)
    (hsafety : (db.chainSafety.get row.chain).isSome) :
    markPayoutSigned db batchId facts = (do
      checkSignedFacts db row facts
      pure { db with
        payoutBatches :=
          db.payoutBatches.modify batchId (·.advance .signed (some facts)) fun _ => rfl }) := by
  have hwell : ¬ (facts.unsignedDigest.isZero ∨ facts.transactionId.isZero ∨
      facts.signedTransaction = [] ∨
      facts.signedTransaction.length > maxSignedTransactionBytes) := by
    rintro (hzero | hzero | hnil | hlong)
    · exact hfacts.digest hzero
    · exact hfacts.transaction hzero
    · exact hfacts.nonempty hnil
    · exact absurd hfacts.bounded (not_le.mpr hlong)
  obtain ⟨safety, hsafety⟩ := Option.isSome_iff_exists.mp hsafety
  have hlock : lockForTransition db row.chain false = .ok () := by
    unfold lockForTransition lockChainSafetyRow
    rw [hsafety]
    rfl
  unfold markPayoutSigned transitionPayout
  rw [rejectIf_of_not _ hwell, ok_bind, hrow, orReject_some, ok_bind,
    if_neg (by rw [hstate]; simp), rejectIf_of_not _ (not_not.mpr hstate), ok_bind, hlock, ok_bind]
  rfl

/-- **Recording an acceptable transaction succeeds**, frozen or not. -/
theorem markPayoutSigned_of_acceptable (hfacts : Acceptable db row policy facts)
    (hrow : db.payoutBatches.find batchId = some row) (hstate : row.state = .signing)
    (hok : BatchOk db row) (hsignable : Signable db row)
    (hpolicy : db.chainPolicies.get row.chain = some policy)
    (hversion : policy.policyVersion = row.policyVersion) :
    markPayoutSigned db batchId facts = .ok { db with
      payoutBatches :=
        db.payoutBatches.modify batchId (·.advance .signed (some facts)) fun _ => rfl } := by
  rw [markPayoutSigned_eq hfacts.toWellFormed hrow hstate hok.safety,
    checkSignedFacts_of_acceptable hfacts hok.sound hsignable.fits hpolicy hversion]
  rfl

/-- **Recording a submission succeeds**, frozen or not. -/
theorem markPayoutBroadcast_of_broadcasting (hrow : db.payoutBatches.find batchId = some row)
    (hstate : row.state = .broadcasting) (hok : BatchOk db row) :
    markPayoutBroadcast db batchId = .ok { db with
      payoutBatches :=
        db.payoutBatches.modify batchId (·.advance .broadcast none) fun _ => rfl } := by
  obtain ⟨safety, hsafety⟩ := Option.isSome_iff_exists.mp hok.safety
  have hlock : lockForTransition db row.chain false = .ok () := by
    unfold lockForTransition lockChainSafetyRow
    rw [hsafety]
    rfl
  unfold markPayoutBroadcast transitionPayout
  rw [hrow, orReject_some, ok_bind, if_neg (by rw [hstate]; simp),
    rejectIf_of_not _ (not_not.mpr hstate), ok_bind, hlock, ok_bind]
  rfl

/-- There are more transaction ids than batches. -/
theorem exists_unused_transactionId (batches : Table PayoutBatchRow.id) :
    ∃ txid : Hex32, ¬ txid.isZero ∧ ∀ b ∈ batches.rows, b.transactionId ≠ some txid := by
  have hcount : batches.rows.length ≤ 2 ^ 128 := by
    have hnodup := batches.nodup.length_le_card
    rwa [List.length_map, Fintype.card_fin] at hnodup
  by_contra hall
  push Not at hall
  -- the numbers from 1 on would all be in use
  let candidate : ℕ → Option Hex32 := fun k => some (BitVec.ofNat _ (k + 1))
  have hinj : Set.InjOn candidate (Finset.range (batches.rows.length + 1)) := by
    intro i hi j hj heq
    have hi := Finset.mem_range.mp hi
    have hj := Finset.mem_range.mp hj
    have hnat := congrArg BitVec.toNat (Option.some.inj heq)
    rw [BitVec.toNat_ofNat, BitVec.toNat_ofNat, Nat.mod_eq_of_lt (by omega),
      Nat.mod_eq_of_lt (by omega)] at hnat
    omega
  have hsubset : (Finset.range (batches.rows.length + 1)).image candidate
      ⊆ (batches.rows.map (·.transactionId)).toFinset := by
    intro txid htxid
    obtain ⟨k, hk, rfl⟩ := Finset.mem_image.mp htxid
    have hk := Finset.mem_range.mp hk
    have hne : ¬ FixedHex.isZero (BitVec.ofNat _ (k + 1) : Hex32) := by
      intro hzero
      have hnat := congrArg BitVec.toNat hzero
      rw [BitVec.toNat_ofNat, Nat.mod_eq_of_lt (by omega)] at hnat
      simp at hnat
    obtain ⟨b, hb, hused⟩ := hall _ hne
    exact List.mem_toFinset.mpr (List.mem_map.mpr ⟨b, hb, hused⟩)
  have hcard := Finset.card_le_card hsubset
  rw [Finset.card_image_of_injOn hinj, Finset.card_range] at hcard
  have hlength := (batches.rows.map (·.transactionId)).toFinset_card_le
  rw [List.length_map] at hlength
  omega

/-- A signable batch has an acceptable transaction: one with a fee of one zatoshi. -/
theorem Signable.exists_acceptable (h : Signable db row) :
    ∃ policy facts, db.chainPolicies.get row.chain = some policy ∧
      policy.policyVersion = row.policyVersion ∧ Acceptable db row policy facts := by
  obtain ⟨policy, hpolicy, hversion, habsolute, hrelative⟩ := h.policy
  obtain ⟨txid, hnonzero, hunused⟩ := exists_unused_transactionId db.payoutBatches
  refine ⟨policy, ⟨txid, txid, [0], 1⟩, hpolicy, hversion, ⟨hnonzero, hnonzero, by simp, by
    simp [maxSignedTransactionBytes]⟩, fun b hb _ _ => hunused b hb, Nat.one_pos, habsolute, ?_,
    h.reserved⟩
  simpa using hrelative

end Completing

/-! ## §2. Every batch stays signable, and every reorganised batch frozen -/

/-- What holds of every stored batch of a run. -/
structure FreezeInv (db : Database) : Prop where
  signable : ∀ batchId row, db.payoutBatches.find batchId = some row → Signable db row
  reorged : ∀ batchId row, db.payoutBatches.find batchId = some row → row.state = .reorged →
    db.Frozen row.chain

section Invariant

variable {cfg : Config} {db db' : Database} {op : Operation} {u : Unit} {chain : Chain}
  {policy : ChainPolicy}

theorem PayoutStep.policies (h : PayoutStep db db')
    (hpolicy : db.chainPolicies.get chain = some policy) :
    db'.chainPolicies.get chain = some policy := by
  cases h with
  | bind policies safety hpolicies hsafety => exact hpolicies chain policy hpolicy
  | records | freeze | fund | reserve | move | sign | release | settle | reorganise => exact hpolicy

theorem PayoutSteps.policies (h : PayoutSteps db db')
    (hpolicy : db.chainPolicies.get chain = some policy) :
    db'.chainPolicies.get chain = some policy := by
  induction h with
  | refl => exact hpolicy
  | tail _ hstep ih => exact hstep.policies ih

/-- A policy is bound once and for all. -/
theorem step_policies (h : step cfg db op = .ok (db', u))
    (hpolicy : db.chainPolicies.get chain = some policy) :
    db'.chainPolicies.get chain = some policy := by
  obtain ⟨call, r, -, hcall⟩ | hsteps := step_cases h
  · obtain ⟨-, rfl, -⟩ | ⟨-, -, events, mid, -, happly, rfl⟩ := projectOne_spec hcall
    · exact hpolicy
    · have hframe := (applyEvent_steps happly).frame
      exact (congrArg (fun p => PerChain.get p chain) hframe.chainPolicies).trans hpolicy
  · exact hsteps.policies hpolicy

/-- A new batch is signable: what it reserves is pending, and the collector covers it. -/
theorem NewBatch.signable {row : PayoutBatchRow} (h : NewBatch cfg db db' row)
    (hsolvent : Solvent db'.lastEventSeq db') {batchId : Uuid}
    (hrow : db'.payoutBatches.find batchId = some row)
    (hpolicies : ∀ chain policy, db.chainPolicies.get chain = some policy →
      db'.chainPolicies.get chain = some policy) : Signable db' row := by
  have hunfrozen : ¬ db'.Frozen row.chain := by
    unfold Database.Frozen
    rw [h.safety]
    exact h.unfrozen
  obtain ⟨snapshot, hsnapshot⟩ := h.snapshot
  have hlimit := ledgerSnapshot_spendable hsnapshot
  have hsame : db'.spendable row.chain = db.spendable row.chain := by
    unfold Database.spendable
    rw [sumOn_extends h.posted]
    show _ + (if row.chain = row.chain then
      sumWhere (· = .collectorSpendableAsset) (reservedEntries row.items) else 0) = _
    rw [sumWhere_reservedEntries, splitAt_of_forall_not (by simp), splitAt_of_forall_not (by simp)]
    simp
  have hpending := hsolvent.toBooks.liabilityTotal_le_pending hrow (by rw [h.state]; rfl)
  obtain ⟨hle, hcovered⟩ := hsolvent.pending_le hunfrozen
  obtain ⟨policy, hpolicy, hfee⟩ := h.policy
  refine ⟨⟨policy, hpolicies _ _ hpolicy, hfee⟩, h.reserved, ?_⟩
  omega

/-- A batch stays signable: policies are bound for good, and the order never changes. -/
theorem Signable.transport {row row' : PayoutBatchRow} (h : Signable db row)
    (horder : SameOrder row row')
    (hpolicies : ∀ chain policy, db.chainPolicies.get chain = some policy →
      db'.chainPolicies.get chain = some policy) : Signable db' row' := by
  obtain ⟨policy, hpolicy, hfee⟩ := h.policy
  refine ⟨⟨policy, ?_, ?_⟩, ?_, ?_⟩
  · rw [horder.chain]
    exact hpolicies _ _ hpolicy
  · rw [horder.policyVersion, horder.items]
    exact hfee
  · rw [horder.items]
    exact h.reserved
  · rw [horder.items]
    exact h.fits

/-- **One call** keeps the invariant. -/
theorem step_freezeInv (h : step cfg db op = .ok (db', u)) (hsolvent : Solvent db.lastEventSeq db)
    (hinv : FreezeInv db) : FreezeInv db' := by
  have hpolicies : ∀ chain policy, db.chainPolicies.get chain = some policy →
      db'.chainPolicies.get chain = some policy := fun _ _ => step_policies h
  have hchange := step_change h
  refine ⟨fun batchId row' hrow' => ?_, fun batchId row' hrow' hreorged => ?_⟩
  · obtain ⟨row, hrow, rfl | hmove⟩ | ⟨-, hnew⟩ := hchange.origin hrow'
    · exact (hinv.signable batchId row' hrow).transport (.rfl row') hpolicies
    · exact (hinv.signable batchId row hrow).transport hmove.order hpolicies
    · exact hnew.signable (step_solvent h hsolvent) hrow' hpolicies
  · obtain ⟨row, hrow, rfl | hmove⟩ | ⟨-, hnew⟩ := hchange.origin hrow'
    · exact step_frozen h (hinv.reorged batchId row' hrow hreorged)
    · -- the only edge into this state brings the freeze along
      cases hmove with
      | reorganise hstate hfrozen => exact hfrozen
      | authorizeSigning | sign | authorizeBroadcast | submit | hold | expire | confirm |
        cancelDraft | cancelSigning => exact absurd hreorged (by simp [PayoutBatchRow.enter,
          PayoutBatchRow.advance, PayoutBatchRow.confirm])
    · rw [hnew.state] at hreorged
      cases hreorged

/-- **Every run** keeps it, and the books with it. -/
theorem after_freezeInv (hfresh : Fresh db) (ops : List Operation) :
    Solvent (after cfg db ops).lastEventSeq (after cfg db ops) ∧ FreezeInv (after cfg db ops) := by
  refine run_invariant (P := fun db => Solvent db.lastEventSeq db ∧ FreezeInv db)
    (fun _ _ _ _ hinv hstep => ⟨step_solvent hstep hinv.1, step_freezeInv hstep hinv.1 hinv.2⟩)
    ⟨hfresh.solvent _, ?_⟩ ops
  have hnone : ∀ batchId row, db.payoutBatches.find batchId ≠ some row := by
    intro batchId row hrow
    have hmem := Table.mem_of_find hrow
    rw [hfresh.batches] at hmem
    cases hmem
  exact ⟨fun id row hrow => absurd hrow (hnone id row), fun id row hrow => absurd hrow (hnone id row)⟩

theorem run_frozen (hfrozen : db.Frozen chain) (ops : List Operation) :
    (after cfg db ops).Frozen chain :=
  run_invariant (P := fun db => db.Frozen chain) (fun _ _ _ _ h hstep => step_frozen hstep h) hfrozen
    ops

end Invariant

/-! ## §3. Taking back a matured reward -/

/-- The winner's reward counts as spendable. -/
def Matured (db : Database) (key : Chain × Hex32) : Prop :=
  ∃ w, db.winners.find key = some w ∧ w.state = .matured

section Maturity

variable {start db db' : Database} {s : ℕ} {key : Chain × Hex32}

/-- A rewritten winner keeps the maturity of every other one. -/
theorem Matured.modify (h : Matured db key) {key' : Chain × Hex32} (f : WinnerRow → WinnerRow)
    (hf : ∀ w, (f w).key = w.key) (hwinners : db'.winners = db.winners.modify key' f hf)
    (hself : ∀ w, key = key' → db.winners.find key = some w → w.state = .matured →
      (f w).state = .matured) : Matured db' key := by
  obtain ⟨w, hw, hstate⟩ := h
  by_cases hkey : key = key'
  · refine ⟨f w, ?_, hself w hkey hw hstate⟩
    rw [hwinners, Table.find_modify, if_pos hkey, ← hkey, hw]
    rfl
  · refine ⟨w, ?_, hstate⟩
    rw [hwinners, Table.find_modify, if_neg hkey, hw]

/-- **One step** that takes a matured reward back finds the chain frozen, if payouts are at
    risk. -/
theorem EventStep.frozen_of_unmatured (h : EventStep start s db db') (hsolvent : Solvent s db)
    (hbefore : Matured db key) (hafter : ¬ Matured db' key) (hexposed : payoutExposure db key.1) :
    db'.Frozen key.1 := by
  have hactive : ∀ {w : WinnerRow}, w.state = .matured → w.state.inactive = false := by
    intro w hstate
    rw [hstate]
    rfl
  cases h with
  | records | freeze => exact absurd hbefore hafter
  | claim w winners hinsert hstate hobs hmat =>
    refine absurd ?_ hafter
    obtain ⟨w', hw', hmatured⟩ := hbefore
    have hne : w.key ≠ key := by
      intro heq
      rw [← heq, (Table.insert_eq_some hinsert).1] at hw'
      exact absurd hw' (by simp)
    exact ⟨w', (Table.find_insert hinsert key).trans ((if_neg hne).trans hw'), hmatured⟩
  | select key' shareId =>
    exact absurd (hbefore.modify (fun w => { w with activeProofShareId := some shareId })
      (fun _ => rfl) rfl fun _ _ _ hmatured => hmatured) hafter
  | rest key' w next hw hstate hnext =>
    refine absurd (hbefore.modify (·.enter next none none) (fun _ => rfl) rfl
      fun w' hkey hw' hmatured => ?_) hafter
    obtain rfl : w' = w := Option.some.inj (hw'.symm.trans (hkey ▸ hw))
    rw [hactive hmatured] at hstate
    cases hstate
  | observe key' w share plan version allocations ledger hw hstate =>
    refine absurd (hbefore.modify (·.enter .observed (some s) none) (fun _ => rfl) rfl
      fun w' hkey hw' hmatured => ?_) hafter
    obtain rfl : w' = w := Option.some.inj (hw'.symm.trans (hkey ▸ hw))
    rw [hactive hmatured] at hstate
    cases hstate
  | mature key' w observation ledger hw hstate =>
    exact absurd (hbefore.modify (·.enter .matured (some observation) (some s)) (fun _ => rfl) rfl
      fun _ _ _ _ => rfl) hafter
  | demature key' w observation maturity ledger hw hstate hobs hmat hguard hledger =>
    by_cases hkey : key = key'
    · exact hkey ▸ hguard (hkey ▸ hexposed)
    · exact absurd (hbefore.modify (·.enter .observed (some observation) none) (fun _ => rfl) rfl
        fun _ heq => absurd heq hkey) hafter
  | reverse key' w observation kind next ledger hw hstate hobs hnext hguard hledger =>
    by_cases hkey : key = key'
    · obtain ⟨w', hw', hmatured⟩ := hbefore
      obtain rfl : w' = w := Option.some.inj (hw'.symm.trans (hkey ▸ hw))
      obtain ⟨o, m, -, hmat, -⟩ := (hsolvent.winners.winners key' w' hw).matured hmatured
      exact hkey ▸ hguard (by rw [hmat]; rfl) (hkey ▸ hexposed)
    · exact absurd (hbefore.modify (·.enter next none none) (fun _ => rfl) rfl
        fun _ heq => absurd heq hkey) hafter

/-- **The steps of one event**: the first one that takes the reward back is enough. -/
theorem EventSteps.frozen_of_unmatured (h : EventSteps start s db db') (hsolvent : Solvent s db)
    (hbefore : Matured db key) (hafter : ¬ Matured db' key) (hexposed : payoutExposure db key.1) :
    db'.Frozen key.1 := by
  induction h with
  | refl => exact absurd hbefore hafter
  | @tail mid last hsteps hstep ih =>
    by_cases hmid : Matured mid key
    · have hsame : mid.payoutBatches = db.payoutBatches := EventSteps.frame hsteps |>.payoutBatches
      have hmidExposed : payoutExposure mid key.1 := by
        unfold payoutExposure
        rw [hsame]
        exact hexposed
      exact hstep.frozen_of_unmatured (EventSteps.solvent hsteps hsolvent) hmid hafter hmidExposed
    · exact hstep.frozen (ih hmid)

/-- **A call** that takes a matured reward back leaves the chain frozen, if payouts are at
    risk. -/
theorem step_frozen_of_unmatured {cfg : Config} {op : Operation} {u : Unit}
    (h : step cfg db op = .ok (db', u)) (hsolvent : Solvent db.lastEventSeq db)
    (hbefore : Matured db key) (hafter : ¬ Matured db' key) (hexposed : payoutExposure db key.1) :
    db'.Frozen key.1 := by
  obtain ⟨call, r, -, hcall⟩ | hsteps := step_cases h
  · obtain ⟨-, rfl, -⟩ | ⟨-, hseq, events, mid, -, happly, rfl⟩ := projectOne_spec hcall
    · exact absurd hbefore hafter
    · have hnext : Solvent call.event.eventSeq { db with backendEvents := events } :=
        ⟨((hsolvent.journal db.lastEventSeq events).toBooks).mono (by omega), hsolvent.covered⟩
      exact (applyEvent_steps happly).frozen_of_unmatured hnext hbefore hafter hexposed
  · refine absurd ?_ hafter
    unfold Matured
    rw [hsteps.frame.winners]
    exact hbefore

end Maturity

/-! ## §4. The law -/

/-- The authority of a freeze over one chain, seen from a state of a run. -/
structure FreezeAuthority (cfg : Config) (db : Database) (chain : Chain) : Prop where
  /-- A frozen chain stays frozen. -/
  stays : db.Frozen chain → ∀ later, (after cfg db later).Frozen chain
  /-- From then on a batch of the chain is never new, and it never enters signing or
      broadcasting. -/
  withheld : db.Frozen chain → ∀ later op batchId row',
    (after cfg db (later ++ [op])).payoutBatches.find batchId = some row' → row'.chain = chain →
    ∃ row, (after cfg db later).payoutBatches.find batchId = some row ∧
      ¬ (row.state = .draft ∧ row'.state = .signing) ∧
      ¬ (row.state = .signed ∧ row'.state = .broadcasting)
  /-- A batch in signing takes every acceptable transaction, and there is one. -/
  signs : ∀ batchId row, db.payoutBatches.find batchId = some row → row.chain = chain →
    row.state = .signing → ∃ policy, db.chainPolicies.get chain = some policy ∧
      (∃ facts, Acceptable db row policy facts) ∧
      ∀ facts, Acceptable db row policy facts →
        ∃ row', (after cfg db [.markPayoutSigned batchId facts]).payoutBatches.find batchId
          = some row' ∧ row'.state = .signed
  /-- A batch in broadcasting takes its submission. -/
  broadcasts : ∀ batchId row, db.payoutBatches.find batchId = some row → row.chain = chain →
    row.state = .broadcasting →
    ∃ row', (after cfg db [.markPayoutBroadcast batchId]).payoutBatches.find batchId = some row' ∧
      row'.state = .broadcast
  /-- A confirmed payout that is reorganised away leaves the chain frozen. -/
  reorganised : ∀ eventId batchId evidence row db',
    db.payoutBatches.find batchId = some row → row.chain = chain →
    markConfirmedPayoutReorged db eventId batchId evidence = .ok db' → db'.Frozen chain
  /-- So does taking back a matured reward while a batch is not cancelled. -/
  unmatured : ∀ op blockHash, Matured db (chain, blockHash) →
    ¬ Matured (after cfg db [op]) (chain, blockHash) → payoutExposure db chain →
    (after cfg db [op]).Frozen chain

/-- A reorganisation that was recorded, now or before, finds or makes the batch reorganised. -/
theorem markConfirmedPayoutReorged_state {db db' : Database} {eventId batchId : Uuid}
    {evidence : PayoutReorg} (h : markConfirmedPayoutReorged db eventId batchId evidence = .ok db') :
    ∃ row, db'.payoutBatches.find batchId = some row ∧ row.state = .reorged := by
  obtain ⟨row, hrow, h⟩ := loadPayoutBatch_bind (passed h)
  split at h
  · next hstate =>
    obtain ⟨stored, -, h⟩ := bind_eq_ok.mp h
    obtain ⟨same, -, h⟩ := bind_eq_ok.mp h
    replace h := passed h
    injection h with h
    exact ⟨row, h ▸ hrow, hstate⟩
  · obtain ⟨stored, -, h⟩ := bind_eq_ok.mp (passed h)
    obtain ⟨same, -, h⟩ := bind_eq_ok.mp h
    obtain ⟨reorgEvents, -, h⟩ := bind_eq_ok.mp (passed (passed h))
    obtain ⟨safety, -, rfl⟩ := freezeChainPayouts_spec h
    exact ⟨row.enter .reorged, Table.find_modify_self hrow (·.enter .reorged) fun _ => rfl, rfl⟩

section Law

variable {cfg : Config} {db : Database} {chain : Chain}

theorem after_of_ok {db' : Database} {op : Operation} {u : Unit}
    (h : step cfg db op = .ok (db', u)) : after cfg db [op] = db' := attempt_of_ok _ h

/-- No edge into signing or broadcasting on a frozen chain, and no new batch. -/
theorem attempt_withheld (hfrozen : db.Frozen chain) {op : Operation} {batchId : Uuid}
    {row' : PayoutBatchRow}
    (hrow' : (attempt (step cfg) db op).payoutBatches.find batchId = some row')
    (hchain : row'.chain = chain) :
    ∃ row, db.payoutBatches.find batchId = some row ∧
      ¬ (row.state = .draft ∧ row'.state = .signing) ∧
      ¬ (row.state = .signed ∧ row'.state = .broadcasting) := by
  have hstay : ∀ {state next next' : PayoutBatchState}, next ≠ next' →
      ¬ (state = next ∧ state = next') := by
    rintro state next next' hne ⟨rfl, rfl⟩
    exact hne rfl
  cases hstep : step cfg db op with
  | error e =>
    rw [attempt_of_error _ hstep] at hrow'
    exact ⟨row', hrow', hstay (by simp), hstay (by simp)⟩
  | ok result =>
    rw [attempt_of_ok _ hstep] at hrow'
    obtain ⟨row, hrow, rfl | hmove⟩ | ⟨-, hnew⟩ := (step_change hstep).origin hrow'
    · exact ⟨row', hrow, hstay (by simp), hstay (by simp)⟩
    · refine ⟨row, hrow, ?_⟩
      have hsame : row.chain = chain := hmove.order.chain.symm.trans hchain
      cases hmove with
      | authorizeSigning hstate hunfrozen | authorizeBroadcast hstate hunfrozen =>
        exact absurd (hsame ▸ hfrozen) hunfrozen
      | sign | submit | hold | expire | confirm | reorganise | cancelDraft | cancelSigning =>
        simp [PayoutBatchRow.enter, PayoutBatchRow.advance, PayoutBatchRow.confirm]
    · exact absurd (hchain ▸ hfrozen) hnew.unfrozen

/-- **Freeze authority.**  In every state of every run from a fresh deployment: a freeze stays, it
    withholds every new draft and both authorisations, it never stands in the way of what was
    authorised before, and it follows every reorganised payout and every matured reward that is
    taken back while payouts are at risk. -/
theorem freeze_authority (hfresh : Fresh db) (ops : List Operation) (chain : Chain) :
    FreezeAuthority cfg (after cfg db ops) chain := by
  obtain ⟨hsolvent, hinv⟩ : _ ∧ FreezeInv (after cfg db ops) := after_freezeInv hfresh ops
  have hok : ∀ batchId row, (after cfg db ops).payoutBatches.find batchId = some row →
      BatchOk (after cfg db ops) row := hsolvent.batches.batches
  refine
    { stays := fun hfrozen later => run_frozen hfrozen later
      withheld := fun hfrozen later op batchId row' hrow' hchain => ?_
      signs := fun batchId row hrow hchain hstate => ?_
      broadcasts := fun batchId row hrow hchain hstate => ?_
      reorganised := fun eventId batchId evidence row db' hrow hchain hreorg => ?_
      unmatured := fun op blockHash hbefore hafter hexposed => ?_ }
  · rw [after, run_concat] at hrow'
    exact attempt_withheld (run_frozen hfrozen later) hrow' hchain
  · have hsignable := hinv.signable batchId row hrow
    obtain ⟨policy, facts, hpolicy, hversion, hfacts⟩ := hsignable.exists_acceptable
    refine ⟨policy, hchain ▸ hpolicy, ⟨facts, hfacts⟩, fun facts' hfacts' => ?_⟩
    have hmark := markPayoutSigned_of_acceptable hfacts' hrow hstate (hok batchId row hrow) hsignable
      hpolicy hversion
    refine ⟨row.advance .signed (some facts'), ?_, rfl⟩
    rw [@after_of_ok cfg _ _ (.markPayoutSigned batchId facts') () (silently_eq_ok.mpr hmark)]
    exact Table.find_modify_self hrow (·.advance .signed (some facts')) fun _ => rfl
  · have hmark := markPayoutBroadcast_of_broadcasting hrow hstate (hok batchId row hrow)
    refine ⟨row.advance .broadcast none, ?_, rfl⟩
    rw [@after_of_ok cfg _ _ (.markPayoutBroadcast batchId) () (silently_eq_ok.mpr hmark)]
    exact Table.find_modify_self hrow (·.advance .broadcast none) fun _ => rfl
  · have hstep : step cfg (after cfg db ops) (.markConfirmedPayoutReorged eventId batchId evidence)
        = .ok (db', ()) := silently_eq_ok.mpr hreorg
    obtain ⟨row', hrow', hreorged⟩ := markConfirmedPayoutReorged_state hreorg
    obtain ⟨row'', hrow'', hnext⟩ := (step_change hstep).next hrow
    obtain rfl : row' = row'' := Option.some.inj (hrow'.symm.trans hrow'')
    have hsame : row'.chain = chain := by
      obtain rfl | hmove := hnext
      · exact hchain
      · exact hmove.order.chain.trans hchain
    exact hsame ▸ (step_freezeInv hstep hsolvent hinv).reorged batchId row' hrow' hreorged
  · cases hstep : step cfg (after cfg db ops) op with
    | error e =>
      have hsame : after cfg (after cfg db ops) [op] = after cfg db ops := attempt_of_error _ hstep
      rw [hsame] at hafter
      exact absurd hbefore hafter
    | ok result =>
      rw [after_of_ok hstep] at hafter ⊢
      exact step_frozen_of_unmatured hstep hsolvent hbefore hafter hexposed

end Law

/-- The worked reward loses its maturity while its payout is being signed. -/
def sampleRegressed : List Operation := sampleReward ++ samplePayout.take 3 ++ [sampleRegression]

/-- The chain is frozen, and the transaction can still be recorded. -/
theorem freeze_authority_sample :
    (sampleAfter sampleRegressed).Frozen .zcash ∧
      ∃ facts row', (after sampleConfig (sampleAfter sampleRegressed)
          [.markPayoutSigned 1 facts]).payoutBatches.find 1 = some row' ∧ row'.state = .signed := by
  have hfrozen : ((sampleAfter sampleRegressed).chainSafety.get .zcash).map (·.payoutsFrozen)
      = some true := by decide +kernel
  have hbatch : ((sampleAfter sampleRegressed).payoutBatches.find 1).map
      (fun row => (row.state, row.chain)) = some (.signing, .zcash) := by decide +kernel
  obtain ⟨row, hrow, hstate⟩ := Option.map_eq_some_iff.mp hbatch
  obtain ⟨hstate, hchain⟩ := Prod.mk.inj hstate
  have hlaw := @freeze_authority sampleConfig sampleStart (Fresh.bootstrap _ _)
    sampleRegressed .zcash
  obtain ⟨policy, -, ⟨facts, hfacts⟩, hsigns⟩ := hlaw.signs 1 row hrow hchain hstate
  exact ⟨Option.map_eq_some_iff.mp hfrozen, facts, hsigns facts hfacts⟩

end WcashPool.Store
