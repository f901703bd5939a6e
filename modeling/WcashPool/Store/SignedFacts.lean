/-
  WcashPool.Store.SignedFacts — what the signer returned is written once.

  `mark_payout_signed` stores four facts: the digest of the unsigned
  transaction, the transaction's identifier, its bytes and its fee.  Every later
  transition is an `UPDATE` of the same row, some through `COALESCE`, some by
  hand, all under the trigger `permit_only_payout_batch_seal`.  None of them
  touches the four.  So a batch is signed once: a repeated call either carries
  the stored facts or fails, and the identifier belongs to no other batch of the
  chain.

  Main results: `RowMove.permits`, `step_factsInv` and
  `signed_facts_write_once`.
-/
import WcashPool.Store.PayoutReads

namespace WcashPool.Store

open Fallible Protocol Machine

/-! ## §1. The published graph -/

/-- The edges that the trigger `permit_only_payout_batch_seal` lets through. -/
def PayoutBatchState.permits : PayoutBatchState → PayoutBatchState → Bool
  | .draft, .signing | .signing, .signed | .signed, .broadcasting | .broadcasting, .broadcast
  | .broadcast, .confirmed | .expiryPending, .confirmed | .confirmed, .reorged
  | .signed, .expiryPending | .broadcasting, .expiryPending | .broadcast, .expiryPending
  | .expiryPending, .expired | .signing, .cancelled | .draft, .cancelled => true
  | _, _ => false

/-- What a batch can spend on its fee: the liabilities less the amounts paid out. -/
def PayoutBatchRow.feeReserve (row : PayoutBatchRow) : ℕ :=
  liabilityTotal row.items - payoutTotal row.items

/-- The four facts of a row stand as they stood. -/
structure SameFacts (row row' : PayoutBatchRow) : Prop where
  unsignedDigest : row'.unsignedDigest = row.unsignedDigest
  transactionId : row'.transactionId = row.transactionId
  signedTransaction : row'.signedTransaction = row.signedTransaction
  networkFeeZat : row'.networkFeeZat = row.networkFeeZat
  isSigned : row'.state.isSigned = row.state.isSigned

variable {row row' : PayoutBatchRow}

theorem SameFacts.replayMatches (h : SameFacts row row') (facts : SignedTransitionFacts) :
    replayMatches row' facts ↔ replayMatches row facts := by
  unfold Store.replayMatches
  rw [h.unsignedDigest, h.transactionId, h.signedTransaction, h.networkFeeZat]

theorem SameFacts.hasExternalFacts (h : SameFacts row row') :
    row'.hasExternalFacts = row.hasExternalFacts := by
  unfold PayoutBatchRow.hasExternalFacts
  rw [h.unsignedDigest, h.transactionId, h.signedTransaction, h.networkFeeZat]

section Rows

variable {db db' : Database} {row row' : PayoutBatchRow} {facts : SignedTransitionFacts}

/-- Every edge is one that the trigger lets through. -/
theorem RowMove.permits (h : RowMove db db' row row') : row.state.permits row'.state = true := by
  cases h with
  | hold hstate =>
    cases hrow : row.state <;> first | rfl | (rw [hrow] at hstate; exact absurd hstate (by decide))
  | confirm confirmation hstate =>
    cases hrow : row.state <;> first | rfl | (rw [hrow] at hstate; exact absurd hstate (by decide))
  | authorizeSigning hstate | sign facts hstate | authorizeBroadcast hstate | submit hstate
  | expire hstate | reorganise hstate | cancelDraft hstate | cancelSigning hstate =>
    rw [hstate]
    rfl

/-- **The facts of a row** change on one edge only. -/
theorem RowMove.facts_cases (h : RowMove db db' row row') :
    (∃ facts, row.state = .signing ∧ checkSignedFacts db row facts = .ok () ∧
      row' = row.advance .signed (some facts)) ∨ SameFacts row row' := by
  cases h with
  | sign facts hstate hfacts hchecked => exact .inl ⟨facts, hstate, hchecked, rfl⟩
  | hold hstate =>
    refine .inr ⟨rfl, rfl, rfl, rfl, ?_⟩
    cases hrow : row.state <;> first | rfl | (rw [hrow] at hstate; exact absurd hstate (by decide))
  | confirm confirmation hstate =>
    refine .inr ⟨rfl, rfl, rfl, rfl, ?_⟩
    cases hrow : row.state <;> first | rfl | (rw [hrow] at hstate; exact absurd hstate (by decide))
  | authorizeSigning hstate | authorizeBroadcast hstate | submit hstate | expire hstate
  | reorganise hstate | cancelDraft hstate | cancelSigning hstate =>
    refine .inr ⟨rfl, rfl, rfl, rfl, ?_⟩
    rw [hstate]
    rfl

theorem replayMatches_advance (row : PayoutBatchRow) (facts : SignedTransitionFacts) :
    replayMatches (row.advance .signed (some facts)) facts := ⟨rfl, rfl, rfl, rfl⟩

/-- A signed row stays signed, with the same facts. -/
theorem RowMove.keeps (h : RowMove db db' row row') (hsigned : row.state.isSigned = true) :
    SameFacts row row' := by
  obtain ⟨facts, hstate, -⟩ | hsame := h.facts_cases
  · rw [hstate] at hsigned
    cases hsigned
  · exact hsame

/-- No move changes a fee reserve. -/
theorem RowMove.feeReserve (h : RowMove db db' row row') : row'.feeReserve = row.feeReserve := by
  unfold PayoutBatchRow.feeReserve
  rw [h.order.items]

/-- The identifier that passes the checks is nobody else's. -/
theorem checkSignedFacts_unused (h : checkSignedFacts db row facts = .ok ()) {b : PayoutBatchRow}
    (hb : b ∈ db.payoutBatches.rows) (hchain : b.chain = row.chain)
    (htransaction : b.transactionId = some facts.transactionId) : b.id = row.id := by
  obtain ⟨_, hunused, -⟩ := bind_eq_ok.mp h
  rw [rejectIf_eq_ok] at hunused
  by_contra hne
  exact hunused ⟨b, hb, hchain, hne, htransaction⟩

/-- A row has one tuple of facts. -/
theorem replayMatches_unique {facts' : SignedTransitionFacts} (h : replayMatches row facts)
    (h' : replayMatches row facts') : facts' = facts := by
  obtain ⟨hdigest, htransaction, hbytes, hfee⟩ := h
  obtain ⟨hdigest', htransaction', hbytes', hfee'⟩ := h'
  cases facts
  cases facts'
  simp_all

end Rows

/-! ## §2. The invariant -/

/-- What is stored of the signer's answers. -/
structure FactsInv (db : Database) : Prop where
  unsigned : ∀ batchId row, db.payoutBatches.find batchId = some row → row.state.isSigned = false →
    row.hasExternalFacts = false
  signed : ∀ batchId row, db.payoutBatches.find batchId = some row → row.state.isSigned = true →
    ∃ facts, replayMatches row facts ∧ 0 < facts.networkFeeZat ∧
      facts.networkFeeZat ≤ row.feeReserve
  unique : ∀ batchId row batchId' row' transactionId,
    db.payoutBatches.find batchId = some row → db.payoutBatches.find batchId' = some row' →
    row'.chain = row.chain → row.transactionId = some transactionId →
    row'.transactionId = some transactionId → batchId' = batchId

theorem Fresh.factsInv {db : Database} (h : Fresh db) : FactsInv db := by
  have hnone : ∀ batchId, db.payoutBatches.find batchId = none := by
    intro batchId
    rw [Table.find_eq_none, h.batches]
    simp
  exact ⟨fun id _ hrow => by simp [hnone id] at hrow, fun id _ hrow => by simp [hnone id] at hrow,
    fun id _ _ _ _ hrow => by simp [hnone id] at hrow⟩

section Invariant

variable {cfg : Config} {db db' : Database} {op : Operation} {u : Unit}

/-- A row that has an identifier got it earlier, or is being signed with one that nobody has. -/
theorem RowMove.transactionId_or (h : RowMove db db' row row') {transactionId : Hex32}
    (htransaction : row'.transactionId = some transactionId) :
    row.transactionId = some transactionId ∨
      ∀ b ∈ db.payoutBatches.rows, b.chain = row.chain → b.transactionId = some transactionId →
        b.id = row.id := by
  obtain ⟨facts, -, hchecked, rfl⟩ | hsame := h.facts_cases
  · obtain rfl : facts.transactionId = transactionId := Option.some.inj htransaction
    exact .inr fun b hb hchain hused => checkSignedFacts_unused hchecked hb hchain hused
  · exact .inl (hsame.transactionId ▸ htransaction)

/-- Transaction identifiers stay unique on a chain. -/
theorem BatchChange.unique (h : BatchChange cfg db db') (hinv : FactsInv db) :
    ∀ batchId row batchId' row' transactionId,
      db'.payoutBatches.find batchId = some row → db'.payoutBatches.find batchId' = some row' →
      row'.chain = row.chain → row.transactionId = some transactionId →
      row'.transactionId = some transactionId → batchId' = batchId := by
  intro id₁ row₁ id₂ row₂ txid hrow₁ hrow₂ hchain htx₁ htx₂
  cases h with
  | same hsame =>
    rw [hsame] at hrow₁ hrow₂
    exact hinv.unique id₁ row₁ id₂ row₂ txid hrow₁ hrow₂ hchain htx₁ htx₂
  | moved id row row' hrow hmove hfind =>
    -- at most one of the two rows moved; the other one stands as it stood
    have hid : row.id = id := Table.key_of_find hrow
    rw [hfind] at hrow₁ hrow₂
    split at hrow₁
    · next heq₁ =>
      obtain rfl := Option.some.inj hrow₁
      split at hrow₂
      · next heq₂ => rw [heq₁, heq₂]
      · rw [hmove.order.chain] at hchain
        obtain hbefore | hunused := hmove.transactionId_or htx₁
        · exact heq₁ ▸ hinv.unique id row id₂ row₂ txid hrow hrow₂ hchain hbefore htx₂
        · have hsame := hunused row₂ (Table.mem_of_find hrow₂) hchain htx₂
          rw [heq₁, ← hid, ← hsame]
          exact (Table.key_of_find hrow₂).symm
    · split at hrow₂
      · next heq₂ =>
        obtain rfl := Option.some.inj hrow₂
        rw [hmove.order.chain] at hchain
        obtain hbefore | hunused := hmove.transactionId_or htx₂
        · exact heq₂ ▸ hinv.unique id₁ row₁ id row txid hrow₁ hrow hchain htx₁ hbefore
        · have hsame := hunused row₁ (Table.mem_of_find hrow₁) hchain.symm htx₁
          rw [heq₂, ← hid, ← hsame]
          exact Table.key_of_find hrow₁
      · exact hinv.unique id₁ row₁ id₂ row₂ txid hrow₁ hrow₂ hchain htx₁ htx₂
  | born row hfresh hnew hfind =>
    -- the new row has no identifier yet
    have hnone : row.transactionId = none := by
      have hunsigned := hnew.unsigned
      simp only [PayoutBatchRow.hasExternalFacts, Bool.or_eq_false_iff, Option.isSome_eq_false_iff,
        Option.isNone_iff_eq_none] at hunsigned
      exact hunsigned.1.1.2
    rw [hfind] at hrow₁ hrow₂
    split at hrow₁
    · obtain rfl := Option.some.inj hrow₁
      rw [hnone] at htx₁
      cases htx₁
    · split at hrow₂
      · obtain rfl := Option.some.inj hrow₂
        rw [hnone] at htx₂
        cases htx₂
      · exact hinv.unique id₁ row₁ id₂ row₂ txid hrow₁ hrow₂ hchain htx₁ htx₂

/-- **One operation**: unsigned batches have no facts, signed ones all four. -/
theorem step_factsInv (h : step cfg db op = .ok (db', u)) (hinv : FactsInv db) : FactsInv db' := by
  have hchange := step_change h
  refine ⟨fun id row' hrow' hunsigned => ?_, fun id row' hrow' hsigned => ?_, hchange.unique hinv⟩
  · obtain ⟨row, hrow, rfl | hmove⟩ | ⟨-, hnew⟩ := hchange.origin hrow'
    · exact hinv.unsigned id row' hrow hunsigned
    · obtain ⟨facts, -, -, rfl⟩ | hsame := hmove.facts_cases
      · exact absurd hunsigned (by simp [PayoutBatchRow.advance, PayoutBatchState.isSigned])
      · rw [hsame.hasExternalFacts]
        exact hinv.unsigned id row hrow (hsame.isSigned ▸ hunsigned)
    · exact hnew.unsigned
  · obtain ⟨row, hrow, rfl | hmove⟩ | ⟨-, hnew⟩ := hchange.origin hrow'
    · exact hinv.signed id row' hrow hsigned
    · rw [hmove.feeReserve]
      obtain ⟨facts, -, hchecked, rfl⟩ | hsame := hmove.facts_cases
      · exact ⟨facts, replayMatches_advance row facts, checkSignedFacts_spec hchecked⟩
      · obtain ⟨facts, hmatch, hfee⟩ := hinv.signed id row hrow (hsame.isSigned ▸ hsigned)
        exact ⟨facts, (hsame.replayMatches facts).mpr hmatch, hfee⟩
    · rw [hnew.state] at hsigned
      cases hsigned

/-- Every run of operations. -/
theorem after_factsInv (hfresh : Fresh db) (ops : List Operation) : FactsInv (after cfg db ops) :=
  run_invariant (P := FactsInv) (fun _ _ _ _ hinv hstep => step_factsInv hstep hinv)
    hfresh.factsInv ops

/-- A signed batch is there for ever, with its facts. -/
theorem after_keeps {batchId : Uuid} {facts : SignedTransitionFacts}
    (h : ∃ row, db.payoutBatches.find batchId = some row ∧ row.state.isSigned = true ∧
      replayMatches row facts) (ops : List Operation) :
    ∃ row, (after cfg db ops).payoutBatches.find batchId = some row ∧ row.state.isSigned = true ∧
      replayMatches row facts := by
  refine run_invariant (P := fun db : Database => ∃ row, db.payoutBatches.find batchId = some row ∧
    row.state.isSigned = true ∧ replayMatches row facts) ?_ h ops
  rintro s op s' u ⟨row, hrow, hsigned, hmatch⟩ hstep
  obtain ⟨row', hrow', rfl | hmove⟩ := (step_change hstep).next hrow
  · exact ⟨row', hrow', hsigned, hmatch⟩
  · have hsame := hmove.keeps hsigned
    exact ⟨row', hrow', hsame.isSigned.trans hsigned, (hsame.replayMatches facts).mpr hmatch⟩

end Invariant

/-! ## §3. Repeated calls -/

section Replays

variable {cfg : Config} {db db' : Database} {batchId : Uuid} {row : PayoutBatchRow}
  {facts : SignedTransitionFacts}

/-- A signature that is reported for a signed batch is the stored one. -/
theorem markPayoutSigned_replay (hrow : db.payoutBatches.find batchId = some row)
    (hsigned : row.state.isSigned = true) (h : markPayoutSigned db batchId facts = .ok db') :
    db' = db ∧ replayMatches row facts := by
  replace h := passed h
  unfold transitionPayout at h
  rw [hrow] at h
  change (if row.state = .signed then _ else _) = _ at h
  split at h
  · split at h
    · next hmatch => exact ⟨(Except.ok.inj h).symm, hmatch facts rfl⟩
    · cases h
  · obtain ⟨_, hexpected, -⟩ := bind_eq_ok.mp h
    rw [rejectIf_eq_ok, not_not] at hexpected
    rw [hexpected] at hsigned
    cases hsigned

/-- What is reported as signed is stored as reported. -/
theorem markPayoutSigned_stored (h : markPayoutSigned db batchId facts = .ok db') :
    ∃ row, db'.payoutBatches.find batchId = some row ∧ row.state = .signed ∧
      replayMatches row facts := by
  replace h := passed h
  obtain ⟨row, hrow, h⟩ := bind_eq_ok.mp h
  rw [orReject_eq_ok] at hrow
  split at h
  · next hstate =>
    split at h
    · next hmatch =>
      obtain rfl := Except.ok.inj h
      exact ⟨row, hrow, hstate, hmatch facts rfl⟩
    · cases h
  · replace h := passed (passed (passed h))
    obtain rfl := Except.ok.inj h
    exact ⟨row.advance .signed (some facts),
      Table.find_modify_self hrow (·.advance .signed (some facts)) fun _ => rfl, rfl,
      replayMatches_advance row facts⟩

section

variable (hrow : db.payoutBatches.find batchId = some row)

include hrow

/-- An authorisation to broadcast hands out what is stored. -/
theorem authorizePayoutBroadcast_replay {artifact : SignedPayoutArtifact}
    (h : authorizePayoutBroadcast db batchId = .ok (db', artifact)) :
    artifact.Of row ∧ row.state.isSigned = true ∧ (row.state ≠ .signed → db' = db) := by
  obtain ⟨row', hrow', hof, -⟩ := authorizePayoutBroadcast_artifact h
  obtain rfl | ⟨before, hbefore, hstate, -, rfl⟩ := authorizePayoutBroadcast_spec h
  · obtain rfl := Option.some.inj (hrow.symm.trans hrow')
    refine ⟨hof, ?_, fun _ => rfl⟩
    -- the call refuses every other state
    replace h := passed h
    rw [hrow] at h
    change (if row.state = .signed then _ else _) = _ at h
    split at h
    · next hstate => rw [hstate]; rfl
    · split at h
      · next hstate => obtain hstate | hstate := hstate <;> rw [hstate] <;> rfl
      · cases h
  · obtain rfl := Option.some.inj (hrow.symm.trans hbefore)
    rw [Table.find_modify_self hrow (·.enter .broadcasting) fun _ => rfl] at hrow'
    obtain rfl := Option.some.inj hrow'
    exact ⟨⟨hof.1, hof.2, hof.3, hof.4, hof.5, hof.6⟩, by rw [hstate]; rfl,
      fun hne => absurd hstate hne⟩

/-- A batch that was signed is not authorised for signing again. -/
theorem authorizePayoutSigning_signed {now : ℕ} (hsigned : row.state.isSigned = true) :
    ∃ e, authorizePayoutSigning cfg db now batchId = .error e := by
  cases h : authorizePayoutSigning cfg db now batchId with
  | error e => exact ⟨e, rfl⟩
  | ok result =>
    obtain ⟨_, request⟩ := result
    obtain ⟨row', hrow', hstate, -⟩ := authorizePayoutSigning_request h
    obtain rfl | ⟨before, hbefore, hdraft, -, rfl⟩ := authorizePayoutSigning_spec h
    · obtain rfl := Option.some.inj (hrow.symm.trans hrow')
      rw [hstate] at hsigned
      cases hsigned
    · obtain rfl := Option.some.inj (hrow.symm.trans hbefore)
      rw [hdraft] at hsigned
      cases hsigned

/-- A repeated authorisation for signing hands out the batch's own request again. -/
theorem authorizePayoutSigning_replay {now : ℕ} {request : PayoutBatchRequest}
    (hstate : row.state = .signing)
    (h : authorizePayoutSigning cfg db now batchId = .ok (db', request)) :
    db' = db ∧ request = row.request cfg := by
  obtain ⟨row', hrow', -, hrequest⟩ := authorizePayoutSigning_request h
  obtain rfl | ⟨before, hbefore, hdraft, -, -⟩ := authorizePayoutSigning_spec h
  · obtain rfl := Option.some.inj (hrow.symm.trans hrow')
    exact ⟨rfl, hrequest⟩
  · obtain rfl := Option.some.inj (hrow.symm.trans hbefore)
    rw [hstate] at hdraft
    cases hdraft

end

end Replays

/-! ## §4. The law -/

/-- The law of the signed facts, in one state. -/
structure WriteOnce (cfg : Config) (db : Database) : Prop where
  /-- Whatever is done next, a signed batch keeps its four facts; the fee is positive and within
      the batch's own reserve. -/
  kept : ∀ batchId row, db.payoutBatches.find batchId = some row → row.state.isSigned = true →
    ∃ facts, replayMatches row facts ∧ 0 < facts.networkFeeZat ∧
      facts.networkFeeZat ≤ row.feeReserve ∧
      ∀ later, ∃ row', (after cfg db later).payoutBatches.find batchId = some row' ∧
        row'.state.isSigned = true ∧ replayMatches row' facts
  /-- No two batches of one chain hold the same transaction. -/
  transactionIds : ∀ batchId row batchId' row' transactionId,
    db.payoutBatches.find batchId = some row → db.payoutBatches.find batchId' = some row' →
    row'.chain = row.chain → row.transactionId = some transactionId →
    row'.transactionId = some transactionId → batchId' = batchId
  /-- A signature that is accepted carries the facts that are stored then; for a batch that was
      signed before, these are the old ones. -/
  accepted : ∀ batchId facts db', markPayoutSigned db batchId facts = .ok db' →
    ∃ row row', db.payoutBatches.find batchId = some row ∧
      db'.payoutBatches.find batchId = some row' ∧ replayMatches row' facts ∧
      0 < facts.networkFeeZat ∧ facts.networkFeeZat ≤ row.feeReserve ∧
      (row.state.isSigned = true → db' = db)
  /-- A differing fact is refused, and nothing changes. -/
  conflicts : ∀ batchId row facts, db.payoutBatches.find batchId = some row →
    row.state.isSigned = true → ¬ replayMatches row facts →
    (∃ e, step cfg db (.markPayoutSigned batchId facts) = .error e) ∧
      after cfg db [.markPayoutSigned batchId facts] = db
  /-- An authorisation to broadcast, first or repeated, returns the stored facts. -/
  broadcasts : ∀ batchId row db' artifact, db.payoutBatches.find batchId = some row →
    authorizePayoutBroadcast db batchId = .ok (db', artifact) →
    artifact.Of row ∧ row.state.isSigned = true ∧ (row.state ≠ .signed → db' = db)
  /-- A repeated authorisation to sign returns the batch's own request; after the signature there
      is none. -/
  signings : ∀ now batchId row, db.payoutBatches.find batchId = some row →
    (row.state.isSigned = true → ∃ e, authorizePayoutSigning cfg db now batchId = .error e) ∧
      ∀ db' request, row.state = .signing →
        authorizePayoutSigning cfg db now batchId = .ok (db', request) →
        db' = db ∧ request = row.request cfg
  /-- No batch disappears, and one call takes a batch along at most one edge of the graph. -/
  moves : ∀ op batchId row, db.payoutBatches.find batchId = some row →
    ∃ row', (after cfg db [op]).payoutBatches.find batchId = some row' ∧
      (row'.state = row.state ∨ row.state.permits row'.state = true)
  /-- A batch starts as a draft. -/
  births : ∀ op batchId row', db.payoutBatches.find batchId = none →
    (after cfg db [op]).payoutBatches.find batchId = some row' → row'.state = .draft

section Law

variable {cfg : Config} {db : Database}

/-- What an accepted report leaves behind. -/
theorem FactsInv.accepted (hinv : FactsInv db) {batchId : Uuid} {facts : SignedTransitionFacts}
    {db' : Database} (h : markPayoutSigned db batchId facts = .ok db') :
    ∃ row row', db.payoutBatches.find batchId = some row ∧
      db'.payoutBatches.find batchId = some row' ∧ replayMatches row' facts ∧
      0 < facts.networkFeeZat ∧ facts.networkFeeZat ≤ row.feeReserve ∧
      (row.state.isSigned = true → db' = db) := by
  obtain ⟨row', hrow', hstate, hmatch⟩ := markPayoutSigned_stored h
  obtain rfl | ⟨row, hrow, hsigning, hpos, hle, -⟩ := markPayoutSigned_spec h
  · obtain ⟨stored, hstored, hpos, hle⟩ := hinv.signed batchId row' hrow' (by rw [hstate]; rfl)
    obtain rfl := replayMatches_unique hstored hmatch
    exact ⟨row', row', hrow', hrow', hmatch, hpos, hle, fun _ => rfl⟩
  · refine ⟨row, row', hrow, hrow', hmatch, hpos, hle, fun hsigned => ?_⟩
    rw [hsigning] at hsigned
    cases hsigned

/-- One call, failed or not. -/
theorem after_one (op : Operation) :
    after cfg db [op] = db ∨ BatchChange cfg db (after cfg db [op]) := by
  cases hstep : step cfg db op with
  | error e => exact .inl (attempt_of_error _ hstep)
  | ok result =>
    have hafter : after cfg db [op] = result.1 := attempt_of_ok _ hstep
    rw [hafter]
    exact .inr (step_change hstep)

/-- **Signed facts are write-once.**  In every state of every run from a fresh deployment. -/
theorem signed_facts_write_once (hfresh : Fresh db) (ops : List Operation) :
    WriteOnce cfg (after cfg db ops) := by
  have hinv : FactsInv (after cfg db ops) := after_factsInv hfresh ops
  refine
    { kept := fun batchId row hrow hsigned => ?_
      transactionIds := hinv.unique
      accepted := fun batchId facts db' h => hinv.accepted h
      conflicts := fun batchId row facts hrow hsigned hdiffers => ?_
      broadcasts := fun batchId row db' artifact hrow h => authorizePayoutBroadcast_replay hrow h
      signings := fun now batchId row hrow => ⟨authorizePayoutSigning_signed hrow,
        fun db' request hstate h => authorizePayoutSigning_replay hrow hstate h⟩
      moves := fun op batchId row hrow => ?_
      births := fun op batchId row' hnone hrow' => ?_ }
  · obtain ⟨facts, hmatch, hpos, hle⟩ := hinv.signed batchId row hrow hsigned
    exact ⟨facts, hmatch, hpos, hle, after_keeps ⟨row, hrow, hsigned, hmatch⟩⟩
  · cases hmark : markPayoutSigned (after cfg db ops) batchId facts with
    | ok db' => exact absurd (markPayoutSigned_replay hrow hsigned hmark).2 hdiffers
    | error e =>
      have hstep : step cfg (after cfg db ops) (.markPayoutSigned batchId facts) = .error e := by
        show silently _ = _
        rw [hmark]
        rfl
      exact ⟨⟨e, hstep⟩, attempt_of_error _ hstep⟩
  · obtain hsame | hchange := @after_one cfg (after cfg db ops) op
    · exact ⟨row, by rw [hsame]; exact hrow, .inl rfl⟩
    · obtain ⟨row', hrow', rfl | hmove⟩ := hchange.next hrow
      · exact ⟨row', hrow', .inl rfl⟩
      · exact ⟨row', hrow', .inr hmove.permits⟩
  · obtain hsame | hchange := @after_one cfg (after cfg db ops) op
    · rw [hsame, hnone] at hrow'
      exact absurd hrow' (by simp)
    · obtain ⟨row, hrow, -⟩ | ⟨-, hnew⟩ := hchange.origin hrow'
      · rw [hnone] at hrow
        cases hrow
      · exact hnew.state

end Law

/-- The worked payout has been broadcast with a fee of 5 zatoshi.  Reporting its transaction with
    a fee of 6 is refused, and it confirms with the facts it was signed with. -/
theorem signed_facts_write_once_sample :
    (∃ e, step sampleConfig (sampleAfter (sampleReward ++ samplePayout))
        (.markPayoutSigned 1 ⟨1, 1, [0], 6⟩) = .error e) ∧
      ∃ row, (after sampleConfig (sampleAfter (sampleReward ++ samplePayout))
          [.confirmPayout ⟨200, 0⟩ 1 sampleConfirmation]).payoutBatches.find 1 = some row ∧
        row.state.isSigned = true ∧ replayMatches row ⟨1, 1, [0], 5⟩ := by
  have hlaw := @signed_facts_write_once sampleConfig sampleStart (Fresh.bootstrap _ _)
    (sampleReward ++ samplePayout)
  have hbatch : ((sampleAfter (sampleReward ++ samplePayout)).payoutBatches.find 1).map
      (fun row => (row.state.isSigned, decide (replayMatches row ⟨1, 1, [0], 5⟩)))
      = some (true, true) := by decide +kernel
  obtain ⟨row, hrow, hfields⟩ := Option.map_eq_some_iff.mp hbatch
  obtain ⟨hsigned, hfacts⟩ := Prod.mk.inj hfields
  have hfacts := of_decide_eq_true hfacts
  refine ⟨(hlaw.conflicts 1 row ⟨1, 1, [0], 6⟩ hrow hsigned ?_).1, ?_⟩
  · intro hmatch
    exact absurd (replayMatches_unique hfacts hmatch) (by decide)
  · obtain ⟨facts, hmatch, -, -, hkept⟩ := hlaw.kept 1 row hrow hsigned
    obtain rfl := replayMatches_unique hfacts hmatch
    exact hkept _

end WcashPool.Store
