/-
  WcashPool.Store.BatchMoves — what one call can do to the payout batches.

  `PayoutStep` follows the money; this file follows the ROWS.  A committed call
  drafts one batch, moves one batch along one edge of its lifecycle, or leaves
  every batch alone.  Each edge carries what the source checked before it took
  it: the two authorisations an unfrozen chain, the signature the checked
  facts, a reorganisation the freeze that comes with it.

  Main results: `step_change`, `BatchChange.origin` and `step_frozen`.
-/
import WcashPool.Store.System

namespace WcashPool.Store

open Fallible Protocol DoubleEntry Machine

/-! ## §1. The edges -/

/-- One edge of the lifecycle, taken by a call from `db` to `db'`. -/
inductive RowMove (db db' : Database) (row : PayoutBatchRow) : PayoutBatchRow → Prop
  | authorizeSigning (hstate : row.state = .draft) (hunfrozen : ¬ db.Frozen row.chain) :
      RowMove db db' row (row.enter .signing)
  | sign (facts : SignedTransitionFacts) (hstate : row.state = .signing) (hfacts : facts.WellFormed)
      (hchecked : checkSignedFacts db row facts = .ok ()) :
      RowMove db db' row (row.advance .signed (some facts))
  | authorizeBroadcast (hstate : row.state = .signed) (hunfrozen : ¬ db.Frozen row.chain) :
      RowMove db db' row (row.enter .broadcasting)
  | submit (hstate : row.state = .broadcasting) : RowMove db db' row (row.enter .broadcast)
  | hold (hstate : row.state.isSubmitted) : RowMove db db' row (row.enter .expiryPending)
  | expire (hstate : row.state = .expiryPending) : RowMove db db' row (row.enter .expired)
  | confirm (confirmation : PayoutConfirmation) (hstate : row.state.isMinable) :
      RowMove db db' row (row.confirm confirmation)
  | reorganise (hstate : row.state = .confirmed) (hfrozen : db'.Frozen row.chain) :
      RowMove db db' row (row.enter .reorged)
  | cancelDraft (hstate : row.state = .draft) : RowMove db db' row (row.enter .cancelled)
  | cancelSigning (hstate : row.state = .signing) : RowMove db db' row (row.enter .cancelled)

/-- A batch that a call has just drafted. -/
structure NewBatch (cfg : Config) (db db' : Database) (row : PayoutBatchRow) : Prop where
  state : row.state = .draft
  unsigned : row.hasExternalFacts = false
  unfrozen : ¬ db.Frozen row.chain
  safety : db'.chainSafety = db.chainSafety
  policy : ∃ policy, db.chainPolicies.get row.chain = some policy ∧
    policy.policyVersion = row.policyVersion ∧ 0 < policy.maximumNetworkFeeZat ∧
    10_000 ≤ liabilityTotal row.items * policy.maximumNetworkFeeBps
  reserved : 0 < reserveSum row.items
  snapshot : ∃ snapshot, ledgerSnapshot cfg db row.chain none = .ok snapshot
  posted : db.ledger.Extends db'.ledger (reservation row.chain row.id row.items)
  root : ∃ snapshot, ledgerSnapshot cfg db' row.chain (some row.ledgerSequenceCutoff) = .ok snapshot ∧
    snapshot.root = row.ledgerRoot

/-- What one call does to the batches. -/
inductive BatchChange (cfg : Config) (db db' : Database) : Prop
  | same (hsame : db'.payoutBatches = db.payoutBatches)
  | moved (batchId : Uuid) (row row' : PayoutBatchRow)
      (hrow : db.payoutBatches.find batchId = some row) (hmove : RowMove db db' row row')
      (hfind : ∀ id, db'.payoutBatches.find id
        = if id = batchId then some row' else db.payoutBatches.find id)
  | born (row : PayoutBatchRow) (hfresh : db.payoutBatches.find row.id = none)
      (hnew : NewBatch cfg db db' row)
      (hfind : ∀ id, db'.payoutBatches.find id
        = if row.id = id then some row else db.payoutBatches.find id)

section Changes

variable {cfg : Config} {db db' : Database} {batchId : Uuid} {row : PayoutBatchRow}

/-- A row that was rewritten in place. -/
theorem BatchChange.of_modify (f : PayoutBatchRow → PayoutBatchRow) (hf : ∀ row, (f row).id = row.id)
    (hrow : db.payoutBatches.find batchId = some row) (hmove : RowMove db db' row (f row))
    (hbatches : db'.payoutBatches = db.payoutBatches.modify batchId f hf) :
    BatchChange cfg db db' := by
  refine .moved batchId row (f row) hrow hmove fun id => ?_
  rw [hbatches, Table.find_modify, hrow]
  rfl

/-- **Where a row comes from**: it was there already, it moved along an edge, or it is new. -/
theorem BatchChange.origin (h : BatchChange cfg db db') {row' : PayoutBatchRow}
    (hrow' : db'.payoutBatches.find batchId = some row') :
    (∃ row, db.payoutBatches.find batchId = some row ∧ (row' = row ∨ RowMove db db' row row')) ∨
      (db.payoutBatches.find batchId = none ∧ NewBatch cfg db db' row') := by
  cases h with
  | same hsame =>
    rw [hsame] at hrow'
    exact Or.inl ⟨row', hrow', Or.inl rfl⟩
  | moved id row row'' hrow hmove hfind =>
    rw [hfind] at hrow'
    split at hrow'
    · next heq =>
      injection hrow' with hrow'
      subst heq hrow'
      exact Or.inl ⟨row, hrow, Or.inr hmove⟩
    · exact Or.inl ⟨row', hrow', Or.inl rfl⟩
  | born row hfresh hnew hfind =>
    rw [hfind] at hrow'
    split at hrow'
    · next heq =>
      injection hrow' with hrow'
      subst heq hrow'
      exact Or.inr ⟨hfresh, hnew⟩
    · exact Or.inl ⟨row', hrow', Or.inl rfl⟩

/-- What a row can become: no batch is ever deleted. -/
theorem BatchChange.next (h : BatchChange cfg db db')
    (hrow : db.payoutBatches.find batchId = some row) :
    ∃ row', db'.payoutBatches.find batchId = some row' ∧ (row' = row ∨ RowMove db db' row row') := by
  cases h with
  | same hsame => exact ⟨row, hsame ▸ hrow, Or.inl rfl⟩
  | moved id row₁ row₂ hrow₁ hmove hfind =>
    by_cases heq : batchId = id
    · obtain rfl : row = row₁ := Option.some.inj (hrow.symm.trans (heq ▸ hrow₁))
      exact ⟨row₂, (hfind batchId).trans (if_pos heq), Or.inr hmove⟩
    · exact ⟨row, (hfind batchId).trans ((if_neg heq).trans hrow), Or.inl rfl⟩
  | born new hfresh hnew hfind =>
    have hne : new.id ≠ batchId := by
      intro heq
      rw [heq, hrow] at hfresh
      cases hfresh
    exact ⟨row, (hfind batchId).trans ((if_neg hne).trans hrow), Or.inl rfl⟩

/-- What no edge touches: identity, reservation and ledger commitment of a batch. -/
structure SameOrder (row row' : PayoutBatchRow) : Prop where
  id : row'.id = row.id
  chain : row'.chain = row.chain
  policyVersion : row'.policyVersion = row.policyVersion
  reconciliationId : row'.reconciliationId = row.reconciliationId
  ledgerRoot : row'.ledgerRoot = row.ledgerRoot
  ledgerSequenceCutoff : row'.ledgerSequenceCutoff = row.ledgerSequenceCutoff
  createdAt : row'.createdAt = row.createdAt
  items : row'.items = row.items

theorem SameOrder.rfl (row : PayoutBatchRow) : SameOrder row row :=
  ⟨Eq.refl _, Eq.refl _, Eq.refl _, Eq.refl _, Eq.refl _, Eq.refl _, Eq.refl _, Eq.refl _⟩

/-- No move changes what a batch pays. -/
theorem RowMove.order {row' : PayoutBatchRow} (h : RowMove db db' row row') : SameOrder row row' := by
  cases h <;> exact ⟨Eq.refl _, Eq.refl _, Eq.refl _, Eq.refl _, Eq.refl _, Eq.refl _, Eq.refl _,
    Eq.refl _⟩

/-! ## §2. The calls -/

/-- A batch created. -/
theorem createPayoutBatch_change {draw : BatchDraw} {chain : Chain}
    {idempotencyKey reconciliationId : Uuid} {answer : Except StoreError PayoutBatch}
    (h : createPayoutBatch cfg db draw chain idempotencyKey reconciliationId = .ok (db', answer)) :
    BatchChange cfg db db' := by
  obtain ⟨hsame, -⟩ | ⟨destinations, -, hnew⟩ := createPayoutBatch_cases h
  · exact .same (by rw [hsame])
  obtain ⟨hsame, -⟩ | ⟨policy, outputs, hderived⟩ := newPayoutBatch_cases hnew
  · exact .same (by rw [hsame])
  · obtain ⟨root, cutoff, hreserved⟩ := reserveBatch_cases hderived.reserved
    obtain ⟨batches, ledger, hinsert, hledger, -, hdb⟩ := hreserved.posted
    obtain ⟨cap, rows, hrows, -, houtputs⟩ := hderived.derived
    obtain ⟨hfee, hbps⟩ := payoutOutputs_fee houtputs
    refine .born _ (Table.insert_eq_some hinsert).1
      { state := rfl
        unsigned := rfl
        unfrozen := hderived.unfrozen
        safety := by rw [hdb]
        policy := ⟨policy, hderived.policy_eq, rfl, hfee, hbps⟩
        reserved := (payoutOutputs_spec (payableRows_spec hrows) houtputs).reserved
        snapshot := hderived.snapshot
        posted := by rw [hdb]; exact hledger
        root := hreserved.root } fun id => ?_
    rw [hdb]
    exact Table.find_insert hinsert id

theorem authorizePayoutSigning_change {now : ℕ} {request : PayoutBatchRequest}
    (h : authorizePayoutSigning cfg db now batchId = .ok (db', request)) : BatchChange cfg db db' := by
  obtain hsame | ⟨row, hrow, hstate, hunfrozen, rfl⟩ := authorizePayoutSigning_spec h
  · exact .same (by rw [hsame])
  · exact .of_modify (·.enter .signing) (fun _ => rfl) hrow (.authorizeSigning hstate hunfrozen) rfl

/-- The signed facts recorded. -/
theorem markPayoutSigned_change {facts : SignedTransitionFacts}
    (h : markPayoutSigned db batchId facts = .ok db') : BatchChange cfg db db' := by
  obtain ⟨hfacts, hsame | ⟨row, hrow, hstate, hchecked, rfl⟩⟩ := markPayoutSigned_cases h
  · exact .same (by rw [hsame])
  · exact .of_modify (·.advance .signed (some facts)) (fun _ => rfl) hrow
      (.sign facts hstate hfacts hchecked) rfl

theorem authorizePayoutBroadcast_change {artifact : SignedPayoutArtifact}
    (h : authorizePayoutBroadcast db batchId = .ok (db', artifact)) : BatchChange cfg db db' := by
  obtain hsame | ⟨row, hrow, hstate, hunfrozen, rfl⟩ := authorizePayoutBroadcast_spec h
  · exact .same (by rw [hsame])
  · exact .of_modify (·.enter .broadcasting) (fun _ => rfl) hrow
      (.authorizeBroadcast hstate hunfrozen) rfl

theorem markPayoutBroadcast_change (h : markPayoutBroadcast db batchId = .ok db') :
    BatchChange cfg db db' := by
  obtain hsame | ⟨row, hrow, hstate, -, rfl⟩ := transitionPayout_spec h
  · exact .same (by rw [hsame])
  · -- without the signer's facts only the state changes
    exact .of_modify (·.enter .broadcast) (fun _ => rfl) hrow (.submit hstate) rfl

theorem holdExpiredPayout_change {now : ℕ} {evidence : PayoutExpiryEvidence}
    (h : holdExpiredPayout cfg db now batchId evidence = .ok db') : BatchChange cfg db db' := by
  obtain hsame | ⟨row, expiryEvidence, hrow, hstate, rfl⟩ := holdExpiredPayout_spec h
  · exact .same (by rw [hsame])
  · exact .of_modify (·.enter .expiryPending) (fun _ => rfl) hrow (.hold hstate) rfl

variable {draw : LedgerDraw}

/-- A held payout expired. -/
theorem expireHeldPayout_change {now : ℕ} {evidence : PayoutExpiryEvidence}
    (h : expireHeldPayout cfg db now draw batchId evidence = .ok db') : BatchChange cfg db db' := by
  obtain hsame | ⟨expiryEvidence, row, ledger, hrow, hstate, -, rfl⟩ := expireHeldPayout_spec h
  · exact .same (by rw [hsame])
  · exact .of_modify (·.enter .expired) (fun _ => rfl) hrow (.expire hstate) rfl

theorem cancelPayoutDraft_change (h : cancelPayoutDraft db draw batchId = .ok db') :
    BatchChange cfg db db' := by
  obtain hsame | ⟨row, ledger, hrow, hstate, -, rfl⟩ := cancelPayoutDraft_spec h
  · exact .same (by rw [hsame])
  · exact .of_modify (·.enter .cancelled) (fun _ => rfl) hrow (.cancelDraft hstate) rfl

theorem cancelRejectedPayoutSigning_change
    (h : cancelRejectedPayoutSigning db draw batchId = .ok db') : BatchChange cfg db db' := by
  obtain hsame | ⟨row, ledger, hrow, hstate, -, rfl⟩ := cancelRejectedPayoutSigning_spec h
  · exact .same (by rw [hsame])
  · exact .of_modify (·.enter .cancelled) (fun _ => rfl) hrow (.cancelSigning hstate) rfl

/-- A payout confirmed. -/
theorem confirmPayout_change {confirmation : PayoutConfirmation}
    (h : confirmPayout db draw batchId confirmation = .ok db') : BatchChange cfg db db' := by
  obtain hsame | ⟨row, fee, ledger, hrow, hstate, -, -, -, -, rfl⟩ := confirmPayout_spec h
  · exact .same (by rw [hsame])
  · exact .of_modify (·.confirm confirmation) (fun _ => rfl) hrow (.confirm confirmation hstate) rfl

/-- A chain whose safety row was just frozen is frozen. -/
theorem frozen_set (db : Database) (chain : Chain) {safety : ChainSafety}
    (hfrozen : safety.payoutsFrozen = true) :
    Database.Frozen { db with chainSafety := db.chainSafety.set chain (some safety) } chain :=
  ⟨safety, by rw [PerChain.get_set, if_pos rfl], hfrozen⟩

/-- A confirmation reorganised away. -/
theorem markConfirmedPayoutReorged_change {eventId : Uuid} {evidence : PayoutReorg}
    (h : markConfirmedPayoutReorged db eventId batchId evidence = .ok db') :
    BatchChange cfg db db' := by
  obtain hsame | ⟨row, reorgEvents, safety, hrow, hstate, hfrozen, rfl⟩ :=
    markConfirmedPayoutReorged_spec h
  · exact .same (by rw [hsame])
  · exact .of_modify (·.enter .reorged) (fun _ => rfl) hrow
      (.reorganise hstate (frozen_set _ row.chain hfrozen)) rfl

end Changes

/-! ## §3. Every call of the store -/

section Steps

variable {cfg : Config} {db db' : Database} {op : Operation} {u : Unit}

/-- A journal event leaves the batches alone. -/
theorem projectCall_payoutBatches {call : ProjectionCall} {r : ProjectionResult}
    (h : projectCall cfg db call = .ok (db', r)) : db'.payoutBatches = db.payoutBatches := by
  obtain ⟨-, rfl, -⟩ | ⟨-, -, events, mid, -, happly, rfl⟩ := projectOne_spec h
  · rfl
  · exact (applyEvent_steps happly).frame.payoutBatches

/-- **A call** drafts a batch, moves a batch along one edge, or leaves the batches alone. -/
theorem step_change (h : step cfg db op = .ok (db', u)) : BatchChange cfg db db' := by
  cases op with
  | projectEvent call =>
    obtain ⟨r, h⟩ := committed_eq_ok.mp h
    exact .same (projectCall_payoutBatches h)
  | bindChainPolicy chain policy =>
    obtain ⟨_, h⟩ := committed_eq_ok.mp h
    injection h with h
    exact .same (by rw [← (Prod.mk.inj h).1])
  | portal | activateDuePayoutDestinations =>
    obtain rfl := Except.ok.inj (silently_eq_ok.mp h)
    exact .same rfl
  | recordOpeningPoolEquity =>
    obtain hsame | ⟨-, ledger, -, rfl⟩ := recordOpeningPoolEquity_spec (silently_eq_ok.mp h)
    · exact .same (by rw [hsame])
    · exact .same rfl
  | recordWalletReconciliation =>
    obtain ⟨_, h⟩ := committed_eq_ok.mp h
    obtain ⟨rows, rfl | ⟨safety, -, rfl⟩⟩ := recordWalletReconciliation_spec h
    · exact .same rfl
    · exact .same rfl
  | createPayoutBatch =>
    obtain ⟨_, h⟩ := committed_eq_ok.mp h
    exact createPayoutBatch_change h
  | authorizePayoutSigning =>
    obtain ⟨_, h⟩ := committed_eq_ok.mp h
    exact authorizePayoutSigning_change h
  | markPayoutSigned => exact markPayoutSigned_change (silently_eq_ok.mp h)
  | authorizePayoutBroadcast =>
    obtain ⟨_, h⟩ := committed_eq_ok.mp h
    exact authorizePayoutBroadcast_change h
  | markPayoutBroadcast => exact markPayoutBroadcast_change (silently_eq_ok.mp h)
  | holdExpiredPayout => exact holdExpiredPayout_change (silently_eq_ok.mp h)
  | expireHeldPayout => exact expireHeldPayout_change (silently_eq_ok.mp h)
  | confirmPayout => exact confirmPayout_change (silently_eq_ok.mp h)
  | markConfirmedPayoutReorged => exact markConfirmedPayoutReorged_change (silently_eq_ok.mp h)
  | cancelPayoutDraft => exact cancelPayoutDraft_change (silently_eq_ok.mp h)
  | cancelRejectedPayoutSigning => exact cancelRejectedPayoutSigning_change (silently_eq_ok.mp h)

/-! ## §4. A freeze is never lifted -/

variable {chain : Chain}

/-- Writing a frozen safety row keeps every frozen chain frozen. -/
theorem Database.Frozen.set (h : db.Frozen chain) (other : Chain) {safety : ChainSafety}
    (hfrozen : safety.payoutsFrozen = true) :
    Database.Frozen { db with chainSafety := db.chainSafety.set other (some safety) } chain := by
  obtain ⟨before, hget, hbefore⟩ := h
  by_cases hchain : chain = other
  · exact hchain ▸ frozen_set db chain hfrozen
  · exact ⟨before, by rw [PerChain.get_set, if_neg hchain, hget], hbefore⟩

/-- A payout call never unfreezes. -/
theorem PayoutStep.frozen (h : PayoutStep db db') (hfrozen : db.Frozen chain) :
    db'.Frozen chain := by
  cases h with
  | freeze other safety hsafety => exact hfrozen.set other hsafety
  | bind policies safety hpolicies hsafety =>
    obtain ⟨before, hget, hbefore⟩ := hfrozen
    exact ⟨before, hsafety chain before hget, hbefore⟩
  | records | fund | reserve | move | sign | release | settle | reorganise => exact hfrozen

theorem PayoutSteps.frozen (h : PayoutSteps db db') (hfrozen : db.Frozen chain) :
    db'.Frozen chain := by
  induction h with
  | refl => exact hfrozen
  | tail _ hstep ih => exact hstep.frozen ih

/-- An event never unfreezes. -/
theorem EventStep.frozen {start : Database} {s : ℕ} (h : EventStep start s db db')
    (hfrozen : db.Frozen chain) : db'.Frozen chain := by
  cases h with
  | freeze other safety hsafety => exact hfrozen.set other hsafety
  | records | claim | select | rest | observe | mature | demature | reverse => exact hfrozen

theorem EventSteps.frozen {start : Database} {s : ℕ} (h : EventSteps start s db db')
    (hfrozen : db.Frozen chain) : db'.Frozen chain := by
  induction h with
  | refl => exact hfrozen
  | tail _ hstep ih => exact hstep.frozen ih

/-- **No call lifts a freeze.** -/
theorem step_frozen (h : step cfg db op = .ok (db', u)) (hfrozen : db.Frozen chain) :
    db'.Frozen chain := by
  obtain ⟨call, r, -, hcall⟩ | hsteps := step_cases h
  · obtain ⟨-, rfl, -⟩ | ⟨-, -, events, mid, -, happly, rfl⟩ := projectOne_spec hcall
    · exact hfrozen
    · exact (applyEvent_steps happly).frozen hfrozen
  · exact hsteps.frozen hfrozen

end Steps

end WcashPool.Store
