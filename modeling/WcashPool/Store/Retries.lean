/-
  WcashPool.Store.Retries — what the store only adds to, and repeated calls.

  A caller that lost an answer sends its call again.  The journal, the ledger,
  the recorded splits and the orders of the payout batches are only ever added
  to, so the store still has what the first call left.

  Main results: `audit_trail_only_grows`, `redelivered_page_changes_nothing` and
  `batch_created_once`.
-/
import WcashPool.Store.Coverage

namespace WcashPool.Store

open Fallible Protocol Machine Relation

/-! ## §1. What is only added to -/

/-- What a batch is drafted with; the rest of its row is progress. -/
def PayoutBatchRow.drafted (row : PayoutBatchRow) : PayoutBatchRow :=
  { row with
    state := .draft
    unsignedDigest := none
    transactionId := none
    signedTransaction := none
    networkFeeZat := none
    confirmation := none }

def Database.drafts (db : Database) : List PayoutBatchRow := db.payoutBatches.rows.map (·.drafted)

/-- **The audit trail**: everything of `db` is still there in `db'`, at its place. -/
structure Grew (db db' : Database) : Prop where
  ledger : db.ledger.transactions <+: db'.ledger.transactions
  events : db.backendEvents.rows <+: db'.backendEvents.rows
  cursor : db.lastEventSeq ≤ db'.lastEventSeq
  allocations : db.winnerAllocations.rows <+: db'.winnerAllocations.rows
  drafts : db.drafts <+: db'.drafts
  policies : ∀ chain policy, db.chainPolicies.get chain = some policy →
    db'.chainPolicies.get chain = some policy

variable {cfg : Config} {db db' : Database}

theorem Grew.refl (db : Database) : Grew db db :=
  ⟨List.prefix_rfl, List.prefix_rfl, le_rfl, List.prefix_rfl, List.prefix_rfl, fun _ _ h => h⟩

theorem Grew.trans {db₁ db₂ db₃ : Database} (h : Grew db₁ db₂) (h' : Grew db₂ db₃) :
    Grew db₁ db₃ where
  ledger := h.ledger.trans h'.ledger
  events := h.events.trans h'.events
  cursor := h.cursor.trans h'.cursor
  allocations := h.allocations.trans h'.allocations
  drafts := h.drafts.trans h'.drafts
  policies := fun c p hp => h'.policies c p (h.policies c p hp)

theorem grew_of_steps {R : Database → Database → Prop} (hstep : ∀ {a b}, R a b → Grew a b)
    (h : ReflTransGen R db db') : Grew db db' := by
  induction h with
  | refl => exact .refl db
  | tail _ hlast ih => exact ih.trans (hstep hlast)

/-- Progress of a batch is not part of its draft. -/
theorem drafts_modify (batches : Table PayoutBatchRow.id) (batchId : Uuid)
    {f : PayoutBatchRow → PayoutBatchRow} (hf : ∀ row, (f row).id = row.id)
    (h : ∀ row, (f row).drafted = row.drafted) :
    batches.rows.map (·.drafted) <+: (batches.modify batchId f hf).rows.map (·.drafted) := by
  have hrow : ∀ row, PayoutBatchRow.drafted (if row.id = batchId then f row else row)
      = row.drafted := by
    intro row
    split
    · exact h row
    · rfl
  show _ <+: (batches.rows.map _).map _
  rw [List.map_map, Function.comp_def, funext hrow]

/-- A payout call only adds to the trail. -/
theorem PayoutStep.grew (h : PayoutStep db db') : Grew db db' where
  ledger := by
    obtain ⟨_, _, -, t, -, happend⟩ | ⟨new, happend, -⟩ := h.posts
    · exact ⟨[t], happend.symm⟩
    · exact ⟨new, happend.symm⟩
  events := by rw [h.frame.backendEvents]
  cursor := h.frame.lastEventSeq.ge
  allocations := by rw [h.frame.winnerAllocations]
  drafts := by
    unfold Database.drafts
    cases h with
    | records | bind | freeze | fund => exact List.prefix_rfl
    | reserve row batches ledger hunfrozen hdraft hinsert =>
      rw [(Table.insert_eq_some hinsert).2, List.map_append]
      exact List.prefix_append _ _
    | move | sign | release | settle | reorganise =>
      refine drafts_modify _ _ ?_ ?_ <;> exact fun _ => rfl
  policies := by
    cases h with
    | bind _ _ hpolicies => exact hpolicies
    | _ => exact fun _ _ hpolicy => hpolicy

/-- An event only adds to the trail. -/
theorem EventStep.grew {start : Database} {s : ℕ} (h : EventStep start s db db') : Grew db db' where
  ledger := by
    obtain ⟨new, happend, -⟩ := h.posts
    exact ⟨new, happend.symm⟩
  events := by rw [h.frame.backendEvents]
  cursor := h.frame.lastEventSeq.ge
  allocations := by
    cases h with
    | observe _ _ _ _ _ _ _ _ _ _ _ _ hrows =>
      exact ⟨_, hrows.symm⟩
    | _ => exact List.prefix_rfl
  drafts := by
    unfold Database.drafts
    rw [h.frame.payoutBatches]
  policies := by
    rw [h.frame.chainPolicies]
    exact fun _ _ hpolicy => hpolicy

/-- A projection only adds to the trail. -/
theorem projectCall_grew {call : ProjectionCall} {r : ProjectionResult}
    (h : projectCall cfg db call = .ok (db', r)) : Grew db db' := by
  obtain ⟨-, rfl, -⟩ | ⟨-, hseq, events, mid, hinsert, happly, rfl⟩ := projectOne_spec h
  · exact .refl _
  · have hsteps : Grew { db with backendEvents := events } mid :=
      grew_of_steps EventStep.grew (applyEvent_steps happly)
    have hrows := (Table.insert_eq_some hinsert).2
    exact
      { hsteps with
        events := List.IsPrefix.trans ⟨_, hrows.symm⟩ hsteps.events
        cursor := by
          show db.lastEventSeq ≤ call.event.eventSeq
          omega }

/-- **No call takes anything back.** -/
theorem step_grew {op : Operation} {u : Unit} (h : step cfg db op = .ok (db', u)) :
    Grew db db' := by
  obtain ⟨call, r, -, hcall⟩ | hsteps := step_cases h
  · exact projectCall_grew hcall
  · exact grew_of_steps PayoutStep.grew hsteps

/-- **Every run only adds to the trail.** -/
theorem after_grew (cfg : Config) (db : Database) (ops : List Operation) :
    Grew db (after cfg db ops) :=
  run_invariant (fun _ _ _ _ hgrew hstep => hgrew.trans (step_grew hstep)) (.refl db) ops

/-- **The audit trail only grows.**  Whatever state a run has reached, whatever follows: no ledger
    transaction, event, recorded split, batch order or policy is changed, moved or deleted. -/
theorem audit_trail_only_grows (cfg : Config) (db : Database) (ops more : List Operation) :
    Grew (after cfg db ops) (after cfg db (ops ++ more)) := by
  rw [after, after, run_append]
  exact after_grew cfg _ more

/-! ## §2. Events that are delivered again -/

/-- The store has this very event already. -/
structure Projected (cfg : Config) (db : Database) (event : BackendEvent) : Prop where
  valid : (event.validate cfg.ext).mapError StoreError.protocol = .ok ()
  narrow : ¬ event.eventSeq ≥ i64Limit
  reached : event.eventSeq ≤ db.lastEventSeq
  stored : (db.backendEvents.find event.eventSeq).map (·.payloadSha256)
    = some (payloadHash cfg.ext event)

section Events

variable {event : BackendEvent} {call : ProjectionCall} {calls again : List ProjectionCall}

/-- What is projected stays projected. -/
theorem Projected.grew (h : Projected cfg db event) (hgrew : Grew db db') :
    Projected cfg db' event := by
  obtain ⟨row, hrow, hhash⟩ := Option.map_eq_some_iff.mp h.stored
  have hmem : row ∈ db'.backendEvents.rows := hgrew.events.subset (Table.mem_of_find hrow)
  refine { h with reached := h.reached.trans hgrew.cursor, stored := ?_ }
  rw [← Table.key_of_find hrow, Table.find_of_mem hmem]
  exact congrArg some hhash

/-- What is projected is only replayed. -/
theorem Projected.replayed (h : Projected cfg db event) (draw : LedgerKind → LedgerDraw) :
    projectOne cfg db draw event = .ok (db, .replayed) := by
  unfold projectOne
  rw [h.valid, ok_bind, rejectIf_of_not _ h.narrow, ok_bind, if_pos h.reached, if_pos h.stored]
  rfl

theorem projectCall_projected {r : ProjectionResult}
    (h : projectCall cfg db call = .ok (db', r)) : Projected cfg db' call.event := by
  obtain ⟨_, hvalid, h⟩ := bind_eq_ok.mp h
  obtain ⟨hnarrow, h⟩ := rejectIf_bind_ok h
  split at h
  · next hreached =>
    split at h
    · next hstored =>
      obtain ⟨rfl, -⟩ := ok_pair_inj h
      exact ⟨hvalid, hnarrow, hreached, hstored⟩
    · cases h
  · obtain ⟨events, hinsert, h⟩ := bind_eq_ok.mp (passed (passed h))
    obtain ⟨mid, happly, h⟩ := bind_eq_ok.mp h
    obtain ⟨rfl, -⟩ := ok_pair_inj h
    refine ⟨hvalid, hnarrow, le_rfl, ?_⟩
    show (mid.backendEvents.find _).map _ = _
    rw [(applyEvent_steps happly).frame.backendEvents,
      Table.find_insert (orReject_eq_ok.mp hinsert), if_pos rfl]
    rfl

theorem projectPage_grew (cfg : Config) (db : Database) (calls : List ProjectionCall) :
    Grew db (projectPage cfg db calls).1 := by
  obtain ⟨n, hn⟩ := projectPage_eq_run cfg db calls
  rw [hn]
  exact run_invariant (fun _ _ _ _ hgrew hcall => hgrew.trans (projectCall_grew hcall)) (.refl db) _

theorem projectPage_projected (h : (projectPage cfg db calls).2 = .ok ()) :
    ∀ call ∈ calls, Projected cfg (projectPage cfg db calls).1 call.event := by
  induction calls generalizing db with
  | nil => simp
  | cons call calls ih =>
    unfold projectPage at h ⊢
    split at h
    · next mid r hcall =>
      have hfirst := (projectCall_projected hcall).grew (projectPage_grew cfg mid calls)
      exact List.forall_mem_cons.mpr ⟨hfirst, ih h⟩
    · cases h

/-- **A projected page changes nothing.** -/
theorem projectPage_replayed (h : ∀ call ∈ again, Projected cfg db call.event) :
    projectPage cfg db again = (db, .ok ()) := by
  induction again with
  | nil => rfl
  | cons call again ih =>
    obtain ⟨hcall, hrest⟩ := List.forall_mem_cons.mp h
    rw [projectPage, projectCall, hcall.replayed]
    exact ih hrest

/-- **Delivery at least once.**  When a page was projected, any of its events can come again, in
    any page, order and number and after any other calls: the page is accepted and nothing
    changes. -/
theorem redelivered_page_changes_nothing (h : (projectReplayPage cfg db calls).2 = .ok ())
    (ops : List Operation) (hagain : ∀ call ∈ again, ∃ first ∈ calls, first.event = call.event)
    (hlength : again.length ≤ maxReplayBatch) :
    projectReplayPage cfg (after cfg (projectReplayPage cfg db calls).1 ops) again
      = (after cfg (projectReplayPage cfg db calls).1 ops, .ok ()) := by
  unfold projectReplayPage at h ⊢
  split at h
  · cases h
  next hpage =>
  rw [if_neg hpage, if_neg (Nat.not_lt.mpr hlength)]
  have hprojected : ∀ call ∈ again,
      Projected cfg (after cfg (projectPage cfg db calls).1 ops) call.event := by
    intro call hcall
    obtain ⟨first, hfirst, hevent⟩ := hagain call hcall
    exact hevent ▸ (projectPage_projected h first hfirst).grew (after_grew cfg _ ops)
  exact projectPage_replayed hprojected

theorem redelivered_page_changes_nothing_closings :
    ∃ db, db.lastEventSeq = 1 ∧
      projectReplayPage sampleConfig db (closings.take 1) = (db, .ok ()) :=
  ⟨_, rfl, @redelivered_page_changes_nothing sampleConfig (Database.bootstrap 0 ⟨none, none⟩)
    (closings.take 2) (closings.take 1) rfl [] (by decide) (by decide)⟩

end Events

/-! ## §3. Batches that are asked for again -/

section Batches

variable {draw : BatchDraw} {chain : Chain} {key reconciliation : Uuid} {batch : PayoutBatch}

/-- The first draft under a key stays the first. -/
theorem Grew.found {first : PayoutBatchRow} (h : Grew db db')
    (hfirst : db.payoutBatches.rows.find? (·.idempotencyKey = key) = some first) :
    ∃ row, db'.payoutBatches.rows.find? (·.idempotencyKey = key) = some row ∧
      row.drafted = first.drafted := by
  have hdraft : db.drafts.find? (·.idempotencyKey = key) = some first.drafted := by
    rw [Database.drafts, List.find?_map]
    exact congrArg (Option.map _) hfirst
  have hkept := h.drafts.find?_eq_some hdraft
  rw [Database.drafts, List.find?_map] at hkept
  exact Option.map_eq_some_iff.mp hkept

/-- A call that answers with a batch leaves it under its key, with the outputs in some order. -/
theorem createPayoutBatch_found
    (h : createPayoutBatch cfg db draw chain key reconciliation = .ok (db', .ok batch)) :
    ¬ key.isNil ∧ ∃ row, db'.payoutBatches.rows.find? (·.idempotencyKey = key) = some row ∧
      { row.loaded with outputs := batch.outputs } = batch ∧ row.items.Perm batch.outputs ∧
      row.chain = chain ∧ row.reconciliationId = reconciliation := by
  obtain ⟨hnil, h⟩ := rejectIf_bind_ok h
  refine ⟨(not_or.mp hnil).1, ?_⟩
  split at h
  · next row hrow =>
    obtain ⟨_, hload, h⟩ := bind_eq_ok.mp h
    obtain ⟨hagree, h⟩ := rejectIf_bind_ok h
    obtain ⟨rfl, hanswer⟩ := ok_pair_inj h
    obtain ⟨row', hrow', rfl⟩ := loadPayoutBatch_spec hload
    have hmem := List.mem_of_find?_eq_some hrow
    obtain rfl : row = row' := Option.some.inj ((Table.find_of_mem hmem).symm.trans hrow')
    rw [not_or, not_not, not_not] at hagree
    obtain rfl := Except.ok.inj hanswer
    exact ⟨row, hrow, rfl, row.outputs_perm.symm, hagree⟩
  · next hnone =>
    obtain ⟨-, hanswer⟩ | ⟨policy, outputs, hderived⟩ := newPayoutBatch_cases h
    · cases hanswer
    · obtain ⟨root, cutoff, hreserved⟩ := reserveBatch_cases hderived.reserved
      obtain ⟨batches, ledger, hinsert, -, -, rfl⟩ := hreserved.posted
      obtain rfl := Except.ok.inj hreserved.answered
      refine ⟨_, ?_, rfl, .refl _, rfl, rfl⟩
      show batches.rows.find? _ = _
      rw [(Table.insert_eq_some hinsert).2, List.find?_append, hnone]
      simp [draftRow]

/-- **A batch is created once.**  In every later state the key stands for the same order, at the
    batch's present state: repeating the call returns it and changes nothing, and another chain or
    reconciliation under the key is refused.  The first answer lists the outputs as they were
    selected and every other by account, so they agree up to the order of the outputs. -/
theorem batch_created_once {start : Database} (hfresh : Fresh start) {ops : List Operation}
    (h : createPayoutBatch cfg (after cfg start ops) draw chain key reconciliation
      = .ok (db', .ok batch)) (more : List Operation) :
    ∃ row ∈ (after cfg db' more).payoutBatches.rows,
      { row.loaded with state := batch.state, outputs := batch.outputs } = batch ∧
      row.loaded.outputs.Perm batch.outputs ∧
      ∀ draw' chain' id', ¬ id'.isNil →
        createPayoutBatch cfg (after cfg db' more) draw' chain' key id' =
          if chain' = chain ∧ id' = reconciliation
          then .ok (after cfg db' more, .ok row.loaded)
          else .error .payoutIdempotencyConflict := by
  obtain ⟨hkey, first, hfirst, hbatch, hperm, rfl, rfl⟩ := createPayoutBatch_found h
  -- the later state is one that a run reaches, so that its batches can be read
  have hlater : after cfg db' more = after cfg start
      (ops ++ .createPayoutBatch draw first.chain key first.reconciliationId :: more) := by
    rw [after, after, run_append, run, attempt_of_ok _ (congrArg committed h)]
  have hsolvent : Solvent _ (after cfg db' more) := hlater ▸ after_solvent hfresh _
  obtain ⟨row, hrow, hsame⟩ := (after_grew cfg db' more).found hfirst
  have hmem := Table.find_of_mem (List.mem_of_find?_eq_some hrow)
  have hload := (hsolvent.batches.batches _ row hmem).sound.load hmem
  have hloaded : { row.loaded with state := batch.state, outputs := batch.outputs } = batch :=
    (congrArg (fun r : PayoutBatchRow =>
      { r.loaded with state := batch.state, outputs := batch.outputs }) hsame).trans
      (congrArg (fun b : PayoutBatch => { b with state := batch.state }) hbatch)
  have hitems : row.items = first.items := (congrArg PayoutBatchRow.items hsame :)
  have hchain : row.chain = first.chain := (congrArg PayoutBatchRow.chain hsame :)
  have hid : row.reconciliationId = first.reconciliationId :=
    (congrArg PayoutBatchRow.reconciliationId hsame :)
  refine ⟨row, List.mem_of_find?_eq_some hrow, hloaded,
    row.outputs_perm.trans (hitems ▸ hperm), ?_⟩
  intro draw' chain' id' hnil
  unfold createPayoutBatch replayPayoutBatch
  rw [rejectIf_of_not _ (not_or.mpr ⟨hkey, hnil⟩), ok_bind, hrow]
  dsimp only
  rw [hload, ok_bind, ← hchain, ← hid]
  split
  · next hagree =>
    rw [rejectIf_of_not _ (by simp [hagree])]
    rfl
  · next hdiffer =>
    rw [rejectIf_eq_error.mpr ⟨by rw [← not_and_or]; simpa [eq_comm] using hdiffer, rfl⟩]
    rfl

theorem batch_created_once_sample :
    ∃ db, ∃ row ∈ db.payoutBatches.rows, ∀ draw,
      createPayoutBatch sampleConfig db draw .zcash 1 1 = .ok (db, .ok row.loaded) := by
  let draw : BatchDraw := ⟨0, some (0, 0xFFFFFFFFFFFFFFFF), 1, fun _ => 1, ⟨100, 0⟩⟩
  have hcreated : ((createPayoutBatch sampleConfig
      (sampleAfter (sampleReward ++ samplePayout.take 1)) draw .zcash 1 1).toOption.bind
        (·.2.toOption)).isSome := by decide +kernel
  generalize hrun : createPayoutBatch sampleConfig _ draw .zcash 1 1 = answer at hcreated
  match answer with
  | .ok (db', .ok batch) =>
    obtain ⟨row, hrow, -, -, hrepeat⟩ :=
      batch_created_once (Fresh.bootstrap _ _) hrun (samplePayout.drop 2)
    exact ⟨_, row, hrow, fun draw' => hrepeat draw' .zcash 1 (by decide)⟩
  | .ok (_, .error _) | .error _ => cases hcreated

end Batches

end WcashPool.Store
