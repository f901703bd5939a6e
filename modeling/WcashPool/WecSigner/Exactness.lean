/-
  WcashPool.WecSigner.Exactness — the WEC signer never signs twice and never
  submits anything but what it has recorded.

  Every entry point loads the record of its batch, checks that the request is
  bound to it, and takes the stage from there; the journal's lock keeps every
  other signer out.  So one rule covers all of them: `Ordered` says in which
  state of the journal each write, each signature and each broadcast may be
  asked for, and the programs of the pipeline meet it at every point that any
  sequence of answers can lead to.

  A refusal of `prepare` is tracked along the way: where it occurs, the record
  is still reserved and the wallet has persisted nothing, or the node has
  rejected the recorded transaction (`Refused`).

  Main results: `perform_spec` and `wec_journal_exact`.
-/
import WcashPool.WecSigner.Pipeline

namespace WcashPool.WecSigner

open Fallible Protocol Store Portal Programs Durable

/-! ## §1. Order -/

abbrev WecEvent := Event WecState WecQuery WecAnswer

/-- The two errors that the pool takes as a final refusal. -/
def Refusal (e : WecPayoutError) : Prop := e = .walletRejected ∨ e = .broadcastRejected

instance (e : WecPayoutError) : Decidable (Refusal e) := inferInstanceAs (Decidable (_ ∨ _))

/-- The record of the batch, if there is one, is not in the `Signed` stage of the older executor.
    The pipeline still reads that stage and goes on from it, but no longer writes it. -/
def WecState.Current (batchId : Uuid) (s : WecState) : Prop :=
  ∀ record, s.journal batchId = some record → ∀ artifact, record.stage ≠ .signed artifact

/-- The journal holds `record` for the batch of the request, bound to the request's facts. -/
structure Holds (s : WecState) (request : WecPayoutRequest) (validated : ValidatedRequest)
    (record : JournalRecord) : Prop where
  stored : s.journal request.batch.batchId = some record
  batch : record.batchId = request.batch.batchId
  binds : record.Binds validated

/-- The wallet was asked to recover the batch, and had nothing. -/
def NothingRecovered (es : List WecEvent) (call : WalletRecoveryCall) : Prop :=
  ∃ before after, (⟨before, .recoverExact call, .ok none, after⟩ : WecEvent) ∈ es

/-- **A signature is in order**: the record is reserved, so no transaction is recorded; it is bound
    to the request; and the same attempt has asked the wallet to recover the batch in vain. -/
structure SignOrder (cfg : WecSignerConfig) (request : WecPayoutRequest) (es : List WecEvent)
    (s : WecState) (call : WalletSignCall) (validated : ValidatedRequest)
    (record : JournalRecord) : Prop where
  valid : validateRequest cfg request = .ok validated
  holds : Holds s request validated record
  reserved : record.stage = .reserved
  batch : call.batchId = record.batchId
  commitment : call.requestCommitment = record.pipelineCommitment
  outputs : call.outputs = validated.outputs
  recovered : NothingRecovered es ⟨call.batchId, call.requestCommitment⟩

/-- **A broadcast is in order**: the record is unresolved and bound to the request, and the call
    carries its transaction. -/
structure BroadcastOrder (cfg : WecSignerConfig) (request : WecPayoutRequest) (s : WecState)
    (call : WalletBroadcastCall) (validated : ValidatedRequest) (record : JournalRecord)
    (artifact : StoredArtifact) : Prop where
  valid : validateRequest cfg request = .ok validated
  holds : Holds s request validated record
  unresolved : record.stage = .broadcastUnresolved artifact
  call : call = ⟨record.batchId, record.pipelineCommitment, artifact.transactionId,
    artifact.rawTransactionHex⟩

/-- Which queries are in order in which state; only `execute` goes beyond a prepared record. -/
def Ordered (cfg : WecSignerConfig) (c : WecCommand) (es : List WecEvent) (s : WecState) :
    WecQuery → Prop
  | .store record => Advances (s.journal record.batchId) record ∧
      (c.entry ≠ .execute → record.stage.rank ≤ 1)
  | .signExact call => ∃ validated record, SignOrder cfg c.request es s call validated record
  | .broadcastExact call =>
      ∃ validated record artifact, BroadcastOrder cfg c.request s call validated record artifact
  | _ => True

/-- What a refusal of `prepare` says about journal and wallet. -/
def Refused (c : WecCommand) (s : WecState) (e : WecPayoutError) : Prop :=
  c.entry = .prepare → Refusal e →
    (∃ record, s.journal c.request.batch.batchId = some record ∧ record.stage = .reserved ∧
      s.wallet c.request.batch.batchId = none) ∨
    ∃ record artifact, s.journal c.request.batch.batchId = some record ∧
      record.stage = .rejected artifact

variable {c : WecCommand} {s : WecState}

theorem Refused.of_not {e : WecPayoutError} (h : ¬ Refusal e) :
    Refused c s e := fun _ hrefusal => absurd hrefusal h

theorem Refused.of_entry {e : WecPayoutError} (h : c.entry ≠ .prepare) :
    Refused c s e := fun hentry => absurd hentry h

/-- The rule for one part of the pipeline. -/
abbrev Spec {α : Type} (cfg : WecSignerConfig) (c : WecCommand) (p : WecM α)
    (ok : List WecEvent → WecState → α → Prop) (es : List WecEvent) (s : WecState) : Prop :=
  AlwaysE wecWorld (WecState.Current c.request.batch.batchId) (Ordered cfg c) p ok
    (fun _ s e => Refused c s e) es s

/-- A part of which no more is said than that it is in order. -/
abbrev InOrder {α : Type} (cfg : WecSignerConfig) (c : WecCommand) (p : WecM α)
    (es : List WecEvent) (s : WecState) : Prop := Spec cfg c p (fun _ _ _ => True) es s

/-- A check that never refuses. -/
abbrev Mild {α : Type} (x : Except WecPayoutError α) : Prop := ErrorsIn (fun e => ¬ Refusal e) x

/-! ## §2. Parts that neither write, sign nor broadcast -/

def Silent : WecQuery → Prop
  | .store _ => False
  | .signExact _ => False
  | .broadcastExact _ => False
  | _ => True

variable {cfg : WecSignerConfig} {es : List WecEvent} {q : WecQuery}

theorem Silent.ordered (hq : Silent q) : Ordered cfg c es s q := by
  cases q <;> first | exact hq.elim | trivial

variable {answer : WecAnswer q} {s' : WecState}

theorem Silent.journal (hq : Silent q) (h : wecAnswers s q answer s') : s'.journal = s.journal := by
  cases q with
  | lock => exact congrArg _ h
  | load batchId => exact congrArg _ h.2
  | store record => exact hq.elim
  | checkpoint c => exact congrArg _ h
  | readSeed => exact congrArg _ h
  | identity => exact h
  | recoverExact call => exact h
  | signExact call => exact hq.elim
  | inspectPersisted call => exact h
  | broadcastExact call => exact hq.elim

section Parts

variable {cfg : WecSignerConfig} {c : WecCommand} {validated : ValidatedRequest}
  {record : JournalRecord} {es : List WecEvent} {s : WecState}

/-- A part that is silent and never refuses. -/
abbrev Harmless {α : Type} (p : WecM α) : Prop := UsesE Silent (fun e => ¬ Refusal e) p.run

variable {α : Type}

/-- A harmless part keeps the journal. -/
theorem Harmless.spec {p : WecM α} (h : Harmless p) :
    Spec cfg c p (fun es' s' _ => es <+: es' ∧ s'.journal = s.journal) es s := by
  have hrule : AlwaysE wecWorld (WecState.Current c.request.batch.batchId) (Ordered cfg c) p
      (fun es' s' _ => es <+: es' ∧ s'.journal = s.journal)
      (fun _ s' e => s'.journal = s.journal ∧ ¬ Refusal e) es s :=
    AlwaysE.of_uses h (fun _ _ _ _ hq => hq.ordered)
      (fun _ _ _ _ ht hq hanswer => (hq.journal hanswer).trans ht)
      (fun _ _ _ hother => hother.elim) rfl
  exact hrule.mono (fun _ _ _ _ hok => hok) (fun _ _ _ _ herr => .of_not herr.2)

theorem checkpoint_harmless (p : Checkpoint) : Harmless (checkpoint p) :=
  .ask trivial fun _ => .rejectIf (by decide)

theorem verifyIdentity_mild (identity : WalletIdentity) : Mild (verifyIdentity cfg identity) := by
  simp +decide [verifyIdentity]

variable (request : WecPayoutRequest)

theorem verifyInspection_mild (signed : WalletSignedTransaction) (inspected : PersistedIntent) :
    Mild (verifyInspection cfg request validated signed inspected) := by
  simp +decide [verifyInspection]

@[simp] theorem preparedFromRecord_mild (record : JournalRecord) :
    Mild (preparedFromRecord record) := by
  simp +decide [preparedFromRecord]

theorem mapError_mild {f : NativeWalletError → WecPayoutError} (h : ∀ e, ¬ Refusal (f e))
    (x : Except NativeWalletError α) : Mild (x.mapError f) :=
  errorsIn_mapError.mpr fun e _ => h e

theorem mapRecoveryError_mild (x : Except NativeWalletError α) :
    Mild (x.mapError mapRecoveryError) :=
  mapError_mild (fun e => by cases e <;> decide) x

theorem verifiedIdentity_harmless : Harmless (verifiedIdentity cfg) :=
  .bind (.ask trivial (mapError_mild fun e => by cases e <;> decide)) fun identity =>
    .bind (.lift (verifyIdentity_mild identity)) fun _ =>
      .bind (checkpoint_harmless _) fun _ => .pure _

theorem recoverBatch_harmless :
    Harmless (recoverBatch request validated) :=
  .bind (.ask trivial mapRecoveryError_mild) fun _ =>
    .bind (checkpoint_harmless _) fun _ => .pure _

theorem inspectSigned_harmless (signed : WalletSignedTransaction) :
    Harmless (inspectSigned cfg request validated signed) :=
  .bind (.lift (.rejectIf (by decide))) fun _ =>
    .bind (.ask trivial (mapError_mild fun e => by cases e <;> decide)) fun _ =>
      .bind (.lift (verifyInspection_mild request signed _)) fun _ =>
        .bind (checkpoint_harmless _) fun _ => .pure _

theorem recoverExisting_harmless :
    Harmless (recoverExisting cfg request validated) := by
  refine .bind verifiedIdentity_harmless fun _ => .bind (recoverBatch_harmless request) ?_
  intro recovered
  cases recovered with
  | none => exact .pure _
  | some signed => exact .bind (inspectSigned_harmless request signed) fun _ => .pure _

/-! ## §3. Parts that write, sign and broadcast -/

@[simp] theorem validate_mild (stage : StoredStage) : Mild stage.validate := by
  unfold StoredStage.validate
  split
  · simp +decide [StoredArtifact.validate]
  · simp

/-- A write in order leaves the record in the journal. -/
theorem persist_spec (hadvances : Advances (s.journal record.batchId) record)
    (hentry : c.entry ≠ .execute → record.stage.rank ≤ 1) :
    Spec cfg c (persist record) (fun _ s' _ => s'.journal = s.journal.write record) es s := by
  refine AlwaysE.bind (AlwaysE.ask_quiet wecWorld_quiet (fun _ => ⟨hadvances, hentry⟩) ?_ ?_)
  · intro answer s' u hanswer _ hok
    obtain rfl : answer = .ok u := hok
    have hstored : s'.journal = s.journal.write record := congrArg _ (WriteAnswer.of_ok hanswer)
    exact (checkpoint_harmless _).spec.imp fun _ _ _ _ h => h.2.trans hstored
  · intro answer s' e hanswer _ herror
    obtain rfl : answer = .error e := herror
    refine .of_not ?_
    obtain hinvalid | rfl := WriteAnswer.of_error hanswer
    · exact validate_mild record.stage e hinvalid
    · decide

theorem check_mild (batchId : Uuid) (record : JournalRecord) : Mild (record.check batchId) := by
  simp +decide [JournalRecord.check]

/-- A load reads the journal and leaves it alone. -/
theorem loadJournal_spec (batchId : Uuid) :
    Spec cfg c (loadJournal batchId)
      (fun _ s' loaded => s'.journal = s.journal ∧ s.journal.load batchId = .ok loaded) es s := by
  refine AlwaysE.ask_quiet wecWorld_quiet (fun _ => trivial) ?_ ?_
  · intro answer s' loaded hanswer _ hok
    obtain rfl : answer = .ok loaded := hok
    obtain ⟨hload | hload | hload, hs'⟩ := hanswer
    · exact ⟨congrArg _ hs', hload.symm⟩
    · cases hload
    · cases hload
  · intro answer s' e hanswer _ herror
    obtain rfl : answer = .error e := herror
    refine .of_not ?_
    obtain ⟨hload | hload | hload, -⟩ := hanswer
    · exact load_errors (check_mild batchId) s.journal e hload.symm
    · exact Except.error.inj hload ▸ by decide
    · exact Except.error.inj hload ▸ by decide

/-- A pure check that does not refuse. -/
theorem check_spec {x : Except WecPayoutError α} (h : Mild x) :
    Spec cfg c (check x) (fun es' s' a => es' = es ∧ s' = s ∧ x = .ok a) es s :=
  AlwaysE.lift_quiet wecWorld_quiet (fun _ ha _ => ⟨rfl, rfl, ha⟩) fun e he _ => .of_not (h e he)

theorem Holds.of_journal (h : Holds s c.request validated record)
    (hjournal : s'.journal = s.journal) : Holds s' c.request validated record :=
  ⟨hjournal ▸ h.stored, h.batch, h.binds⟩

/-- Writing the next stage of a held record. -/
theorem persist_stage_spec {stage : StoredStage} (hholds : Holds s c.request validated record)
    (hstep : StageStep record.stage stage) (hentry : c.entry ≠ .execute → stage.rank ≤ 1) :
    Spec cfg c (persist (record.at stage))
      (fun _ s' _ => Holds s' c.request validated (record.at stage)) es s := by
  have hstored : s.journal (record.at stage).batchId = some record := by
    rw [show (record.at stage).batchId = c.request.batch.batchId from hholds.batch]
    exact hholds.stored
  have hadvances : Advances (s.journal (record.at stage).batchId) (record.at stage) := by
    rw [hstored]
    exact ⟨hstep, rfl⟩
  refine (persist_spec hadvances hentry).imp fun _ s' _ _ hput => ⟨?_, hholds.batch, hholds.binds⟩
  rw [hput, ← hholds.batch]
  exact put_self s.journal record.batchId (record.at stage)

/-- A reservation writes the first record. -/
theorem reserve_spec (hnone : s.journal c.request.batch.batchId = none) :
    Spec cfg c (reserve cfg c.request validated)
      (fun _ s' record => Holds s' c.request validated record) es s := by
  refine AlwaysE.seq (check_spec (.rejectIf (by decide))) ?_
  rintro es' s' _ - ⟨rfl, rfl, -⟩
  refine AlwaysE.seq (persist_spec ?_ ?_) ?_
  · show Advances (s'.journal c.request.batch.batchId) _
    rw [hnone]
    exact rfl
  · exact fun _ => Nat.zero_le 1
  · intro _ s'' _ _ hput
    refine AlwaysE.pure_quiet wecWorld_quiet fun _ => ⟨?_, rfl, ⟨rfl, rfl, rfl⟩⟩
    rw [hput]
    exact put_self s'.journal _ _

/-- The record to continue from is the one that the journal holds. -/
theorem loadOrReserve_spec :
    Spec cfg c (loadOrReserve cfg c.request validated)
      (fun _ s' record => Holds s' c.request validated record) es s := by
  refine AlwaysE.seq (loadJournal_spec _) ?_
  rintro es' s' loaded - ⟨hjournal, hload⟩
  cases loaded with
  | none =>
    refine reserve_spec ?_
    rw [hjournal]
    exact load_eq_none hload
  | some record =>
    obtain ⟨hstored, hcheck⟩ := load_eq_some hload
    have hbatch := record.batchId_of_check hcheck
    refine AlwaysE.seq (check_spec (.rejectIf (by decide))) ?_
    rintro _ s'' _ - ⟨-, rfl, hbinds⟩
    rw [rejectIf_eq_ok, not_not] at hbinds
    exact AlwaysE.pure_quiet wecWorld_quiet fun _ => ⟨hjournal ▸ hstored, hbatch, hbinds⟩

/-- A recovery that finds nothing stands in the log. -/
theorem recoverBatch_spec :
    Spec cfg c (recoverBatch c.request validated)
      (fun es' s' recovered => s'.journal = s.journal ∧ (recovered = none →
        NothingRecovered es' ⟨c.request.batch.batchId, validated.pipelineCommitment⟩)) es s := by
  refine AlwaysE.bind (AlwaysE.ask_quiet wecWorld_quiet (fun _ => trivial) ?_ ?_)
  · intro answer s' recovered hanswer _ hok
    have hjournal : s'.journal = s.journal := hanswer
    obtain rfl : answer = .ok recovered := mapError_eq_ok.mp hok
    refine AlwaysE.seq (checkpoint_harmless _).spec ?_
    rintro es'' s'' _ - ⟨hes, hjournal'⟩
    refine AlwaysE.pure_quiet wecWorld_quiet fun _ => ⟨hjournal'.trans hjournal, ?_⟩
    rintro rfl
    exact ⟨s, s', hes.subset (by simp)⟩
  · intro answer s' e _ _ herror
    exact .of_not (mapRecoveryError_mild answer e herror)

/-- Only the answer to the signature itself refuses. -/
theorem mapSigningError_refusal {e : NativeWalletError} (h : Refusal (mapSigningError e)) :
    e = .rejected := by
  cases e <;> first | rfl | exact absurd h (by decide)

section

variable (hvalid : validateRequest cfg c.request = .ok validated)
  (hholds : Holds s c.request validated record) (hreserved : record.stage = .reserved)

include hvalid hholds hreserved

/-- A signature is asked for only when nothing was recovered. -/
theorem signNew_spec (hrecovered : NothingRecovered es
      ⟨c.request.batch.batchId, validated.pipelineCommitment⟩) (identity : WalletIdentity) :
    Spec cfg c (signNew cfg c.request validated identity)
      (fun _ s' _ => s'.journal = s.journal) es s := by
  have hseed : Harmless readSeed := .ask trivial fun _ => .rejectIf (by decide)
  refine AlwaysE.seq hseed.spec ?_
  rintro es' s' _ - ⟨hes, hjournal⟩
  have hholds' := hholds.of_journal hjournal
  have horder : SignOrder cfg c.request es' s' ⟨c.request.batch.batchId,
      validated.pipelineCommitment, identity, validated.outputs, cfg.confirmations,
      c.request.batch.maximumNetworkFeeZat⟩ validated record := by
    obtain ⟨before, after, hmem⟩ := hrecovered
    exact ⟨hvalid, hholds', hreserved, hholds.batch.symm, hholds.binds.1.symm, rfl,
      ⟨before, after, hes.subset hmem⟩⟩
  refine AlwaysE.bind (AlwaysE.ask_quiet wecWorld_quiet (fun _ => ⟨validated, record, horder⟩) ?_ ?_)
  · rintro answer s'' signed ⟨hjournal', -⟩ - -
    refine AlwaysE.seq (checkpoint_harmless _).spec ?_
    rintro _ s₃ _ - ⟨-, hjournal''⟩
    exact AlwaysE.pure_quiet wecWorld_quiet fun _ => hjournal''.trans (hjournal'.trans hjournal)
  · -- a refusal is the wallet's own, and leaves nothing persisted
    rintro answer s'' e ⟨hjournal', hwallet⟩ - herror - hrefusal
    cases answer with
    | ok signed => exact absurd herror (by simp [Except.mapError])
    | error e' =>
      obtain rfl : mapSigningError e' = e := Except.error.inj herror
      obtain rfl := mapSigningError_refusal hrefusal
      exact .inl ⟨record, by rw [hjournal']; exact hholds'.stored, hreserved, hwallet rfl⟩

/-- A signed transaction, recovered or new. -/
theorem createOrRecover_spec :
    Spec cfg c (createOrRecover cfg c.request validated)
      (fun _ s' _ => s'.journal = s.journal) es s := by
  refine AlwaysE.seq verifiedIdentity_harmless.spec ?_
  rintro es₁ s₁ identity - ⟨-, hjournal₁⟩
  refine AlwaysE.seq recoverBatch_spec ?_
  rintro es₂ s₂ recovered - ⟨hjournal₂, hrecovered⟩
  have hholds₂ : Holds s₂ c.request validated record := hholds.of_journal (hjournal₂.trans hjournal₁)
  have hsigned : Spec cfg c (recoveredOrSigned cfg c.request validated identity recovered)
      (fun _ s' _ => s'.journal = s₂.journal) es₂ s₂ := by
    cases recovered with
    | some signed => exact AlwaysE.pure_quiet wecWorld_quiet fun _ => rfl
    | none => exact signNew_spec hvalid hholds₂ hreserved (hrecovered rfl) identity
  refine AlwaysE.seq hsigned ?_
  intro es₃ s₃ signed _ hjournal₃
  refine (inspectSigned_harmless c.request signed).spec.imp ?_
  rintro _ s₄ _ - ⟨-, hjournal₄⟩
  rw [hjournal₄, hjournal₃, hjournal₂, hjournal₁]

/-- `Reserved` becomes `Prepared`. -/
theorem prepareReserved_spec :
    Spec cfg c (prepareReserved cfg c.request validated record) (fun _ s' artifact =>
      Holds s' c.request validated (record.at (.prepared artifact))) es s := by
  refine AlwaysE.seq (createOrRecover_spec hvalid hholds hreserved) ?_
  intro es' s' artifact _ hjournal
  have hstep : StageStep record.stage (.prepared artifact) := hreserved ▸ .prepare artifact
  refine AlwaysE.seq (persist_stage_spec (hholds.of_journal hjournal) hstep
    fun _ => le_rfl) ?_
  exact fun _ _ _ _ hholds' => AlwaysE.pure_quiet wecWorld_quiet fun _ => hholds'

end

/-! ## §4. The loops -/

/-- A pure check at the end of a program. -/
theorem last_check {x : Except WecPayoutError α} (h : Mild x) : InOrder cfg c (check x) es s :=
  (check_spec h).imp fun _ _ _ _ _ => trivial

/-- A preparation, from any stage. -/
theorem prepareStage_spec (hvalid : validateRequest cfg c.request = .ok validated)
    (hholds : Holds s c.request validated record) :
    InOrder cfg c (prepareStage cfg c.request validated record) es s := by
  unfold prepareStage
  split
  · next hreserved =>
    refine AlwaysE.seq (prepareReserved_spec hvalid hholds hreserved) ?_
    exact fun _ _ _ _ _ => last_check (preparedFromRecord_mild _)
  · exact last_check (preparedFromRecord_mild _)
  · exact last_check (preparedFromRecord_mild _)
  · exact last_check (preparedFromRecord_mild _)
  · exact last_check (preparedFromRecord_mild _)
  · next artifact hrejected =>
    exact AlwaysE.throw_quiet wecWorld_quiet fun _ _ _ =>
      .inr ⟨record, artifact, hholds.stored, hrejected⟩

/-- A recovery, from any stage. -/
theorem recoverRecord_spec (hprepare : c.entry ≠ .prepare)
    (hholds : Holds s c.request validated record) :
    InOrder cfg c (recoverRecord cfg c.request validated record) es s := by
  unfold recoverRecord
  split
  · next hreserved =>
    refine AlwaysE.seq (recoverExisting_harmless c.request).spec ?_
    rintro es' s' recovered - ⟨-, hjournal⟩
    cases recovered with
    | none => exact AlwaysE.pure_quiet wecWorld_quiet fun _ => trivial
    | some artifact =>
      have hstep : StageStep record.stage (.prepared artifact) := hreserved ▸ .prepare artifact
      refine AlwaysE.seq (persist_stage_spec (hholds.of_journal hjournal) hstep
        fun _ => le_rfl) ?_
      intro _ _ _ _ _
      refine AlwaysE.seq (last_check (preparedFromRecord_mild _)) ?_
      exact fun _ _ _ _ _ => AlwaysE.pure_quiet wecWorld_quiet fun _ => trivial
  case h_6 => exact AlwaysE.throw_quiet wecWorld_quiet fun _ => .of_entry hprepare
  all_goals
    refine AlwaysE.seq (last_check (preparedFromRecord_mild _)) ?_
    exact fun _ _ _ _ _ => AlwaysE.pure_quiet wecWorld_quiet fun _ => trivial

/-- A recovery is in order. -/
theorem recoverLocked_spec (hprepare : c.entry ≠ .prepare) :
    InOrder cfg c (recoverLocked cfg c.request validated) es s := by
  refine AlwaysE.seq (loadJournal_spec _) ?_
  rintro es' s' loaded - ⟨hjournal, hload⟩
  cases loaded with
  | none => exact AlwaysE.pure_quiet wecWorld_quiet fun _ => trivial
  | some record =>
    obtain ⟨hstored, hcheck⟩ := load_eq_some hload
    have hbatch := record.batchId_of_check hcheck
    refine AlwaysE.seq (check_spec (.rejectIf (by decide))) ?_
    rintro _ s'' _ - ⟨-, rfl, hbinds⟩
    rw [rejectIf_eq_ok, not_not] at hbinds
    exact recoverRecord_spec hprepare ⟨hjournal ▸ hstored, hbatch, hbinds⟩

/-- An inspection is in order. -/
theorem inspectLocked_spec : InOrder cfg c (inspectLocked cfg c.request validated) es s := by
  refine AlwaysE.seq (loadJournal_spec _) fun _ _ _ _ _ => ?_
  refine AlwaysE.seq (last_check (errorsIn_orReject.mpr fun _ => by decide)) fun _ _ _ _ _ => ?_
  refine AlwaysE.seq (last_check (.rejectIf (by decide))) fun _ _ _ _ _ => ?_
  refine AlwaysE.seq (last_check (errorsIn_orReject.mpr fun _ => by decide)) fun _ _ _ _ _ => ?_
  refine AlwaysE.seq (recoverExisting_harmless c.request).spec fun _ _ _ _ _ => ?_
  refine AlwaysE.seq (last_check (errorsIn_orReject.mpr fun _ => by decide)) fun _ _ _ _ _ => ?_
  refine AlwaysE.seq (last_check (.rejectIf (by decide))) fun _ _ _ _ _ => ?_
  exact last_check (preparedFromRecord_mild _)

theorem executionFromRecord_mild (disposition : BroadcastDisposition) :
    Mild (executionFromRecord record disposition) := by
  simp [executionFromRecord]

variable {artifact : StoredArtifact}

/-- Each answer of the node leads to a stage that may follow the unresolved one. -/
theorem settleBroadcast_spec (hexecute : c.entry = .execute)
    (hholds : Holds s c.request validated record)
    (hunresolved : record.stage = .broadcastUnresolved artifact)
    (answer : Except BroadcastFailure BroadcastOutcome) :
    InOrder cfg c (settleBroadcast record artifact answer) es s := by
  have hprepare : c.entry ≠ .prepare := by rw [hexecute]; decide
  -- the write of the outcome, after its checkpoint
  have hwrite : ∀ {α : Type} {p : Checkpoint} {stage : StoredStage} {rest : WecM α},
      StageStep record.stage stage →
      (∀ es s, InOrder cfg c rest es s) →
      InOrder cfg c (do checkpoint p; persist (record.at stage); rest) es s := by
    intro α p stage rest hstep hrest
    refine AlwaysE.seq (checkpoint_harmless p).spec ?_
    rintro _ s' _ - ⟨-, hjournal⟩
    refine AlwaysE.seq (persist_stage_spec (hholds.of_journal hjournal) hstep
      fun hentry => absurd hexecute hentry) fun _ _ _ _ _ => hrest _ _
  rw [hunresolved] at hwrite
  unfold settleBroadcast
  split
  · split
    · exact hwrite (.retry artifact) fun _ _ =>
        AlwaysE.throw_quiet wecWorld_quiet fun _ => .of_entry hprepare
    · exact hwrite (.complete artifact _) fun _ _ => last_check (executionFromRecord_mild _)
  · exact hwrite (.reject artifact) fun _ _ =>
      AlwaysE.throw_quiet wecWorld_quiet fun _ => .of_entry hprepare
  · exact hwrite (.retry artifact) fun _ _ =>
      AlwaysE.throw_quiet wecWorld_quiet fun _ => .of_entry hprepare

section

variable (hexecute : c.entry = .execute) (hvalid : validateRequest cfg c.request = .ok validated)
  (hholds : Holds s c.request validated record)

include hexecute hvalid hholds

/-- A broadcast of an unresolved record. -/
theorem broadcastRecorded_spec (hunresolved : record.stage = .broadcastUnresolved artifact) :
    InOrder cfg c (broadcastRecorded record artifact) es s := by
  refine AlwaysE.bind (AlwaysE.ask_quiet wecWorld_quiet
    (fun _ => ⟨validated, record, artifact, hvalid, hholds, hunresolved, rfl⟩) ?_ ?_)
  · intro answer s' outcome hjournal _ _
    exact settleBroadcast_spec hexecute (hholds.of_journal hjournal) hunresolved outcome
  · intro answer s' e _ _ herror
    cases herror

/-- A broadcast of a prepared record. -/
theorem broadcastPrepared_spec (hprepared : record.stage = .prepared artifact) :
    InOrder cfg c (broadcastPrepared record artifact) es s := by
  have hstep : StageStep record.stage (.broadcastUnresolved artifact) :=
    hprepared ▸ .broadcast artifact
  refine AlwaysE.seq (persist_stage_spec hholds hstep fun hentry => absurd hexecute hentry) ?_
  intro _ _ _ _ hholds'
  exact broadcastRecorded_spec hexecute hvalid hholds' rfl

/-- An execution, from any stage. -/
theorem executeStage_spec :
    InOrder cfg c (executeStage cfg c.request validated record) es s := by
  have hprepare : c.entry ≠ .prepare := by rw [hexecute]; decide
  unfold executeStage
  split
  · next hreserved =>
    refine AlwaysE.seq (prepareReserved_spec hvalid hholds hreserved) ?_
    exact fun _ _ _ _ hholds' => broadcastPrepared_spec hexecute hvalid hholds' rfl
  · next hprepared => exact broadcastPrepared_spec hexecute hvalid hholds hprepared
  · next hsigned =>
    exact AlwaysE.of_invariant_quiet wecWorld_quiet fun hcurrent =>
      absurd hsigned (hcurrent _ hholds.stored _)
  · next hunresolved => exact broadcastRecorded_spec hexecute hvalid hholds hunresolved
  · exact AlwaysE.throw_quiet wecWorld_quiet fun _ => .of_entry hprepare
  · exact last_check (executionFromRecord_mild _)

end

/-! ## §5. Entry points -/

/-- **Each entry point under the lock** is in order. -/
theorem locked_spec (hvalid : validateRequest cfg c.request = .ok validated) :
    InOrder cfg c (locked cfg c validated) es s := by
  have hanswer : ∀ (response : WecResponse) (es : List WecEvent) (s : WecState),
      InOrder cfg c (pure response) es s :=
    fun _ _ _ => AlwaysE.pure_quiet wecWorld_quiet fun _ => trivial
  unfold locked
  split
  · next hentry =>
    have hbody : InOrder cfg c (executeLocked cfg c.request validated) es s :=
      AlwaysE.seq loadOrReserve_spec fun _ _ _ _ hholds =>
        executeStage_spec hentry hvalid hholds
    exact AlwaysE.seq hbody fun _ _ _ _ _ => hanswer _ _ _
  · have hbody : InOrder cfg c (prepareLocked cfg c.request validated) es s :=
      AlwaysE.seq loadOrReserve_spec fun _ _ _ _ hholds => prepareStage_spec hvalid hholds
    exact AlwaysE.seq hbody fun _ _ _ _ _ => hanswer _ _ _
  · next hentry =>
    refine AlwaysE.seq (recoverLocked_spec ?_) fun _ _ _ _ _ => hanswer _ _ _
    rw [hentry]
    decide
  · exact AlwaysE.seq inspectLocked_spec fun _ _ _ _ _ => hanswer _ _ _

end Parts

theorem walletOutput_mild (batchId : Uuid) (portalCommitment : Hex32) (output : PayoutOutput)
    (ordinal : ℕ) :
    Mild (walletOutput batchId portalCommitment output ordinal) := by
  unfold walletOutput memoFor
  cases output.receiverKind <;> simp +decide [outputMemo]

theorem validateRequest_mild (cfg : WecSignerConfig) (request : WecPayoutRequest) :
    Mild (validateRequest cfg request) := by
  have houtputs := fun (commitment : Hex32) (p : PayoutOutput × ℕ) =>
    walletOutput_mild request.batch.batchId commitment p.1 p.2
  simp +decide [validateRequest, ErrorsIn.mapM (houtputs _)]

/-- **Every entry point is in order**, and its refusals are final. -/
theorem perform_spec (cfg : WecSignerConfig) (c : WecCommand) (s : WecState) :
    InOrder cfg c (perform cfg c) [] s := by
  refine AlwaysE.seq (last_check (.rejectIf (by decide))) fun _ _ _ _ _ => ?_
  refine AlwaysE.seq (check_spec (validateRequest_mild cfg c.request)) ?_
  rintro es' s' validated - ⟨-, -, hvalid⟩
  have hlock : Harmless lockJournal := .ask trivial fun _ => .rejectIf (by decide)
  exact AlwaysE.seq hlock.spec fun _ _ _ _ _ => locked_spec hvalid

/-! ## §6. Histories -/

/-- What the journal can do in one query that is in order. -/
theorem Ordered.journal (h : Ordered cfg c es s q) (hanswer : wecAnswers s q answer s') :
    s'.journal = s.journal ∨ ∃ record, s'.journal = s.journal.write record ∧
      Advances (s.journal record.batchId) record ∧
      (c.entry ≠ .execute → record.stage.rank ≤ 1) := by
  cases q with
  | store record =>
    cases WriteAnswer.state hanswer with
    | inl hsame => exact .inl (congrArg _ hsame)
    | inr hwritten => exact .inr ⟨record, congrArg _ hwritten, h⟩
  | signExact call => exact .inl hanswer.1
  | broadcastExact call => exact .inl hanswer
  | lock | load | checkpoint | readSeed | identity | recoverExact | inspectPersisted =>
    exact .inl (Silent.journal (by trivial) hanswer)

/-- **A query in order** only adds to the records. -/
theorem Ordered.follows (h : Ordered cfg c es s q) (hanswer : wecAnswers s q answer s') :
    Follows RecordLe s.journal s'.journal := by
  obtain hsame | ⟨record, hwritten, hadvances, -⟩ := h.journal hanswer
  · rw [hsame]
    exact Follows.refl RecordLe.refl s.journal
  · rw [hwritten]
    exact Follows.put RecordLe.refl fun _ => hadvances.recordLe

/-- A query in order keeps a batch current. -/
theorem Ordered.current {batchId : Uuid} (hs : s.Current batchId) (h : Ordered cfg c es s q)
    (hanswer : wecAnswers s q answer s') : s'.Current batchId := by
  intro stored hstored
  obtain hsame | ⟨record, hwritten, hadvances, -⟩ := h.journal hanswer
  · exact hs stored (hsame ▸ hstored)
  · rw [hwritten] at hstored
    by_cases hbatch : batchId = record.batchId
    · subst hbatch
      exact Option.some.inj ((put_self ..).symm.trans hstored) ▸ hadvances.ne_signed
    · exact hs stored ((put_of_ne hbatch).symm.trans hstored)

abbrev WecAttempt :=
  Attempt WecState WecQuery WecAnswer WecCommand (Except WecPayoutError WecResponse)

/-- Histories of calls of the signer, any of which may be cut short by a crash. -/
abbrev WecRuns (cfg : WecSignerConfig) : WecState → List WecAttempt → WecState → Prop :=
  Runs wecWorld fun c => (perform cfg c).run

/-- **Exactness of a history.** -/
structure WecExact (cfg : WecSignerConfig) (start : WecState) (h : List WecAttempt) : Prop where
  /-- Of any two states, the later has the commitments of every record of the earlier, its
      transaction where it has one, and no earlier stage. -/
  forward : (start :: (eventsOf h).map (·.after)).Pairwise fun s s' =>
    Follows RecordLe s.journal s'.journal
  /-- Each signature is asked for on a reserved record that the request is bound to, after a
      recovery of the same attempt that returned nothing. -/
  sign : ∀ attempt ∈ h, ∀ es₁ e es₂ call, attempt.events = es₁ ++ e :: es₂ →
    e.query = .signExact call →
    ∃ validated record, SignOrder cfg attempt.command.request es₁ e.before call validated record
  /-- Each broadcast carries the transaction of an unresolved record that the request is bound
      to. -/
  broadcast : ∀ attempt ∈ h, ∀ e ∈ attempt.events, ∀ call, e.query = .broadcastExact call →
    ∃ validated record artifact,
      BroadcastOrder cfg attempt.command.request e.before call validated record artifact

/-- **The journal is exact** along every history of calls, whatever they request, whatever wallet
    and node answer, and wherever they crash.  Excluded are batches that the older executor left
    in its `Signed` stage; the records of batches that no call names may be in any stage. -/
theorem wec_journal_exact (cfg : WecSignerConfig) {start final : WecState} {h : List WecAttempt}
    (hstart : ∀ attempt ∈ h, start.Current attempt.command.request.batch.batchId)
    (hruns : WecRuns cfg start h final) : WecExact cfg start h := by
  -- Each call relies on its own batch only; along the history all of them stay current.
  let Named (c : WecCommand) : Prop :=
    ∃ attempt ∈ h, attempt.command.request.batch.batchId = c.request.batch.batchId
  obtain ⟨-, hgood⟩ := hruns.sound (I := fun s => ∀ c, Named c → s.Current c.request.batch.batchId)
    (P := Ordered cfg) Named (fun _ _ _ hother => hother.elim)
    (fun _ _ _ _ _ _ _ hs hordered hanswer c hc => hordered.current (hs c hc) hanswer)
    (fun c s hc _ => Always.anti (perform_spec cfg c s) fun _ hs => hs c hc)
    (fun attempt hattempt => ⟨attempt, hattempt, rfl⟩)
    (fun _ ⟨attempt, hattempt, hbatch⟩ => hbatch ▸ hstart attempt hattempt)
  refine ⟨?_, ?_, ?_⟩
  · refine (hruns.pairwise (R := fun s s' => Follows RecordLe s.journal s'.journal)
      (fun s => Follows.refl RecordLe.refl s.journal) ?_ (fun _ _ hother => hother.elim) ?_).1
    · intro a b c hab hbc
      exact hab.trans hbc fun _ _ _ => RecordLe.trans
    intro attempt hattempt e he
    obtain ⟨es₁, es₂, hsplit⟩ := List.append_of_mem he
    have hevent := (hgood attempt hattempt).events es₁ e es₂ hsplit
    exact hevent.query.follows hevent.answer
  · intro attempt hattempt es₁ e es₂ call hsplit hquery
    have hordered := ((hgood attempt hattempt).events es₁ e es₂ hsplit).query
    rw [hquery] at hordered
    exact hordered
  · intro attempt hattempt e he call hquery
    obtain ⟨es₁, es₂, hsplit⟩ := List.append_of_mem he
    have hordered := ((hgood attempt hattempt).events es₁ e es₂ hsplit).query
    rw [hquery] at hordered
    exact hordered

/-! ## §7. A run -/

def sampleConfig : WecSignerConfig where
  sha256 := fun bytes => BitVec.ofNat 256 bytes.length
  network := .testnet
  sourceAccount := 7
  expectedPayoutCommitment := 8
  confirmations := 100
  maxOutputs := 50
  maxFeeZat := 5_000_000
  transparentPayoutsEnabled := false

def sampleRequest : WecPayoutRequest where
  batch := ⟨1, .wec, .testnet, 2, 3, 1_000, [⟨4, ascii "utest1abcdef", .ironwood, 50_000⟩]⟩
  sourceAccount := 7
  fundSource := .ironwood

def sampleIdentity : WalletIdentity :=
  ⟨.testnet, sampleConfig.genesisHash, sampleConfig.branchId, 7, 8, .ironwood, true⟩

def sampleSigned (call : WalletSignCall) : WalletSignedTransaction :=
  ⟨call.batchId, call.requestCommitment, List.replicate 64 97, ascii "abcd", 9, 500, 1_000, 1_040,
    true, true⟩

/-- What a sample wallet has persisted for a transaction that it signed. -/
def sampleIntent (call : WalletInspectionCall) : PersistedIntent :=
  ⟨sampleIdentity, call.batchId, call.requestCommitment,
    (validateRequest sampleConfig sampleRequest).toOption.elim [] (·.outputs), 9,
    call.transactionId, 2, 500, 1_000, 1_040, true, true⟩

/-- A wallet and a node without faults. -/
def sampleScript (_ : List WecEvent) (s : WecState) : (q : WecQuery) → WecAnswer q × WecState
  | .lock => (true, s)
  | .load batchId => (s.journal.load batchId, s)
  | .store record => land record.stage.validate s { s with journal := s.journal.write record }
  | .checkpoint _ => (false, s)
  | .readSeed => (true, s)
  | .identity => (.ok sampleIdentity, s)
  | .recoverExact _ => (.ok none, s)
  | .signExact call => (.ok (sampleSigned call), s)
  | .inspectPersisted call => (.ok (sampleIntent call), s)
  | .broadcastExact call => (.ok ⟨call.transactionId, .accepted⟩, s)

theorem sampleScript_answers (es : List WecEvent) (s : WecState) (q : WecQuery) :
    wecWorld.answers s q (sampleScript es s q).1 (sampleScript es s q).2 := by
  cases q with
  | lock | checkpoint | readSeed | identity | recoverExact | inspectPersisted | broadcastExact =>
    exact rfl
  | load batchId => exact ⟨.inl rfl, rfl⟩
  | signExact call => exact ⟨rfl, fun h => absurd h (by simp [sampleScript])⟩
  | store record => exact land_answers record.stage.validate _ s _

def sampleStart : WecState := ⟨fun _ => none, fun _ => none⟩

/-- One call from the empty journal. -/
def samplePlay (entry : EntryPoint) :
    List WecEvent × WecState × Except WecPayoutError WecResponse :=
  play sampleScript (perform sampleConfig ⟨entry, sampleRequest⟩).run [] sampleStart

/-- A signature or a broadcast. -/
def isEffect : WecQuery → Bool
  | .signExact _ => true
  | .broadcastExact _ => true
  | _ => false

theorem wec_journal_exact_sample :
    ((samplePlay .execute).1.filter fun e => isEffect e.query).length = 2 ∧
      WecExact sampleConfig sampleStart
        [⟨⟨.execute, sampleRequest⟩, (samplePlay .execute).1, some (samplePlay .execute).2.2⟩] :=
  ⟨by decide +kernel, wec_journal_exact sampleConfig (fun _ _ _ h => absurd h (by simp [sampleStart]))
    (.cons (Exec.play sampleScript_answers _ [] sampleStart) (.nil _))⟩

end WcashPool.WecSigner
