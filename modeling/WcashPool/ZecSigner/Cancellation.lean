/-
  WcashPool.ZecSigner.Cancellation — when the pool may cancel a ZEC batch whose
  preparation was rejected.

  The settlement cancels a batch, and so releases its liabilities, when
  `prepare` fails with an error of the class `Rejected`.  The wrapper of the
  wallet calls reports every server error as a rejection, also that of a call
  on a PCZT that is already signed.  So the cancellation is safe exactly where
  no such late call was refused (`zec_cancellation_safe_iff`); a wallet that
  refuses to inspect the PCZT that it has just signed leaves the signed PCZT in
  the journal of a cancelled batch (`zec_cancellation_late_refusal`).
-/
import WcashPool.Poold.Boundary
import WcashPool.ZecSigner.Exactness

namespace WcashPool.ZecSigner

open Fallible Protocol Store Portal Programs Durable Poold

/-! ## §1. Histories without a submission -/

/-- Every record is as it should be, and none has gone beyond the prepared stage. -/
def Early (cfg : ZecSignerConfig) (s : Journal) : Prop :=
  All (RecordOk cfg.external) s ∧ All (fun record => record.stage.rank ≤ 7) s

theorem emptyJournal_early (cfg : ZecSignerConfig) : Early cfg emptyJournal :=
  ⟨emptyJournal_ok cfg.external, fun _ _ h => absurd h (by simp [emptyJournal])⟩

/-- A query of a preparation or a recovery keeps the journal early. -/
theorem Ordered.early {cfg : ZecSignerConfig} {c : ZecCommand} {es : List ZecEvent}
    {s s' : Journal} {q : ZecQuery} {answer : ZecAnswer q} (hentry : c.entry ≠ .execute)
    (hs : Early cfg s) (h : Ordered cfg c es s q) (hanswer : zecAnswers s q answer s') :
    Early cfg s' := by
  refine ⟨h.ok hs.1 hanswer, ?_⟩
  obtain rfl | ⟨record, -, rfl, horder⟩ := h.journal hanswer
  · exact hs.2
  · exact All.put hs.2 (horder.entry hentry)

/-- Only a refusal is reported as a rejection. -/
theorem refusal_of_mapZecError {e : ZecPayoutError} (h : mapZecError e = .rejected) :
    Refusal e := by
  cases e <;> first | exact absurd h (by decide) | decide

/-! ## §2. Cancellation -/

/-- A history of `prepare` and `recover_prepared` from an empty journal that ends with a
    preparation whose error the settlement takes as a rejection. -/
structure RejectedPrepare (cfg : ZecSignerConfig) (h : List ZecAttempt) (attempt : ZecAttempt)
    (final : Journal) : Prop where
  runs : ZecRuns cfg emptyJournal (h ++ [attempt]) final
  commands : ∀ a ∈ h ++ [attempt], a.command.entry ≠ .execute
  prepare : attempt.command.entry = .prepare
  rejected : ∃ e, attempt.result = some (.error e) ∧ mapZecError e = .rejected

/-- The PCZT of a stage after the signature. -/
@[simp] def StoredStage.signedPczt : StoredStage → Option Text
  | .signed pczt _ | .signedVerified pczt _ _ => some pczt
  | _ => none

/-- **The batch may be cancelled**: the journal holds no signed PCZT and no raw transaction of it,
    and the wallet was never asked to extract one. -/
structure Cancellable (h : List ZecAttempt) (batchId : Uuid) (final : Journal) : Prop where
  journal : ∀ record, final batchId = some record →
    record.stage.signedPczt = none ∧ record.stage.transaction = none
  wallet : ∀ a ∈ h, a.command.request.batch.batchId = batchId → ∀ e ∈ a.events, ∀ pczt,
    e.query ≠ .wallet (.pcztExtract pczt)

/-- A wallet call was answered by a server error while the journal held a signed PCZT. -/
def LateRefusal (attempt : ZecAttempt) : Prop :=
  ∃ s rpc failure record,
    (⟨s, .wallet rpc, .error failure, s⟩ : ZecEvent) ∈ attempt.events ∧ failure.isServer ∧
    s attempt.command.request.batch.batchId = some record ∧ record.stage.signedPczt ≠ none

/-- With no signed PCZT, calls are made up to `ProvedVerified`. -/
theorem RpcOrder.rank_le {rpc : WalletRpc} {stage : StoredStage} (h : RpcOrder rpc stage)
    (hsigned : stage.signedPczt = none) : stage.rank ≤ 4 := by
  cases stage with
  | reserved | created | createdVerified | proved | provedVerified => simp
  | signed | signedVerified => exact absurd hsigned (by simp)
  | extracted | prepared | broadcastUnresolved | rejected | completed =>
    cases rpc <;> simp [RpcOrder] at h

theorem signedPczt_or_transaction {stage : StoredStage} (hlow : 5 ≤ stage.rank)
    (hhigh : stage.rank ≤ 7) : stage.signedPczt ≠ none ∨ stage.transaction ≠ none := by
  cases stage <;> simp_all

section Rejected

variable {cfg : ZecSignerConfig} {h : List ZecAttempt} {attempt : ZecAttempt} {final : Journal}

section

variable (hrejected : RejectedPrepare cfg h attempt final)

include hrejected

/-- Every event is in order, in an early journal. -/
theorem RejectedPrepare.good :
    Early cfg final ∧ ∀ a ∈ h ++ [attempt], a.Good zecWorld (Early cfg) (Ordered cfg)
      fun _ _ _ _ => True := by
  refine hrejected.runs.sound (I := Early cfg) (P := Ordered cfg) (·.entry ≠ .execute)
    (fun _ _ _ hother => hother.elim)
    (fun _ _ _ _ _ _ hentry hs hordered hanswer => hordered.early hentry hs hanswer) ?_
    hrejected.commands (emptyJournal_early cfg)
  intro c s _ _
  exact Always.mono (Always.anti (perform_spec cfg c s) fun _ hs => hs.1) fun _ _ _ _ _ => trivial

theorem RejectedPrepare.event {a : ZecAttempt} (ha : a ∈ h ++ [attempt]) {e : ZecEvent}
    (he : e ∈ a.events) :
    ∃ es₁, e.Good zecWorld (Early cfg) (Ordered cfg a.command) es₁ := by
  obtain ⟨es₁, es₂, hsplit⟩ := List.append_of_mem he
  exact ⟨es₁, (hrejected.good.2 a ha).events es₁ e es₂ hsplit⟩

/-- No stage is undone on the way to the end. -/
theorem RejectedPrepare.follows {a : ZecAttempt} (ha : a ∈ h ++ [attempt]) {e : ZecEvent}
    (he : e ∈ a.events) :
    Follows RecordLe e.after final := by
  refine (hrejected.runs.pairwise (R := Follows RecordLe) (Follows.refl RecordLe.refl) ?_
    (fun _ _ hother => hother.elim) ?_).2 e.after ?_
  · intro a b c hab hbc
    exact hab.trans hbc fun _ _ _ => RecordLe.trans
  · intro a ha e he
    obtain ⟨_, hgood⟩ := hrejected.event ha he
    exact hgood.query.follows hgood.invariant.1 hgood.answer
  · exact List.mem_cons_of_mem _ (List.mem_map_of_mem (List.mem_flatMap.mpr ⟨a, ha, he⟩))

/-- The refusal is a server error of the wallet, in the final journal. -/
theorem RejectedPrepare.refused :
    ∃ rpc failure record, (⟨final, .wallet rpc, .error failure, final⟩ : ZecEvent) ∈ attempt.events ∧
      failure.isServer ∧ final attempt.command.request.batch.batchId = some record ∧
      RpcOrder rpc record.stage := by
  obtain ⟨e, hresult, hclass⟩ := hrejected.rejected
  obtain ⟨mid, hfront, hlast⟩ := hrejected.runs.last
  have hmid : All (RecordOk cfg.external) mid :=
    (hfront.sound (I := All (RecordOk cfg.external)) (P := Ordered cfg) (fun _ => True)
      (fun _ _ _ hother => hother.elim)
      (fun _ _ _ _ _ _ _ hs hordered hanswer => Ordered.ok hs hordered hanswer)
      (fun c s _ _ => perform_spec cfg c s) (fun _ _ => trivial) (emptyJournal_ok cfg.external)).1
  have hpost := (hlast.sound (fun _ _ _ hother => hother.elim)
    (fun _ _ _ _ _ hs hordered hanswer => Ordered.ok hs hordered hanswer) hmid
    (perform_spec cfg attempt.command mid)).2.2 _ hresult
  have hrefused : Refused attempt.command attempt.events final e := hpost
  obtain ⟨rpc, failure, hmem, hserver⟩ | ⟨record, txid, hstored, hstage⟩ :=
    hrefused (refusal_of_mapZecError hclass)
  · obtain ⟨_, hgood⟩ := hrejected.event (by simp) hmem
    obtain ⟨validated, record, hholds, hrpc⟩ := hgood.query
    exact ⟨rpc, failure, record, hmem, hserver, hholds.stored, hrpc⟩
  · have hrank : record.stage.rank ≤ 7 := hrejected.good.1.2 _ record hstored
    rw [hstage] at hrank
    exact absurd hrank (by simp)

end

/-- **A rejected batch may be cancelled exactly where no late call was refused.** -/
theorem zec_cancellation_safe_iff (hrejected : RejectedPrepare cfg h attempt final) :
    Cancellable (h ++ [attempt]) attempt.command.request.batch.batchId final ↔
      ¬ LateRefusal attempt := by
  constructor
  · rintro hsafe ⟨s, rpc, failure, record, hmem, -, hstored, hsigned⟩
    -- the record is still there at the end, at least as far as it was
    obtain ⟨record', hstored', hle⟩ := hrejected.follows (by simp) hmem _ record hstored
    have hlow : 5 ≤ record.stage.rank := by
      revert hsigned
      cases record.stage <;> simp
    have hhigh : record'.stage.rank ≤ 7 := hrejected.good.1.2 _ record' hstored'
    obtain ⟨hpczt, htransaction⟩ := hsafe.journal record' hstored'
    cases signedPczt_or_transaction (hlow.trans hle.stage) hhigh with
    | inl h => exact h hpczt
    | inr h => exact h htransaction
  · intro hearly
    obtain ⟨rpc, failure, record, hmem, hserver, hstored, hrpc⟩ := hrejected.refused
    have hunsigned : record.stage.signedPczt = none := by
      by_contra hsigned
      exact hearly ⟨final, rpc, failure, record, hmem, hserver, hstored, hsigned⟩
    have hrank : record.stage.rank ≤ 4 := hrpc.rank_le hunsigned
    refine ⟨fun record' hstored' => ?_, fun a ha hbatch e he pczt hquery => ?_⟩
    · obtain rfl := Option.some.inj (hstored.symm.trans hstored')
      refine ⟨hunsigned, ?_⟩
      revert hrank
      cases record.stage <;> simp
    · -- an extraction needs a record beyond the one at the end
      obtain ⟨_, hgood⟩ := hrejected.event ha he
      have hfollows := hrejected.follows ha he
      obtain ⟨before, query, answer, after⟩ := e
      obtain rfl : query = .wallet (.pcztExtract pczt) := hquery
      obtain rfl : after = before := hgood.answer
      obtain ⟨validated, old, hholds, policy, fee, hstage⟩ := hgood.query
      obtain ⟨record', hstored', hle⟩ := hfollows _ old hholds.stored
      rw [hbatch] at hstored'
      obtain rfl := Option.some.inj (hstored.symm.trans hstored')
      have hle' := hle.stage.trans hrank
      rw [hstage] at hle'
      exact absurd hle' (by simp)

end Rejected

/-! ## §3. Runs -/

/-- One preparation from the empty journal. -/
def sampleAttempt (refuses : Journal → WalletRpc → Bool) : ZecAttempt :=
  ⟨⟨.prepare, sampleRequest⟩, (samplePlay refuses .prepare).1,
    some (samplePlay refuses .prepare).2.2⟩

theorem sampleAttempt_rejected {refuses : Journal → WalletRpc → Bool}
    (h : (samplePlay refuses .prepare).2.2 = .error .walletRejected) :
    RejectedPrepare sampleConfig [] (sampleAttempt refuses) (samplePlay refuses .prepare).2.1 where
  runs := .cons (Exec.play (sampleScript_answers refuses) _ [] emptyJournal) (.nil _)
  commands := by simp [sampleAttempt]
  prepare := rfl
  rejected := ⟨.walletRejected, congrArg some h, rfl⟩

/-- The wallet refuses to create a transaction. -/
def refusesCreation (_ : Journal) (rpc : WalletRpc) : Bool :=
  match rpc with
  | .pcztCreate _ => true
  | _ => false

theorem zec_cancellation_safe_iff_creation :
    Cancellable [sampleAttempt refusesCreation] 1 (samplePlay refusesCreation .prepare).2.1 := by
  have hunsigned : ((samplePlay refusesCreation .prepare).1.all fun e =>
      (e.before 1).all (·.stage.signedPczt.isNone)) = true := by decide +kernel
  refine (zec_cancellation_safe_iff (sampleAttempt_rejected (by decide +kernel))).mpr ?_
  rintro ⟨s, rpc, failure, record, hmem, -, hstored, hsigned⟩
  have hnone : (s 1).all (·.stage.signedPczt.isNone) = true := List.all_eq_true.mp hunsigned _ hmem
  rw [show s 1 = some record from hstored] at hnone
  exact hsigned (Option.isNone_iff_eq_none.mp hnone)

/-- The wallet refuses to inspect the PCZT that it has signed. -/
def refusesSigned (s : Journal) (rpc : WalletRpc) : Bool :=
  match rpc with
  | .pcztInspect _ => (s 1).any fun record => record.stage.signedPczt.isSome
  | _ => false

/-- The preparation is rejected, and the journal holds the signed PCZT. -/
theorem zec_cancellation_late_refusal :
    RejectedPrepare sampleConfig [] (sampleAttempt refusesSigned)
        (samplePlay refusesSigned .prepare).2.1 ∧
      (∃ record ∈ (samplePlay refusesSigned .prepare).2.1 1,
        record.stage = .signed (ascii "pcztProvedSigned") fullPrivacy) ∧
      ¬ Cancellable [sampleAttempt refusesSigned] 1 (samplePlay refusesSigned .prepare).2.1 := by
  have hstage : ∃ record ∈ (samplePlay refusesSigned .prepare).2.1 1,
      record.stage = .signed (ascii "pcztProvedSigned") fullPrivacy :=
    Option.map_eq_some_iff.mp (by decide +kernel)
  refine ⟨sampleAttempt_rejected (by decide +kernel), hstage, fun hsafe => ?_⟩
  obtain ⟨record, hrecord, hsigned⟩ := hstage
  have hpczt := (hsafe.journal record hrecord).1
  rw [hsigned] at hpczt
  exact absurd hpczt (by simp)

end WcashPool.ZecSigner
