/-
  WcashPool.WecSigner.Cancellation — the pool may cancel a WEC batch whose
  preparation was rejected.

  The settlement cancels a batch, and so releases its liabilities, when
  `prepare` fails with an error of the class `Rejected`.  Along every history
  that only prepares, recovers and inspects, no record goes beyond the
  prepared stage (`Early`); so the error is the wallet's answer to the
  signature itself, on a record that is still reserved.

  Main result: `wec_cancellation_safe`.
-/
import WcashPool.Poold.Boundary
import WcashPool.WecSigner.Exactness

namespace WcashPool.WecSigner

open Fallible Protocol Store Portal Programs Durable Poold

/-! ## §1. Histories without a broadcast -/

/-- No record has gone beyond the prepared stage. -/
def WecState.Early (s : WecState) : Prop := All (fun record => record.stage.rank ≤ 1) s.journal

theorem WecState.Early.current {s : WecState} (h : s.Early) (batchId : Uuid) :
    s.Current batchId := by
  intro record hrecord artifact hsigned
  have hrank : record.stage.rank ≤ 1 := h batchId record hrecord
  rw [hsigned] at hrank
  exact absurd hrank (by simp [StoredStage.rank])

theorem Ordered.early {cfg : WecSignerConfig} {c : WecCommand} {es : List WecEvent}
    {s s' : WecState} {q : WecQuery} {answer : WecAnswer q} (hentry : c.entry ≠ .execute)
    (hs : s.Early) (h : Ordered cfg c es s q) (hanswer : wecAnswers s q answer s') : s'.Early := by
  unfold WecState.Early
  obtain hsame | ⟨record, hwritten, -, hearly⟩ := h.journal hanswer
  · rw [hsame]
    exact hs
  · rw [hwritten]
    exact All.put hs (hearly hentry)

/-! ## §2. Cancellation -/

theorem refusal_of_mapWecError {e : WecPayoutError} (h : mapWecError e = .rejected) :
    Refusal e := by
  cases e <;> first | exact absurd h (by decide) | decide

/-- **A rejected batch has no transaction.**  After any history of `prepare`, `recover_prepared`
    and `inspect_prepared` from an empty journal, where `prepare` fails with an error that the
    settlement takes as a rejection, neither the journal nor the wallet holds a signed transaction
    of the batch. -/
theorem wec_cancellation_safe (cfg : WecSignerConfig) {start final : WecState}
    {h : List WecAttempt} {attempt : WecAttempt} {e : WecPayoutError}
    (hstart : ∀ batchId, start.journal batchId = none)
    (hruns : WecRuns cfg start (h ++ [attempt]) final)
    (hcommands : ∀ a ∈ h ++ [attempt], a.command.entry ≠ .execute)
    (hprepare : attempt.command.entry = .prepare) (hresult : attempt.result = some (.error e))
    (hrejected : mapWecError e = .rejected) :
    (∀ record, final.journal attempt.command.request.batch.batchId = some record →
      record.stage.artifact = none) ∧
      final.wallet attempt.command.request.batch.batchId = none := by
  obtain ⟨mid, hfront, hlast⟩ := hruns.last
  have hearly : start.Early := fun batchId record hrecord =>
    absurd ((hstart batchId).symm.trans hrecord) (by simp)
  have hprog : ∀ (c : WecCommand) (s : WecState), AlwaysE wecWorld WecState.Early (Ordered cfg c)
      (perform cfg c) (fun _ _ _ => True) (fun _ s e => Refused c s e) [] s :=
    fun c s => Always.anti (perform_spec cfg c s) fun _ hs => hs.current _
  obtain ⟨hmid, -⟩ := hfront.sound (I := WecState.Early) (P := Ordered cfg) (·.entry ≠ .execute)
    (fun _ _ _ hother => hother.elim)
    (fun _ _ _ _ _ _ hentry hs hordered hanswer => hordered.early hentry hs hanswer)
    (fun c s _ _ => hprog c s) (fun a ha => hcommands a (List.mem_append_left _ ha)) hearly
  obtain ⟨hfinal, -, hpost⟩ := hlast.sound (I := WecState.Early) (P := Ordered cfg attempt.command)
    (fun _ _ _ hother => hother.elim)
    (fun _ _ _ _ _ hs hordered hanswer =>
      hordered.early (hcommands attempt (by simp)) hs hanswer) hmid (hprog attempt.command mid)
  have hrefused : Refused attempt.command final e := hpost _ hresult
  obtain ⟨record, hrecord, hreserved, hwallet⟩ | ⟨record, artifact, hrecord, hstage⟩ :=
    hrefused hprepare (refusal_of_mapWecError hrejected)
  · refine ⟨fun record' hrecord' => ?_, hwallet⟩
    obtain rfl := Option.some.inj (hrecord.symm.trans hrecord')
    rw [hreserved]
    rfl
  · have hrank : record.stage.rank ≤ 1 := hfinal _ record hrecord
    rw [hstage] at hrank
    exact absurd hrank (by simp [StoredStage.rank])

/-! ## §3. A run -/

/-- The wallet rejects the signature. -/
def rejectingScript (es : List WecEvent) (s : WecState) : (q : WecQuery) → WecAnswer q × WecState
  | .signExact call =>
    (.error .rejected, { s with wallet := fun b => if b = call.batchId then none else s.wallet b })
  | q => sampleScript es s q

theorem rejectingScript_answers (es : List WecEvent) (s : WecState) (q : WecQuery) :
    wecWorld.answers s q (rejectingScript es s q).1 (rejectingScript es s q).2 := by
  cases q with
  | signExact call => exact ⟨rfl, fun _ => if_pos rfl⟩
  | lock | load | store | checkpoint | readSeed | identity | recoverExact | inspectPersisted
  | broadcastExact => exact sampleScript_answers es s _

/-- One rejected preparation from the empty journal. -/
def rejectedPlay : List WecEvent × WecState × Except WecPayoutError WecResponse :=
  play rejectingScript (perform sampleConfig ⟨.prepare, sampleRequest⟩).run [] sampleStart

theorem wec_cancellation_safe_sample :
    rejectedPlay.2.2 = .error .walletRejected ∧ rejectedPlay.2.1.wallet 1 = none := by
  have hresult : rejectedPlay.2.2 = .error .walletRejected := by decide +kernel
  have hruns : WecRuns sampleConfig sampleStart
      ([] ++ [⟨⟨.prepare, sampleRequest⟩, rejectedPlay.1, some rejectedPlay.2.2⟩])
      rejectedPlay.2.1 :=
    .cons (Exec.play rejectingScript_answers _ [] sampleStart) (.nil _)
  exact ⟨hresult, (wec_cancellation_safe sampleConfig (fun _ => rfl) hruns (by simp) rfl
    (congrArg some hresult) rfl).2⟩

end WcashPool.WecSigner
