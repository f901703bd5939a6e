/-
  WcashPool.ZecSigner.Order — in which stage the ZEC signer asks for what.

  `Ordered` says in which stage each wallet call, write and submission may be
  asked for.  The programs of the pipeline meet it at every point that any
  sequence of answers can lead to, and a refusal is always a server error of
  the last wallet call or the rejected stage of the record (`Refused`).

  Main result: `perform_spec` — every entry point is in order.
-/
import WcashPool.ZecSigner.Turns

namespace WcashPool.ZecSigner

open Fallible Protocol Store Portal Programs Durable

/-! ## §1. Order -/

abbrev ZecEvent := Event Journal ZecQuery ZecAnswer

/-- The two errors that the pool takes as a final refusal. -/
def Refusal (e : ZecPayoutError) : Prop := e = .walletRejected ∨ e = .broadcastRejected

instance (e : ZecPayoutError) : Decidable (Refusal e) := inferInstanceAs (Decidable (_ ∨ _))

/-- The journal holds `record` for the batch of the request, bound to the request's facts. -/
structure Holds (journal : Journal) (request : ZecPayoutRequest) (validated : ValidatedRequest)
    (record : JournalRecord) : Prop where
  stored : journal request.batch.batchId = some record
  batch : record.batchId = request.batch.batchId
  binds : record.Binds validated

/-- In which stage each wallet call may be made. -/
def RpcOrder : WalletRpc → StoredStage → Prop
  | .pcztCreate _, stage => stage = .reserved
  | .getWalletStatus, stage | .getAccount _, stage | .getBalances _, stage
  | .exportViewingKey _, stage => ∃ pczt policy, stage = .created pczt policy
  | .pcztInspect pczt, stage => ∃ policy,
      stage = .created pczt policy ∨ stage = .proved pczt policy ∨ stage = .signed pczt policy
  | .pcztProve pczt, stage => ∃ policy, stage = .createdVerified pczt policy
  | .pcztSign pczt policy, stage => stage = .provedVerified pczt policy
  | .pcztExtract pczt, stage => ∃ policy fee, stage = .signedVerified pczt policy fee

/-- The wallet's inspection of `pczt` was accepted, with this fee. -/
def Inspected (cfg : ZecSignerConfig) (request : ZecPayoutRequest) (es : List ZecEvent)
    (pczt policy : Text) (requirement : ProofRequirement) (fee : ℕ) : Prop :=
  ∃ before inspected after,
    (⟨before, .wallet (.pcztInspect pczt), .ok (some inspected), after⟩ : ZecEvent) ∈ es ∧
    verifyInspection cfg request policy inspected requirement = .ok fee

/-- **Every verified stage rests on an inspection** with the recorded fee. -/
def InspectedFee (cfg : ZecSignerConfig) (request : ZecPayoutRequest) (es : List ZecEvent)
    (record : JournalRecord) : Prop :=
  match record.stage with
  | .createdVerified pczt policy => ∃ fee, record.consensusNetworkFeeZat = some fee ∧
      Inspected cfg request es pczt policy .mayBeMissing fee
  | .provedVerified pczt policy => ∃ fee, record.consensusNetworkFeeZat = some fee ∧
      Inspected cfg request es pczt policy .complete fee
  | .signedVerified pczt policy fee => record.consensusNetworkFeeZat = some fee ∧
      Inspected cfg request es pczt policy .complete fee
  | _ => True

/-- The first record of a batch is reserved; every later one is a turn of the loop. -/
def Advances (cfg : ZecSignerConfig) (request : ZecPayoutRequest) (record : JournalRecord) :
    Option JournalRecord → Prop
  | none => record.stage = .reserved ∧ record.consensusEffectsDigest = none ∧
      record.consensusNetworkFeeZat = none
  | some old => Turn cfg request old record

/-- **A write is in order.**  Only `execute` goes beyond a prepared record. -/
structure StoreOrder (cfg : ZecSignerConfig) (c : ZecCommand) (es : List ZecEvent)
    (journal : Journal) (record : JournalRecord) : Prop where
  advances : Advances cfg c.request record (journal record.batchId)
  inspected : InspectedFee cfg c.request es record
  entry : c.entry ≠ .execute → record.stage.rank ≤ 7

/-- Which queries are in order in which journal. -/
def Ordered (cfg : ZecSignerConfig) (c : ZecCommand) (es : List ZecEvent) (journal : Journal) :
    ZecQuery → Prop
  | .store record => StoreOrder cfg c es journal record
  | .wallet rpc => ∃ validated record, Holds journal c.request validated record ∧
      RpcOrder rpc record.stage
  | .sendRawTransaction raw => c.entry = .execute ∧ ∃ validated record txid fee,
      Holds journal c.request validated record ∧ record.stage = .broadcastUnresolved raw txid fee
  | _ => True

/-- What a refusal rests on: a server error of the wallet, or a rejection by the node. -/
def Refused (c : ZecCommand) (es : List ZecEvent) (journal : Journal) (e : ZecPayoutError) : Prop :=
  Refusal e →
    (∃ rpc failure, (⟨journal, .wallet rpc, .error failure, journal⟩ : ZecEvent) ∈ es ∧
      failure.isServer) ∨
    ∃ record txid, journal c.request.batch.batchId = some record ∧ record.stage = .rejected txid

theorem Refused.of_not {c : ZecCommand} {es : List ZecEvent} {journal : Journal}
    {e : ZecPayoutError} (h : ¬ Refusal e) : Refused c es journal e :=
  fun hrefusal => absurd hrefusal h

/-- The rule for one part of the pipeline. -/
abbrev Spec {α : Type} (cfg : ZecSignerConfig) (c : ZecCommand) (p : ZecM α)
    (ok : List ZecEvent → Journal → α → Prop) (es : List ZecEvent) (s : Journal) : Prop :=
  AlwaysE zecWorld (All (RecordOk cfg.external)) (Ordered cfg c) p ok (Refused c) es s

/-! ## §2. Checks -/

section Checks

/-- A check that never refuses. -/
abbrev Mild {α : Type} (x : Except ZecPayoutError α) : Prop := ErrorsIn (fun e => ¬ Refusal e) x

variable {cfg : ZecSignerConfig} (record : JournalRecord) (ext : ZecExternal) (pczt : Text)
  (network : NetworkType) (outputs : List PayoutOutput) (wallet : WalletContext)

@[simp] theorem record_validate_mild : Mild record.validate := by
  have hstage : Mild record.stage.validate := by
    cases record.stage <;>
      simp +decide [StoredStage.validate, validateRawTransaction, validateTransactionId]
  simp +decide [JournalRecord.validate, hstage, -StoredStage.networkFeeZat, -StoredStage.unverified]

theorem record_check_mild (batchId : Uuid) (record : JournalRecord) :
    Mild (record.check batchId) := by
  simp +decide [JournalRecord.check]

@[simp] theorem parsePczt_mild : Mild (parsePczt ext pczt) := by
  simp +decide [parsePczt, validatePczt]

@[simp] theorem pcztV2CoinType_mild : Mild (pcztV2CoinType ext pczt) := by
  simp +decide [pcztV2CoinType]

@[simp] theorem consensusEffectsDigestFromPczt_mild (pczt : Pczt) :
    Mild (consensusEffectsDigestFromPczt ext pczt) := by
  simp +decide [consensusEffectsDigestFromPczt]

theorem extractableConsensusTxid_mild : Mild (extractableConsensusTxid ext pczt) := by
  simp +decide [extractableConsensusTxid]

theorem matchTransparent_mild (acc : List Bool × ℕ) (output : PcztTransparentOutput) :
    Mild (matchTransparent ext network outputs acc output) := by
  simp +decide [matchTransparent, decodeDestinationForNetwork, checkedAdd]

theorem verifyAction_mild (acc : IronwoodTotals) (action : IronwoodAction) :
    Mild (verifyAction ext network outputs wallet acc action) := by
  unfold verifyAction verifyOutput verifySpend verifyIronwoodCiphertext
  cases action.userAddress <;> simp +decide [checkedAdd]

/-- The verification of a created PCZT is no refusal. -/
theorem verifyCreatedPczt_mild (batch : PayoutBatchRequest) (policy : Text) :
    Mild (verifyCreatedPczt ext network batch policy pczt wallet) := by
  have houtputs := ErrorsIn.foldlM (matchTransparent_mild ext network batch.outputs)
  have hactions := ErrorsIn.foldlM (verifyAction_mild ext network batch.outputs wallet)
  simp +decide [verifyCreatedPczt, verifyEffects, verifyGlobal, verifyProprietary, verifySources,
    effectsFee, houtputs, hactions]

theorem verifyConsensusEffects_mild : Mild (verifyConsensusEffects cfg record pczt) := by
  simp +decide [verifyConsensusEffects, consensusEffectsDigest]

theorem signingIdentity_mild (account : WalletAccount) :
    Mild (WalletAccount.signingIdentity cfg account) := by
  have haddress : Mild (collectorAddress cfg account) := by
    unfold collectorAddress
    split <;> simp +decide
  simp +decide [WalletAccount.signingIdentity, haddress, decodeDestinationForNetwork]

theorem requireNoLegacyOrchard_mild (balances : List WalletAccountBalance) (account : Uuid) :
    Mild (requireNoLegacyOrchard balances account) := by
  unfold requireNoLegacyOrchard
  split <;> simp +decide

theorem viewingKey_mild (identity : WalletSigningIdentity) (encodedUfvk : Text) :
    Mild (viewingKey cfg identity encodedUfvk) := by
  simp +decide [viewingKey]

theorem verifyInspection_mild (request : ZecPayoutRequest) (policy : Text)
    (inspected : InspectResult) (requirement : ProofRequirement) :
    Mild (verifyInspection cfg request policy inspected requirement) := by
  simp +decide [verifyInspection, verifyShape]

theorem validateAgainst_mild (extracted : ExtractResult) (approved : Text) :
    Mild (ExtractResult.validateAgainst ext extracted approved) := by
  simp +decide [ExtractResult.validateAgainst]

theorem execution_mild (txid raw : Text) (fee : ℕ) : Mild (execution record txid raw fee) := by
  simp +decide [execution]

theorem validateRequest_mild (request : ZecPayoutRequest) : Mild (validateRequest cfg request) := by
  simp +decide [validateRequest]

end Checks

/-! ## §3. Calls and writes -/

def Silent : ZecQuery → Prop
  | .store _ => False
  | .wallet _ => False
  | .sendRawTransaction _ => False
  | _ => True

theorem Silent.ordered {cfg : ZecSignerConfig} {c : ZecCommand} {es : List ZecEvent} {s : Journal}
    {q : ZecQuery} (hq : Silent q) : Ordered cfg c es s q := by
  cases q <;> first | exact hq.elim | trivial

/-- A silent query leaves the journal alone. -/
theorem Silent.journal {s s' : Journal} {q : ZecQuery} {answer : ZecAnswer q} (hq : Silent q)
    (h : zecAnswers s q answer s') : s' = s := by
  cases q with
  | load batchId => exact h.2
  | walletConfiguration | lock | checkpoint => exact h
  | store | wallet | sendRawTransaction => exact hq.elim

section Parts

variable {cfg : ZecSignerConfig} {c : ZecCommand} {validated : ValidatedRequest}
  {record : JournalRecord} {es : List ZecEvent} {s : Journal}

/-- A part that is silent and never refuses. -/
abbrev Harmless {α : Type} (p : ZecM α) : Prop := UsesE Silent (fun e => ¬ Refusal e) p.run

variable {α : Type} {new : JournalRecord}

/-- A harmless part keeps the journal. -/
theorem Harmless.spec {p : ZecM α} (h : Harmless p) :
    Spec cfg c p (fun es' s' _ => es <+: es' ∧ s' = s) es s := by
  have hrule : AlwaysE zecWorld (All (RecordOk cfg.external)) (Ordered cfg c) p
      (fun es' s' _ => es <+: es' ∧ s' = s) (fun _ s' e => s' = s ∧ ¬ Refusal e) es s :=
    AlwaysE.of_uses h (fun _ _ _ _ hq => hq.ordered)
      (fun _ _ _ _ ht hq hanswer => (hq.journal hanswer).trans ht)
      (fun _ _ _ hother => hother.elim) rfl
  exact hrule.mono (fun _ _ _ _ hok => hok) (fun _ _ _ _ herr => .of_not herr.2)

theorem checkpoint_harmless (p : Checkpoint) : Harmless (checkpoint p) :=
  .ask trivial fun _ => .rejectIf (by decide)

/-- A check that never refuses asks nothing. -/
theorem check_spec {x : Except ZecPayoutError α} (h : Mild x) :
    Spec cfg c (check x) (fun es' s' a => es' = es ∧ s' = s ∧ x = .ok a) es s :=
  AlwaysE.lift_quiet zecWorld_quiet (fun _ ha _ => ⟨rfl, rfl, ha⟩) fun e he _ => .of_not (h e he)

/-- A part of which no more is said than that it is in order. -/
abbrev InOrder {α : Type} (cfg : ZecSignerConfig) (c : ZecCommand) (p : ZecM α)
    (es : List ZecEvent) (s : Journal) : Prop := Spec cfg c p (fun _ _ _ => True) es s

/-- A pure check at the end of a program. -/
theorem last_check {x : Except ZecPayoutError α} (h : Mild x) :
    InOrder cfg c (check x) es s := (check_spec h).imp fun _ _ _ _ _ => trivial

/-- A wallet call is recorded, and its refusal is a server error. -/
theorem walletCall_spec {rpc : WalletRpc} (hholds : Holds s c.request validated record)
    (hrpc : RpcOrder rpc record.stage) :
    Spec cfg c (walletCall rpc)
      (fun es' s' result => es' = es ++ [⟨s, .wallet rpc, .ok (some result), s⟩] ∧ s' = s) es s := by
  refine AlwaysE.ask_quiet zecWorld_quiet (fun _ => ⟨validated, record, hholds, hrpc⟩) ?_ ?_
  · intro answer s' result hanswer _ hok
    obtain rfl : s' = s := hanswer
    obtain ⟨value, hvalue, hresult⟩ := bind_eq_ok.mp hok
    rw [mapError_eq_ok.mp hvalue, orReject_eq_ok.mp hresult]
    exact ⟨rfl, rfl⟩
  · intro answer s' e hanswer _ herror hrefusal
    obtain rfl : s' = s := hanswer
    obtain hfailed | ⟨value, -, habsent⟩ := bind_eq_error.mp herror
    · cases answer with
      | ok value => exact absurd hfailed (by simp [Except.mapError])
      | error failure =>
        obtain rfl : walletFailure failure = e := Except.error.inj hfailed
        refine .inl ⟨rpc, failure, by simp, ?_⟩
        by_contra hserver
        exact absurd hrefusal (by simp [walletFailure, hserver, Refusal])
    · exact absurd hrefusal ((orReject_eq_error.mp habsent).2 ▸ by decide)

section Steps

variable {α β : Type} {ok : List ZecEvent → Journal → β → Prop}

/-- A check and what follows it. -/
theorem check_then {x : Except ZecPayoutError α} {f : α → ZecM β} (h : Mild x)
    (hrest : ∀ a, x = .ok a → Spec cfg c (f a) ok es s) : Spec cfg c (check x >>= f) ok es s := by
  refine AlwaysE.seq (check_spec h) ?_
  rintro _ _ a - ⟨rfl, rfl, hx⟩
  exact hrest a hx

/-- A guard and what follows it. -/
theorem guard_then {bad : Prop} [Decidable bad] {e : ZecPayoutError} {rest : ZecM β}
    (he : ¬ Refusal e) (hrest : ¬ bad → Spec cfg c rest ok es s) :
    Spec cfg c (do check (rejectIf bad e); rest) ok es s :=
  check_then (.rejectIf he) fun _ h => hrest (rejectIf_eq_ok.mp h)

/-- A checkpoint and what follows it. -/
theorem checkpoint_then {p : Checkpoint} {rest : ZecM β}
    (hrest : ∀ es', es <+: es' → Spec cfg c rest ok es' s) :
    Spec cfg c (do checkpoint p; rest) ok es s := by
  refine AlwaysE.seq (checkpoint_harmless p).spec ?_
  rintro es' _ _ - ⟨hes, rfl⟩
  exact hrest es' hes

/-- A wallet call in order, and what follows it. -/
theorem walletCall_then {rpc : WalletRpc} {f : WalletResult rpc → ZecM β}
    (hholds : Holds s c.request validated record) (hrpc : RpcOrder rpc record.stage)
    (hrest : ∀ result,
      Spec cfg c (f result) ok (es ++ [⟨s, .wallet rpc, .ok (some result), s⟩]) s) :
    Spec cfg c (walletCall rpc >>= f) ok es s := by
  refine AlwaysE.seq (walletCall_spec hholds hrpc) ?_
  rintro _ _ result - ⟨rfl, rfl⟩
  exact hrest result

end Steps

/-- A write in order leaves the record in the journal. -/
theorem persist_spec (horder : StoreOrder cfg c es s new) :
    Spec cfg c (persist new) (fun _ s' _ => s' = s.write new) es s := by
  refine AlwaysE.bind (AlwaysE.ask_quiet zecWorld_quiet (fun _ => horder) ?_ ?_)
  · intro answer s' u hanswer _ hok
    obtain rfl : answer = .ok u := hok
    have hstored : s' = s.write new := WriteAnswer.of_ok hanswer
    exact (checkpoint_harmless _).spec.imp fun _ _ _ _ h => h.2.trans hstored
  · intro answer s' e hanswer _ herror
    obtain rfl : answer = .error e := herror
    refine .of_not ?_
    obtain hinvalid | rfl := WriteAnswer.of_error hanswer
    · exact record_validate_mild new e hinvalid
    · decide

/-- Writing the next stage of a held record. -/
theorem persist_turn_spec (hholds : Holds s c.request validated record)
    (hturn : Turn cfg c.request record new) (hinspected : InspectedFee cfg c.request es new)
    (hentry : c.entry ≠ .execute → new.stage.rank ≤ 7) :
    Spec cfg c (persist new) (fun _ s' _ => Holds s' c.request validated new) es s := by
  obtain ⟨hbatch, hpipeline, hportal, htotal⟩ := hturn.bound
  have hnew : new.batchId = c.request.batch.batchId := hbatch.trans hholds.batch
  have horder : StoreOrder cfg c es s new := by
    refine ⟨?_, hinspected, hentry⟩
    rw [hnew, hholds.stored]
    exact hturn
  refine (persist_spec horder).imp fun _ s' _ _ hput => ⟨?_, hnew, ?_⟩
  · rw [hput, ← hnew]
    exact put_self s new.batchId new
  · rw [JournalRecord.Binds, hpipeline, hportal, htotal]
    exact hholds.binds

/-- A load reads the journal and leaves it alone. -/
theorem loadJournal_spec (batchId : Uuid) :
    Spec cfg c (loadJournal batchId) (fun _ s' loaded => s' = s ∧ s.load batchId = .ok loaded)
      es s := by
  refine AlwaysE.ask_quiet zecWorld_quiet (fun _ => trivial) ?_ ?_
  · intro answer s' loaded hanswer _ hok
    obtain rfl : answer = .ok loaded := hok
    obtain ⟨hload | hload | hload, hs'⟩ := hanswer
    · exact ⟨hs', hload.symm⟩
    · cases hload
    · cases hload
  · intro answer s' e hanswer _ herror
    obtain rfl : answer = .error e := herror
    refine .of_not ?_
    obtain ⟨hload | hload | hload, -⟩ := hanswer
    · exact load_errors (record_check_mild batchId) s e hload.symm
    · exact Except.error.inj hload ▸ by decide
    · exact Except.error.inj hload ▸ by decide

/-- The record to continue from is the one that the journal holds. -/
theorem loadOrReserve_spec :
    Spec cfg c (loadOrReserve c.request validated)
      (fun _ s' record => Holds s' c.request validated record) es s := by
  refine AlwaysE.seq (loadJournal_spec _) ?_
  rintro es' s' loaded - ⟨rfl, hload⟩
  cases loaded with
  | none =>
    have hnone : s' c.request.batch.batchId = none := load_eq_none hload
    refine AlwaysE.seq (persist_spec ⟨?_, trivial, fun _ => Nat.zero_le 7⟩) ?_
    · show Advances cfg c.request _ (s' c.request.batch.batchId)
      rw [hnone]
      exact ⟨rfl, rfl, rfl⟩
    · intro _ s'' _ _ hput
      refine AlwaysE.pure_quiet zecWorld_quiet fun _ => ⟨?_, rfl, ⟨rfl, rfl, rfl⟩⟩
      rw [hput]
      exact put_self s' _ _
  | some record =>
    obtain ⟨hstored, hcheck⟩ := load_eq_some hload
    have hbatch := record.batchId_of_check hcheck
    refine guard_then (by decide) fun hbinds => ?_
    rw [not_not] at hbinds
    exact AlwaysE.pure_quiet zecWorld_quiet fun _ => ⟨hstored, hbatch, hbinds⟩

/-! ## §4. The turns -/

section Turns

variable {pczt policy : Text} (hholds : Holds s c.request validated record)

include hholds

/-- An accepted inspection stands in the log, with its fee. -/
theorem inspectPczt_spec {stage : PipelineStage}
    {requirement : ProofRequirement} (hrpc : RpcOrder (.pcztInspect pczt) record.stage) :
    Spec cfg c (inspectPczt cfg c.request pczt policy stage requirement) (fun es' s' fee =>
      s' = s ∧ Inspected cfg c.request es' pczt policy requirement fee) es s := by
  refine walletCall_then hholds hrpc fun inspected => ?_
  refine checkpoint_then fun es' hes => ?_
  refine (check_spec (verifyInspection_mild c.request policy inspected requirement)).imp ?_
  rintro _ _ fee - ⟨rfl, rfl, hfee⟩
  exact ⟨rfl, _, inspected, _, hes.subset (List.mem_append_right _ List.mem_cons_self), hfee⟩

/-- The calls for the wallet's context change nothing. -/
theorem walletContext_spec (hstage : record.stage = .created pczt policy) :
    Spec cfg c (walletContext cfg) (fun _ s' _ => s' = s) es s := by
  have hcreated : ∃ pczt policy, record.stage = .created pczt policy := ⟨_, _, hstage⟩
  refine walletCall_then hholds hcreated fun status => ?_
  refine guard_then (by decide) fun _ => ?_
  refine walletCall_then hholds hcreated fun account => ?_
  refine check_then (signingIdentity_mild account) fun identity _ => ?_
  refine walletCall_then hholds hcreated fun balances => ?_
  refine check_then (requireNoLegacyOrchard_mild balances _) fun _ _ => ?_
  refine walletCall_then hholds hcreated fun encodedUfvk => ?_
  refine check_then (viewingKey_mild identity encodedUfvk) fun _ _ => ?_
  exact AlwaysE.pure_quiet zecWorld_quiet fun _ => rfl

/-- A turn ends with its write. -/
theorem persist_then_pure {a : α} {ok : List ZecEvent → Journal → α → Prop}
    (hturn : Turn cfg c.request record new) (hinspected : InspectedFee cfg c.request es new)
    (hrank : new.stage.rank ≤ 7) (hok : ∀ es' s', Holds s' c.request validated new → ok es' s' a) :
    Spec cfg c (do persist new; pure a) ok es s :=
  AlwaysE.seq (persist_turn_spec hholds hturn hinspected fun _ => hrank) fun _ _ _ _ hholds' =>
    AlwaysE.pure_quiet zecWorld_quiet fun _ => hok _ _ hholds'

/-- `Reserved` becomes `Created`. -/
theorem turnReserved_spec (hstage : record.stage = .reserved) :
    Spec cfg c (turnReserved cfg c.request record) (fun _ s' created =>
      Holds s' c.request validated (record.at (.created created.pczt created.privacyPolicy)))
      es s := by
  refine walletCall_then hholds hstage fun created => ?_
  refine checkpoint_then fun _ _ => ?_
  refine guard_then (by decide) fun _ => ?_
  refine guard_then (by decide) fun _ => ?_
  exact persist_then_pure hholds (.create hstage _ _) trivial
    (by simp) fun _ _ h => h

/-- `Created` becomes `CreatedVerified`, with the verified effects. -/
theorem turnCreated_spec (hstage : record.stage = .created pczt policy) :
    Spec cfg c (turnCreated cfg c.request record pczt policy) (fun _ s' effects =>
      Holds s' c.request validated (record.verified effects pczt policy)) es s := by
  refine AlwaysE.seq (walletContext_spec hholds hstage) ?_
  rintro _ _ wallet - rfl
  refine check_then (verifyCreatedPczt_mild _ _ _ _ _ _) fun effects heffects => ?_
  refine AlwaysE.seq (inspectPczt_spec hholds ⟨policy, .inl hstage⟩) ?_
  rintro _ _ fee - ⟨rfl, hinspected⟩
  refine guard_then (by decide) fun hfee => ?_
  rw [not_not] at hfee
  exact persist_then_pure hholds (.verify hstage wallet heffects)
    ⟨fee, congrArg some hfee.symm, hinspected⟩ (by simp)
    fun _ _ h => h

/-- `CreatedVerified` becomes `Proved`. -/
theorem turnCreatedVerified_spec (hstage : record.stage = .createdVerified pczt policy) :
    Spec cfg c (turnCreatedVerified cfg record pczt policy) (fun _ s' proved =>
      Holds s' c.request validated (record.at (.proved proved policy))) es s := by
  refine check_then (verifyConsensusEffects_mild record pczt) fun _ _ => ?_
  refine walletCall_then hholds ⟨policy, hstage⟩ fun proved => ?_
  refine checkpoint_then fun _ _ => ?_
  refine guard_then (by decide) fun _ => ?_
  refine check_then (verifyConsensusEffects_mild record proved) fun _ heffects => ?_
  exact persist_then_pure hholds (.prove hstage heffects) trivial
    (by simp) fun _ _ h => h

/-- `Proved` becomes `ProvedVerified`. -/
theorem turnProved_spec (hstage : record.stage = .proved pczt policy) :
    Spec cfg c (turnProved cfg c.request record pczt policy) (fun _ s' _ =>
      Holds s' c.request validated (record.at (.provedVerified pczt policy))) es s := by
  refine check_then (verifyConsensusEffects_mild record pczt) fun _ _ => ?_
  refine AlwaysE.seq (inspectPczt_spec hholds ⟨policy, .inr (.inl hstage)⟩) ?_
  rintro _ _ fee - ⟨rfl, hinspected⟩
  refine guard_then (by decide) fun hfee => ?_
  rw [not_not] at hfee
  exact persist_turn_spec hholds (.verifyProof hstage) ⟨fee, hfee.symm, hinspected⟩ fun _ => by
    simp

/-- `ProvedVerified` becomes `Signed`. -/
theorem turnProvedVerified_spec (hstage : record.stage = .provedVerified pczt policy) :
    Spec cfg c (turnProvedVerified cfg record pczt policy) (fun _ s' signed =>
      Holds s' c.request validated (record.at (.signed signed policy))) es s := by
  refine check_then (verifyConsensusEffects_mild record pczt) fun _ _ => ?_
  refine walletCall_then hholds hstage fun signed => ?_
  refine checkpoint_then fun _ _ => ?_
  refine guard_then (by decide) fun _ => ?_
  refine guard_then (by decide) fun _ => ?_
  refine check_then (verifyConsensusEffects_mild record _) fun _ heffects => ?_
  exact persist_then_pure hholds (.sign hstage heffects) trivial
    (by simp) fun _ _ h => h

/-- `Signed` becomes `SignedVerified`, with the network fee. -/
theorem turnSigned_spec (hstage : record.stage = .signed pczt policy) :
    Spec cfg c (turnSigned cfg c.request record pczt policy) (fun _ s' fee =>
      Holds s' c.request validated (record.at (.signedVerified pczt policy fee))) es s := by
  refine check_then (verifyConsensusEffects_mild record pczt) fun _ _ => ?_
  refine AlwaysE.seq (inspectPczt_spec hholds ⟨policy, .inr (.inr hstage)⟩) ?_
  rintro _ _ fee - ⟨rfl, hinspected⟩
  refine guard_then (by decide) fun hfee => ?_
  rw [not_not] at hfee
  exact persist_then_pure hholds (.verifySignature hstage hfee.symm) ⟨hfee.symm, hinspected⟩
    (by simp) fun _ _ h => h

/-- `SignedVerified` becomes `Prepared`. -/
theorem turnSignedVerified_spec {fee : ℕ}
    (hstage : record.stage = .signedVerified pczt policy fee) :
    Spec cfg c (turnSignedVerified cfg record pczt fee) (fun _ s' extracted =>
      Holds s' c.request validated (record.at (.prepared extracted.hex extracted.txid fee)))
      es s := by
  refine check_then (verifyConsensusEffects_mild record pczt) fun _ _ => ?_
  refine check_then (extractableConsensusTxid_mild _ pczt) fun approved happroved => ?_
  refine walletCall_then hholds ⟨policy, fee, hstage⟩ fun extracted => ?_
  refine checkpoint_then fun _ _ => ?_
  refine check_then (validateAgainst_mild _ extracted approved) fun _ hvalid => ?_
  exact persist_then_pure hholds (.extract hstage happroved hvalid) trivial
    (by simp) fun _ _ h => h

end Turns

/-! ## §5. The loop -/

section Loop

variable {submit : Bool} {raw txid pczt policy : Text} {fee : ℕ}

/-- Each answer of the node leads to a stage that may follow the unresolved one. -/
theorem settleBroadcast_spec (hexecute : c.entry = .execute)
    (hholds : Holds s c.request validated record)
    (hstage : record.stage = .broadcastUnresolved raw txid fee) (outcome : BroadcastOutcome) :
    InOrder cfg c (settleBroadcast record raw txid fee outcome) es s := by
  -- the write of the outcome, after its checkpoint
  have hwrite : ∀ {α : Type} {p : Checkpoint} {new : JournalRecord} {rest : ZecM α},
      Turn cfg c.request record new → (∀ es, InspectedFee cfg c.request es new) →
      (∀ es s, Holds s c.request validated new → InOrder cfg c rest es s) →
      InOrder cfg c (do checkpoint p; persist new; rest) es s := by
    intro α p new rest hturn hinspected hrest
    refine checkpoint_then fun es' _ => ?_
    refine AlwaysE.seq (persist_turn_spec hholds hturn (hinspected es')
      fun hentry => absurd hexecute hentry) ?_
    exact fun _ _ _ _ hholds' => hrest _ _ hholds'
  cases outcome with
  | accepted =>
    exact hwrite (.complete hstage) (fun _ => trivial) fun _ _ _ =>
      last_check (execution_mild _ _ _ _)
  | alreadyKnown =>
    exact hwrite (.complete hstage) (fun _ => trivial) fun _ _ _ =>
      last_check (execution_mild _ _ _ _)
  | rejected =>
    exact hwrite (.reject hstage) (fun _ => trivial) fun _ _ hholds' =>
      AlwaysE.throw_quiet zecWorld_quiet fun _ _ => .inr ⟨_, txid, hholds'.stored, rfl⟩
  | ambiguous =>
    exact hwrite (.retry hstage) (fun _ => trivial) fun _ _ _ =>
      AlwaysE.throw_quiet zecWorld_quiet fun _ => .of_not (by decide)

variable (hsubmit : submit = true → c.entry = .execute)
  (hholds : Holds s c.request validated record)

include hsubmit hholds

/-- Only an execution sends an unresolved transaction. -/
theorem fromUnresolved_spec (hstage : record.stage = .broadcastUnresolved raw txid fee) :
    InOrder cfg c (fromUnresolved submit record raw txid fee) es s := by
  unfold fromUnresolved
  split
  · next h =>
    refine AlwaysE.bind (AlwaysE.ask_quiet zecWorld_quiet
      (fun _ => ⟨hsubmit h, validated, record, txid, fee, hholds, hstage⟩) ?_ ?_)
    · intro answer s' outcome hanswer _ _
      obtain rfl : s' = s := hanswer
      exact settleBroadcast_spec (hsubmit h) hholds hstage outcome
    · intro answer s' e _ _ herror
      cases herror
  · exact last_check (execution_mild _ _ _ _)

/-- Only an execution goes past a prepared record. -/
theorem fromPrepared_spec (hstage : record.stage = .prepared raw txid fee) :
    InOrder cfg c (fromPrepared submit record raw txid fee) es s := by
  unfold fromPrepared
  split
  · next h =>
    refine AlwaysE.seq (persist_turn_spec hholds (.submit hstage) trivial
      fun hentry => absurd (hsubmit h) hentry) ?_
    exact fun _ _ _ _ hholds' => fromUnresolved_spec hsubmit hholds' rfl
  · exact last_check (execution_mild _ _ _ _)

theorem fromSignedVerified_spec (hstage : record.stage = .signedVerified pczt policy fee) :
    InOrder cfg c (fromSignedVerified cfg submit record pczt fee) es s :=
  AlwaysE.seq (turnSignedVerified_spec hholds hstage) fun _ _ _ _ hholds' =>
    fromPrepared_spec hsubmit hholds' rfl

theorem fromSigned_spec (hstage : record.stage = .signed pczt policy) :
    InOrder cfg c (fromSigned cfg c.request submit record pczt policy) es s :=
  AlwaysE.seq (turnSigned_spec hholds hstage) fun _ _ _ _ hholds' =>
    fromSignedVerified_spec hsubmit hholds' rfl

theorem fromProvedVerified_spec (hstage : record.stage = .provedVerified pczt policy) :
    InOrder cfg c (fromProvedVerified cfg c.request submit record pczt policy) es s :=
  AlwaysE.seq (turnProvedVerified_spec hholds hstage) fun _ _ _ _ hholds' =>
    fromSigned_spec hsubmit hholds' rfl

theorem fromProved_spec (hstage : record.stage = .proved pczt policy) :
    InOrder cfg c (fromProved cfg c.request submit record pczt policy) es s :=
  AlwaysE.seq (turnProved_spec hholds hstage) fun _ _ _ _ hholds' =>
    fromProvedVerified_spec hsubmit hholds' rfl

theorem fromCreatedVerified_spec (hstage : record.stage = .createdVerified pczt policy) :
    InOrder cfg c (fromCreatedVerified cfg c.request submit record pczt policy) es s :=
  AlwaysE.seq (turnCreatedVerified_spec hholds hstage) fun _ _ _ _ hholds' =>
    fromProved_spec hsubmit hholds' rfl

theorem fromCreated_spec (hstage : record.stage = .created pczt policy) :
    InOrder cfg c (fromCreated cfg c.request submit record pczt policy) es s :=
  AlwaysE.seq (turnCreated_spec hholds hstage) fun _ _ _ _ hholds' =>
    fromCreatedVerified_spec hsubmit hholds' rfl

theorem fromReserved_spec (hstage : record.stage = .reserved) :
    InOrder cfg c (fromReserved cfg c.request submit record) es s :=
  AlwaysE.seq (turnReserved_spec hholds hstage) fun _ _ _ _ hholds' =>
    fromCreated_spec hsubmit hholds' rfl

/-- **The loop**, from any stage of a held record. -/
theorem executeStage_spec :
    InOrder cfg c (executeStage cfg c.request submit record) es s := by
  unfold executeStage
  split
  · next hstage => exact fromReserved_spec hsubmit hholds hstage
  · next hstage => exact fromCreated_spec hsubmit hholds hstage
  · next hstage => exact fromCreatedVerified_spec hsubmit hholds hstage
  · next hstage => exact fromProved_spec hsubmit hholds hstage
  · next hstage => exact fromProvedVerified_spec hsubmit hholds hstage
  · next hstage => exact fromSigned_spec hsubmit hholds hstage
  · next hstage => exact fromSignedVerified_spec hsubmit hholds hstage
  · next hstage => exact fromPrepared_spec hsubmit hholds hstage
  · next hstage =>
    exact AlwaysE.of_invariant_quiet zecWorld_quiet fun hok =>
      absurd hstage ((hok _ _ hholds.stored).current _ _ _)
  · next hstage => exact fromUnresolved_spec hsubmit hholds hstage
  · next txid hstage =>
    exact AlwaysE.throw_quiet zecWorld_quiet fun _ _ => .inr ⟨record, txid, hholds.stored, hstage⟩
  · exact last_check (execution_mild _ _ _ _)

end Loop

/-! ## §6. Entry points -/

/-- Both executions are in order. -/
theorem executeLocked_spec {submit : Bool} (hsubmit : submit = true → c.entry = .execute) :
    InOrder cfg c (executeLocked cfg c.request validated submit) es s :=
  AlwaysE.seq loadOrReserve_spec fun _ _ _ _ hholds => executeStage_spec hsubmit hholds

/-- A recovery refuses only a rejected record. -/
theorem recoverRecord_spec (hholds : Holds s c.request validated record) :
    InOrder cfg c (check (recoverRecord record)) es s := by
  refine AlwaysE.lift_quiet zecWorld_quiet (fun _ _ _ => trivial) fun e he _ hrefusal => ?_
  unfold recoverRecord at he
  split at he
  case h_5 txid hstage => exact .inr ⟨record, txid, hholds.stored, hstage⟩
  case h_1 | h_2 | h_3 | h_4 =>
    exact absurd hrefusal (ErrorsIn.bind (execution_mild _ _ _ _) (fun _ => errorsIn_ok _) e he)
  all_goals cases he

/-- A recovery is in order. -/
theorem recoverLocked_spec :
    InOrder cfg c (recoverLocked c.request validated) es s := by
  refine AlwaysE.seq (loadJournal_spec _) ?_
  rintro es' s' loaded - ⟨rfl, hload⟩
  cases loaded with
  | none => exact AlwaysE.pure_quiet zecWorld_quiet fun _ => trivial
  | some record =>
    obtain ⟨hstored, hcheck⟩ := load_eq_some hload
    have hbatch := record.batchId_of_check hcheck
    refine guard_then (by decide) fun hbinds => ?_
    rw [not_not] at hbinds
    exact recoverRecord_spec ⟨hstored, hbatch, hbinds⟩

/-- **Each entry point under the lock** is in order. -/
theorem locked_spec : InOrder cfg c (locked cfg c validated) es s := by
  have hanswer : ∀ (response : ZecResponse) (es : List ZecEvent) (s : Journal),
      InOrder cfg c (pure response) es s :=
    fun _ _ _ => AlwaysE.pure_quiet zecWorld_quiet fun _ => trivial
  unfold locked
  split
  · next hentry => exact AlwaysE.seq (executeLocked_spec fun _ => hentry) fun _ _ _ _ _ => hanswer _ _ _
  · exact AlwaysE.seq (executeLocked_spec fun h => absurd h (by simp)) fun _ _ _ _ _ => hanswer _ _ _
  · exact AlwaysE.seq recoverLocked_spec fun _ _ _ _ _ => hanswer _ _ _

end Parts

/-- **Every entry point is in order**, and rests its refusals on an answer. -/
theorem perform_spec (cfg : ZecSignerConfig) (c : ZecCommand) (s : Journal) :
    InOrder cfg c (perform cfg c) [] s := by
  have hconfiguration : Harmless validateWalletConfiguration :=
    .ask trivial fun _ => .rejectIf (by decide)
  have hlock : Harmless lockJournal := .ask trivial fun _ => .rejectIf (by decide)
  refine AlwaysE.seq hconfiguration.spec fun _ _ _ _ _ => ?_
  refine AlwaysE.seq (last_check (validateRequest_mild c.request)) fun _ _ _ _ _ => ?_
  exact AlwaysE.seq hlock.spec fun _ _ _ _ _ => locked_spec

end WcashPool.ZecSigner
