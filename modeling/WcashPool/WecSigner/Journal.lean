/-
  WcashPool.WecSigner.Journal — what the WEC payout signer writes down
  (`JournalRecord`, `StoredStage`, `Journal::load`, `Journal::store`).

  One record per batch: the commitments that the batch is bound to and the
  stage it has reached.  From the second stage on the record holds the exact
  signed transaction.  A record is checked when it is read and when it is
  written.

  `RecordLe` is the order in which records may follow one another: the
  commitments stay, the stage only moves forward, the transaction stays.
-/
import WcashPool.Lib.Durable
import WcashPool.Portal.Signer

namespace WcashPool.WecSigner

open Fallible Protocol Store Portal Durable

/-! ## §1. Errors -/

inductive WecPayoutError
  | invalidRequest
  | wrongAsset
  | wrongNetwork
  | wrongAccount
  | wrongFundSource
  | unsafeCredential
  | idempotencyConflict
  | journalUnavailable
  | journalCorrupt
  | walletUnavailable
  | walletRejected
  | walletProtocolViolation
  | walletAmbiguous
  | broadcastRejected
  | broadcastAmbiguous
  | interrupted
deriving DecidableEq, Repr

/-! ## §2. Records -/

def maxRawTransactionHexBytes : ℕ := 4 * 1024 * 1024

def validTransactionId (value : Text) : Prop := value.length = 64 ∧ value.all isLowerHex

def validRawTransaction (value : Text) : Prop :=
  value ≠ [] ∧ value.length ≤ maxRawTransactionHexBytes ∧ value.length % 2 = 0 ∧
    value.all isLowerHex

instance (value : Text) : Decidable (validTransactionId value) :=
  inferInstanceAs (Decidable (_ ∧ _))

instance (value : Text) : Decidable (validRawTransaction value) :=
  inferInstanceAs (Decidable (_ ∧ _ ∧ _ ∧ _))

/-- A signed transaction with the facts that the wallet verified about it. -/
structure StoredArtifact where
  rawTransactionHex : Text
  transactionId : Text
  unsignedDigest : Hex32
  feeZat : ℕ
  targetHeight : ℕ
  expiryHeight : ℕ
deriving DecidableEq, Repr

def StoredArtifact.validate (artifact : StoredArtifact) : Except WecPayoutError Unit :=
  rejectIf (¬ validRawTransaction artifact.rawTransactionHex ∨
      ¬ validTransactionId artifact.transactionId ∨ artifact.unsignedDigest.isZero ∨
      artifact.feeZat = 0 ∨ artifact.targetHeight = 0 ∨
      artifact.expiryHeight ≤ artifact.targetHeight) .journalCorrupt

inductive BroadcastDisposition
  | accepted
  | alreadyKnown
deriving DecidableEq, Repr

/-- `signed` is a stage of an older executor; nothing writes it any more. -/
inductive StoredStage
  | reserved
  | prepared (artifact : StoredArtifact)
  | signed (artifact : StoredArtifact)
  | broadcastUnresolved (artifact : StoredArtifact)
  | rejected (artifact : StoredArtifact)
  | completed (artifact : StoredArtifact) (disposition : BroadcastDisposition)
deriving DecidableEq, Repr

inductive WecPipelineStage
  | reserved
  | signed
  | broadcastUnresolved
  | rejected
  | completed
deriving DecidableEq, Repr

def StoredStage.publicStage : StoredStage → WecPipelineStage
  | .reserved => .reserved
  | .prepared _ => .signed
  | .signed _ => .signed
  | .broadcastUnresolved _ => .broadcastUnresolved
  | .rejected _ => .rejected
  | .completed _ _ => .completed

def StoredStage.artifact : StoredStage → Option StoredArtifact
  | .reserved => none
  | .prepared artifact => some artifact
  | .signed artifact => some artifact
  | .broadcastUnresolved artifact => some artifact
  | .rejected artifact => some artifact
  | .completed artifact _ => some artifact

def StoredStage.validate (stage : StoredStage) : Except WecPayoutError Unit :=
  match stage.artifact with
  | some artifact => artifact.validate
  | none => .ok ()

structure JournalRecord where
  batchId : Uuid
  pipelineCommitment : Hex32
  portalCommitment : Hex32
  outputTotalZat : ℕ
  stage : StoredStage
deriving DecidableEq, Repr

/-- The records by batch. -/
abbrev Journal := Records Uuid JournalRecord

/-- What a record must meet to be read as that of `batchId`. -/
def JournalRecord.check (batchId : Uuid) (record : JournalRecord) : Except WecPayoutError Unit := do
  rejectIf (record.batchId ≠ batchId ∨ record.pipelineCommitment.isZero ∨
    record.portalCommitment.isZero ∨ record.outputTotalZat = 0) .journalCorrupt
  record.stage.validate

theorem JournalRecord.batchId_of_check {batchId : Uuid} {record : JournalRecord}
    (h : record.check batchId = .ok ()) : record.batchId = batchId := by
  obtain ⟨_, hchecks, -⟩ := bind_eq_ok.mp h
  rw [rejectIf_eq_ok, not_or, not_not] at hchecks
  exact hchecks.1

/-- What `load` makes of the file of a batch, where it can be read. -/
def Journal.load (journal : Journal) (batchId : Uuid) :
    Except WecPayoutError (Option JournalRecord) :=
  Durable.load JournalRecord.check journal batchId

/-- The file of the record's batch is replaced. -/
def Journal.write (journal : Journal) (record : JournalRecord) : Journal :=
  put journal record.batchId record

/-! ## §3. The order of records -/

/-- How far a stage is. -/
def StoredStage.rank : StoredStage → ℕ
  | .reserved => 0
  | .prepared _ => 1
  | .signed _ => 2
  | .broadcastUnresolved _ => 2
  | .rejected _ => 3
  | .completed _ _ => 3

/-- The next stage of a record, in one write. -/
inductive StageStep : StoredStage → StoredStage → Prop
  | prepare (artifact : StoredArtifact) : StageStep .reserved (.prepared artifact)
  | broadcast (artifact : StoredArtifact) :
      StageStep (.prepared artifact) (.broadcastUnresolved artifact)
  | retry (artifact : StoredArtifact) :
      StageStep (.broadcastUnresolved artifact) (.broadcastUnresolved artifact)
  | reject (artifact : StoredArtifact) :
      StageStep (.broadcastUnresolved artifact) (.rejected artifact)
  | complete (artifact : StoredArtifact) (disposition : BroadcastDisposition) :
      StageStep (.broadcastUnresolved artifact) (.completed artifact disposition)

theorem StageStep.ne_signed {stage stage' : StoredStage} (h : StageStep stage stage')
    (artifact : StoredArtifact) : stage' ≠ .signed artifact := by
  cases h <;> simp

/-- **A record may be followed by another**: the commitments are the same, the stage is not
    earlier, a final stage and a recorded transaction stay as they are. -/
structure RecordLe (r r' : JournalRecord) : Prop where
  pipelineCommitment : r'.pipelineCommitment = r.pipelineCommitment
  portalCommitment : r'.portalCommitment = r.portalCommitment
  outputTotal : r'.outputTotalZat = r.outputTotalZat
  stage : r.stage.rank ≤ r'.stage.rank
  final : r.stage.rank = 3 → r'.stage = r.stage
  artifact : ∀ artifact, r.stage.artifact = some artifact → r'.stage.artifact = some artifact

theorem RecordLe.refl (r : JournalRecord) : RecordLe r r :=
  ⟨rfl, rfl, rfl, le_rfl, fun _ => rfl, fun _ h => h⟩

theorem RecordLe.trans {a b c : JournalRecord} (hab : RecordLe a b) (hbc : RecordLe b c) :
    RecordLe a c where
  pipelineCommitment := hbc.pipelineCommitment.trans hab.pipelineCommitment
  portalCommitment := hbc.portalCommitment.trans hab.portalCommitment
  outputTotal := hbc.outputTotal.trans hab.outputTotal
  stage := hab.stage.trans hbc.stage
  final := fun h => by
    have hb := hab.final h
    rw [← hb]
    exact hbc.final (hb ▸ h)
  artifact := fun a h => hbc.artifact a (hab.artifact a h)

theorem StageStep.recordLe {r : JournalRecord} {stage : StoredStage}
    (h : StageStep r.stage stage) : RecordLe r { r with stage := stage } := by
  refine ⟨rfl, rfl, rfl, ?_, ?_, ?_⟩
  all_goals
    obtain ⟨batchId, pipeline, portal, total, old⟩ := r
    cases h <;> simp [StoredStage.rank, StoredStage.artifact]

/-- A write that the journal allows: a first reservation, or the next stage of the record. -/
def Advances (old : Option JournalRecord) (record : JournalRecord) : Prop :=
  match old with
  | none => record.stage = .reserved
  | some r => StageStep r.stage record.stage ∧ record = { r with stage := record.stage }

theorem Advances.recordLe {old : Option JournalRecord} {record r : JournalRecord}
    (h : Advances old record) (hold : old = some r) : RecordLe r record := by
  subst hold
  obtain ⟨hstep, hrecord⟩ := h
  rw [hrecord]
  exact hstep.recordLe

/-- A write that the journal allows never enters the stage of the older executor. -/
theorem Advances.ne_signed {old : Option JournalRecord} {record : JournalRecord}
    (h : Advances old record) (artifact : StoredArtifact) : record.stage ≠ .signed artifact := by
  intro hsigned
  unfold Advances at h
  split at h
  · exact absurd (h.symm.trans hsigned) (by simp)
  · exact h.1.ne_signed artifact hsigned

end WcashPool.WecSigner
