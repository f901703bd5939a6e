/-
  WcashPool.ZecSigner.Exactness — every transaction that the ZEC signer records
  and submits has the effects that it approved.

  Every event of a history is in order (`ZecRuns.good`), and a write that is in
  order is a turn of the loop; so what a turn keeps is kept along every
  history.

  Main result: `zec_journal_exact`.
-/
import WcashPool.ZecSigner.Order

namespace WcashPool.ZecSigner

open Fallible Protocol Store Portal Programs Durable

/-! ## §1. Histories -/

section Histories

variable {cfg : ZecSignerConfig} {c : ZecCommand} {es : List ZecEvent} {s s' : Journal}
  {q : ZecQuery} {answer : ZecAnswer q}

/-- What the journal can do in one query that is in order. -/
theorem Ordered.journal (h : Ordered cfg c es s q) (hanswer : zecAnswers s q answer s') :
    s' = s ∨ ∃ record, q = .store record ∧ s' = s.write record ∧ StoreOrder cfg c es s record := by
  cases q with
  | store record =>
    cases WriteAnswer.state hanswer with
    | inl hsame => exact .inl hsame
    | inr hwritten => exact .inr ⟨record, rfl, hwritten, h⟩
  | wallet | sendRawTransaction => exact .inl hanswer
  | walletConfiguration | lock | load | checkpoint =>
    exact .inl (Silent.journal (by trivial) hanswer)

/-- A store in order writes a well-formed record. -/
theorem StoreOrder.ok {record : JournalRecord} (h : StoreOrder cfg c es s record)
    (hs : All (RecordOk cfg.external) s) : RecordOk cfg.external record := by
  have hadvances := h.advances
  cases hold : s record.batchId with
  | none =>
    rw [hold] at hadvances
    obtain ⟨hstage, hdigest, hfee⟩ := hadvances
    exact ⟨by simp [hstage], by simp [hstage],
      fun _ => ⟨hdigest, hfee⟩, by simp [hstage]⟩
  | some old =>
    rw [hold] at hadvances
    exact Turn.ok hadvances (hs _ _ hold)

/-- A store in order only adds to the record. -/
theorem StoreOrder.recordLe {record old : JournalRecord} (h : StoreOrder cfg c es s record)
    (hs : All (RecordOk cfg.external) s) (hold : s record.batchId = some old) :
    RecordLe old record := by
  have hadvances := h.advances
  rw [hold] at hadvances
  exact Turn.recordLe hadvances (hs _ _ hold)

/-- **A query in order** keeps every record well formed. -/
theorem Ordered.ok (hs : All (RecordOk cfg.external) s) (h : Ordered cfg c es s q)
    (hanswer : zecAnswers s q answer s') : All (RecordOk cfg.external) s' := by
  obtain rfl | ⟨record, -, rfl, horder⟩ := h.journal hanswer
  · exact hs
  · exact All.put hs (horder.ok hs)

/-- **A query in order** only adds to the records. -/
theorem Ordered.follows (hs : All (RecordOk cfg.external) s) (h : Ordered cfg c es s q)
    (hanswer : zecAnswers s q answer s') : Follows RecordLe s s' := by
  obtain rfl | ⟨record, -, rfl, horder⟩ := h.journal hanswer
  · exact Follows.refl RecordLe.refl s'
  · exact Follows.put RecordLe.refl fun _ => horder.recordLe hs

/-- `raw` was extracted from the signed PCZT that the signer had approved. -/
def Extracted (cfg : ZecSignerConfig) (record : JournalRecord) (raw txid : Text) (fee : ℕ) : Prop :=
  ∃ pczt policy, record.stage = .signedVerified pczt policy fee ∧
    extractableConsensusTxid cfg.external pczt = .ok txid ∧ HasTxid cfg.external raw txid

/-- A stored transaction was there before, or is extracted from the approved PCZT. -/
theorem Ordered.recorded (h : Ordered cfg c es s q) (hanswer : zecAnswers s q answer s')
    {batchId : Uuid} {record : JournalRecord} {raw txid : Text} {fee : ℕ}
    (hstored : s' batchId = some record)
    (hraw : record.stage.transaction = some (raw, txid, fee)) : ∃ old, s batchId = some old ∧
      (old.stage.transaction = some (raw, txid, fee) ∨ Extracted cfg old raw txid fee) := by
  obtain rfl | ⟨new, -, rfl, horder⟩ := h.journal hanswer
  · exact ⟨record, hstored, .inl hraw⟩
  by_cases hbatch : batchId = new.batchId
  · subst hbatch
    obtain rfl : new = record := Option.some.inj ((put_self s _ new).symm.trans hstored)
    have hadvances := horder.advances
    cases hold : s new.batchId with
    | none =>
      rw [hold] at hadvances
      rw [hadvances.1] at hraw
      exact absurd hraw (by simp)
    | some old =>
      rw [hold] at hadvances
      exact ⟨old, rfl, Turn.transaction hadvances hraw⟩
  · exact ⟨record, (put_of_ne hbatch).symm.trans hstored, .inl hraw⟩

end Histories

abbrev ZecAttempt :=
  Attempt Journal ZecQuery ZecAnswer ZecCommand (Except ZecPayoutError ZecResponse)

/-- Histories of calls of the signer, any of which may be cut short by a crash. -/
abbrev ZecRuns (cfg : ZecSignerConfig) : Journal → List ZecAttempt → Journal → Prop :=
  Runs zecWorld fun c => (perform cfg c).run

/-- What both journals record as the transaction of a batch is the same. -/
def SameTransactions (journal journal' : Journal) : Prop :=
  ∀ batchId record record' transaction transaction', journal batchId = some record →
    journal' batchId = some record' → record.stage.transaction = some transaction →
    record'.stage.transaction = some transaction' → transaction = transaction'

instance : Std.Symm SameTransactions where
  symm := fun _ _ hsame batchId record record' t t' hstored hstored' ht ht' =>
    (hsame batchId record' record t' t hstored' hstored ht' ht).symm

theorem sameTransactions_of_follows {s s' : Journal} (h : Follows RecordLe s s') :
    SameTransactions s s' := by
  intro batchId record record' ⟨raw, txid, fee⟩ transaction' hstored hstored' hraw hraw'
  obtain ⟨record'', hfollows, hle⟩ := h batchId record hstored
  obtain rfl := Option.some.inj (hfollows.symm.trans hstored')
  obtain hsame | hrejected := hle.transaction raw txid fee hraw
  · exact Option.some.inj (hsame.symm.trans hraw')
  · rw [hrejected] at hraw'
    exact absurd hraw' (by simp)

/-- **Exactness of a history.** -/
structure ZecExact (cfg : ZecSignerConfig) (start : Journal) (h : List ZecAttempt) : Prop where
  /-- Of any two states, the later has the commitments, the effects digest and the fee of every
      record of the earlier, and no earlier stage. -/
  forward : (start :: (eventsOf h).map (·.after)).Pairwise (Follows RecordLe)
  /-- In every state, every PCZT from the verified one on has the recorded effects digest, and
      every stage with a fee the recorded fee. -/
  approved : ∀ s ∈ start :: (eventsOf h).map (·.after), All (RecordOk cfg.external) s
  /-- Every verified stage is written after an inspection of its PCZT with the recorded fee. -/
  inspected : ∀ attempt ∈ h, ∀ es₁ e es₂ record, attempt.events = es₁ ++ e :: es₂ →
    e.query = .store record → InspectedFee cfg attempt.command.request es₁ record
  /-- At most one raw transaction of a batch is ever recorded. -/
  single : ∀ s ∈ start :: (eventsOf h).map (·.after), ∀ s' ∈ start :: (eventsOf h).map (·.after),
    SameTransactions s s'
  /-- A raw transaction that is recorded was recorded before, or has the identifier that was
      computed from the approved signed PCZT. -/
  recorded : ∀ e ∈ eventsOf h, ∀ batchId record raw txid fee, e.after batchId = some record →
    record.stage.transaction = some (raw, txid, fee) → ∃ old, e.before batchId = some old ∧
      (old.stage.transaction = some (raw, txid, fee) ∨ Extracted cfg old raw txid fee)
  /-- A submission carries the raw transaction of a record that is durably unresolved. -/
  broadcast : ∀ attempt ∈ h, ∀ e ∈ attempt.events, ∀ raw, e.query = .sendRawTransaction raw →
    attempt.command.entry = .execute ∧ ∃ validated record txid fee,
      Holds e.before attempt.command.request validated record ∧
      record.stage = .broadcastUnresolved raw txid fee

/-- Every event of a history is in order, in a journal whose records are all as they should be. -/
theorem ZecRuns.good {cfg : ZecSignerConfig} {start final : Journal} {h : List ZecAttempt}
    (hruns : ZecRuns cfg start h final) (hstart : All (RecordOk cfg.external) start) :
    ∀ attempt ∈ h, attempt.Good zecWorld (All (RecordOk cfg.external)) (Ordered cfg)
      fun c es s r => ∀ e, r = .error e → Refused c es s e := by
  refine (hruns.sound (I := All (RecordOk cfg.external)) (P := Ordered cfg) (fun _ => True)
    (fun _ _ _ hother => hother.elim)
    (fun _ _ _ _ _ _ _ hs hordered hanswer => Ordered.ok hs hordered hanswer) ?_
    (fun _ _ => trivial) hstart).2
  intro c s _ _
  refine Always.mono (perform_spec cfg c s) fun es s r _ hr e he => ?_
  rw [he] at hr
  exact hr

/-- The journal is empty. -/
def emptyJournal : Journal := fun _ => none

theorem emptyJournal_ok (ext : ZecExternal) : All (RecordOk ext) emptyJournal :=
  fun _ _ h => absurd h (by simp [emptyJournal])

/-- **The journal is exact** along every history of calls from an empty journal, whatever they
    request, whatever wallet and node answer, and wherever they crash. -/
theorem zec_journal_exact (cfg : ZecSignerConfig) {final : Journal} {h : List ZecAttempt}
    (hruns : ZecRuns cfg emptyJournal h final) : ZecExact cfg emptyJournal h := by
  have hgood := hruns.good (emptyJournal_ok cfg.external)
  have hevent : ∀ attempt ∈ h, ∀ e ∈ attempt.events, ∃ es₁,
      e.Good zecWorld (All (RecordOk cfg.external)) (Ordered cfg attempt.command) es₁ := by
    intro attempt hattempt e he
    obtain ⟨es₁, es₂, hsplit⟩ := List.append_of_mem he
    exact ⟨es₁, (hgood attempt hattempt).events es₁ e es₂ hsplit⟩
  have hforward : (emptyJournal :: (eventsOf h).map (·.after)).Pairwise (Follows RecordLe) := by
    refine (hruns.pairwise (R := Follows RecordLe) (Follows.refl RecordLe.refl) ?_
      (fun _ _ hother => hother.elim) ?_).1
    · intro a b c hab hbc
      exact hab.trans hbc fun _ _ _ => RecordLe.trans
    · intro attempt hattempt e he
      obtain ⟨es₁, hgood⟩ := hevent attempt hattempt e he
      exact hgood.query.follows hgood.invariant hgood.answer
  refine ⟨hforward, ?_, ?_, ?_, ?_, ?_⟩
  · intro s hs
    cases List.mem_cons.mp hs with
    | inl hempty => exact hempty ▸ emptyJournal_ok cfg.external
    | inr hafter =>
      obtain ⟨e, he, rfl⟩ := List.mem_map.mp hafter
      obtain ⟨attempt, hattempt, he⟩ := List.mem_flatMap.mp he
      obtain ⟨es₁, hgood⟩ := hevent attempt hattempt e he
      exact hgood.query.ok hgood.invariant hgood.answer
  · intro attempt hattempt es₁ e es₂ record hsplit hquery
    have hordered := ((hgood attempt hattempt).events es₁ e es₂ hsplit).query
    rw [hquery] at hordered
    exact hordered.inspected
  · intro s hs s' hs'
    have hpairs := hforward.imp (S := SameTransactions) sameTransactions_of_follows
    exact List.Pairwise.forall_of_forall
      (fun s _ => sameTransactions_of_follows (Follows.refl RecordLe.refl s)) hpairs hs hs'
  · intro e he batchId record raw txid fee hstored hraw
    obtain ⟨attempt, hattempt, he⟩ := List.mem_flatMap.mp he
    obtain ⟨es₁, hgood⟩ := hevent attempt hattempt e he
    exact hgood.query.recorded hgood.answer hstored hraw
  · intro attempt hattempt e he raw hquery
    obtain ⟨es₁, hgood⟩ := hevent attempt hattempt e he
    have hordered := hgood.query
    rw [hquery] at hordered
    exact hordered

/-! ## §2. A run -/

def sampleTxid : Text := List.replicate 64 97

def sampleAddress : Text := ascii "utest1abcdef"

def sampleCollector : Text := ascii "utest1collector"

def sampleSeed : Text := ascii "seed"

/-- An action with a complete output. -/
def sampleAction (spendValue outputValue : ℕ) (recipient : Text) (userAddress : Option Text) :
    IronwoodAction :=
  ⟨false, some spendValue, [1], .v3, some outputValue, some recipient, some [2], userAddress, []⟩

/-- A transaction that pays one Ironwood output and leaves a fee of 500. -/
def samplePczt : Pczt where
  global := ⟨6, 7, zcashNu63BranchId, 150, false, false, false, false,
    [(propSeedFingerprint, sampleSeed), (propAccountIndex, Framing.leBytes 4 0),
      (propPrivacyPolicy, fullPrivacy), (propBackendProposalInfo, [1])]⟩
  transparentInputs := 0
  transparentOutputs := []
  saplingSpends := 0
  saplingOutputs := 0
  saplingValueSum := 0
  orchardActions := 0
  orchardValueSum := (0, false)
  ironwoodActions := some [sampleAction 50_500 50_000 sampleAddress (some sampleAddress)]
  ironwoodValueSum := (500, false)

def sampleExternal : ZecExternal where
  v6TxVersion := 6
  v6VersionGroupId := 7
  zcashTestnetCoinType := 1
  sha256 := fun bytes => BitVec.ofNat 256 bytes.length
  base64Decode := fun text => some (pcztV2Header ++ text)
  base64Encode := fun bytes => bytes.drop 8
  parse := fun _ => some samplePczt
  globalCoinType := fun _ => some 1
  shieldedSighash := fun _ => some 9
  extractedTxid := fun _ => some sampleTxid
  readTransaction := fun raw => some ⟨raw.length, sampleTxid, some raw, true, true⟩
  decodeAddress := fun _ text => some (.ironwood text)
  seedFingerprint := some
  decodeUfvk := fun text => some (.test, text)
  orchardKey := some
  orchardAddress := some
  ownsAddress := fun _ _ => true
  crossAddressRestriction := fun _ => true
  actionCommitments := fun _ => true
  spendAuthority := fun _ _ => true
  derivedAccount := fun _ _ => some 0
  rhoFromBytes := some
  noteFromParts := fun recipient _ _ _ _ => some recipient
  getPkD := id
  deriveEsk := some
  outputRecovery := fun _ note _ => some ⟨note, note, [0xf6]⟩
  emptyMemo := [0xf6]

def sampleConfig : ZecSignerConfig where
  external := sampleExternal
  network := .testnet
  accountId := 7
  expectedParentPayoutCommitment := parentPayoutAddressCommitment sampleExternal sampleCollector
  minConfirmations := 100
  maxOutputs := 50
  maxFeeZat := 5_000_000

def sampleRequest : ZecPayoutRequest where
  batch := ⟨1, .zec, .testnet, 2, 3, 1_000, [⟨4, sampleAddress, .ironwood, 50_000⟩]⟩
  sourceAccount := 7
  fundSource := .orchard

/-- What a wallet without faults answers. -/
def sampleWallet : (rpc : WalletRpc) → WalletResult rpc
  | .getWalletStatus =>
    ⟨⟨List.replicate 64 97, 100⟩, some ⟨List.replicate 64 97, 100⟩, some 100, false, false⟩
  | .getAccount _ => ⟨7, some sampleSeed, some 0, [some sampleCollector]⟩
  | .getBalances _ => [⟨7, false⟩]
  | .exportViewingKey _ => ascii "uviewtest1"
  | .pcztCreate _ => ⟨ascii "pczt", fullPrivacy⟩
  | .pcztInspect _ =>
    ⟨6, ascii "37a5165b", 150, some fullPrivacy, some ⟨sampleSeed, 0⟩, true, 500, 0, [],
      ⟨0, [], 0, true⟩, ⟨0, 0, [], 0, true⟩,
      ⟨1, 1, [⟨some 50_000, some sampleAddress⟩], 500, true⟩⟩
  | .pcztProve pczt => pczt ++ ascii "Proved"
  | .pcztSign pczt _ => ⟨pczt ++ ascii "Signed", [], [], [], []⟩
  | .pcztExtract _ => ⟨ascii "abcd", sampleTxid, true⟩

/-- A node without faults, and a wallet that answers some calls with a server error. -/
def sampleScript (refuses : Journal → WalletRpc → Bool) (_ : List ZecEvent) (s : Journal) :
    (q : ZecQuery) → ZecAnswer q × Journal
  | .walletConfiguration => (true, s)
  | .lock => (true, s)
  | .load batchId => (s.load batchId, s)
  | .store record => land record.validate s (s.write record)
  | .checkpoint _ => (false, s)
  | .wallet rpc =>
    (if refuses s rpc then .error (.server (-4) (ascii "refused"))
      else .ok (some (sampleWallet rpc)), s)
  | .sendRawTransaction _ => (.ok (some sampleTxid), s)

theorem sampleScript_answers (refuses : Journal → WalletRpc → Bool) (es : List ZecEvent)
    (s : Journal) (q : ZecQuery) :
    zecWorld.answers s q (sampleScript refuses es s q).1 (sampleScript refuses es s q).2 := by
  cases q with
  | walletConfiguration | lock | checkpoint | wallet | sendRawTransaction => exact rfl
  | load batchId => exact ⟨.inl rfl, rfl⟩
  | store record => exact land_answers record.validate _ s _

/-- One call from the empty journal. -/
def samplePlay (refuses : Journal → WalletRpc → Bool) (entry : EntryPoint) :
    List ZecEvent × Journal × Except ZecPayoutError ZecResponse :=
  play (sampleScript refuses) (perform sampleConfig ⟨entry, sampleRequest⟩).run [] emptyJournal

/-- A submission. -/
def isSubmission : ZecQuery → Bool
  | .sendRawTransaction _ => true
  | _ => false

theorem zec_journal_exact_sample :
    ((samplePlay (fun _ _ => false) .execute).1.filter fun e => isSubmission e.query).length = 1 ∧
      ZecExact sampleConfig emptyJournal [⟨⟨.execute, sampleRequest⟩,
        (samplePlay (fun _ _ => false) .execute).1,
        some (samplePlay (fun _ _ => false) .execute).2.2⟩] :=
  ⟨by decide +kernel, zec_journal_exact sampleConfig
    (.cons (Exec.play (sampleScript_answers _) _ [] emptyJournal) (.nil _))⟩

end WcashPool.ZecSigner
