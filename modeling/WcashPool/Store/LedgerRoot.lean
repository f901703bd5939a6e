/-
  WcashPool.Store.LedgerRoot — the ledger root binds the ledger
  (`ledger_snapshot`, `hash_bounded_text`).

  The root of a chain is the hash of one byte string: a domain, the deployment,
  the chain, the rows of the query in order, and the number of transactions.
  Rows have optional fields and texts of any length, and nothing says how many
  of them there are; still the string can be taken apart in one way only.  So a
  signer that re-derives a root has re-derived the ledger behind it, unless the
  hash collides.

  Main results: `ledgerSnapshot_root`, `ledgerPreimage_injective` and
  `ledger_root_binding`.
-/
import WcashPool.Lib.Framing
import WcashPool.Store.System

namespace WcashPool.Store

open Fallible Protocol DoubleEntry Framing

/-! ## §1. Numbers of fixed width -/

theorem beBytes_eq_reverse (n value : ℕ) : beBytes n value = (leBytes n value).reverse := by
  unfold beBytes leBytes
  rw [← List.map_reverse, List.range_eq_range', List.reverse_range', List.map_map,
    ← List.range_eq_range']
  refine List.map_congr_left fun i _ => ?_
  simp

@[simp] theorem length_beBytes (n value : ℕ) : (beBytes n value).length = n := by
  rw [beBytes_eq_reverse, List.length_reverse, length_leBytes]

theorem mod_eq_of_beBytes_eq {n v w : ℕ} (h : beBytes n v = beBytes n w) :
    v % 2 ^ (8 * n) = w % 2 ^ (8 * n) := by
  rw [beBytes_eq_reverse, beBytes_eq_reverse, List.reverse_inj] at h
  exact mod_eq_of_leBytes_eq h

/-- Fixed-width numbers are delimited. -/
theorem beBytes_delimited (n : ℕ) : Delimited (· < 2 ^ (8 * n)) (beBytes n) := by
  refine .of_length n (length_beBytes n) fun v w hv hw heq => ?_
  have hmod := mod_eq_of_beBytes_eq heq
  rwa [Nat.mod_eq_of_lt hv, Nat.mod_eq_of_lt hw] at hmod

theorem uuid_delimited : Delimited (fun _ : Uuid => True) Uuid.asBytes := by
  have hbytes : ∀ u : Uuid, u.asBytes = beBytes 16 u.val := fun _ => rfl
  refine .of_length 16 (fun u => by rw [hbytes, length_beBytes]) fun u v _ _ heq => ?_
  rw [hbytes, hbytes] at heq
  have hmod := mod_eq_of_beBytes_eq heq
  rw [Nat.mod_eq_of_lt u.isLt, Nat.mod_eq_of_lt v.isLt] at hmod
  exact Fin.ext hmod

theorem beBytesI64_delimited :
    Delimited (fun v : ℤ => -i64Limit ≤ v ∧ v < i64Limit) beBytesI64 := by
  refine .of_length 8 (fun v => length_beBytes 8 _) fun v w hv hw heq => ?_
  have hmod := mod_eq_of_beBytes_eq heq
  have hlimit : (i64Limit : ℤ) = 2 ^ 63 := rfl
  rw [hlimit] at hv hw
  omega

/-! ## §2. The rows -/

/-- One row of the query behind a snapshot: a ledger line with its transaction. -/
structure LedgerRow where
  id : Uuid
  ledgerSequence : ℕ
  kind : Text
  backendEventSeq : Option ℕ
  reference : Text
  sealedEntryCount : ℕ
  lineNo : ℕ
  accountId : Option Uuid
  ledgerAccount : Text
  amountZat : ℤ
deriving DecidableEq, Repr

/-- What the loop checks before it hashes a row. -/
@[mk_iff] structure LedgerRow.Checked (row : LedgerRow) : Prop where
  ledgerSequence : row.ledgerSequence ≠ 0
  kind : row.kind ≠ [] ∧ row.kind.length ≤ 64
  backendEventSeq : ∀ s ∈ row.backendEventSeq, s ≠ 0
  reference : row.reference ≠ [] ∧ row.reference.length ≤ 256
  sealedEntryCount : 2 ≤ row.sealedEntryCount
  lineNo : row.lineNo ≠ 0
  ledgerAccount : row.ledgerAccount ≠ [] ∧ row.ledgerAccount.length ≤ 64
  amountZat : row.amountZat ≠ 0

/-- What the types of the columns hold: `BIGINT` for sequences and amounts, `INTEGER` for the
    counters of lines. -/
@[mk_iff] structure LedgerRow.InColumns (row : LedgerRow) : Prop where
  ledgerSequence : row.ledgerSequence < i64Limit
  backendEventSeq : ∀ s ∈ row.backendEventSeq, s < i64Limit
  sealedEntryCount : row.sealedEntryCount < 2 ^ 31
  lineNo : row.lineNo < 2 ^ 31
  amountZat : -i64Limit ≤ row.amountZat ∧ row.amountZat < i64Limit

@[mk_iff] structure LedgerRow.Valid (row : LedgerRow) : Prop where
  checked : row.Checked
  inColumns : row.InColumns

instance : DecidablePred LedgerRow.Checked := fun row => decidable_of_iff' _ row.checked_iff

instance : DecidablePred LedgerRow.InColumns := fun row => decidable_of_iff' _ row.inColumns_iff

instance : DecidablePred LedgerRow.Valid := fun row => decidable_of_iff' _ row.valid_iff

/-- A text behind its length in two bytes. -/
def boundedTextBytes (value : Text) : List UInt8 := beBytes 2 value.length ++ value

/-- What the loop adds to the hash for one row. -/
def LedgerRow.bytes (row : LedgerRow) : List UInt8 :=
  beBytes 8 row.ledgerSequence ++ row.id.asBytes ++ boundedTextBytes row.kind
    ++ tagged 0 1 (beBytes 8) row.backendEventSeq ++ boundedTextBytes row.reference
    ++ beBytes 4 row.sealedEntryCount ++ beBytes 4 row.lineNo
    ++ tagged 0 1 Uuid.asBytes row.accountId ++ boundedTextBytes row.ledgerAccount
    ++ beBytesI64 row.amountZat

theorem boundedTextBytes_delimited (maximumLength : ℕ) (h : maximumLength < 2 ^ 16) :
    Delimited (fun text : Text => text.length ≤ maximumLength) boundedTextBytes :=
  (beBytes_delimited 2).lengthPrefixed.mono fun text htext => by
    show text.length < 2 ^ 16
    omega

/-- The fields of a row in the order of its bytes. -/
def LedgerRow.fields (row : LedgerRow) :
    ((((((((ℕ × Uuid) × Text) × Option ℕ) × Text) × ℕ) × ℕ) × Option Uuid) × Text) × ℤ :=
  (((((((((row.ledgerSequence, row.id), row.kind), row.backendEventSeq), row.reference),
    row.sealedEntryCount), row.lineNo), row.accountId), row.ledgerAccount), row.amountZat)

/-- A row is known from its fields. -/
theorem LedgerRow.fields_injective : Function.Injective LedgerRow.fields := by
  rintro ⟨⟩ ⟨⟩ h
  simp only [LedgerRow.fields, Prod.mk.injEq] at h
  simp only [LedgerRow.mk.injEq]
  tauto

/-- **The end of a row can be seen.** -/
theorem LedgerRow.bytes_delimited : Delimited LedgerRow.Valid LedgerRow.bytes := by
  have hfields := (((((((((beBytes_delimited 8).append uuid_delimited).append
    (boundedTextBytes_delimited 64 (by simp))).append
    ((beBytes_delimited 8).option (show (0 : UInt8) ≠ 1 by decide))).append
    (boundedTextBytes_delimited 256 (by simp))).append
    (beBytes_delimited 4)).append (beBytes_delimited 4)).append
    (uuid_delimited.option (show (0 : UInt8) ≠ 1 by decide))).append
    (boundedTextBytes_delimited 64 (by simp))).append beBytesI64_delimited
  refine (hfields.comap LedgerRow.fields_injective).mono fun row hrow => ?_
  have hlimit : i64Limit < 2 ^ (8 * 8) := by decide
  obtain ⟨hchecked, hcolumns⟩ := hrow
  refine ⟨⟨⟨⟨⟨⟨⟨⟨⟨?_, trivial⟩, hchecked.kind.2⟩, fun s hs => ?_⟩, hchecked.reference.2⟩, ?_⟩, ?_⟩,
    fun _ _ => trivial⟩, hchecked.ledgerAccount.2⟩, hcolumns.amountZat⟩
  · exact hcolumns.ledgerSequence.trans hlimit
  · exact (hcolumns.backendEventSeq s hs).trans hlimit
  · exact hcolumns.sealedEntryCount.trans (by decide)
  · exact hcolumns.lineNo.trans (by decide)

/-! ## §3. The hashed string -/

/-- The loop's count: a transaction is counted where its identifier first appears. -/
def countTransactions : Option Uuid → List LedgerRow → ℕ
  | _, [] => 0
  | previous, row :: rows =>
    (if previous = some row.id then 0 else 1) + countTransactions (some row.id) rows

/-- Everything that is hashed before the first row. -/
def ledgerHeader (deploymentId : Uuid) (chain : Chain) : List UInt8 :=
  ledgerSnapshotDomain ++ deploymentId.asBytes ++ [UInt8.ofNat (chain.rank + 1)]

/-- The byte string that `ledger_snapshot` hashes. -/
def ledgerPreimage (deploymentId : Uuid) (chain : Chain) (rows : List LedgerRow) : List UInt8 :=
  ledgerHeader deploymentId chain ++ rows.flatMap LedgerRow.bytes
    ++ beBytes 8 (countTransactions none rows)

theorem ledgerHeader_delimited :
    Delimited (fun _ : Uuid × Chain => True) (fun p => ledgerHeader p.1 p.2) := by
  refine .of_length (ledgerSnapshotDomain.length + 17) (fun p => ?_) fun p q _ _ heq => ?_
  · simp [ledgerHeader, Uuid.asBytes]
  · unfold ledgerHeader at heq
    rw [List.append_assoc, List.append_assoc] at heq
    obtain ⟨hid, hchain⟩ := uuid_delimited p.1 q.1 trivial trivial _ _ (List.append_cancel_left heq)
    refine Prod.ext hid ?_
    cases hp : p.2 <;> cases hq : q.2 <;> rw [hp, hq] at hchain <;> first | rfl |
      cases hchain

/-- **Injectivity**: equal strings come from the same deployment, chain and rows. -/
theorem ledgerPreimage_injective {deploymentId deploymentId' : Uuid} {chain chain' : Chain}
    {rows rows' : List LedgerRow} (hrows : ∀ row ∈ rows, row.Valid)
    (hrows' : ∀ row ∈ rows', row.Valid)
    (h : ledgerPreimage deploymentId chain rows = ledgerPreimage deploymentId' chain' rows') :
    deploymentId = deploymentId' ∧ chain = chain' ∧ rows = rows' := by
  unfold ledgerPreimage at h
  rw [List.append_assoc, List.append_assoc] at h
  obtain ⟨hheader, hstream⟩ := ledgerHeader_delimited (deploymentId, chain) (deploymentId', chain')
    trivial trivial _ _ h
  obtain ⟨hid, hchain⟩ := Prod.mk.inj hheader
  refine ⟨hid, hchain, LedgerRow.bytes_delimited.stream (fun row _ hnil => ?_) hrows hrows' ?_ hstream⟩
  · have hlength := congrArg List.length hnil
    simp [LedgerRow.bytes] at hlength
  · rw [length_beBytes, length_beBytes]

/-! ## §4. The rows of a snapshot -/

/-- The row of one line of a transaction. -/
def ledgerRow (t : LedgerTransaction) (lineNo : ℕ) (entry : LedgerEntry) : LedgerRow :=
  { id := t.id
    ledgerSequence := t.ledgerSequence
    kind := t.kind.text
    backendEventSeq := t.backendEventSeq
    reference := t.reference.text
    sealedEntryCount := t.entries.length
    lineNo := lineNo
    accountId := entry.place.accountId
    ledgerAccount := entry.place.ledgerAccount.text
    amountZat := entry.amount }

/-- The rows of a transaction, in the order of `line_no`. -/
def transactionRows (t : LedgerTransaction) : List LedgerRow :=
  (t.entries.zipIdx 1).map fun p => ledgerRow t p.2 p.1

/-- The rows behind a snapshot. -/
def snapshotRows (db : Database) (chain : Chain) (sequenceCutoff : Option ℕ) : List LedgerRow :=
  (sealedUpTo db chain sequenceCutoff).flatMap transactionRows

theorem hashBoundedText_eq_ok {value : Text} {maximumLength : ℕ} (h : maximumLength < 2 ^ 16)
    {bytes : List UInt8} : hashBoundedText value maximumLength = .ok bytes ↔
      (value ≠ [] ∧ value.length ≤ maximumLength) ∧ bytes = boundedTextBytes value := by
  unfold hashBoundedText
  simp only [bind_eq_ok, rejectIf_eq_ok, pure_eq_ok, not_or, not_lt, not_le, exists_const,
    Except.ok.injEq]
  constructor
  · rintro ⟨hvalue, -, rfl⟩
    exact ⟨hvalue, rfl⟩
  · rintro ⟨hvalue, rfl⟩
    exact ⟨hvalue, by omega, rfl⟩

theorem eventBytes_eq_ok {sequence : Option ℕ} {bytes : List UInt8} :
    eventBytes sequence = .ok bytes ↔
      (∀ s ∈ sequence, s ≠ 0) ∧ bytes = tagged 0 1 (beBytes 8) sequence := by
  cases sequence with
  | none => simp [eventBytes, tagged, eq_comm]
  | some s => simp [eventBytes, tagged, bind_eq_ok, @eq_comm _ _ bytes]

/-- **A line is hashed as its row**, after the checks of the loop. -/
theorem lineBytes_eq_ok {t : LedgerTransaction} {lineNo : ℕ} {entry : LedgerEntry}
    {bytes : List UInt8} : lineBytes t lineNo entry = .ok bytes ↔
      (ledgerRow t lineNo entry).Checked ∧ bytes = (ledgerRow t lineNo entry).bytes := by
  unfold lineBytes
  simp only [bind_eq_ok, rejectIf_eq_ok, hashBoundedText_eq_ok (show 64 < 2 ^ 16 by decide),
    hashBoundedText_eq_ok (show 256 < 2 ^ 16 by decide), eventBytes_eq_ok, pure_eq_ok,
    Except.ok.injEq, not_or, not_lt]
  constructor
  · rintro ⟨-, hsequence, _, ⟨hkind, rfl⟩, _, ⟨hevent, rfl⟩, _, ⟨hreference, rfl⟩, -,
      ⟨hcount, hline⟩, _, ⟨haccount, rfl⟩, -, hamount, rfl⟩
    refine ⟨⟨hsequence, hkind, hevent, hreference, hcount, hline, haccount, hamount⟩, ?_⟩
    cases haccountId : entry.place.accountId <;>
      simp [LedgerRow.bytes, ledgerRow, accountBytes, tagged, haccountId]
  · rintro ⟨hrow, rfl⟩
    refine ⟨(), hrow.ledgerSequence, _, ⟨hrow.kind, rfl⟩, _, ⟨hrow.backendEventSeq, rfl⟩, _,
      ⟨hrow.reference, rfl⟩, (), ⟨hrow.sealedEntryCount, hrow.lineNo⟩, _,
      ⟨hrow.ledgerAccount, rfl⟩, (), hrow.amountZat, ?_⟩
    cases haccountId : entry.place.accountId <;>
      simp [LedgerRow.bytes, ledgerRow, accountBytes, tagged, haccountId]

/-- When a transaction can be hashed, and its bytes. -/
theorem transactionBytes_eq_ok {t : LedgerTransaction} {bytes : List UInt8} :
    transactionBytes t = .ok bytes ↔
      (∀ row ∈ transactionRows t, row.Checked) ∧
        bytes = (transactionRows t).flatMap LedgerRow.bytes := by
  unfold transactionBytes transactionRows
  simp only [bind_eq_ok, pure_eq_ok, Except.ok.injEq,
    mapM_eq_ok (fun p : LedgerEntry × ℕ => @lineBytes_eq_ok t p.2 p.1)]
  constructor
  · rintro ⟨_, ⟨hrows, rfl⟩, rfl⟩
    refine ⟨fun row hrow => ?_, by rw [List.flatMap_def, List.map_map]; rfl⟩
    obtain ⟨p, hp, rfl⟩ := List.mem_map.mp hrow
    exact hrows p hp
  · rintro ⟨hrows, rfl⟩
    refine ⟨_, ⟨fun p hp => hrows _ (List.mem_map_of_mem hp), rfl⟩, ?_⟩
    rw [List.flatMap_def, List.map_map]
    rfl

/-! ## §5. The count -/

/-- A block of rows with one identifier is one transaction. -/
theorem countTransactions_block {id : Uuid} {block : List LedgerRow} (hne : block ≠ [])
    (hid : ∀ row ∈ block, row.id = id) (previous : Option Uuid) (rows : List LedgerRow) :
    countTransactions previous (block ++ rows) =
      (if previous = some id then 0 else 1) + countTransactions (some id) rows := by
  induction block generalizing previous with
  | nil => exact absurd rfl hne
  | cons row block ih =>
    have hrow := hid row List.mem_cons_self
    rw [List.cons_append, countTransactions, hrow]
    cases block with
    | nil => rw [List.nil_append]
    | cons next block =>
      rw [ih (by simp) (fun r hr => hid r (List.mem_cons_of_mem _ hr)), if_pos rfl, Nat.zero_add]

/-- The rows of a transaction are adjacent in the order of the query, so each transaction is
    counted once. -/
theorem countTransactions_transactionRows {ts : List LedgerTransaction}
    (hnodup : (ts.map (·.id)).Nodup) (previous : Option Uuid)
    (hprevious : ∀ t ∈ ts, previous ≠ some t.id) :
    countTransactions previous (ts.flatMap transactionRows) = ts.length := by
  induction ts generalizing previous with
  | nil => rfl
  | cons t ts ih =>
    rw [List.map_cons, List.nodup_cons] at hnodup
    have hrows : transactionRows t ≠ [] := by
      have hentries := t.isSealed.1
      simpa [transactionRows] using hentries
    have hids : ∀ row ∈ transactionRows t, row.id = t.id := by
      intro row hrow
      obtain ⟨p, -, rfl⟩ := List.mem_map.mp hrow
      rfl
    have hnext : ∀ u ∈ ts, some t.id ≠ some u.id := by
      intro u hu hsame
      exact hnodup.1 (Option.some.inj hsame ▸ List.mem_map_of_mem (f := (·.id)) hu)
    rw [List.flatMap_cons, countTransactions_block hrows hids,
      if_neg (hprevious t List.mem_cons_self), ih hnodup.2 _ hnext, List.length_cons, Nat.add_comm]

/-! ## §6. The root -/

/-- **The root of a snapshot** is the hash of its rows' string, and the rows passed the checks. -/
theorem ledgerSnapshot_root {cfg : Config} {db : Database} {chain : Chain}
    {sequenceCutoff : Option ℕ} {snapshot : LedgerSnapshot}
    (h : ledgerSnapshot cfg db chain sequenceCutoff = .ok snapshot) :
    (∀ row ∈ snapshotRows db chain sequenceCutoff, row.Checked) ∧
      snapshot.root = cfg.ext.sha256
        (ledgerPreimage cfg.deploymentId chain (snapshotRows db chain sequenceCutoff)) := by
  obtain ⟨lines, hlines, h⟩ := bind_eq_ok.mp (passed h)
  obtain ⟨count, hcount, h⟩ := bind_eq_ok.mp h
  obtain ⟨spendable, -, h⟩ := bind_eq_ok.mp h
  replace h := passed h
  injection h with h
  subst h
  obtain ⟨hrows, rfl⟩ := (mapM_eq_ok fun t => @transactionBytes_eq_ok t).mp hlines
  obtain ⟨-, rfl⟩ := narrow_eq_ok.mp hcount
  have hnodup : ((sealedUpTo db chain sequenceCutoff).map (·.id)).Nodup :=
    db.ledger.ids_nodup.sublist (List.filter_sublist.map _)
  refine ⟨fun row hrow => ?_, ?_⟩
  · obtain ⟨t, ht, hrow⟩ := List.mem_flatMap.mp hrow
    exact hrows t ht row hrow
  · have hbytes : ((sealedUpTo db chain sequenceCutoff).map
        fun t => (transactionRows t).flatMap LedgerRow.bytes).flatten =
        (snapshotRows db chain sequenceCutoff).flatMap LedgerRow.bytes := by
      rw [snapshotRows, List.flatMap_assoc, ← List.flatMap_def]
    have hlength : countTransactions none (snapshotRows db chain sequenceCutoff) =
        (sealedUpTo db chain sequenceCutoff).length :=
      countTransactions_transactionRows hnodup none (by simp)
    show cfg.ext.sha256 _ = _
    rw [hbytes, ledgerPreimage, hlength, ledgerHeader]

/-- Two different strings with one hash. -/
def Collision (hash : List UInt8 → Hex32) (x y : List UInt8) : Prop := x ≠ y ∧ hash x = hash y

/-- **Root binding.**  The hashed string determines the deployment, the chain and the rows; so
    two snapshots with one root are of one deployment, one chain and one ledger, unless their
    strings are a collision of the hash. -/
theorem ledger_root_binding :
    (∀ (deploymentId deploymentId' : Uuid) (chain chain' : Chain) (rows rows' : List LedgerRow),
      (∀ row ∈ rows, row.Valid) → (∀ row ∈ rows', row.Valid) →
      ledgerPreimage deploymentId chain rows = ledgerPreimage deploymentId' chain' rows' →
      deploymentId = deploymentId' ∧ chain = chain' ∧ rows = rows') ∧
    (∀ (cfg cfg' : Config) (db db' : Database) (chain chain' : Chain) (cutoff cutoff' : Option ℕ)
      (snapshot snapshot' : LedgerSnapshot), cfg.ext.sha256 = cfg'.ext.sha256 →
      ledgerSnapshot cfg db chain cutoff = .ok snapshot →
      ledgerSnapshot cfg' db' chain' cutoff' = .ok snapshot' →
      (∀ row ∈ snapshotRows db chain cutoff, row.InColumns) →
      (∀ row ∈ snapshotRows db' chain' cutoff', row.InColumns) →
      ¬ Collision cfg.ext.sha256
        (ledgerPreimage cfg.deploymentId chain (snapshotRows db chain cutoff))
        (ledgerPreimage cfg'.deploymentId chain' (snapshotRows db' chain' cutoff')) →
      snapshot.root = snapshot'.root →
      cfg.deploymentId = cfg'.deploymentId ∧ chain = chain' ∧
        snapshotRows db chain cutoff = snapshotRows db' chain' cutoff') := by
  constructor
  · intro deploymentId deploymentId' chain chain' rows rows' hrows hrows' h
    exact ledgerPreimage_injective hrows hrows' h
  · intro cfg cfg' db db' chain chain' cutoff cutoff' snapshot snapshot' hhash h h' hcolumns
      hcolumns' hcollision hroot
    obtain ⟨hchecked, hroot₁⟩ := ledgerSnapshot_root h
    obtain ⟨hchecked', hroot₂⟩ := ledgerSnapshot_root h'
    rw [hroot₁, hroot₂, ← hhash] at hroot
    have hsame : ledgerPreimage cfg.deploymentId chain (snapshotRows db chain cutoff) =
        ledgerPreimage cfg'.deploymentId chain' (snapshotRows db' chain' cutoff') :=
      not_not.mp fun hne => hcollision ⟨hne, hroot⟩
    exact ledgerPreimage_injective (fun row hrow => ⟨hchecked row hrow, hcolumns row hrow⟩)
      (fun row hrow => ⟨hchecked' row hrow, hcolumns' row hrow⟩) hsame

/-- A row of the maturity of a reward, under the given texts. -/
def sampleRow (kind reference : Text) : LedgerRow where
  id := 1
  ledgerSequence := 1
  kind := kind
  backendEventSeq := some 1
  reference := reference
  sealedEntryCount := 2
  lineNo := 1
  accountId := none
  ledgerAccount := [65]
  amountZat := -1

/-- The worked payout after its reservation, and after its broadcast. -/
def sampleReserved : Database := sampleAfter (sampleReward ++ samplePayout.take 2)

def sampleBroadcast : Database := sampleAfter (sampleReward ++ samplePayout)

/-- A byte that moves from one text of a row to the next changes the string; and two states of the
    worked payout that share a root have one ledger. -/
theorem ledger_root_binding_sample :
    ledgerPreimage 1 .zcash [sampleRow [1, 2] [3]] ≠ ledgerPreimage 1 .zcash [sampleRow [1] [2, 3]] ∧
      ledgerSnapshot sampleConfig sampleReserved .zcash none = .ok ⟨1777, 3, 100_000⟩ ∧
      ledgerSnapshot sampleConfig sampleBroadcast .zcash none = .ok ⟨1777, 3, 100_000⟩ ∧
      snapshotRows sampleReserved .zcash none = snapshotRows sampleBroadcast .zcash none := by
  obtain ⟨hstrings, hroots⟩ := ledger_root_binding
  have hreserved : ledgerSnapshot sampleConfig sampleReserved .zcash none =
      .ok ⟨1777, 3, 100_000⟩ := by decide +kernel
  have hbroadcast : ledgerSnapshot sampleConfig sampleBroadcast .zcash none =
      .ok ⟨1777, 3, 100_000⟩ := by decide +kernel
  refine ⟨fun hsame => ?_, hreserved, hbroadcast, ?_⟩
  · have heq := (hstrings 1 1 .zcash .zcash [sampleRow [1, 2] [3]] [sampleRow [1] [2, 3]]
      (by decide) (by decide) hsame).2.2
    cases heq
  · exact (hroots sampleConfig sampleConfig sampleReserved sampleBroadcast .zcash .zcash none none
      _ _ rfl hreserved hbroadcast (by decide +kernel) (by decide +kernel)
      (fun hcollision => absurd hcollision.1 (by decide +kernel)) rfl).2.2

end WcashPool.Store
