/-
  WcashPool.Store.Books — all sub-ledgers together.

  Every posting is about a winner, about a batch or about the opening equity of
  a chain, and each of the three keeps its own law.  Together they explain every
  balance: what stands at a place of a chain is the sum of what its winners,
  its batches and its opening equity put there.

  Main results: `EventStep.books`, `PayoutStep.books` and `Books.sumOn_eq`.
-/
import WcashPool.Store.PayoutLaw
import WcashPool.Store.System

namespace WcashPool.Store

open DoubleEntry Machine

/-! ## §1. The opening equity -/

/-- What the funding transactions of a chain put into the collector asset. -/
def Database.openingEquity (db : Database) (chain : Chain) : ℤ :=
  sumWhere (· = .collectorSpendableAsset) ((openingFundings db chain).flatMap (·.entries))

structure OpeningInv (db : Database) : Prop where
  known : ∀ t ∈ db.ledger.transactions, ∀ chain, t.reference = .openingPoolEquity chain →
    t.chain = chain ∧ t.kind = .operatorCapitalFunded
  agrees : ∀ chain, ∃ surplusZat : ℕ,
    Agree (db.linesUnder (.openingPoolEquity chain)) (openingEntries surplusZat)

section Opening

variable {db db' : Database} {chain : Chain} {new : List LedgerTransaction}

/-- The query for the funding transactions finds everything posted under their reference. -/
theorem OpeningInv.openingFundings_flatMap (h : OpeningInv db) (chain : Chain) :
    (openingFundings db chain).flatMap (·.entries) = db.linesUnder (.openingPoolEquity chain) := by
  congr 1
  apply List.filter_congr
  intro t ht
  have hknown := h.known t ht chain
  by_cases href : t.reference = .openingPoolEquity chain
  · simp [href, hknown href]
  · simp [href]

theorem sumWhere_openingEntries (p : LedgerPlace → Prop) [DecidablePred p] (surplusZat : ℤ) :
    sumWhere p (openingEntries surplusZat)
      = (if p .collectorSpendableAsset then surplusZat else 0)
        - if p .poolEquity then surplusZat else 0 := by
  unfold openingEntries
  rw [sumWhere_cons, sumWhere_cons_neg, sumWhere_nil]
  ring

theorem OpeningInv.equity (h : OpeningInv db) (chain : Chain) :
    0 ≤ db.openingEquity chain ∧ Agree (db.linesUnder (.openingPoolEquity chain))
      (openingEntries (db.openingEquity chain)) := by
  obtain ⟨surplus, hagree⟩ := h.agrees chain
  have hequity : db.openingEquity chain = surplus := by
    unfold Database.openingEquity
    rw [h.openingFundings_flatMap, hagree, sumWhere_openingEntries]
    simp
  rw [hequity]
  exact ⟨Int.natCast_nonneg surplus, hagree⟩

/-- A change that posts nothing about opening equity. -/
theorem OpeningInv.frame (h : OpeningInv db)
    (hledger : db'.ledger.transactions = db.ledger.transactions ++ new)
    (hnew : ∀ t ∈ new, ∀ chain, t.reference ≠ .openingPoolEquity chain) : OpeningInv db' := by
  refine ⟨fun t ht chain href => ?_, fun chain => ?_⟩
  · rw [hledger, List.mem_append] at ht
    cases ht with
    | inl hold => exact h.known t hold chain href
    | inr hin => exact absurd href (hnew t hin chain)
  · rw [linesUnder_append_of_ne hledger fun t ht => hnew t ht chain]
    exact h.agrees chain

theorem OpeningInv.congr (h : OpeningInv db) (hledger : db'.ledger = db.ledger) : OpeningInv db' := by
  have happend : db'.ledger.transactions = db.ledger.transactions ++ [] := by
    rw [hledger, List.append_nil]
  exact h.frame happend (by simp)

/-- The first funding of a chain. -/
theorem OpeningInv.fund (h : OpeningInv db) {surplusZat : ℕ} (hfirst : openingFundings db chain = [])
    (hledger : db.ledger.Extends db'.ledger (funding chain surplusZat)) : OpeningInv db' := by
  have hnone : db.linesUnder (.openingPoolEquity chain) = [] := by
    rw [← h.openingFundings_flatMap, hfirst]
    rfl
  have hlines : db'.linesUnder (.openingPoolEquity chain) = openingEntries surplusZat := by
    have hextended := linesUnder_extends hledger (rfl : _ = LedgerReference.openingPoolEquity chain)
    rw [hextended, hnone]
    rfl
  obtain ⟨t, ht, happend⟩ := hledger
  refine ⟨fun u hu chain' href => ?_, fun chain' => ?_⟩
  · rw [happend, List.mem_append] at hu
    cases hu with
    | inl hold => exact h.known u hold chain' href
    | inr hin =>
      rw [List.mem_singleton.mp hin, ht] at href ⊢
      injection href with href
      exact ⟨href, rfl⟩
  · by_cases hchain : chain' = chain
    · rw [hchain, hlines]
      exact ⟨surplusZat, Agree.rfl _⟩
    · rw [linesUnder_append_of_ne happend]
      · exact h.agrees chain'
      · intro u hu href
        rw [List.mem_singleton.mp hu, ht] at href
        injection href with href
        exact hchain href.symm

end Opening

/-! ## §2. The books -/

/-- The three laws, with `s` the last event sequence in use. -/
structure Books (s : ℕ) (db : Database) : Prop where
  winners : WinnerInv s db
  batches : BatchInv db
  opening : OpeningInv db

theorem Books.mono {s s' : ℕ} {db : Database} (h : Books s db) (hle : s ≤ s') : Books s' db :=
  ⟨h.winners.mono hle, h.batches, h.opening⟩

section Steps

variable {s : ℕ} {start db db' : Database}

/-- The journal is not part of the books. -/
theorem Books.congr (h : Books s db) (hwinners : db'.winners = db.winners)
    (hallocations : db'.winnerAllocations = db.winnerAllocations)
    (hbatches : db'.payoutBatches = db.payoutBatches) (hledger : db'.ledger = db.ledger)
    (hpolicies : db'.chainPolicies = db.chainPolicies)
    (hsafety : db'.chainSafety = db.chainSafety) : Books s db' :=
  ⟨h.winners.congr hwinners hallocations hledger,
    h.batches.congr hbatches (.of_eq hpolicies hsafety) hledger, h.opening.congr hledger⟩

/-- Payout calls post about batches and opening equity, never about winners. -/
theorem PayoutStep.winnerInv (h : PayoutStep db db') (hinv : WinnerInv s db) : WinnerInv s db' := by
  obtain ⟨new, happend, hnew⟩ : ∃ new, db'.ledger.transactions = db.ledger.transactions ++ new ∧
      ∀ t ∈ new, ∀ key, t.reference ≠ .winner key := by
    obtain ⟨chain, surplusZat, -, hledger⟩ | ⟨new, happend, hnew⟩ := h.posts
    · obtain ⟨new, happend, hnew⟩ := hledger.about
      refine ⟨new, happend, fun t ht key href => ?_⟩
      rw [(hnew t ht).1] at href
      cases href
    · refine ⟨new, happend, fun t ht key href => ?_⟩
      obtain ⟨batchId, hbatch⟩ := hnew t ht
      rw [hbatch] at href
      cases href
  exact hinv.frame h.frame.winners h.frame.winnerAllocations happend hnew

theorem PayoutStep.openingInv (h : PayoutStep db db') (hinv : OpeningInv db) : OpeningInv db' := by
  obtain ⟨chain, surplusZat, hfirst, hledger⟩ | ⟨new, happend, hnew⟩ := h.posts
  · exact hinv.fund hfirst hledger
  · refine hinv.frame happend fun t ht chain href => ?_
    obtain ⟨batchId, hbatch⟩ := hnew t ht
    rw [hbatch] at href
    cases href

theorem EventStep.openingInv (h : EventStep start s db db') (hinv : OpeningInv db) :
    OpeningInv db' := by
  obtain ⟨new, happend, hnew⟩ := h.posts
  refine hinv.frame happend fun t ht chain href => ?_
  obtain ⟨key, hkey⟩ := hnew t ht
  rw [hkey] at href
  cases href

/-- **One step of an event** keeps the books. -/
theorem EventStep.books (h : EventStep start s db db') (hbooks : Books s db) : Books s db' :=
  ⟨h.winnerInv hbooks.winners, h.batchInv hbooks.batches, h.openingInv hbooks.opening⟩

/-- **One step of a payout call** keeps the books. -/
theorem PayoutStep.books (h : PayoutStep db db') (hbooks : Books s db) : Books s db' :=
  ⟨h.winnerInv hbooks.winners, h.batchInv hbooks.batches, h.openingInv hbooks.opening⟩

end Steps

/-! ## §3. The decomposition of a balance -/

/-- The winners of a chain. -/
def Database.winnersOn (db : Database) (chain : Chain) : List WinnerRow :=
  db.winners.rows.filter (·.chain = chain)

/-- The batches of a chain. -/
def Database.batchesOn (db : Database) (chain : Chain) : List PayoutBatchRow :=
  db.payoutBatches.rows.filter (·.chain = chain)

/-- What the postings of a chain can be about. -/
def Database.referencesOn (db : Database) (chain : Chain) : List LedgerReference :=
  (db.winnersOn chain).map (fun w => .winner w.key)
    ++ (db.batchesOn chain).map (fun b => .payout b.id) ++ [.openingPoolEquity chain]

theorem referencesOn_nodup (db : Database) (chain : Chain) : (db.referencesOn chain).Nodup := by
  have hwinners : ((db.winnersOn chain).map fun w => LedgerReference.winner w.key).Nodup := by
    have hkeys : ((db.winnersOn chain).map WinnerRow.key).Nodup :=
      db.winners.nodup.sublist (List.filter_sublist.map _)
    have hrefs := hkeys.map fun a b hab => LedgerReference.winner.inj hab
    rw [List.map_map] at hrefs
    exact hrefs
  have hbatches : ((db.batchesOn chain).map fun b => LedgerReference.payout b.id).Nodup := by
    have hids : ((db.batchesOn chain).map PayoutBatchRow.id).Nodup :=
      db.payoutBatches.nodup.sublist (List.filter_sublist.map _)
    have hrefs := hids.map fun a b hab => LedgerReference.payout.inj hab
    rw [List.map_map] at hrefs
    exact hrefs
  refine List.Nodup.append (List.Nodup.append hwinners hbatches ?_) (List.nodup_singleton _) ?_
  · intro r hw hb
    obtain ⟨w, -, rfl⟩ := List.mem_map.mp hw
    obtain ⟨b, -, hb⟩ := List.mem_map.mp hb
    cases hb
  · intro r hr hopening
    rw [List.mem_singleton] at hopening
    subst hopening
    simp at hr

namespace Books

variable {s : ℕ} {db : Database} {chain : Chain}

/-- Every posting of a chain is about one of its winners, one of its batches or its opening
    equity. -/
theorem mem_referencesOn (h : Books s db) {t : LedgerTransaction}
    (ht : t ∈ db.ledger.transactions) (hchain : t.chain = chain) :
    t.reference ∈ db.referencesOn chain := by
  unfold Database.referencesOn Database.winnersOn Database.batchesOn
  cases href : t.reference with
  | winner key =>
    obtain ⟨hkey, hsome⟩ := h.winners.known t ht key href
    obtain ⟨w, hw⟩ := Option.isSome_iff_exists.mp hsome
    obtain ⟨hmem, rfl⟩ := Table.find_eq_some.mp hw
    have hon : w ∈ db.winners.rows.filter (·.chain = chain) :=
      List.mem_filter.mpr ⟨hmem, by simpa using hkey.symm.trans hchain⟩
    simp only [List.mem_append, List.mem_map]
    exact Or.inl (Or.inl ⟨w, hon, rfl⟩)
  | payout batchId =>
    obtain ⟨b, hb, hbchain⟩ := h.batches.known t ht batchId href
    obtain ⟨hmem, rfl⟩ := Table.find_eq_some.mp hb
    have hon : b ∈ db.payoutBatches.rows.filter (·.chain = chain) :=
      List.mem_filter.mpr ⟨hmem, by simpa using hbchain.symm.trans hchain⟩
    simp only [List.mem_append, List.mem_map]
    exact Or.inl (Or.inr ⟨b, hon, rfl⟩)
  | openingPoolEquity c =>
    obtain ⟨hc, -⟩ := h.opening.known t ht c href
    rw [← hc, hchain]
    simp

/-- What is posted under such a reference is posted on the chain. -/
theorem chain_of_reference (h : Books s db) {r : LedgerReference} (hr : r ∈ db.referencesOn chain)
    {t : LedgerTransaction} (ht : t ∈ db.ledger.transactions) (href : t.reference = r) :
    t.chain = chain := by
  unfold Database.referencesOn at hr
  simp only [List.mem_append, List.mem_map, List.mem_singleton] at hr
  obtain (⟨w, hw, rfl⟩ | ⟨b, hb, rfl⟩) | rfl := hr
  · rw [(h.winners.known t ht w.key href).1]
    simpa using (List.mem_filter.mp hw).2
  · obtain ⟨hmem, hchain⟩ := List.mem_filter.mp hb
    obtain ⟨row, hrow, hrchain⟩ := h.batches.known t ht b.id href
    obtain rfl : b = row := Option.some.inj ((Table.find_of_mem hmem).symm.trans hrow)
    rw [hrchain]
    simpa using hchain
  · exact (h.opening.known t ht chain href).1

/-- **The decomposition.**  A balance of a chain is the sum of what its winners, its batches and
    its opening equity stand for. -/
theorem sumOn_eq (h : Books s db) (chain : Chain) (p : LedgerPlace → Prop) [DecidablePred p] :
    db.sumOn chain p
      = ((db.winnersOn chain).map fun w => sumWhere p (w.effect (firstSplit db w.key))).sum
        + ((db.batchesOn chain).map fun b => sumWhere p b.effect).sum
        + sumWhere p (openingEntries (db.openingEquity chain)) := by
  have hsub : ∀ r ∈ db.referencesOn chain, subledger (fun t : LedgerTransaction => t.entries)
      (fun t => t.reference) r (db.ledger.transactions.filter (·.chain = chain))
        = db.linesUnder r := by
    intro r hr
    unfold Database.linesUnder subledger
    congr 1
    rw [List.filter_filter]
    apply List.filter_congr
    intro t ht
    by_cases href : t.reference = r
    · simp [href, h.chain_of_reference hr ht href]
    · simp [href]
  unfold Database.sumOn Database.linesOn
  rw [sumWhere_flatMap_eq_sum_subledger _ (fun t : LedgerTransaction => t.reference) p
    (referencesOn_nodup db chain)]
  · rw [List.map_congr_left fun r hr => by rw [hsub r hr]]
    unfold Database.referencesOn
    rw [List.map_append, List.map_append, List.sum_append, List.sum_append, List.map_map,
      List.map_map, List.map_singleton, List.sum_singleton, (h.opening.equity chain).2 p]
    congr 2
    · refine congrArg List.sum (List.map_congr_left fun w hw => ?_)
      exact (h.winners.winners w.key w (Table.find_of_mem (List.mem_filter.mp hw).1)).agrees p
    · refine congrArg List.sum (List.map_congr_left fun b hb => ?_)
      exact (h.batches.batches b.id b (Table.find_of_mem (List.mem_filter.mp hb).1)).agrees p
  · intro t ht
    obtain ⟨hmem, hchain⟩ := List.mem_filter.mp ht
    exact h.mem_referencesOn hmem (by simpa using hchain)

end Books

end WcashPool.Store
