/-
  WcashPool.Store.WinnerLaw — the ledger of a winner is a function of its state.

  The way back of a winner negates lines that it looks up by event and kind.
  The invariant here says that the lookup always finds what it is meant to
  find: whatever happened before, the lines posted under a winner AGREE with
  the effect of the state it is in now, and the two postings that a reversal
  would look up are in the ledger with exactly the lines of the first plan.

  Main results: `EventStep.winnerInv` and `agree_maturedEffect`.
-/
import WcashPool.Store.RecordedPlan

namespace WcashPool.Store

open Accounting DoubleEntry

/-! ## §1. The effect of a state -/

/-- The lines posted under one reference. -/
def Database.linesUnder (db : Database) (r : LedgerReference) : List LedgerEntry :=
  subledger (fun t : LedgerTransaction => t.entries) (fun t => t.reference) r
    db.ledger.transactions

/-- What the pool keeps of a reward. -/
def poolShare (rewardZat : ℕ) (split : List (Uuid × ℕ)) : ℕ := rewardZat - (split.map (·.2)).sum

/-- The net lines that a winner in its state stands for. -/
def WinnerRow.effect (w : WinnerRow) (split : List (Uuid × ℕ)) : List LedgerEntry :=
  match w.state with
  | .observed => observedEntries w.rewardZat split (poolShare w.rewardZat split)
  | .matured => observedEntries w.rewardZat split (poolShare w.rewardZat split)
      ++ maturedEntries w.rewardZat split (poolShare w.rewardZat split)
  | _ => []

variable {w : WinnerRow}

theorem WinnerRow.effect_of_inactive (h : w.state.inactive) (split : List (Uuid × ℕ)) :
    w.effect split = [] := by
  unfold WinnerRow.effect
  cases hstate : w.state <;> simp_all [WinnerState.inactive]

theorem WinnerRow.effect_of_observed (h : w.state = .observed) (split : List (Uuid × ℕ)) :
    w.effect split = observedEntries w.rewardZat split (poolShare w.rewardZat split) := by
  unfold WinnerRow.effect
  rw [h]

theorem WinnerRow.effect_of_matured (h : w.state = .matured) (split : List (Uuid × ℕ)) :
    w.effect split = observedEntries w.rewardZat split (poolShare w.rewardZat split)
      ++ maturedEntries w.rewardZat split (poolShare w.rewardZat split) := by
  unfold WinnerRow.effect
  rw [h]

/-! ## §2. The invariant -/

/-- A posting with this event and kind carries exactly these lines. -/
def Ledger.Holds (ledger : Ledger) (k : ℕ × LedgerKind) (entries : List LedgerEntry) : Prop :=
  ∃ t ∈ ledger.transactions, t.eventKind = some k ∧ t.entries = entries

/-- What an active winner can rely on: the observation that is still in force recorded the first
    plan, and posted it. -/
structure ActiveWinner (db : Database) (key : Chain × Hex32) (w : WinnerRow) (o : ℕ) : Prop where
  seq : w.activeObservationEventSeq = some o
  nonempty : firstSplit db key ≠ []
  recorded : recordedSplit db key o = firstSplit db key
  covered : ((firstSplit db key).map (·.2)).sum ≤ w.rewardZat
  posted : db.ledger.Holds (o, .winnerObserved)
    (observedEntries w.rewardZat (firstSplit db key) (poolShare w.rewardZat (firstSplit db key)))

structure WinnerOk (db : Database) (key : Chain × Hex32) (w : WinnerRow) : Prop where
  observed : w.state = .observed → w.activeMaturityEventSeq = none ∧ ∃ o, ActiveWinner db key w o
  matured : w.state = .matured → ∃ o m, ActiveWinner db key w o ∧
    w.activeMaturityEventSeq = some m ∧ db.ledger.Holds (m, .winnerMatured)
      (maturedEntries w.rewardZat (firstSplit db key) (poolShare w.rewardZat (firstSplit db key)))
  agrees : Agree (db.linesUnder (.winner key)) (w.effect (firstSplit db key))

/-- The invariant, with `s` the last event sequence in use. -/
structure WinnerInv (s : ℕ) (db : Database) : Prop where
  winners : ∀ key w, db.winners.find key = some w → WinnerOk db key w
  known : ∀ t ∈ db.ledger.transactions, ∀ key, t.reference = .winner key →
    t.chain = key.1 ∧ (db.winners.find key).isSome
  recorded : ∀ a ∈ db.winnerAllocations.rows, a.observationEventSeq ≤ s ∧
    ∃ t ∈ db.ledger.transactions, t.eventKind = some (a.observationEventSeq, .winnerObserved) ∧
      t.reference = .winner (a.chain, a.blockHashLe)

theorem WinnerInv.mono {s s' : ℕ} {db : Database} (h : WinnerInv s db) (hle : s ≤ s') :
    WinnerInv s' db :=
  ⟨h.winners, h.known, fun a ha => ⟨(h.recorded a ha).1.trans hle, (h.recorded a ha).2⟩⟩

/-! ## §3. Frames -/

section Frames

variable {db db' : Database} {key : Chain × Hex32} {w : WinnerRow} {new : List LedgerTransaction}

theorem Ledger.Holds.append {ledger ledger' : Ledger}
    (h : ledger'.transactions = ledger.transactions ++ new) {k : ℕ × LedgerKind}
    {entries : List LedgerEntry} (hholds : ledger.Holds k entries) : ledger'.Holds k entries := by
  obtain ⟨t, ht, hk⟩ := hholds
  refine ⟨t, ?_, hk⟩
  rw [h]
  exact List.mem_append_left _ ht

/-- Postings about something else leave a sub-ledger alone. -/
theorem linesUnder_append_of_ne
    (h : db'.ledger.transactions = db.ledger.transactions ++ new) {r : LedgerReference}
    (hnew : ∀ t ∈ new, t.reference ≠ r) : db'.linesUnder r = db.linesUnder r := by
  unfold Database.linesUnder
  rw [h, subledger_append, subledger_of_ne _ _ hnew, List.append_nil]

/-- A posting about `r` appends its lines. -/
theorem linesUnder_extends {posting : Posting} {r : LedgerReference}
    (h : db.ledger.Extends db'.ledger posting) (hr : posting.reference = r) :
    db'.linesUnder r = db.linesUnder r ++ posting.entries := by
  obtain ⟨t, rfl, happend⟩ := h
  unfold Database.linesUnder
  rw [happend, subledger_append]
  congr 1
  exact subledger_singleton _ (fun t : LedgerTransaction => t.reference) hr

/-- What an active winner relies on is in the first plan and in the ledger. -/
theorem ActiveWinner.transport {o : ℕ} {w' : WinnerRow} (h : ActiveWinner db key w o)
    (hseq : w'.activeObservationEventSeq = some o) (hreward : w'.rewardZat = w.rewardZat)
    (hledger : db'.ledger.transactions = db.ledger.transactions ++ new)
    (hfirst : firstSplit db' key = firstSplit db key)
    (hrecorded : recordedSplit db' key o = recordedSplit db key o) :
    ActiveWinner db' key w' o := by
  refine ⟨hseq, ?_, ?_, ?_, ?_⟩
  all_goals rw [hfirst]
  · exact h.nonempty
  · exact hrecorded.trans h.recorded
  · exact hreward ▸ h.covered
  · exact hreward ▸ h.posted.append hledger

/-- A winner that a change is not about keeps what it relies on. -/
theorem WinnerOk.frame (h : WinnerOk db key w)
    (hledger : db'.ledger.transactions = db.ledger.transactions ++ new)
    (hnew : ∀ t ∈ new, t.reference ≠ .winner key)
    (hfirst : firstSplit db' key = firstSplit db key)
    (hrecorded : ∀ o, recordedSplit db' key o = recordedSplit db key o) : WinnerOk db' key w := by
  have hactive {o : ℕ} (h : ActiveWinner db key w o) : ActiveWinner db' key w o :=
    h.transport h.seq rfl hledger hfirst (hrecorded o)
  refine ⟨fun hstate => ?_, fun hstate => ?_, ?_⟩
  · obtain ⟨hmat, o, ho⟩ := h.observed hstate
    exact ⟨hmat, o, hactive ho⟩
  · obtain ⟨o, m, ho, hmat, hposted⟩ := h.matured hstate
    rw [hfirst]
    exact ⟨o, m, hactive ho, hmat, hposted.append hledger⟩
  · rw [linesUnder_append_of_ne hledger hnew, hfirst]
    exact h.agrees

end Frames

/-! ## §4. Every step keeps the invariant -/

/-- The posting of an event about a winner. -/
abbrev winnerPosting (key : Chain × Hex32) (s : ℕ) (kind : LedgerKind)
    (entries : List LedgerEntry) : Posting :=
  ⟨key.1, kind, some s, .winner key, entries⟩

section Preservation

variable {s : ℕ} {db db' : Database} {key : Chain × Hex32} {w : WinnerRow}
  {new : List LedgerTransaction} {posting : Posting} {o : ℕ}

/-- **A change about one winner.**  It rewrites that winner's row, posts only under it and
    records only for it; then the invariant needs a proof for that winner alone. -/
theorem WinnerInv.update (h : WinnerInv s db) (hw : db.winners.find key = some w)
    (f : WinnerRow → WinnerRow) (hf : ∀ w, (f w).key = w.key)
    (hwinners : db'.winners = db.winners.modify key f hf)
    (hledger : db'.ledger.transactions = db.ledger.transactions ++ new)
    (hnew : ∀ t ∈ new, t.reference = .winner key ∧ t.chain = key.1)
    (hfirst : ∀ key' ≠ key, firstSplit db' key' = firstSplit db key')
    (hsplit : ∀ key' ≠ key, ∀ o, recordedSplit db' key' o = recordedSplit db key' o)
    (hrecorded : ∀ a ∈ db'.winnerAllocations.rows, a.observationEventSeq ≤ s ∧
      ∃ t ∈ db'.ledger.transactions, t.eventKind = some (a.observationEventSeq, .winnerObserved) ∧
        t.reference = .winner (a.chain, a.blockHashLe)) (hok : WinnerOk db' key (f w)) :
    WinnerInv s db' := by
  have hfind : ∀ key', db'.winners.find key'
      = if key' = key then some (f w) else db.winners.find key' := by
    intro key'
    rw [hwinners, Table.find_modify, hw]
    rfl
  refine ⟨?_, ?_, hrecorded⟩
  · intro key' w' hw'
    rw [hfind] at hw'
    split at hw'
    · next heq =>
      injection hw' with hw'
      rw [heq, ← hw']
      exact hok
    · next hne =>
      refine (h.winners key' w' hw').frame hledger ?_ (hfirst key' hne) (hsplit key' hne)
      intro t ht heq
      rw [(hnew t ht).1] at heq
      injection heq with heq
      exact hne heq.symm
  · intro t ht key' href
    rw [hledger, List.mem_append] at ht
    rw [hfind]
    cases ht with
    | inl hold =>
      obtain ⟨hchain, hsome⟩ := h.known t hold key' href
      refine ⟨hchain, ?_⟩
      split
      · rfl
      · exact hsome
    | inr hin =>
      obtain ⟨href', hchain⟩ := hnew t hin
      rw [href'] at href
      injection href with href
      subst href
      exact ⟨hchain, by simp⟩

/-- The special case of a change that records nothing. -/
theorem WinnerInv.update_row (h : WinnerInv s db) (hw : db.winners.find key = some w)
    (f : WinnerRow → WinnerRow) (hf : ∀ w, (f w).key = w.key)
    (hwinners : db'.winners = db.winners.modify key f hf)
    (hallocations : db'.winnerAllocations = db.winnerAllocations)
    (hledger : db'.ledger.transactions = db.ledger.transactions ++ new)
    (hnew : ∀ t ∈ new, t.reference = .winner key ∧ t.chain = key.1) (hok : WinnerOk db' key (f w)) :
    WinnerInv s db' := by
  refine h.update hw f hf hwinners hledger hnew (fun key' _ => firstSplit_congr hallocations key')
    (fun key' _ o => recordedSplit_congr hallocations key' o) ?_ hok
  intro a ha
  rw [hallocations] at ha
  obtain ⟨hle, t, ht, hk⟩ := h.recorded a ha
  refine ⟨hle, t, ?_, hk⟩
  rw [hledger]
  exact List.mem_append_left _ ht

/-- A new posting with its event and kind means that nothing carried them before. -/
theorem Ledger.Extends.fresh {ledger ledger' : Ledger} (h : ledger.Extends ledger' posting)
    {k : ℕ × LedgerKind} (hk : posting.eventKind = some k) :
    ∀ t ∈ ledger.transactions, t.eventKind ≠ some k := by
  obtain ⟨t, rfl, happend⟩ := h
  intro u hu heq
  have hnodup := ledger'.eventKinds_nodup
  rw [happend, List.filterMap_append, List.nodup_append] at hnodup
  refine hnodup.2.2 k (List.mem_filterMap.mpr ⟨u, hu, heq⟩) k ?_ rfl
  exact List.mem_filterMap.mpr ⟨t, List.mem_singleton.mpr rfl, hk⟩

theorem Ledger.Extends.holds {ledger ledger' : Ledger} (h : ledger.Extends ledger' posting)
    {k : ℕ × LedgerKind} (hk : posting.eventKind = some k) : ledger'.Holds k posting.entries := by
  obtain ⟨t, rfl, happend⟩ := h
  refine ⟨t, ?_, hk, rfl⟩
  rw [happend]
  simp

/-- An observation records under an event that recorded nothing yet: an older row under this event
    would have its posting in the ledger already. -/
theorem WinnerInv.records (h : WinnerInv s db) {version : ℕ} {plan : AllocationPlan}
    (hrows : db'.winnerAllocations.rows
      = db.winnerAllocations.rows ++ plan.accounts.map (allocationRow key s version))
    (hledger : db.ledger.Extends db'.ledger posting)
    (hkind : posting.eventKind = some (s, .winnerObserved)) :
    Records db db' key s version plan := by
  refine ⟨hrows, fun a ha => ?_⟩
  obtain ⟨hle, t, ht, hk, -⟩ := h.recorded a ha
  refine lt_of_le_of_ne hle fun heq => ?_
  rw [heq] at hk
  exact hledger.fresh hkind t ht hk

/-- Recording a plan under a new event. -/
theorem WinnerInv.observe (h : WinnerInv s db) (hw : db.winners.find key = some w)
    (hstate : w.state.inactive) {plan : AllocationPlan} {version shareEventSeq : ℕ}
    (hplan : winnerAllocationPlan db key w.rewardZat shareEventSeq = .ok (plan, version))
    (hrows : db'.winnerAllocations.rows
      = db.winnerAllocations.rows ++ plan.accounts.map (allocationRow key s version))
    (hledger : db.ledger.Extends db'.ledger (winnerPosting key s .winnerObserved
      (observedEntries w.rewardZat plan.split plan.poolFeeZat)))
    (hwinners : db'.winners = db.winners.modify key (·.enter .observed (some s) none)
      fun _ => rfl) : WinnerInv s db' := by
  obtain ⟨hshape, hrepeat⟩ := winnerAllocationPlan_spec hplan
  have hrecord : Records db db' key s version plan := h.records hrows hledger rfl
  have hfirst := firstSplit_record hrecord hshape.sorted hshape.nonempty hrepeat
  have hentries : observedEntries w.rewardZat plan.split plan.poolFeeZat
      = observedEntries w.rewardZat (firstSplit db' key)
          (poolShare w.rewardZat (firstSplit db' key)) := by
    rw [hfirst, hshape.fee]
    rfl
  have hholds := hledger.holds (k := (s, .winnerObserved)) rfl
  have hlines := linesUnder_extends (r := .winner key) hledger rfl
  obtain ⟨new, happend, hnew⟩ := hledger.about
  refine h.update hw _ _ hwinners happend hnew
    (fun key' hne => firstSplit_record_of_ne hrecord hne) (fun key' hne o => ?_) ?_ ?_
  · unfold recordedSplit
    rw [allocationsAt_record_of_ne hrecord (Or.inl hne)]
  · intro a ha
    rw [hrows, List.mem_append] at ha
    cases ha with
    | inl hold =>
      obtain ⟨hle, u, hu, hk⟩ := h.recorded a hold
      exact ⟨hle, u, by rw [happend]; exact List.mem_append_left _ hu, hk⟩
    | inr hin =>
      obtain ⟨b, -, rfl⟩ := List.mem_map.mp hin
      obtain ⟨t, ht, happend'⟩ := hledger
      exact ⟨Nat.le_refl s, t, by rw [happend']; simp, congrArg Posting.eventKind ht,
        congrArg Posting.reference ht⟩
  · refine ⟨fun _ => ⟨rfl, s, ⟨rfl, ?_, ?_, ?_, ?_⟩⟩, fun hmatured => ?_, ?_⟩
    · rw [hfirst]
      exact hshape.split_ne_nil
    · rw [recordedSplit_record hrecord hshape.sorted, hfirst]
    · rw [hfirst]
      exact hshape.covered
    · rw [WinnerRow.enter_rewardZat, ← hentries]
      exact hholds
    · exact absurd hmatured (by simp [WinnerRow.enter])
    · rw [hlines, WinnerRow.effect_of_observed rfl, WinnerRow.enter_rewardZat]
      -- the winner held nothing, so its lines are those of the new posting
      have hbefore := (h.winners key w hw).agrees
      rw [WinnerRow.effect_of_inactive hstate] at hbefore
      refine (hbefore.append_right _).trans ?_
      rw [List.nil_append, hentries]
      exact Agree.rfl _

theorem WinnerInv.mature (h : WinnerInv s db) (hw : db.winners.find key = some w)
    (hstate : w.state = .observed) (hobs : w.activeObservationEventSeq = some o)
    (hallocations : db'.winnerAllocations = db.winnerAllocations)
    (hledger : db.ledger.Extends db'.ledger (winnerPosting key s .winnerMatured
      (maturedEntries w.rewardZat (recordedSplit db key o)
        (poolShare w.rewardZat (recordedSplit db key o)))))
    (hwinners : db'.winners = db.winners.modify key (·.enter .matured (some o) (some s))
      fun _ => rfl) : WinnerInv s db' := by
  have hok := h.winners key w hw
  obtain ⟨-, o', hactive⟩ := hok.observed hstate
  obtain rfl : o = o' := Option.some.inj (hobs.symm.trans hactive.seq)
  obtain ⟨new, happend, hnew⟩ := hledger.about
  have hfirst := firstSplit_congr hallocations key
  have hlines := linesUnder_extends (r := .winner key) hledger rfl
  have hholds := hledger.holds (k := (s, .winnerMatured)) rfl
  rw [hactive.recorded] at hlines hholds
  refine h.update_row hw _ _ hwinners hallocations happend hnew ⟨fun hobserved => ?_, fun _ => ?_, ?_⟩
  · exact absurd hobserved (by simp [WinnerRow.enter])
  · rw [hfirst]
    exact ⟨o, s, hactive.transport rfl rfl happend (firstSplit_congr hallocations key)
      (recordedSplit_congr hallocations key o), rfl, hholds⟩
  · rw [hlines, hfirst, WinnerRow.effect_of_matured rfl, WinnerRow.enter_rewardZat]
    have hbefore := hok.agrees
    rw [WinnerRow.effect_of_observed hstate] at hbefore
    exact hbefore.append_right _

theorem WinnerInv.demature (h : WinnerInv s db) (hw : db.winners.find key = some w)
    (hstate : w.state = .matured) {m : ℕ} (hobs : w.activeObservationEventSeq = some o)
    (hmat : w.activeMaturityEventSeq = some m)
    (hallocations : db'.winnerAllocations = db.winnerAllocations)
    (hledger : db.ledger.Extends db'.ledger (winnerPosting key s .winnerDematured
      (negate (db.ledger.postedBy [(m, .winnerMatured)]))))
    (hwinners : db'.winners = db.winners.modify key (·.enter .observed (some o) none)
      fun _ => rfl) : WinnerInv s db' := by
  have hok := h.winners key w hw
  obtain ⟨o', m', hactive, hmat', t, ht, hk, hentries⟩ := hok.matured hstate
  obtain rfl : o = o' := Option.some.inj (hobs.symm.trans hactive.seq)
  obtain rfl : m = m' := Option.some.inj (hmat.symm.trans hmat')
  obtain ⟨new, happend, hnew⟩ := hledger.about
  have hlines := linesUnder_extends (r := .winner key) hledger rfl
  -- the lookup finds the lines of the maturity that is in force
  rw [Ledger.postedBy_singleton ht hk, hentries] at hlines
  refine h.update_row hw _ _ hwinners hallocations happend hnew ⟨fun _ => ?_, fun hmatured => ?_, ?_⟩
  · exact ⟨rfl, o, hactive.transport rfl rfl happend (firstSplit_congr hallocations key)
      (recordedSplit_congr hallocations key o)⟩
  · exact absurd hmatured (by simp [WinnerRow.enter])
  · rw [hlines, firstSplit_congr hallocations, WinnerRow.effect_of_observed rfl,
      WinnerRow.enter_rewardZat]
    have hbefore := hok.agrees
    rw [WinnerRow.effect_of_matured hstate] at hbefore
    exact hbefore.append_negate

/-- The lookup of a reversal finds what the winner's state stands for. -/
theorem WinnerOk.agree_postedBy (h : WinnerOk db key w) (hstate : w.state.inactive = false)
    (hobs : w.activeObservationEventSeq = some o) :
    Agree (w.effect (firstSplit db key)) (db.ledger.postedBy (w.postings o)) := by
  unfold WinnerRow.postings
  cases hcase : w.state with
  | observed =>
    obtain ⟨hmat, o', hactive⟩ := h.observed hcase
    obtain rfl : o = o' := Option.some.inj (hobs.symm.trans hactive.seq)
    obtain ⟨t, ht, hk, hentries⟩ := hactive.posted
    rw [WinnerRow.effect_of_observed hcase, hmat]
    show Agree _ (db.ledger.postedBy [(o, .winnerObserved)])
    rw [Ledger.postedBy_singleton ht hk, hentries]
    exact Agree.rfl _
  | matured =>
    obtain ⟨o', m, hactive, hmat, u, hu, hk', hentries'⟩ := h.matured hcase
    obtain rfl : o = o' := Option.some.inj (hobs.symm.trans hactive.seq)
    obtain ⟨t, ht, hk, hentries⟩ := hactive.posted
    rw [WinnerRow.effect_of_matured hcase, hmat, ← hentries, ← hentries']
    exact (Ledger.agree_postedBy_pair ht hk hu hk' (by simp)).symm
  | submitted | sideChain | quarantined | requeued | orphaned =>
    rw [hcase] at hstate
    exact absurd hstate (by simp [WinnerState.inactive])

theorem WinnerInv.reverse (h : WinnerInv s db) (hw : db.winners.find key = some w)
    (hstate : w.state.inactive = false) (hobs : w.activeObservationEventSeq = some o)
    {kind : LedgerKind} {next : WinnerState} (hnext : next.inactive)
    (hallocations : db'.winnerAllocations = db.winnerAllocations)
    (hledger : db.ledger.Extends db'.ledger (winnerPosting key s kind
      (negate (db.ledger.postedBy (w.postings o)))))
    (hwinners : db'.winners = db.winners.modify key (·.enter next none none) fun _ => rfl) :
    WinnerInv s db' := by
  have hok := h.winners key w hw
  obtain ⟨new, happend, hnew⟩ := hledger.about
  have hlines := linesUnder_extends (r := .winner key) hledger rfl
  refine h.update_row hw _ _ hwinners hallocations happend hnew
    ⟨fun hobserved => ?_, fun hmatured => ?_, ?_⟩
  · rw [show next = .observed from hobserved] at hnext
    exact absurd hnext (by simp [WinnerState.inactive])
  · rw [show next = .matured from hmatured] at hnext
    exact absurd hnext (by simp [WinnerState.inactive])
  · rw [hlines,
      WinnerRow.effect_of_inactive (show (w.enter next none none).state.inactive from hnext)]
    have hall : Agree (db.linesUnder (.winner key))
        ([] ++ db.ledger.postedBy (w.postings o)) :=
      hok.agrees.trans (hok.agree_postedBy hstate hobs)
    exact hall.append_negate

/-- **A change about something else**: nothing is recorded, and nothing posted under a winner. -/
theorem WinnerInv.frame (h : WinnerInv s db) (hwinners : db'.winners = db.winners)
    (hallocations : db'.winnerAllocations = db.winnerAllocations)
    (hledger : db'.ledger.transactions = db.ledger.transactions ++ new)
    (hnew : ∀ t ∈ new, ∀ key, t.reference ≠ .winner key) : WinnerInv s db' := by
  refine ⟨fun key w hw => ?_, fun t ht key href => ?_, fun a ha => ?_⟩
  · rw [hwinners] at hw
    exact (h.winners key w hw).frame hledger (fun t ht => hnew t ht key)
      (firstSplit_congr hallocations key) (recordedSplit_congr hallocations key)
  · rw [hledger, List.mem_append] at ht
    rw [hwinners]
    cases ht with
    | inl hold => exact h.known t hold key href
    | inr hin => exact absurd href (hnew t hin key)
  · rw [hallocations] at ha
    obtain ⟨hle, t, ht, hk⟩ := h.recorded a ha
    refine ⟨hle, t, ?_, hk⟩
    rw [hledger]
    exact List.mem_append_left _ ht

/-- The special case without any posting. -/
theorem WinnerInv.congr (h : WinnerInv s db) (hwinners : db'.winners = db.winners)
    (hallocations : db'.winnerAllocations = db.winnerAllocations)
    (hledger : db'.ledger = db.ledger) : WinnerInv s db' := by
  have happend : db'.ledger.transactions = db.ledger.transactions ++ [] := by
    rw [hledger, List.append_nil]
  exact h.frame hwinners hallocations happend (by simp)

theorem WinnerInv.claim (h : WinnerInv s db) {winners : Table WinnerRow.key}
    (hinsert : db.winners.insert w = some winners) (hstate : w.state = .submitted) :
    WinnerInv s { db with winners := winners } := by
  have hfresh := (Table.insert_eq_some hinsert).1
  have hfind := Table.find_insert hinsert
  refine ⟨fun key w' hw' => ?_, fun t ht key href => ?_, h.recorded⟩
  · rw [hfind] at hw'
    split at hw'
    · next hkey =>
      injection hw' with hw'
      subst hw' hkey
      refine ⟨fun hobserved => ?_, fun hmatured => ?_, ?_⟩
      · exact absurd (hstate.symm.trans hobserved) (by simp)
      · exact absurd (hstate.symm.trans hmatured) (by simp)
      · -- nobody can have posted about a reward without a row
        have hnone : db.linesUnder (.winner w.key) = [] := by
          refine subledger_of_ne _ _ fun t ht href => ?_
          have hsome := (h.known t ht w.key href).2
          rw [hfresh] at hsome
          cases hsome
        rw [WinnerRow.effect_of_inactive (by rw [hstate]; rfl)]
        show Agree (db.linesUnder (.winner w.key)) []
        rw [hnone]
        exact Agree.rfl _
    · exact (h.winners key w' hw').frame (List.append_nil _).symm (by simp) rfl (fun _ => rfl)
  · obtain ⟨hchain, hsome⟩ := h.known t ht key href
    refine ⟨hchain, ?_⟩
    rw [hfind]
    split
    · rfl
    · exact hsome

/-- A row change that keeps state, reward and postings. -/
theorem WinnerInv.select (h : WinnerInv s db) (key : Chain × Hex32) (shareId : Hex32) :
    WinnerInv s { db with
      winners := db.winners.modify key
        (fun w => { w with activeProofShareId := some shareId }) fun _ => rfl } := by
  cases hw : db.winners.find key with
  | none =>
    -- no row has this key, and nothing changes
    rw [Table.modify_of_find_none hw]
    exact h
  | some w =>
    have hok := h.winners key w hw
    refine h.update_row hw (fun w => { w with activeProofShareId := some shareId })
      (fun _ => rfl) rfl rfl (List.append_nil _).symm (by simp) ⟨?_, ?_, hok.agrees⟩
    · intro hstate
      obtain ⟨hmat, o, hactive⟩ := hok.observed hstate
      exact ⟨hmat, o, hactive.transport hactive.seq rfl (List.append_nil _).symm rfl rfl⟩
    · intro hstate
      obtain ⟨o, m, hactive, hmat, hposted⟩ := hok.matured hstate
      exact ⟨o, m, hactive.transport hactive.seq rfl (List.append_nil _).symm rfl rfl, hmat, hposted⟩

theorem WinnerInv.rest (h : WinnerInv s db) (hw : db.winners.find key = some w)
    (hstate : w.state.inactive) {next : WinnerState} (hnext : next.inactive) :
    WinnerInv s { db with
      winners := db.winners.modify key (·.enter next none none) fun _ => rfl } := by
  refine h.update_row hw (·.enter next none none) (fun _ => rfl) rfl rfl
    (List.append_nil _).symm (by simp)
    ⟨fun hobserved => ?_, fun hmatured => ?_, ?_⟩
  · rw [show next = .observed from hobserved] at hnext
    exact absurd hnext (by simp [WinnerState.inactive])
  · rw [show next = .matured from hmatured] at hnext
    exact absurd hnext (by simp [WinnerState.inactive])
  · rw [WinnerRow.effect_of_inactive (show (w.enter next none none).state.inactive from hnext)]
    have hbefore := (h.winners key w hw).agrees
    rw [WinnerRow.effect_of_inactive hstate] at hbefore
    exact hbefore

/-- **One step** of the event `s` keeps the invariant. -/
theorem EventStep.winnerInv {start : Database} (h : EventStep start s db db')
    (hinv : WinnerInv s db) : WinnerInv s db' := by
  cases h with
  | records => exact hinv.congr rfl rfl rfl
  | claim w winners hinsert hstate => exact hinv.claim hinsert hstate
  | select key shareId => exact hinv.select key shareId
  | rest key w next hw hstate hnext => exact hinv.rest hw hstate hnext
  | freeze => exact hinv.congr rfl rfl rfl
  | observe key w share plan version allocations ledger hw hstate hshare horigin hplan hrows
      hledger =>
    exact hinv.observe hw hstate hplan hrows hledger rfl
  | mature key w o ledger hw hstate hobs hledger =>
    exact hinv.mature hw hstate hobs rfl hledger rfl
  | demature key w o m ledger hw hstate hobs hmat hexposed hledger =>
    exact hinv.demature hw hstate hobs hmat rfl hledger rfl
  | reverse key w o kind next ledger hw hstate hobs hnext hexposed hledger =>
    exact hinv.reverse hw hstate hobs hnext rfl hledger rfl

/-- **A whole event** keeps it. -/
theorem EventSteps.winnerInv {start : Database} (h : EventSteps start s db db')
    (hinv : WinnerInv s db) : WinnerInv s db' := by
  induction h with
  | refl => exact hinv
  | tail _ hstep ih => exact hstep.winnerInv ih

end Preservation

/-! ## §5. What a winner adds to each question -/

section Balances

variable (p : LedgerPlace → Prop) [DecidablePred p]

theorem sumWhere_observedEntries (rewardZat : ℕ) (split : List (Uuid × ℕ)) (poolFeeZat : ℕ) :
    sumWhere p (observedEntries rewardZat split poolFeeZat)
      = (if p .collectorImmatureAsset then (rewardZat : ℤ) else 0)
        - splitAt p .minerImmature split - (if p .poolFeeUnearned then (poolFeeZat : ℤ) else 0) := by
  unfold observedEntries
  rw [sumWhere_append, sumWhere_append, sumWhere_split_neg, sumWhere_fee, sumWhere_cons, sumWhere_nil]
  ring

/-- The effect of a matured winner: nothing is left immature. -/
def maturedEffect (rewardZat : ℕ) (split : List (Uuid × ℕ)) (poolFeeZat : ℕ) :
    List LedgerEntry :=
  [⟨.collectorSpendableAsset, rewardZat⟩]
    ++ (split.filter (0 < ·.2)).map (fun s => ⟨.minerPayable s.1, -s.2⟩)
    ++ if 0 < poolFeeZat then [⟨.poolEquity, -poolFeeZat⟩] else []

theorem sumWhere_maturedEffect (rewardZat : ℕ) (split : List (Uuid × ℕ)) (poolFeeZat : ℕ) :
    sumWhere p (maturedEffect rewardZat split poolFeeZat)
      = (if p .collectorSpendableAsset then (rewardZat : ℤ) else 0)
        - splitAt p .minerPayable split - (if p .poolEquity then (poolFeeZat : ℤ) else 0) := by
  unfold maturedEffect
  rw [sumWhere_append, sumWhere_append, sumWhere_split_neg, sumWhere_fee, sumWhere_cons, sumWhere_nil]
  ring

/-- Observation and maturity together cancel on every immature line. -/
theorem agree_maturedEffect (rewardZat : ℕ) (split : List (Uuid × ℕ)) (poolFeeZat : ℕ) :
    Agree (observedEntries rewardZat split poolFeeZat ++ maturedEntries rewardZat split poolFeeZat)
      (maturedEffect rewardZat split poolFeeZat) := by
  intro p _
  rw [sumWhere_append, sumWhere_observedEntries, sumWhere_maturedEffect]
  unfold maturedEntries
  rw [sumWhere_append, sumWhere_append, sumWhere_flatMap_pair, sumWhere_split, sumWhere_split_neg,
    sumWhere_feePair]
  simp only [sumWhere_cons, sumWhere_nil]
  by_cases himmature : p .collectorImmatureAsset
  · simp only [himmature, if_true]
    ring
  · simp only [himmature, if_false]
    ring

end Balances

end WcashPool.Store
