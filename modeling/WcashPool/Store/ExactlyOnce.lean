/-
  WcashPool.Store.ExactlyOnce — arbitrary delivery against one clean replay.

  Events may reach the projector repeated, out of order, with gaps or with
  conflicting content, and any sub-operation may fail.  The journal that is
  stored is nevertheless contiguous, and the database is the one that a clean
  projection of exactly that journal produces.

  Main results: `journal_of_run` and `projection_exactly_once`.
-/
import WcashPool.Lib.Machine
import WcashPool.Store.WinnerLifecycle

namespace WcashPool.Store

open Protocol Machine

/-! ## §1. Calls of the projector -/

/-- One call: the delivered event, and what the store draws if it has to post. -/
structure ProjectionCall where
  event : BackendEvent
  draw : LedgerKind → LedgerDraw

def projectCall (cfg : Config) (db : Database) (call : ProjectionCall) :
    Except StoreError (Database × ProjectionResult) :=
  projectOne cfg db call.draw call.event

def ProjectionResult.isApplied : ProjectionResult → Bool
  | .applied => true
  | .replayed => false

/-- The calls of a run that were answered with `applied`. -/
abbrev appliedCalls (cfg : Config) (db : Database) (calls : List ProjectionCall) :
    List ProjectionCall :=
  effective (projectCall cfg) ProjectionResult.isApplied db calls

/-- The journal row of a call. -/
def journalRow (cfg : Config) (call : ProjectionCall) : EventRow :=
  ⟨call.event.eventSeq, call.event, payloadHash cfg.ext call.event⟩

section Step

variable {cfg : Config} {db db' : Database} {call : ProjectionCall} {r : ProjectionResult}

/-- An answer other than `applied` left the database alone. -/
theorem projectCall_quiet (h : projectCall cfg db call = .ok (db', r))
    (hquiet : r.isApplied = false) : db' = db := by
  obtain ⟨-, hsame, -⟩ | ⟨rfl, -⟩ := projectOne_spec h
  · exact hsame
  · exact absurd hquiet (by simp [ProjectionResult.isApplied])

/-- An applied call appends its own journal row and moves the cursor onto it. -/
theorem projectCall_applied (h : projectCall cfg db call = .ok (db', .applied)) :
    call.event.eventSeq = db.lastEventSeq + 1 ∧ db'.lastEventSeq = db.lastEventSeq + 1 ∧
      db'.backendEvents.rows = db.backendEvents.rows ++ [journalRow cfg call] := by
  obtain ⟨hr, -⟩ | ⟨-, hseq, events, mid, hinsert, happly, rfl⟩ := projectOne_spec h
  · cases hr
  · have hframe := (applyEvent_steps happly).frame
    refine ⟨hseq, hseq, ?_⟩
    show mid.backendEvents.rows = _
    rw [hframe.backendEvents]
    exact (Table.insert_eq_some hinsert).2

end Step

/-! ## §2. Runs -/

/-- **The journal of a run** is what was there, followed by the applied calls in order, numbered
    from the cursor on. -/
theorem journal_of_run (cfg : Config) (db : Database) (calls : List ProjectionCall) :
    (run (projectCall cfg) db calls).backendEvents.rows
        = db.backendEvents.rows ++ (appliedCalls cfg db calls).map (journalRow cfg) ∧
      (run (projectCall cfg) db calls).lastEventSeq
        = db.lastEventSeq + (appliedCalls cfg db calls).length ∧
      (appliedCalls cfg db calls).map (·.event.eventSeq)
        = List.range' (db.lastEventSeq + 1) (appliedCalls cfg db calls).length := by
  induction calls generalizing db with
  | nil => simp [effective]
  | cons call calls ih =>
    unfold appliedCalls at ih ⊢
    unfold effective run
    split
    · next db' r hcall =>
      rw [attempt_of_ok _ hcall]
      obtain ⟨hrows, hlast, hseqs⟩ := ih db'
      cases r with
      | replayed =>
        have hsame := projectCall_quiet hcall rfl
        subst hsame
        exact ⟨hrows, hlast, hseqs⟩
      | applied =>
        obtain ⟨hseq, hlast', hrows'⟩ := projectCall_applied hcall
        simp only [ProjectionResult.isApplied, if_true, List.map_cons, List.length_cons]
        refine ⟨?_, ?_, ?_⟩
        · rw [hrows, hrows', List.append_assoc]
          rfl
        · rw [hlast, hlast']
          omega
        · rw [hseqs, hseq, hlast', List.range'_succ]
    · next e hcall =>
      rw [attempt_of_error _ hcall]
      exact ih db

/-- **Exactly-once projection.**  From an empty journal and any cursor, whatever is delivered:
    the stored events are the applied ones, without a gap from the cursor on; projecting exactly
    them once, in order, gives the very same database; an error leaves everything as it was; and
    `replayed` is answered only where the identical event is stored.  The last part needs that
    the payload hash tells the delivered events apart. -/
theorem projection_exactly_once (cfg : Config) (db : Database) (calls : List ProjectionCall)
    (hempty : db.backendEvents.rows = [])
    (hcollision : ∀ c ∈ calls, ∀ d ∈ calls,
      payloadHash cfg.ext c.event = payloadHash cfg.ext d.event → c.event = d.event) :
    (appliedCalls cfg db calls).Sublist calls ∧
    (run (projectCall cfg) db calls).backendEvents.rows.map (·.payload)
      = (appliedCalls cfg db calls).map (·.event) ∧
    (run (projectCall cfg) db calls).backendEvents.rows.map (·.eventSeq)
      = List.range' (db.lastEventSeq + 1) (appliedCalls cfg db calls).length ∧
    (run (projectCall cfg) db calls).lastEventSeq
      = db.lastEventSeq + (appliedCalls cfg db calls).length ∧
    performAll (projectCall cfg) ProjectionResult.isApplied db (appliedCalls cfg db calls)
      = some (run (projectCall cfg) db calls) ∧
    (∀ before call after, calls = before ++ call :: after →
      (∀ e, projectCall cfg (run (projectCall cfg) db before) call = .error e →
        run (projectCall cfg) db (before ++ [call]) = run (projectCall cfg) db before) ∧
      (∀ db', projectCall cfg (run (projectCall cfg) db before) call = .ok (db', .replayed) →
        db' = run (projectCall cfg) db before ∧
        ∃ row, (run (projectCall cfg) db before).backendEvents.find call.event.eventSeq = some row ∧
          row.payload = call.event)) := by
  obtain ⟨hrows, hlast, hseqs⟩ := journal_of_run cfg db calls
  rw [hempty, List.nil_append] at hrows
  refine ⟨effective_sublist _ _ db calls, ?_, ?_, hlast, ?_, ?_⟩
  · rw [hrows, List.map_map]
    rfl
  · rw [hrows, List.map_map]
    exact hseqs
  · exact performAll_effective (fun _ _ _ _ hcall hquiet => projectCall_quiet hcall hquiet) db calls
  · intro before call after hsplit
    refine ⟨fun e herror => ?_, fun db' hreplayed => ?_⟩
    · rw [run_concat, attempt_of_error _ herror]
    · obtain ⟨-, hsame, row, hrow, hhash⟩ | ⟨happlied, -⟩ := projectOne_spec hreplayed
      · refine ⟨hsame, row, hrow, ?_⟩
        -- the stored row belongs to an earlier call of this run
        have hmem := Table.mem_of_find hrow
        rw [(journal_of_run cfg db before).1, hempty, List.nil_append] at hmem
        obtain ⟨stored, hstored, rfl⟩ := List.mem_map.mp hmem
        have hbefore : stored ∈ before := (effective_sublist _ _ db before).mem hstored
        apply hcollision stored _ call _ hhash
        · rw [hsplit]
          exact List.mem_append_left _ hbefore
        · rw [hsplit]
          simp
      · cases happlied

/-- Serialisers for worked runs: the digest of an event is its sequence number. -/
def seqDigest : External where
  sha256 := fun bytes => BitVec.ofNat _ bytes.length
  toJson := fun event => List.replicate event.eventSeq 0

def sampleConfig : Config := ⟨seqDigest, 1, .regtest, true⟩

/-- A run with a repeated event and a gap: two of the four calls are applied. -/
def closings : List ProjectionCall :=
  [⟨.generationClosed 1 1, fun _ => ⟨1, 0⟩⟩, ⟨.generationClosed 1 1, fun _ => ⟨2, 0⟩⟩,
    ⟨.generationClosed 3 1, fun _ => ⟨3, 0⟩⟩, ⟨.generationClosed 2 1, fun _ => ⟨4, 0⟩⟩]

theorem projection_exactly_once_closings :
    (run (projectCall sampleConfig) (Database.bootstrap 0 ⟨none, none⟩) closings).lastEventSeq = 2 ∧
      (run (projectCall sampleConfig) (Database.bootstrap 0 ⟨none, none⟩)
        closings).backendEvents.rows.map (·.eventSeq) = [1, 2] := by
  have h := projection_exactly_once sampleConfig (Database.bootstrap 0 ⟨none, none⟩) closings rfl
    (by decide)
  have hlength : (appliedCalls sampleConfig (Database.bootstrap 0 ⟨none, none⟩) closings).length
      = 2 := by decide +kernel
  rw [hlength] at h
  exact ⟨h.2.2.2.1, h.2.2.1⟩

/-! ## §3. Pages -/

def maxReplayBatch : ℕ := 1024

/-- The loop over a page: one transaction per event, and a stop at the first error. -/
def projectPage (cfg : Config) :
    Database → List ProjectionCall → Database × Except StoreError Unit
  | db, [] => (db, .ok ())
  | db, call :: calls =>
    match projectCall cfg db call with
    | .ok (db', _) => projectPage cfg db' calls
    | .error e => (db, .error e)

/-- A bounded contiguous historical page. -/
def projectReplayPage (cfg : Config) (db : Database) (calls : List ProjectionCall) :
    Database × Except StoreError Unit :=
  if calls.length > maxReplayBatch then (db, .error (.replayBatchTooLarge calls.length))
  else projectPage cfg db calls

/-- **A page is a run**: what it leaves behind is the run of the calls before its first error,
    so exactly-once projection covers pages too. -/
theorem projectPage_eq_run (cfg : Config) (db : Database) (calls : List ProjectionCall) :
    ∃ n, (projectPage cfg db calls).1 = run (projectCall cfg) db (calls.take n) := by
  induction calls generalizing db with
  | nil => exact ⟨0, rfl⟩
  | cons call calls ih =>
    unfold projectPage
    split
    · next db' r hcall =>
      obtain ⟨n, hn⟩ := ih db'
      refine ⟨n + 1, ?_⟩
      rw [hn, List.take_succ_cons, run, attempt_of_ok _ hcall]
    · exact ⟨0, rfl⟩

end WcashPool.Store
