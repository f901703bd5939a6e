/-
  WcashPool.Lib.Durable — records in durable files, one file per key.

  A write replaces the file of its key.  It may fail before or after the file
  was replaced, and the writer is told so either way (`WriteAnswer`).  An order
  on records lifts to an order on the files: no record is lost, and each is
  followed only by a later one.
-/
import Mathlib.Logic.Basic
import Mathlib.Tactic.Common
import WcashPool.Lib.Fallible

namespace Durable

open Fallible

variable {K R σ ε : Type}

/-! ## §1. Files -/

/-- The records by key. -/
abbrev Records (K R : Type) := K → Option R

variable {files : Records K R} {key : K} {record : R} {check : K → R → Except ε Unit}

section Put

variable [DecidableEq K]

/-- The file of `key` is replaced. -/
def put (files : Records K R) (key : K) (record : R) : Records K R := fun k =>
  if k = key then some record else files k

@[simp] theorem put_self (files : Records K R) (key : K) (record : R) :
    put files key record key = some record := if_pos rfl

theorem put_of_ne {k : K} (h : k ≠ key) :
    put files key record k = files k := if_neg h

end Put

/-- Read the file of `key`, and check what it holds. -/
def load (check : K → R → Except ε Unit) (files : Records K R) (key : K) : Except ε (Option R) :=
  match files key with
  | none => .ok none
  | some record => do
    check key record
    pure (some record)

/-- What is loaded is stored, and passed its check. -/
theorem load_eq_some (h : load check files key = .ok (some record)) :
    files key = some record ∧ check key record = .ok () := by
  unfold load at h
  split at h
  · cases h
  · next stored hstored =>
    obtain ⟨_, hcheck, h⟩ := bind_eq_ok.mp h
    injection h with h
    obtain rfl := Option.some.inj h
    exact ⟨hstored, hcheck⟩

/-- Nothing is loaded where nothing is stored. -/
theorem load_eq_none (h : load check files key = .ok none) : files key = none := by
  unfold load at h
  split at h
  · next hnone => exact hnone
  · replace h := passed h
    injection h with h
    cases h

/-- A load fails as its check does. -/
theorem load_errors {bad : ε → Prop} (h : ∀ record, ErrorsIn bad (check key record))
    (files : Records K R) : ErrorsIn bad (load check files key) := by
  unfold load
  split
  · exact errorsIn_ok none
  · next record _ => exact .bind (h record) fun _ => errorsIn_ok _

/-! ## §2. What holds of every record -/

/-- Every record satisfies `p`. -/
def All (p : R → Prop) (files : Records K R) : Prop :=
  ∀ key record, files key = some record → p record

/-- One more record that is as it should be. -/
theorem All.put [DecidableEq K] {p : R → Prop} (h : All p files) (hrecord : p record) :
    All p (put files key record) := by
  intro k r hr
  by_cases hk : k = key
  · subst hk
    rw [put_self] at hr
    exact Option.some.inj hr ▸ hrecord
  · exact h k r ((put_of_ne hk).symm.trans hr)

/-! ## §3. The order of records -/

/-- Every record is followed by a later one of its key. -/
def Follows (le : R → R → Prop) (files files' : Records K R) : Prop :=
  ∀ key record, files key = some record → ∃ record', files' key = some record' ∧ le record record'

variable {le : R → R → Prop}

theorem Follows.refl (hrefl : ∀ r, le r r) (files : Records K R) : Follows le files files :=
  fun _ record h => ⟨record, h, hrefl record⟩

/-- Records grow step by step. -/
theorem Follows.trans {a b c : Records K R} (hab : Follows le a b) (hbc : Follows le b c)
    (htrans : ∀ a b c, le a b → le b c → le a c) : Follows le a c := by
  intro key record h
  obtain ⟨record', h', hle⟩ := hab key record h
  obtain ⟨record'', h'', hle'⟩ := hbc key record' h'
  exact ⟨record'', h'', htrans _ _ _ hle hle'⟩

/-- One record grows. -/
theorem Follows.put [DecidableEq K] (hrefl : ∀ r, le r r)
    (h : ∀ old, files key = some old → le old record) :
    Follows le files (put files key record) := by
  intro k r hr
  by_cases hk : k = key
  · subst hk
    exact ⟨record, put_self files k record, h r hr⟩
  · exact ⟨r, (put_of_ne hk).trans hr, hrefl r⟩

/-! ## §4. Writes -/

/-- A write is refused by its own check; or it lands; or it fails, and may have landed. -/
def WriteAnswer (checked : Except ε Unit) (lost : ε) (s written : σ) (answer : Except ε Unit)
    (s' : σ) : Prop :=
  match checked with
  | .error e => answer = .error e ∧ s' = s
  | .ok _ => (answer = .ok () ∧ s' = written) ∨
      (answer = .error lost ∧ (s' = s ∨ s' = written))

variable {checked answer : Except ε Unit} {lost : ε} {s written s' : σ}

/-- An acknowledged write is stored. -/
theorem WriteAnswer.of_ok {u : Unit} (h : WriteAnswer checked lost s written (.ok u) s') :
    s' = written := by
  unfold WriteAnswer at h
  split at h
  · exact absurd h.1 (by simp)
  · obtain ⟨-, hs'⟩ | ⟨herror, -⟩ := h
    · exact hs'
    · cases herror

/-- A failed write failed its check, or was lost. -/
theorem WriteAnswer.of_error {e : ε} (h : WriteAnswer checked lost s written (.error e) s') :
    checked = .error e ∨ e = lost := by
  unfold WriteAnswer at h
  split at h
  · exact .inl (congrArg _ (Except.error.inj h.1).symm)
  · obtain ⟨hok, -⟩ | ⟨herror, -⟩ := h
    · cases hok
    · exact .inr (Except.error.inj herror)

/-- Whatever a write answers, the state is as before or written. -/
theorem WriteAnswer.state (h : WriteAnswer checked lost s written answer s') :
    s' = s ∨ s' = written := by
  unfold WriteAnswer at h
  split at h
  · exact .inl h.2
  · obtain ⟨-, hs'⟩ | ⟨-, hs'⟩ := h
    · exact .inr hs'
    · exact hs'

/-- The write that lands wherever its check allows. -/
def land (checked : Except ε Unit) (s written : σ) : Except ε Unit × σ :=
  match checked with
  | .ok _ => (.ok (), written)
  | .error e => (.error e, s)

theorem land_answers (checked : Except ε Unit) (lost : ε) (s written : σ) :
    WriteAnswer checked lost s written (land checked s written).1 (land checked s written).2 := by
  cases checked with
  | ok u => exact .inl ⟨rfl, rfl⟩
  | error e => exact ⟨rfl, rfl⟩

end Durable
