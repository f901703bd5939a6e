/-
  WcashPool.Lib.Machine — runs of atomic calls that may fail.

  A call takes the state to a new one and an answer, or fails and is rolled
  back.  A run performs a list of calls in order, whatever each of them
  answers.  The calls that TOOK EFFECT are those whose answer says so; where
  every other answer leaves the state alone, a run with all its failures and
  repetitions ends in the state of the effective calls alone.

  Main results: `run_invariant` and `performAll_effective`.
-/
import Mathlib.Data.List.Basic
import Mathlib.Tactic.Common

namespace Machine

variable {S C R E : Type}

section Runs

variable (step : S → C → Except E (S × R))

/-- One call: a failure leaves the state as it was. -/
def attempt (s : S) (c : C) : S :=
  match step s c with
  | .ok (s', _) => s'
  | .error _ => s

/-- A list of calls, in order. -/
def run (s : S) : List C → S
  | [] => s
  | c :: cs => run (attempt step s c) cs

/-- A step that succeeds. -/
theorem attempt_of_ok {s s' : S} {c : C} {r : R} (h : step s c = .ok (s', r)) :
    attempt step s c = s' := by
  unfold attempt
  rw [h]

/-- A step that fails changes nothing. -/
theorem attempt_of_error {s : S} {c : C} {e : E} (h : step s c = .error e) :
    attempt step s c = s := by
  unfold attempt
  rw [h]

@[simp] theorem run_nil (s : S) : run step s [] = s := rfl

/-- Runs in a row. -/
theorem run_append (s : S) (xs ys : List C) :
    run step s (xs ++ ys) = run step (run step s xs) ys := by
  induction xs generalizing s with
  | nil => rfl
  | cons c xs ih => exact ih (attempt step s c)

theorem run_concat (s : S) (cs : List C) (c : C) :
    run step s (cs ++ [c]) = attempt step (run step s cs) c := run_append step s cs [c]

variable {step} {P : S → Prop}

/-- **Invariant rule.** -/
theorem run_invariant (hstep : ∀ s c s' r, P s → step s c = .ok (s', r) → P s') {s : S} (h : P s)
    (cs : List C) : P (run step s cs) := by
  induction cs generalizing s with
  | nil => exact h
  | cons c cs ih =>
    apply ih
    cases hc : step s c with
    | error e =>
      rw [attempt_of_error step hc]
      exact h
    | ok p =>
      rw [attempt_of_ok step hc]
      exact hstep s c p.1 p.2 h hc

end Runs

section Effective

variable (step : S → C → Except E (S × R)) (tookEffect : R → Bool)

/-- The calls of a run that took effect, in order. -/
def effective (s : S) : List C → List C
  | [] => []
  | c :: cs =>
    match step s c with
    | .ok (s', r) => if tookEffect r then c :: effective s' cs else effective s' cs
    | .error _ => effective s cs

/-- A clean run: every call must succeed and take effect. -/
def performAll (s : S) : List C → Option S
  | [] => some s
  | c :: cs =>
    match step s c with
    | .ok (s', r) => if tookEffect r then performAll s' cs else none
    | .error _ => none

/-- The effective calls are some of the calls. -/
theorem effective_sublist (s : S) (cs : List C) : (effective step tookEffect s cs).Sublist cs := by
  induction cs generalizing s with
  | nil => exact List.Sublist.refl _
  | cons c cs ih =>
    unfold effective
    split
    · split
      · exact (ih _).cons_cons c
      · exact (ih _).cons c
    · exact (ih _).cons c

variable {step tookEffect}

/-- **Refinement.**  Failures and ineffective answers can be dropped from a run. -/
theorem performAll_effective
    (hquiet : ∀ s c s' r, step s c = .ok (s', r) → tookEffect r = false → s' = s)
    (s : S) (cs : List C) :
    performAll step tookEffect s (effective step tookEffect s cs) = some (run step s cs) := by
  induction cs generalizing s with
  | nil => rfl
  | cons c cs ih =>
    unfold effective run
    split
    · next s' r hc =>
      rw [attempt_of_ok step hc]
      cases heffect : tookEffect r with
      | true =>
        rw [if_pos rfl]
        unfold performAll
        rw [hc]
        simp only [heffect, if_true]
        exact ih s'
      | false =>
        have hsame := hquiet s c s' r hc heffect
        subst hsame
        simp only [Bool.false_eq_true, if_false]
        exact ih s'
    · next e hc =>
      rw [attempt_of_error step hc]
      exact ih s

end Effective

end Machine
