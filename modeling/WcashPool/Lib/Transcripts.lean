/-
  WcashPool.Lib.Transcripts — machines that answer every call, and what they
  said.

  A machine takes a call to an answer and a new state.  The transcript of a list
  of calls records each call with the state before it, the answer and the state
  after it, so that a property of whole runs is a property of transcripts.

  Main results: `transcript_invariant` and `transcript_split`.
-/
import Mathlib.Data.List.Basic
import Mathlib.Tactic.Common

namespace Transcripts

variable {S C A : Type}

/-- One call, with the states around it. -/
structure Transition (S C A : Type) where
  before : S
  call : C
  answer : A
  after : S

section Runs

variable (perform : S → C → A × S)

/-- The state after a list of calls. -/
def final (s : S) : List C → S
  | [] => s
  | c :: cs => final (perform s c).2 cs

def entry (s : S) (c : C) : Transition S C A := ⟨s, c, (perform s c).1, (perform s c).2⟩

def transcript (s : S) : List C → List (Transition S C A)
  | [] => []
  | c :: cs => entry perform s c :: transcript (perform s c).2 cs

variable {perform}

/-- **Invariant rule**, for properties of the transcript and the state reached. -/
theorem transcript_invariant {P : List (Transition S C A) → S → Prop}
    (hstep : ∀ h s c, P h s → P (h ++ [entry perform s c]) (perform s c).2)
    {h : List (Transition S C A)} {s : S} (hP : P h s) (cs : List C) :
    P (h ++ transcript perform s cs) (final perform s cs) := by
  induction cs generalizing h s with
  | nil => rwa [transcript, List.append_nil]
  | cons c cs ih =>
    have hnext := ih (hstep h s c hP)
    rwa [List.append_assoc] at hnext

/-- **Where an entry comes from.** -/
theorem transcript_split {s : S} {cs : List C} {h₁ h₂ : List (Transition S C A)}
    {t : Transition S C A} (heq : transcript perform s cs = h₁ ++ t :: h₂) :
    ∃ cs₁ c cs₂, cs = cs₁ ++ c :: cs₂ ∧ h₁ = transcript perform s cs₁ ∧
      t = entry perform (final perform s cs₁) c ∧ h₂ = transcript perform t.after cs₂ := by
  induction cs generalizing s h₁ with
  | nil => exact absurd heq (by simp [transcript])
  | cons c cs ih =>
    cases h₁ with
    | nil =>
      rw [transcript, List.nil_append, List.cons.injEq] at heq
      obtain ⟨ht, hrest⟩ := heq
      refine ⟨[], c, cs, rfl, rfl, ht.symm, ?_⟩
      rw [← hrest, ← ht]
      rfl
    | cons t' h₁ =>
      rw [transcript, List.cons_append, List.cons.injEq] at heq
      obtain ⟨ht', hrest⟩ := heq
      obtain ⟨cs₁, d, cs₂, hcs, hh₁, ht, hh₂⟩ := ih hrest
      exact ⟨c :: cs₁, d, cs₂, by rw [hcs, List.cons_append],
        by rw [transcript, ← hh₁, ht'], ht, hh₂⟩

end Runs

end Transcripts
