/-
  WcashPool.Lib.Tasks — asynchronous functions on a state.

  An asynchronous function that owns a state can end in three ways: with a
  value, with an error, or by being DROPPED at one of its waiting points, when
  its caller stops polling it.  What it did to the state before that stays done.
  Such a function is a `Task`: it maps a state to an outcome and the state left
  behind.

  Main results: `bind_eq_done`, `bind_rule`, `Fine.bind`, `Fine.chain` and
  `Ends.bind`.
-/
import Mathlib.Tactic.Common
import Mathlib.Order.Defs.Unbundled

namespace Tasks

/-- How a task ended. -/
inductive Outcome (ε α : Type)
  | done (value : α)
  | failed (error : ε)
  | dropped
deriving DecidableEq, Repr

/-- The value, where there is one. -/
def Outcome.value? {ε α : Type} : Outcome ε α → Option α
  | done value => some value
  | failed _ | dropped => none

def Task (σ ε α : Type) : Type := σ → Outcome ε α × σ

namespace Task

variable {σ ε α β : Type}

instance : Monad (Task σ ε) where
  pure a := fun s => (.done a, s)
  bind t f := fun s =>
    match t s with
    | (.done a, s') => f a s'
    | (.failed e, s') => (.failed e, s')
    | (.dropped, s') => (.dropped, s')

/-- The state as it stands. -/
def get : Task σ ε σ := fun s => (.done s, s)

def modify (f : σ → σ) : Task σ ε Unit := fun s => (.done (), f s)

def fail (e : ε) : Task σ ε α := fun s => (.failed e, s)

/-- The caller stops polling here. -/
def drop : Task σ ε α := fun s => (.dropped, s)

def failIf (bad : Prop) [Decidable bad] (e : ε) : Task σ ε Unit :=
  if bad then fail e else pure ()

def ofExcept : Except ε α → Task σ ε α
  | .ok a => pure a
  | .error e => fail e

/-- The value of an option that must be there. -/
def ofOption (value : Option α) (e : ε) : Task σ ε α :=
  match value with
  | some a => pure a
  | none => fail e

/-! ## §1. Running a chain -/

section Running

variable {s s' : σ} {t : Task σ ε α} {f : α → Task σ ε β}

@[simp] theorem pure_apply (a : α) : (pure a : Task σ ε α) s = (.done a, s) := rfl

theorem bind_apply :
    (t >>= f) s =
      match t s with
      | (.done a, s') => f a s'
      | (.failed e, s') => (.failed e, s')
      | (.dropped, s') => (.dropped, s') := rfl

@[simp] theorem get_bind {f : σ → Task σ ε β} : ((get : Task σ ε σ) >>= f) s = f s s := rfl

@[simp] theorem modify_bind {g : σ → σ} {f : Unit → Task σ ε β} :
    (modify g >>= f) s = f () (g s) := rfl

@[simp] theorem modify_apply {g : σ → σ} : (modify g : Task σ ε Unit) s = (.done (), g s) := rfl

@[simp] theorem fail_apply {e : ε} : (fail e : Task σ ε α) s = (.failed e, s) := rfl

@[simp] theorem fail_bind {e : ε} : ((fail e : Task σ ε α) >>= f) s = (.failed e, s) := rfl

@[simp] theorem pure_bind' (a : α) : ((pure a : Task σ ε α) >>= f) = f a := rfl

@[simp] theorem failIf_bind {bad : Prop} [Decidable bad] {e : ε} {f : Unit → Task σ ε β} :
    (failIf bad e >>= f) s = if bad then (.failed e, s) else f () s := by
  by_cases h : bad <;> simp [failIf, h]

@[simp] theorem failIf_apply {bad : Prop} [Decidable bad] {e : ε} :
    (failIf bad e : Task σ ε Unit) s = if bad then (.failed e, s) else (.done (), s) := by
  by_cases h : bad <;> simp [failIf, h]

/-- **A chain ends with a value only if each of its steps does.** -/
theorem bind_eq_done {b : β} {s'' : σ} :
    (t >>= f) s = (.done b, s'') ↔ ∃ a s', t s = (.done a, s') ∧ f a s' = (.done b, s'') := by
  rw [bind_apply]
  rcases t s with ⟨_ | _ | _, s'⟩ <;> simp

/-- **The rule of a chain**: one case for each way the first step can end. -/
theorem bind_rule {P : Outcome ε β × σ → Prop}
    (hdone : ∀ a s', t s = (.done a, s') → P (f a s'))
    (hfailed : ∀ e s', t s = (.failed e, s') → P (.failed e, s'))
    (hdropped : ∀ s', t s = (.dropped, s') → P (.dropped, s')) : P ((t >>= f) s) := by
  rw [bind_apply]
  rcases ht : t s with ⟨a | e | _, s'⟩
  · exact hdone a s' ht
  · exact hfailed e s' ht
  · exact hdropped s' ht

@[simp] theorem ofExcept_ok (a : α) : (ofExcept (.ok a) : Task σ ε α) = pure a := rfl

@[simp] theorem ofExcept_error (e : ε) : (ofExcept (.error e) : Task σ ε α) = fail e := rfl

@[simp] theorem ofOption_some (a : α) (e : ε) : (ofOption (some a) e : Task σ ε α) = pure a := rfl

@[simp] theorem ofOption_none (e : ε) : (ofOption none e : Task σ ε α) = fail e := rfl

end Running

/-! ## §2. Invariants and forbidden errors -/

/-- The invariant holds afterwards, and the error, if there is one, is not a bad one. -/
def Fine (P : σ → Prop) (bad : ε → Prop) (r : Outcome ε α × σ) : Prop :=
  P r.2 ∧ ∀ e, r.1 = .failed e → ¬ bad e

section Fine

variable {P : σ → Prop} {bad : ε → Prop} {s : σ}

theorem Fine.done {a : α} (h : P s) : Fine P bad (.done a, s) :=
  ⟨h, fun _ heq => nomatch heq⟩

theorem Fine.failed {e : ε} (h : P s) (he : ¬ bad e) : Fine P bad ((.failed e, s) : Outcome ε α × σ) :=
  ⟨h, fun e' heq => by
    cases heq
    exact he⟩

variable {f : α → Task σ ε β} {t : Task σ ε α}

/-- **The rule for a chain** that keeps an invariant. -/
theorem Fine.bind (ht : Fine P bad (t s))
    (hf : ∀ a s', t s = (.done a, s') → P s' → Fine P bad (f a s')) : Fine P bad ((t >>= f) s) := by
  refine bind_rule ?_ ?_ ?_
  · intro a s' h
    exact hf a s' h (by simpa [h] using ht.1)
  · intro e s' h
    exact .failed (by simpa [h] using ht.1) (ht.2 e (by rw [h]))
  · intro s' h
    exact ⟨by simpa [h] using ht.1, fun _ heq => nomatch heq⟩

theorem Fine.mono {Q : σ → Prop} {r : Outcome ε α × σ} (h : Fine P bad r)
    (hmono : ∀ s, P s → Q s) : Fine Q bad r := ⟨hmono _ h.1, h.2⟩

/-- **Chains of moves.**  Each step is measured from the state where it begins. -/
theorem Fine.chain {R : σ → σ → Prop} [IsTrans σ R] (ht : Fine (R s) bad (t s))
    (hf : ∀ a s', t s = (.done a, s') → R s s' → Fine (R s') bad (f a s')) :
    Fine (R s) bad ((t >>= f) s) :=
  .bind ht fun a s' h hmove => (hf a s' h hmove).mono fun _ => IsTrans.trans _ _ _ hmove

/-- A chain that keeps a transitive relation. -/
theorem Fine.next {R : σ → σ → Prop} [IsTrans σ R] (ht : Fine (R s) bad (t s))
    (hf : ∀ {a s'}, Fine (R s') bad (f a s')) :
    Fine (R s) bad ((t >>= f) s) := .chain ht fun _ _ _ _ => hf

end Fine

/-! ## §3. What holds for each way of ending -/

/-- What holds afterwards, by the way the task ended. -/
def Ends (post : α → σ → Prop) (bad : ε → σ → Prop) (lost : σ → Prop) :
    Outcome ε α × σ → Prop
  | (.done a, s) => post a s
  | (.failed e, s) => bad e s
  | (.dropped, s) => lost s

section Ends

variable {post : β → σ → Prop} {bad : ε → σ → Prop} {lost : σ → Prop} {s : σ}

/-- **The rule of a chain** whose steps fail and are dropped alike. -/
theorem Ends.bind {mid : α → σ → Prop} {t : Task σ ε α} {f : α → Task σ ε β}
    (ht : Ends mid bad lost (t s)) (hf : ∀ a s', mid a s' → Ends post bad lost (f a s')) :
    Ends post bad lost ((t >>= f) s) := by
  refine bind_rule ?_ ?_ ?_
  · intro a s' h
    exact hf a s' (by simpa [h, Ends] using ht)
  · intro e s' h
    simpa [h, Ends] using ht
  · intro s' h
    simpa [h, Ends] using ht

variable {r : Outcome ε β × σ}

/-- Weaker postconditions. -/
theorem Ends.mono {post' : β → σ → Prop} {bad' : ε → σ → Prop} {lost' : σ → Prop}
    (h : Ends post bad lost r) (hpost : ∀ b s, post b s → post' b s)
    (hbad : ∀ e s, bad e s → bad' e s) (hlost : ∀ s, lost s → lost' s) :
    Ends post' bad' lost' r := by
  obtain ⟨_ | _ | _, s⟩ := r
  · exact hpost _ _ h
  · exact hbad _ _ h
  · exact hlost _ h

theorem Ends.imp {post' : β → σ → Prop} (h : Ends post bad lost r)
    (hpost : ∀ b s, post b s → post' b s) : Ends post' bad lost r :=
  h.mono hpost (fun _ _ => id) fun _ => id

/-- A guard, and what follows it. -/
theorem Ends.failIf {refused : Prop} [Decidable refused] {e : ε} {f : Unit → Task σ ε β}
    (hbad : bad e s) (hf : ¬ refused → Ends post bad lost (f () s)) :
    Ends post bad lost ((failIf refused e >>= f) s) := by
  rw [failIf_bind]
  split
  case isTrue => exact hbad
  case isFalse hpassed => exact hf hpassed

theorem Ends.of_done (h : Ends post bad lost r) {b : β} (hr : r.1 = .done b) : post b r.2 := by
  obtain ⟨_ | _ | _, s⟩ := r <;> cases hr
  exact h

theorem Ends.of_failed (h : Ends post bad lost r) {e : ε} (hr : r.1 = .failed e) : bad e r.2 := by
  obtain ⟨_ | _ | _, s⟩ := r <;> cases hr
  exact h

/-- What holds whichever way the task ended holds of the state. -/
theorem Ends.state {P : σ → Prop} (h : Ends (fun _ => P) (fun _ => P) P r) : P r.2 := by
  obtain ⟨_ | _ | _, s⟩ := r <;> exact h

end Ends

end Task

end Tasks
