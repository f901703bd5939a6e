/-
  WcashPool.Lib.Fallible — computations that succeed with a value or fail with
  a named error.

  A transaction body is a chain of guarded steps over `Except ε`: the first
  failing step decides the error, and a success means that EVERY step
  succeeded.  This file gives the inversion rule that peels such a chain apart
  one step at a time (`bind_eq_ok`), the guard `rejectIf`, and the checked
  fixed-width arithmetic that answers with an error where the machine operation
  would leave its range.
-/
import Mathlib.Algebra.Group.Nat.Defs
import Mathlib.Data.Nat.Basic
import Mathlib.Tactic.Common

namespace Fallible

variable {ε α β : Type}

/-! ## §1. Peeling a chain of steps -/

variable {x : Except ε α} {f : α → Except ε β}

/-- **Bind inversion.**  A chain succeeds exactly when its first step succeeds
    and the rest succeeds on the value of that step. -/
theorem bind_eq_ok {r : β} :
    (x >>= f) = .ok r ↔ ∃ a, x = .ok a ∧ f a = .ok r := by
  cases x with
  | error e => simp [bind, Except.bind]
  | ok a => simp [bind, Except.bind]

/-- What follows a passed check. -/
theorem passed {rest : Except ε β} {r : β} (h : (x >>= fun _ => rest) = .ok r) : rest = .ok r :=
  (bind_eq_ok.mp h).choose_spec.2

/-- Two results of a pair are equal part by part. -/
theorem ok_pair_inj {a a' : α} {b b' : β} (h : (.ok (a, b) : Except ε (α × β)) = .ok (a', b')) :
    a = a' ∧ b = b' := Prod.mk.inj (Except.ok.inj h)

variable {e : ε}

/-- A chain fails exactly when its first step fails, or that step succeeds and the rest
    fails on its value. -/
theorem bind_eq_error :
    (x >>= f) = .error e ↔ x = .error e ∨ ∃ a, x = .ok a ∧ f a = .error e := by
  cases x with
  | error e' => simp [bind, Except.bind]
  | ok a => simp [bind, Except.bind]

@[simp] theorem ok_bind (a : α) (f : α → Except ε β) :
    ((Except.ok a : Except ε α) >>= f) = f a := rfl

@[simp] theorem error_bind (e : ε) (f : α → Except ε β) :
    ((Except.error e : Except ε α) >>= f) = .error e := rfl

@[simp] theorem pure_eq_ok (a : α) : (pure a : Except ε α) = .ok a := rfl

/-- Renaming the error of a step keeps its successes. -/
theorem mapError_eq_ok {ε' : Type} {f : ε → ε'} {a : α} :
    x.mapError f = .ok a ↔ x = .ok a := by
  cases x with
  | error e => simp [Except.mapError]
  | ok b => simp [Except.mapError]

/-- Changing the value of a step keeps its successes. -/
theorem map_eq_ok {f : α → β} {b : β} :
    x.map f = .ok b ↔ ∃ a, x = .ok a ∧ f a = b := by
  cases x with
  | error e => simp [Except.map]
  | ok a => simp [Except.map]

/-- Every value that a successful traversal collects is the value of some element. -/
theorem exists_of_mem_mapM {xs : List α} {ys : List β} (h : xs.mapM f = .ok ys) {y : β}
    (hy : y ∈ ys) : ∃ x ∈ xs, f x = .ok y := by
  induction xs generalizing ys with
  | nil =>
    rw [List.mapM_nil, pure_eq_ok] at h
    injection h with h
    subst h
    cases hy
  | cons x xs ih =>
    rw [List.mapM_cons] at h
    obtain ⟨b, hb, h⟩ := bind_eq_ok.mp h
    obtain ⟨bs, hbs, h⟩ := bind_eq_ok.mp h
    injection h with h
    subst h
    cases List.mem_cons.mp hy with
    | inl heq => exact ⟨x, List.mem_cons_self, heq ▸ hb⟩
    | inr hmem =>
      obtain ⟨x', hx', hfx⟩ := ih hbs hmem
      exact ⟨x', List.mem_cons_of_mem _ hx', hfx⟩

/-- A traversal whose steps succeed on the elements with `p`, with the value of `g`. -/
theorem mapM_eq_ok {p : α → Prop} {g : α → β} (hf : ∀ x {y}, f x = .ok y ↔ p x ∧ y = g x)
    {xs : List α} {ys : List β} :
    xs.mapM f = .ok ys ↔ (∀ x ∈ xs, p x) ∧ ys = xs.map g := by
  induction xs generalizing ys with
  | nil => simp [eq_comm]
  | cons x xs ih =>
    rw [List.mapM_cons, bind_eq_ok]
    simp only [bind_eq_ok, hf, ih, pure_eq_ok, Except.ok.injEq, List.forall_mem_cons, List.map_cons]
    constructor
    · rintro ⟨_, ⟨hx, rfl⟩, _, ⟨hxs, rfl⟩, rfl⟩
      exact ⟨⟨hx, hxs⟩, rfl⟩
    · rintro ⟨⟨hx, hxs⟩, rfl⟩
      exact ⟨_, ⟨hx, rfl⟩, _, ⟨hxs, rfl⟩, rfl⟩

/-! ## §2. Guards -/

/-- Fail with `e` when `bad` holds, continue otherwise. -/
def rejectIf (bad : Prop) [Decidable bad] (e : ε) : Except ε Unit :=
  if bad then .error e else .ok ()

variable {bad : Prop} {o : Option α}

/-- A guard that lets through. -/
@[simp] theorem rejectIf_eq_ok [Decidable bad] {u : Unit} : rejectIf bad e = .ok u ↔ ¬ bad := by
  unfold rejectIf
  split
  · next h => simp [h]
  · next h => simp [h]

/-- A guard that rejects. -/
@[simp] theorem rejectIf_eq_error [Decidable bad] {e' : ε} :
    rejectIf bad e = .error e' ↔ bad ∧ e = e' := by
  unfold rejectIf
  split
  · next h => simp [h]
  · next h => simp [h]

/-- What is known behind a guard that passed. -/
theorem rejectIf_bind_ok [Decidable bad] {f : Unit → Except ε β} {b : β}
    (h : (rejectIf bad e >>= f) = .ok b) : ¬ bad ∧ f () = .ok b := by
  obtain ⟨_, hguard, h⟩ := bind_eq_ok.mp h
  exact ⟨rejectIf_eq_ok.mp hguard, h⟩

/-- A requirement that was met, and the rest. -/
theorem require_bind_ok {good : Prop} [Decidable (¬ good)] {f : Unit → Except ε β} {b : β}
    (h : (rejectIf (¬ good) e >>= f) = .ok b) : good ∧ f () = .ok b :=
  (rejectIf_bind_ok h).imp_left not_not.mp

theorem rejectIf_of_not [Decidable bad] (e : ε) (h : ¬ bad) :
    rejectIf bad e = .ok () := if_neg h

/-- The value of `o`, or the error `e` where there is none. -/
def orReject (e : ε) : Option α → Except ε α
  | some a => .ok a
  | none => .error e

@[simp] theorem orReject_some (e : ε) (a : α) : orReject e (some a) = .ok a := rfl

@[simp] theorem orReject_none (e : ε) : orReject e (none : Option α) = .error e := rfl

/-- A value that was there. -/
@[simp] theorem orReject_eq_ok {a : α} : orReject e o = .ok a ↔ o = some a := by
  cases o <;> simp

/-- A value that was missing. -/
@[simp] theorem orReject_eq_error {e' : ε} : orReject e o = .error e' ↔ o = none ∧ e = e' := by
  cases o <;> simp

/-! ## §3. Checked fixed-width arithmetic -/

/-- `a` as an unsigned `w`-bit integer. -/
def narrow (w : ℕ) (e : ε) (a : ℕ) : Except ε ℕ :=
  if a < 2 ^ w then .ok a else .error e

/-- Unsigned `w`-bit addition. -/
def checkedAdd (w : ℕ) (e : ε) (a b : ℕ) : Except ε ℕ := narrow w e (a + b)

/-- Unsigned `w`-bit multiplication. -/
def checkedMul (w : ℕ) (e : ε) (a b : ℕ) : Except ε ℕ := narrow w e (a * b)

/-- Unsigned subtraction. -/
def checkedSub (e : ε) (a b : ℕ) : Except ε ℕ :=
  if b ≤ a then .ok (a - b) else .error e

variable {w a b r : ℕ}

theorem narrow_of_lt (e : ε) (h : a < 2 ^ w) : narrow w e a = .ok a := if_pos h

@[simp] theorem narrow_eq_ok : narrow w e a = .ok r ↔ a < 2 ^ w ∧ a = r := by
  unfold narrow
  split
  · next h => simp [h]
  · next h => simp [h]

theorem checkedAdd_of_lt (e : ε) (h : a + b < 2 ^ w) :
    checkedAdd w e a b = .ok (a + b) := narrow_of_lt e h

@[simp] theorem checkedAdd_eq_ok :
    checkedAdd w e a b = .ok r ↔ a + b < 2 ^ w ∧ a + b = r := narrow_eq_ok

theorem checkedMul_of_lt (e : ε) (h : a * b < 2 ^ w) :
    checkedMul w e a b = .ok (a * b) := narrow_of_lt e h

@[simp] theorem checkedMul_eq_ok :
    checkedMul w e a b = .ok r ↔ a * b < 2 ^ w ∧ a * b = r := narrow_eq_ok

theorem checkedSub_of_le (e : ε) (h : b ≤ a) :
    checkedSub e a b = .ok (a - b) := if_pos h

@[simp] theorem checkedSub_eq_ok : checkedSub e a b = .ok r ↔ b ≤ a ∧ a - b = r := by
  unfold checkedSub
  split
  · next h => simp [h]
  · next h => simp [h]

/-! ## §4. Errors that cannot occur -/

/-- Every error of `x` is one of `bad`. -/
def ErrorsIn (bad : ε → Prop) (x : Except ε α) : Prop := ∀ e, x = .error e → bad e

section Errors

variable {bad : ε → Prop}

theorem errorsIn_ne : ErrorsIn (· ≠ e) x ↔ x ≠ .error e := by
  unfold ErrorsIn
  constructor
  · exact fun h heq => h e heq rfl
  · rintro h e' heq rfl
    exact h heq

@[simp] theorem errorsIn_true : ErrorsIn (fun _ => True) x := fun _ _ => trivial

@[simp] theorem errorsIn_ok (a : α) : ErrorsIn bad (.ok a) := by simp [ErrorsIn]

@[simp] theorem errorsIn_error : ErrorsIn bad (.error e : Except ε α) ↔ bad e := by simp [ErrorsIn]

/-- The errors of a chain. -/
@[simp] theorem errorsIn_bind :
    ErrorsIn bad (x >>= f) ↔ ErrorsIn bad x ∧ ∀ a, x = .ok a → ErrorsIn bad (f a) := by
  cases x <;> simp [ErrorsIn]

variable {p : Prop}

@[simp] theorem errorsIn_ite [Decidable p] {y : Except ε α} :
    ErrorsIn bad (if p then x else y) ↔ (p → ErrorsIn bad x) ∧ (¬ p → ErrorsIn bad y) := by
  split <;> simp_all

@[simp] theorem errorsIn_dite [Decidable p] {g : p → Except ε α} {h : ¬ p → Except ε α} :
    ErrorsIn bad (if hp : p then g hp else h hp) ↔
      (∀ hp, ErrorsIn bad (g hp)) ∧ ∀ hp, ErrorsIn bad (h hp) := by
  split <;> simp_all

@[simp] theorem errorsIn_rejectIf [Decidable p] : ErrorsIn bad (rejectIf p e) ↔ (p → bad e) := by
  simp [ErrorsIn]

@[simp] theorem errorsIn_orReject : ErrorsIn bad (orReject e o) ↔ (o = none → bad e) := by
  simp [ErrorsIn]

@[simp] theorem errorsIn_narrow : ErrorsIn bad (narrow w e a) ↔ (2 ^ w ≤ a → bad e) := by
  simp [narrow]

@[simp] theorem errorsIn_mapError {ε' : Type} {x : Except ε' α} {f : ε' → ε} :
    ErrorsIn bad (x.mapError f) ↔ ErrorsIn (fun e => bad (f e)) x := by
  cases x <;> simp [ErrorsIn, Except.mapError]

/-- The errors of a map. -/
theorem ErrorsIn.mapM (h : ∀ a, ErrorsIn bad (f a)) (xs : List α) :
    ErrorsIn bad (xs.mapM f) := by
  induction xs with
  | nil => exact errorsIn_ok []
  | cons x xs ih => simp [h, ih]

/-- The errors of a loop. -/
theorem ErrorsIn.foldlM {f : β → α → Except ε β} (h : ∀ b a, ErrorsIn bad (f b a)) (xs : List α)
    (b : β) : ErrorsIn bad (xs.foldlM f b) := by
  induction xs generalizing b with
  | nil => exact errorsIn_ok b
  | cons x xs ih => simp [h, ih]

theorem ErrorsIn.rejectIf [Decidable p] (h : bad e) : ErrorsIn bad (rejectIf p e) :=
  errorsIn_rejectIf.mpr fun _ => h

/-- A chain of steps that avoid bad errors whatever came before. -/
theorem ErrorsIn.bind (hx : ErrorsIn bad x) (hf : ∀ a, ErrorsIn bad (f a)) :
    ErrorsIn bad (x >>= f) := errorsIn_bind.mpr ⟨hx, fun a _ => hf a⟩

end Errors

end Fallible
