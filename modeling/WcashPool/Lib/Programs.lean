/-
  WcashPool.Lib.Programs — programs that call services, and crash.

  A program is a tree of calls: it asks a query, goes on with the answer, and
  ends with a value.  A WORLD says how a state answers a query and changes by
  it, and what others may do to the state in between.  An execution is any path
  through the tree, and may stop at any point: a crash leaves the state as it
  is, and what was answered but not yet used is lost.  A history is a list of
  such attempts, each with the events it caused.

  `Always` is the proof rule for one program: at every query that some path can
  reach, the query is in order, given all events of the attempt so far; and
  every value it can end with meets the post-condition.  `AlwaysE` is the same
  for programs with errors, with a post-condition for each way to end.  Both
  follow the program's text: bind, case splits and errors.  `UsesE` is a cheap
  premise for the parts of a program that only ask harmless queries.

  Main results: `AlwaysE.bind`, `AlwaysE.of_uses`, `Exec.sound`, `Runs.sound`,
  `Runs.pairwise` and `Exec.play`.
-/
import Mathlib.Logic.Relation
import Mathlib.Data.List.Basic
import Mathlib.Tactic.Common
import WcashPool.Lib.Fallible

namespace Programs

open Fallible

/-! ## §1. Programs -/

/-- A program over queries `Q` with answers `A`. -/
inductive Prog (Q : Type) (A : Q → Type) (α : Type)
  | done (a : α)
  | call (q : Q) (next : A q → Prog Q A α)

variable {σ Q : Type} {A : Q → Type} {α β ε : Type}

def Prog.bind : Prog Q A α → (α → Prog Q A β) → Prog Q A β
  | .done a, f => f a
  | .call q next, f => .call q fun answer => (next answer).bind f

instance : Monad (Prog Q A) where
  pure := .done
  bind := Prog.bind

/-- A program with errors. -/
abbrev ProgE (Q : Type) (A : Q → Type) (ε α : Type) := ExceptT ε (Prog Q A) α

/-- A step that asks nothing and may fail. -/
def liftE (x : Except ε α) : ProgE Q A ε α := ExceptT.mk (.done x)

/-- Ask `q`, and go on with what `f` makes of the answer. -/
def askE (q : Q) (f : A q → Except ε α) : ProgE Q A ε α :=
  ExceptT.mk (.call q fun answer => .done (f answer))

/-! ## §2. Worlds and executions -/

/-- How a state answers, and what others do to it. -/
structure World (σ Q : Type) (A : Q → Type) where
  answers : σ → (q : Q) → A q → σ → Prop
  others : σ → σ → Prop

/-- Any number of steps of others. -/
abbrev World.Drift (w : World σ Q A) : σ → σ → Prop := Relation.ReflTransGen w.others

/-- One answered query, with the states around it. -/
structure Event (σ Q : Type) (A : Q → Type) where
  before : σ
  query : Q
  answer : A query
  after : σ

/-- **Executions**, complete or cut short by a crash. -/
inductive Exec (w : World σ Q A) :
    Prog Q A α → σ → List (Event σ Q A) → σ → Option α → Prop
  | crash (p : Prog Q A α) (s : σ) : Exec w p s [] s none
  | done (a : α) (s : σ) : Exec w (.done a) s [] s (some a)
  | call {q : Q} {next : A q → Prog Q A α} {s s' s'' : σ} {answer : A q}
      {es : List (Event σ Q A)} {r : Option α} (hanswer : w.answers s q answer s')
      (hrest : Exec w (next answer) s' es s'' r) :
      Exec w (.call q next) s (⟨s, q, answer, s'⟩ :: es) s'' r
  | others {p : Prog Q A α} {s s' s'' : σ} {es : List (Event σ Q A)} {r : Option α}
      (hother : w.others s s') (hrest : Exec w p s' es s'' r) : Exec w p s es s'' r

/-! ## §3. The rule for one program -/

/-- Every query that is reached satisfies `P`, and every value that is returned the post-condition,
    as long as the invariant `I` holds of the states that are passed. -/
def Always (w : World σ Q A) (I : σ → Prop) (P : List (Event σ Q A) → σ → Q → Prop) :
    Prog Q A α → (List (Event σ Q A) → σ → α → Prop) → List (Event σ Q A) → σ → Prop
  | .done a, post, es, s => ∀ s', w.Drift s s' → I s' → post es s' a
  | .call q next, post, es, s => ∀ s', w.Drift s s' → I s' → P es s' q ∧
      ∀ answer s'', w.answers s' q answer s'' → I s'' →
        Always w I P (next answer) post (es ++ [⟨s', q, answer, s''⟩]) s''

section Rule

variable {w : World σ Q A} {I : σ → Prop} {P : List (Event σ Q A) → σ → Q → Prop}
  {post post' : List (Event σ Q A) → σ → α → Prop} {es : List (Event σ Q A)} {s s' : σ}
  {p : Prog Q A α}

theorem Always.of_drift (h : Always w I P p post es s) (hdrift : w.Drift s s') :
    Always w I P p post es s' := by
  cases p with
  | done a => exact fun t ht => h t (hdrift.trans ht)
  | call q next => exact fun t ht => h t (hdrift.trans ht)

/-- It is enough to look at the states where the invariant holds. -/
theorem Always.of_forall (h : ∀ s', w.Drift s s' → I s' → Always w I P p post es s') :
    Always w I P p post es s := by
  cases p with
  | done a => exact fun t ht hI => h t ht hI t .refl hI
  | call q next => exact fun t ht hI => h t ht hI t .refl hI

/-- Weaker postconditions. -/
theorem Always.mono (h : Always w I P p post es s)
    (hpost : ∀ es s a, I s → post es s a → post' es s a) : Always w I P p post' es s := by
  induction p generalizing es s with
  | done a => exact fun t ht hI => hpost _ _ _ hI (h t ht hI)
  | call q next ih =>
    intro t ht hI
    obtain ⟨hquery, hnext⟩ := h t ht hI
    exact ⟨hquery, fun answer t' hanswer hI' => ih answer (hnext answer t' hanswer hI')⟩

/-- A stronger invariant leaves fewer states to look at. -/
theorem Always.anti {I' : σ → Prop} (h : Always w I P p post es s) (hI : ∀ s, I' s → I s) :
    Always w I' P p post es s := by
  induction p generalizing es s with
  | done a => exact fun t ht hI' => h t ht (hI t hI')
  | call q next ih =>
    intro t ht hI'
    obtain ⟨hquery, hnext⟩ := h t ht (hI t hI')
    exact ⟨hquery, fun answer t' hanswer hI' => ih answer (hnext answer t' hanswer (hI t' hI'))⟩

end Rule

section Sound

variable {w : World σ Q A} {I : σ → Prop} {P : List (Event σ Q A) → σ → Q → Prop}

/-- An event that happened in order. -/
structure Event.Good (w : World σ Q A) (I : σ → Prop) (P : List (Event σ Q A) → σ → Q → Prop)
    (earlier : List (Event σ Q A)) (e : Event σ Q A) : Prop where
  invariant : I e.before
  query : P earlier e.before e.query
  answer : w.answers e.before e.query e.answer e.after

/-- **Executions.** -/
theorem Exec.sound {p : Prog Q A α} {s s' : σ} {es : List (Event σ Q A)} {r : Option α}
    (hexec : Exec w p s es s' r) (hothers : ∀ s s', I s → w.others s s' → I s')
    (hstep : ∀ es s q answer s', I s → P es s q → w.answers s q answer s' → I s') (hs : I s)
    {pre : List (Event σ Q A)} {post : List (Event σ Q A) → σ → α → Prop}
    (h : Always w I P p post pre s) :
    I s' ∧ (∀ es₁ e es₂, es = es₁ ++ e :: es₂ → e.Good w I P (pre ++ es₁)) ∧
      ∀ a, r = some a → post (pre ++ es) s' a := by
  induction hexec generalizing pre with
  | crash p s => exact ⟨hs, by simp, by simp⟩
  | done a s =>
    refine ⟨hs, by simp, fun b hb => ?_⟩
    obtain rfl := Option.some.inj hb
    rw [List.append_nil]
    exact h s .refl hs
  | @call q next s s' s'' answer es r hanswer _ ih =>
    obtain ⟨hquery, hnext⟩ := h s .refl hs
    have hs' := hstep pre s q answer s' hs hquery hanswer
    obtain ⟨hend, hevents, hresult⟩ := ih hs' (hnext answer s' hanswer hs')
    refine ⟨hend, fun es₁ e es₂ hsplit => ?_, fun a ha => ?_⟩
    · cases es₁ with
      | nil =>
        obtain ⟨rfl, -⟩ := List.cons.inj hsplit
        rw [List.append_nil]
        exact ⟨hs, hquery, hanswer⟩
      | cons e' es₁ =>
        obtain ⟨rfl, hrest⟩ := List.cons.inj hsplit
        have hgood := hevents es₁ e es₂ hrest
        rwa [List.append_assoc] at hgood
    · have hpost := hresult a ha
      rwa [List.append_assoc] at hpost
  | others hother _ ih => exact ih (hothers _ _ hs hother) (h.of_drift (.single hother))

end Sound

/-! ## §4. Programs with errors -/

/-- `Always` with a post-condition for values and one for errors. -/
def AlwaysE (w : World σ Q A) (I : σ → Prop) (P : List (Event σ Q A) → σ → Q → Prop)
    (p : ProgE Q A ε α) (ok : List (Event σ Q A) → σ → α → Prop)
    (err : List (Event σ Q A) → σ → ε → Prop) (es : List (Event σ Q A)) (s : σ) : Prop :=
  Always w I P p.run (fun es s r =>
    match r with
    | .ok a => ok es s a
    | .error e => err es s e) es s

section Errors

variable {w : World σ Q A} {I : σ → Prop} {P : List (Event σ Q A) → σ → Q → Prop}
  {ok ok' : List (Event σ Q A) → σ → α → Prop} {err err' : List (Event σ Q A) → σ → ε → Prop}
  {es : List (Event σ Q A)} {s : σ} {p : ProgE Q A ε α}

/-- Weaker postconditions, for both ends. -/
theorem AlwaysE.mono (h : AlwaysE w I P p ok err es s)
    (hok : ∀ es s a, I s → ok es s a → ok' es s a) (herr : ∀ es s e, I s → err es s e → err' es s e) :
    AlwaysE w I P p ok' err' es s := by
  refine Always.mono h fun es s r hI hr => ?_
  cases r with
  | ok a => exact hok es s a hI hr
  | error e => exact herr es s e hI hr

variable {f : α → ProgE Q A ε β}

/-- **Sequencing** where an error ends the program. -/
theorem AlwaysE.bind {ok : List (Event σ Q A) → σ → β → Prop}
    (h : AlwaysE w I P p (fun es s a => AlwaysE w I P (f a) ok err es s) err es s) :
    AlwaysE w I P (p >>= f) ok err es s := by
  have hrun : ∀ (q : Prog Q A (Except ε α)) (es : List (Event σ Q A)) (s : σ),
      AlwaysE w I P (ExceptT.mk q) (fun es s a => AlwaysE w I P (f a) ok err es s) err es s →
      AlwaysE w I P (ExceptT.mk q >>= f) ok err es s := by
    intro q
    induction q with
    | done r =>
      intro es s h
      cases r with
      | ok a => exact Always.of_forall h
      | error e => exact h
    | call q next ih =>
      intro es s h t ht hI
      obtain ⟨hquery, hnext⟩ := h t ht hI
      exact ⟨hquery, fun answer t' hanswer hI' => ih answer _ _ (hnext answer t' hanswer hI')⟩
  exact hrun p es s h

theorem AlwaysE.imp (h : AlwaysE w I P p ok err es s) (hok : ∀ es s a, I s → ok es s a → ok' es s a) :
    AlwaysE w I P p ok' err es s :=
  h.mono hok fun _ _ _ _ herr => herr

/-- Sequencing, from what the first program establishes. -/
theorem AlwaysE.seq {ok' : List (Event σ Q A) → σ → β → Prop} (h : AlwaysE w I P p ok err es s)
    (hnext : ∀ es s a, I s → ok es s a → AlwaysE w I P (f a) ok' err es s) :
    AlwaysE w I P (p >>= f) ok' err es s := AlwaysE.bind (h.imp hnext)

/-- Every query of the program is allowed, and every error that it ends with is one of `bad`. -/
def UsesE (allowed : Q → Prop) (bad : ε → Prop) : Prog Q A (Except ε α) → Prop
  | .done r => ErrorsIn bad r
  | .call q next => allowed q ∧ ∀ answer, UsesE allowed bad (next answer)

variable {allowed : Q → Prop} {bad : ε → Prop}

/-- The queries of a chain. -/
theorem UsesE.bind (hp : UsesE allowed bad p.run) (hf : ∀ a, UsesE allowed bad (f a).run) :
    UsesE allowed bad (p >>= f).run := by
  have hrun : ∀ q : Prog Q A (Except ε α), UsesE allowed bad q →
      UsesE allowed bad ((ExceptT.mk q : ProgE Q A ε α) >>= f).run := by
    intro q
    induction q with
    | done r =>
      intro h
      cases r with
      | ok a => exact hf a
      | error e =>
        intro e' he'
        obtain rfl := Except.error.inj he'
        exact h e rfl
    | call q next ih => exact fun h => ⟨h.1, fun answer => ih answer (h.2 answer)⟩
  exact hrun p hp

theorem UsesE.pure (a : α) : UsesE allowed bad (pure a : ProgE Q A ε α).run :=
  errorsIn_ok a

theorem UsesE.lift {x : Except ε α} (h : ErrorsIn bad x) :
    UsesE allowed bad (liftE x : ProgE Q A ε α).run := h

/-- One query. -/
theorem UsesE.ask {q : Q} {f : A q → Except ε α} (hq : allowed q)
    (hf : ∀ answer, ErrorsIn bad (f answer)) :
    UsesE allowed bad (askE q f : ProgE Q A ε α).run := ⟨hq, hf⟩

/-- **Harmless programs.**  Where the allowed queries are in order and keep `T`, the program keeps
    `T`, and the events so far remain. -/
theorem AlwaysE.of_uses {T : σ → Prop} (h : UsesE allowed bad p.run)
    (horder : ∀ es s q, T s → allowed q → P es s q)
    (hkeep : ∀ s q answer s', T s → allowed q → w.answers s q answer s' → T s')
    (hothers : ∀ s s', T s → w.others s s' → T s') (hs : T s) :
    AlwaysE w I P p (fun es' s' _ => es <+: es' ∧ T s') (fun _ s' e => T s' ∧ bad e) es s := by
  have hdrift : ∀ s s', T s → w.Drift s s' → T s' := by
    intro s s' hs h
    induction h with
    | refl => exact hs
    | tail _ hstep ih => exact hothers _ _ ih hstep
  have hrun : ∀ (q : Prog Q A (Except ε α)) (es' : List (Event σ Q A)) (s : σ),
      UsesE allowed bad q → es <+: es' → T s →
      AlwaysE w I P (ExceptT.mk q) (fun es' s' _ => es <+: es' ∧ T s')
        (fun _ s' e => T s' ∧ bad e) es' s := by
    intro q
    induction q with
    | done r =>
      intro es' s h hes hs t ht _
      cases r with
      | ok a => exact ⟨hes, hdrift s t hs ht⟩
      | error e => exact ⟨hdrift s t hs ht, h e rfl⟩
    | call q next ih =>
      intro es' s h hes hs t ht _
      have hT := hdrift s t hs ht
      refine ⟨horder es' t q hT h.1, fun answer t' hanswer _ => ?_⟩
      exact ih answer _ _ (h.2 answer) (hes.trans (List.prefix_append _ _))
        (hkeep t q answer t' hT h.1 hanswer)
  exact hrun p es s h (List.prefix_refl es) hs

end Errors

/-! ## §5. Quiet worlds -/

/-- Nobody else touches the state. -/
def World.Quiet (w : World σ Q A) : Prop := ∀ s s', ¬ w.others s s'

/-- A quiet world does not drift. -/
theorem World.Quiet.drift {w : World σ Q A} (hquiet : w.Quiet) {s s' : σ} (h : w.Drift s s') :
    s' = s := by
  induction h with
  | refl => rfl
  | tail _ hstep _ => exact absurd hstep (hquiet _ _)

section Quiet

variable {w : World σ Q A} {I : σ → Prop} {P : List (Event σ Q A) → σ → Q → Prop}
  {es : List (Event σ Q A)} {s : σ}

theorem Always.done_quiet (hquiet : w.Quiet) {a : α} {post : List (Event σ Q A) → σ → α → Prop}
    (h : I s → post es s a) : Always w I P (.done a) post es s := by
  intro s' hdrift hI
  obtain rfl := hquiet.drift hdrift
  exact h hI

variable {ok : List (Event σ Q A) → σ → α → Prop} {err : List (Event σ Q A) → σ → ε → Prop}

theorem AlwaysE.of_invariant_quiet (hquiet : w.Quiet) {p : ProgE Q A ε α}
    (h : I s → AlwaysE w I P p ok err es s) : AlwaysE w I P p ok err es s := by
  refine Always.of_forall fun s' hdrift hI => ?_
  obtain rfl := hquiet.drift hdrift
  exact h hI

theorem AlwaysE.lift_quiet (hquiet : w.Quiet) {r : Except ε α}
    (hok : ∀ a, r = .ok a → I s → ok es s a) (herr : ∀ e, r = .error e → I s → err es s e) :
    AlwaysE w I P (liftE r) ok err es s := by
  refine Always.done_quiet hquiet fun hI => ?_
  cases r with
  | ok a => exact hok a rfl hI
  | error e => exact herr e rfl hI

/-- **The rule for one query** in a quiet world. -/
theorem AlwaysE.ask_quiet (hquiet : w.Quiet) {q : Q} {f : A q → Except ε α}
    (horder : I s → P es s q)
    (hok : ∀ answer s' a, w.answers s q answer s' → I s' → f answer = .ok a →
      ok (es ++ [⟨s, q, answer, s'⟩]) s' a)
    (herr : ∀ answer s' e, w.answers s q answer s' → I s' → f answer = .error e →
      err (es ++ [⟨s, q, answer, s'⟩]) s' e) :
    AlwaysE w I P (askE q f) ok err es s := by
  intro s' hdrift hI
  obtain rfl := hquiet.drift hdrift
  refine ⟨horder hI, fun answer s'' hanswer hI'' => ?_⟩
  exact AlwaysE.lift_quiet hquiet (fun a ha _ => hok answer s'' a hanswer hI'' ha)
    (fun e he _ => herr answer s'' e hanswer hI'' he)

theorem AlwaysE.pure_quiet (hquiet : w.Quiet) {a : α} (h : I s → ok es s a) :
    AlwaysE w I P (pure a) ok err es s :=
  Always.done_quiet hquiet h

theorem AlwaysE.throw_quiet (hquiet : w.Quiet) {e : ε} (h : I s → err es s e) :
    AlwaysE w I P (throw e) ok err es s :=
  Always.done_quiet hquiet h

end Quiet

/-! ## §6. Histories -/

/-- One attempt: what was called, what happened, and the result unless it crashed. -/
structure Attempt (σ Q : Type) (A : Q → Type) (C α : Type) where
  command : C
  events : List (Event σ Q A)
  result : Option α

variable {C : Type}

/-- Attempts one after another. -/
inductive Runs (w : World σ Q A) (prog : C → Prog Q A α) :
    σ → List (Attempt σ Q A C α) → σ → Prop
  | nil (s : σ) : Runs w prog s [] s
  | cons {c : C} {s s' s'' : σ} {es : List (Event σ Q A)} {r : Option α}
      {h : List (Attempt σ Q A C α)} (hexec : Exec w (prog c) s es s' r)
      (hrest : Runs w prog s' h s'') : Runs w prog s (⟨c, es, r⟩ :: h) s''

/-- Everything that happened, in order. -/
def eventsOf (h : List (Attempt σ Q A C α)) : List (Event σ Q A) := h.flatMap (·.events)

section Histories

variable {w : World σ Q A} {prog : C → Prog Q A α} {I : σ → Prop}
  {P : C → List (Event σ Q A) → σ → Q → Prop} {post : C → List (Event σ Q A) → σ → α → Prop}
  {s s' : σ} {h : List (Attempt σ Q A C α)}

/-- An attempt all of whose events are in order and whose result meets its post-condition. -/
structure Attempt.Good (w : World σ Q A) (I : σ → Prop)
    (P : C → List (Event σ Q A) → σ → Q → Prop) (post : C → List (Event σ Q A) → σ → α → Prop)
    (attempt : Attempt σ Q A C α) : Prop where
  events : ∀ es₁ e es₂, attempt.events = es₁ ++ e :: es₂ → e.Good w I (P attempt.command) es₁
  result : ∀ a, attempt.result = some a → ∃ s, I s ∧ post attempt.command attempt.events s a

/-- **Histories** of permitted commands. -/
theorem Runs.sound (permitted : C → Prop) (hruns : Runs w prog s h s')
    (hothers : ∀ s s', I s → w.others s s' → I s')
    (hstep : ∀ c es s q answer s', permitted c → I s → P c es s q → w.answers s q answer s' → I s')
    (hprog : ∀ c s, permitted c → I s → Always w I (P c) (prog c) (post c) [] s)
    (hcommands : ∀ attempt ∈ h, permitted attempt.command) (hs : I s) :
    I s' ∧ ∀ attempt ∈ h, attempt.Good w I P post := by
  induction hruns with
  | nil s => exact ⟨hs, by simp⟩
  | @cons c s s' s'' es r h hexec _ ih =>
    have hc : permitted c := hcommands ⟨c, es, r⟩ List.mem_cons_self
    obtain ⟨hs', hevents, hresult⟩ :=
      hexec.sound hothers (fun es s q answer s' => hstep c es s q answer s' hc) hs (hprog c s hc hs)
    obtain ⟨hend, hrest⟩ := ih (fun attempt hmem => hcommands attempt (List.mem_cons_of_mem _ hmem))
      hs'
    refine ⟨hend, fun attempt hattempt => ?_⟩
    cases List.mem_cons.mp hattempt with
    | inl hfirst =>
      rw [hfirst]
      exact ⟨hevents, fun a ha => ⟨s', hs', hresult a ha⟩⟩
    | inr hmem => exact hrest attempt hmem

variable {R : σ → σ → Prop}

/-- The states of an execution are in order where every answer is. -/
theorem Exec.pairwise {p : Prog Q A α} {es : List (Event σ Q A)} {r : Option α}
    (hexec : Exec w p s es s' r) (hrefl : ∀ s, R s s) (htrans : ∀ {a b c}, R a b → R b c → R a c)
    (hothers : ∀ s s', w.others s s' → R s s') (hevents : ∀ e ∈ es, R e.before e.after) :
    (s :: es.map (·.after)).Pairwise R ∧ ∀ t ∈ s :: es.map (·.after), R t s' := by
  induction hexec with
  | crash p s => simpa using hrefl s
  | done a s => simpa using hrefl s
  | @call q next s s' s'' answer es r _ _ ih =>
    have hfirst : R s s' := hevents ⟨s, q, answer, s'⟩ List.mem_cons_self
    obtain ⟨hpairs, hend⟩ := ih fun e he => hevents e (List.mem_cons_of_mem _ he)
    have hall : ∀ t ∈ s' :: es.map (·.after), R s t := by
      intro t ht
      cases List.mem_cons.mp ht with
      | inl heq => rw [heq]; exact hfirst
      | inr hmem => exact htrans hfirst ((List.pairwise_cons.mp hpairs).1 t hmem)
    refine ⟨List.pairwise_cons.mpr ⟨hall, hpairs⟩, fun t ht => ?_⟩
    cases List.mem_cons.mp ht with
    | inl heq => rw [heq]; exact htrans hfirst (hend s' List.mem_cons_self)
    | inr hmem => exact hend t hmem
  | @others p s s' s'' es r hother _ ih =>
    have hfirst := hothers s s' hother
    obtain ⟨hpairs, hend⟩ := ih hevents
    obtain ⟨hhead, htail⟩ := List.pairwise_cons.mp hpairs
    refine ⟨List.pairwise_cons.mpr ⟨fun t ht => htrans hfirst (hhead t ht), htail⟩, fun t ht => ?_⟩
    cases List.mem_cons.mp ht with
    | inl heq => rw [heq]; exact htrans hfirst (hend s' List.mem_cons_self)
    | inr hmem => exact hend t (List.mem_cons_of_mem _ hmem)

/-- **Monotony**: what every event and every step of others advances, advances along the whole
    history. -/
theorem Runs.pairwise (hruns : Runs w prog s h s') (hrefl : ∀ s, R s s)
    (htrans : ∀ {a b c}, R a b → R b c → R a c) (hothers : ∀ s s', w.others s s' → R s s')
    (hevents : ∀ attempt ∈ h, ∀ e ∈ attempt.events, R e.before e.after) :
    (s :: (eventsOf h).map (·.after)).Pairwise R ∧
      ∀ t ∈ s :: (eventsOf h).map (·.after), R t s' := by
  induction hruns with
  | nil s => simpa [eventsOf] using hrefl s
  | @cons c s s' s'' es r h hexec _ ih =>
    obtain ⟨hpairs, hend⟩ := hexec.pairwise hrefl htrans hothers
      (hevents ⟨c, es, r⟩ List.mem_cons_self)
    obtain ⟨hpairs', hend'⟩ := ih fun attempt hattempt =>
      hevents attempt (List.mem_cons_of_mem _ hattempt)
    obtain ⟨hhead', htail'⟩ := List.pairwise_cons.mp hpairs'
    have hsplit : s :: (eventsOf (⟨c, es, r⟩ :: h)).map (·.after) =
        (s :: es.map (·.after)) ++ (eventsOf h).map (·.after) := by
      simp [eventsOf]
    rw [hsplit]
    refine ⟨List.pairwise_append.mpr ⟨hpairs, htail', fun t ht u hu =>
      htrans (hend t ht) (hhead' u hu)⟩, fun t ht => ?_⟩
    cases List.mem_append.mp ht with
    | inl hfront => exact htrans (hend t hfront) (hend' s' List.mem_cons_self)
    | inr hback => exact hend' t (List.mem_cons_of_mem _ hback)

/-- The last attempt of a history starts where the attempts before it ended. -/
theorem Runs.last {attempt : Attempt σ Q A C α} (hruns : Runs w prog s (h ++ [attempt]) s') :
    ∃ mid, Runs w prog s h mid ∧
      Exec w (prog attempt.command) mid attempt.events s' attempt.result := by
  induction h generalizing s with
  | nil =>
    cases hruns with
    | cons hexec hrest =>
      cases hrest
      exact ⟨s, .nil s, hexec⟩
  | cons first h ih =>
    cases hruns with
    | cons hexec hrest =>
      obtain ⟨mid, hfront, hlast⟩ := ih hrest
      exact ⟨mid, .cons hexec hfront, hlast⟩

end Histories

/-! ## §7. Scripted executions -/

/-- Play a program against a script that answers by what has happened so far. -/
def play (script : List (Event σ Q A) → σ → (q : Q) → A q × σ) :
    Prog Q A α → List (Event σ Q A) → σ → List (Event σ Q A) × σ × α
  | .done a, _, s => ([], s, a)
  | .call q next, es, s =>
    let e : Event σ Q A := ⟨s, q, (script es s q).1, (script es s q).2⟩
    let rest := play script (next (script es s q).1) (es ++ [e]) (script es s q).2
    (e :: rest.1, rest.2)

/-- A script that the world allows plays an execution. -/
theorem Exec.play {w : World σ Q A} {script : List (Event σ Q A) → σ → (q : Q) → A q × σ}
    (hscript : ∀ es s q, w.answers s q (script es s q).1 (script es s q).2) (p : Prog Q A α)
    (es : List (Event σ Q A)) (s : σ) :
    Exec w p s (play script p es s).1 (play script p es s).2.1
      (some (play script p es s).2.2) := by
  induction p generalizing es s with
  | done a => exact .done a s
  | call q next ih => exact .call (hscript es s q) (ih _ _ _)

end Programs
