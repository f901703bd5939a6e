/-
  WcashPool.Lib.Framing — encodings that can be taken apart again.

  An encoding is DELIMITED when its end can be seen: of two encodings with
  anything behind them, equal strings come from equal values and leave equal
  rests.  Fields of a fixed width are delimited, and so are an optional field
  behind a tag, a text behind its length, and one delimited field after
  another.  A stream of such records needs no count of its own: a trailer of
  known width is enough to find its end.

  Main results: `Delimited.append`, `Delimited.option`,
  `Delimited.lengthPrefixed`, `Delimited.stream`, `mod_eq_of_leBytes_eq` and
  `reverse_leBytes_lt_iff`.
-/
import Mathlib.Algebra.Group.Nat.Defs
import Mathlib.Data.List.Basic
import Mathlib.Tactic.Common

namespace Framing

variable {α β γ B : Type}

/-- Encodings of values that satisfy `ok` are told apart, whatever follows them. -/
def Delimited (ok : α → Prop) (enc : α → List B) : Prop :=
  ∀ a b, ok a → ok b → ∀ xs ys, enc a ++ xs = enc b ++ ys → a = b ∧ xs = ys

/-! ## §1. Formats -/

section Formats

variable {ok : α → Prop} {enc : α → List B}

/-- A field of fixed width. -/
theorem Delimited.of_length (n : ℕ) (hlength : ∀ a, (enc a).length = n)
    (hinj : ∀ a b, ok a → ok b → enc a = enc b → a = b) : Delimited ok enc := by
  intro a b ha hb xs ys h
  obtain ⟨henc, hrest⟩ := List.append_inj h ((hlength a).trans (hlength b).symm)
  exact ⟨hinj a b ha hb henc, hrest⟩

/-- The same format for another type of values. -/
theorem Delimited.comap (h : Delimited ok enc) {f : γ → α} (hf : Function.Injective f) :
    Delimited (fun c => ok (f c)) (fun c => enc (f c)) := by
  intro a b ha hb xs ys heq
  obtain ⟨hsame, hrest⟩ := h (f a) (f b) ha hb xs ys heq
  exact ⟨hf hsame, hrest⟩

/-- A weaker promise is kept by fewer values. -/
theorem Delimited.mono (h : Delimited ok enc) {ok' : α → Prop} (hok : ∀ a, ok' a → ok a) :
    Delimited ok' enc := fun a b ha hb => h a b (hok a ha) (hok b hb)

/-- One field after another. -/
theorem Delimited.append (h : Delimited ok enc) {ok' : β → Prop} {enc' : β → List B}
    (h' : Delimited ok' enc') :
    Delimited (fun p : α × β => ok p.1 ∧ ok' p.2) (fun p => enc p.1 ++ enc' p.2) := by
  rintro ⟨a, a'⟩ ⟨b, b'⟩ ⟨ha, ha'⟩ ⟨hb, hb'⟩ xs ys heq
  rw [List.append_assoc, List.append_assoc] at heq
  obtain ⟨rfl, hmiddle⟩ := h a b ha hb _ _ heq
  obtain ⟨rfl, hrest⟩ := h' a' b' ha' hb' _ _ hmiddle
  exact ⟨rfl, hrest⟩

/-- An optional field behind a tag. -/
def tagged (absent present : B) (enc : α → List B) : Option α → List B
  | none => [absent]
  | some a => present :: enc a

/-- An optional value behind its tag. -/
theorem Delimited.option (h : Delimited ok enc) {absent present : B} (hne : absent ≠ present) :
    Delimited (fun o : Option α => ∀ a ∈ o, ok a) (tagged absent present enc) := by
  intro o o' ho ho' xs ys heq
  cases o with
  | none =>
    cases o' with
    | none => exact ⟨rfl, (List.cons.inj heq).2⟩
    | some b => exact absurd (List.cons.inj heq).1 hne
  | some a =>
    cases o' with
    | none => exact absurd (List.cons.inj heq).1.symm hne
    | some b =>
      obtain ⟨rfl, hrest⟩ := h a b (ho a rfl) (ho' b rfl) xs ys (List.cons.inj heq).2
      exact ⟨rfl, hrest⟩

/-- A text behind its length. -/
theorem Delimited.lengthPrefixed {width : ℕ → Prop} {size : ℕ → List B}
    (h : Delimited width size) :
    Delimited (fun text : List B => width text.length) (fun text => size text.length ++ text) := by
  intro a b ha hb xs ys heq
  rw [List.append_assoc, List.append_assoc] at heq
  obtain ⟨hlength, hrest⟩ := h _ _ ha hb _ _ heq
  exact List.append_inj hrest hlength

/-- **A stream of records with a trailer** of known width: neither the number of records nor
    their lengths have to be known to take it apart. -/
theorem Delimited.stream (h : Delimited ok enc) (hpos : ∀ a, ok a → enc a ≠ []) {as bs : List α}
    (has : ∀ a ∈ as, ok a) (hbs : ∀ b ∈ bs, ok b) {trailer trailer' : List B}
    (hlength : trailer.length = trailer'.length)
    (heq : as.flatMap enc ++ trailer = bs.flatMap enc ++ trailer') : as = bs := by
  -- a record on one side only would make that side longer
  have hlonger : ∀ {c : α} {cs : List α} {s t : List B}, ok c → s.length = t.length →
      s ≠ (c :: cs).flatMap enc ++ t := by
    intro c cs s t hc hst hsame
    have hcount := congrArg List.length hsame
    have hc := List.length_pos_iff.mpr (hpos c hc)
    rw [List.flatMap_cons, List.length_append, List.length_append] at hcount
    omega
  induction as generalizing bs with
  | nil =>
    cases bs with
    | nil => rfl
    | cons b bs => exact absurd heq (hlonger (hbs b List.mem_cons_self) hlength)
  | cons a as ih =>
    cases bs with
    | nil => exact absurd heq.symm (hlonger (has a List.mem_cons_self) hlength.symm)
    | cons b bs =>
      rw [List.flatMap_cons, List.flatMap_cons, List.append_assoc, List.append_assoc] at heq
      obtain ⟨rfl, hrest⟩ := h a b (has a List.mem_cons_self) (hbs b List.mem_cons_self) _ _ heq
      rw [ih (fun c hc => has c (List.mem_cons_of_mem _ hc))
        (fun c hc => hbs c (List.mem_cons_of_mem _ hc)) hrest]

end Formats

/-! ## §2. Numbers of fixed width -/

/-- The `n` low bytes of `value`, the least significant one first. -/
def leBytes (n value : ℕ) : List UInt8 :=
  (List.range n).map fun i => UInt8.ofNat (value / 2 ^ (8 * i))

@[simp] theorem length_leBytes (n value : ℕ) : (leBytes n value).length = n := by
  simp [leBytes]

/-- The last byte is the most significant one. -/
theorem leBytes_succ (n value : ℕ) :
    leBytes (n + 1) value = leBytes n value ++ [UInt8.ofNat (value / 2 ^ (8 * n))] := by
  unfold leBytes
  rw [List.range_succ, List.map_append, List.map_singleton]

/-- The bytes determine the value, up to what does not fit into them. -/
theorem mod_eq_of_leBytes_eq {n v w : ℕ} (h : leBytes n v = leBytes n w) :
    v % 2 ^ (8 * n) = w % 2 ^ (8 * n) := by
  induction n with
  | zero => simp [Nat.mod_one]
  | succ n ih =>
    rw [leBytes_succ, leBytes_succ] at h
    obtain ⟨hlow, hhigh⟩ := List.append_inj h (by rw [length_leBytes, length_leBytes])
    have hbyte : v / 2 ^ (8 * n) % 256 = w / 2 ^ (8 * n) % 256 := by
      simpa using congrArg UInt8.toNat (List.cons.inj hhigh).1
    have hsplit : 2 ^ (8 * (n + 1)) = 2 ^ (8 * n) * 256 := by
      rw [Nat.mul_succ, Nat.pow_add]
    rw [hsplit, Nat.mod_mul, Nat.mod_mul, ih hlow, hbyte]

/-- A high digit decides before a low one. -/
theorem add_mul_lt_iff {p x y a b : ℕ} (hx : x < p) (hy : y < p) :
    a < b ∨ a = b ∧ x < y ↔ x + p * a < y + p * b := by
  obtain hlt | rfl | hgt := Nat.lt_trichotomy a b
  · have hmul : p * (a + 1) ≤ p * b := Nat.mul_le_mul_left p hlt
    rw [Nat.mul_succ] at hmul
    exact iff_of_true (.inl hlt) (by omega)
  · omega
  · have hmul : p * (b + 1) ≤ p * a := Nat.mul_le_mul_left p hgt
    rw [Nat.mul_succ] at hmul
    exact iff_of_false (by omega) (by omega)

/-- **Comparing from the most significant byte on** compares the numbers. -/
theorem reverse_leBytes_lt_iff (n v w : ℕ) : (leBytes n v).reverse < (leBytes n w).reverse ↔
    v % 2 ^ (8 * n) < w % 2 ^ (8 * n) := by
  induction n with
  | zero => simp [leBytes, Nat.mod_one]
  | succ n ih =>
    have hsplit : 2 ^ (8 * (n + 1)) = 2 ^ (8 * n) * 256 := by
      rw [Nat.mul_succ, Nat.pow_add]
    have hpos : 0 < 2 ^ (8 * n) := Nat.two_pow_pos _
    have hv := Nat.mod_lt v hpos
    have hw := Nat.mod_lt w hpos
    rw [leBytes_succ, leBytes_succ, List.reverse_concat, List.reverse_concat,
      List.cons_lt_cons_iff, ih, hsplit, Nat.mod_mul, Nat.mod_mul, UInt8.lt_iff_toNat_lt,
      ← UInt8.toNat_inj, UInt8.toNat_ofNat', UInt8.toNat_ofNat']
    show v / 2 ^ (8 * n) % 256 < w / 2 ^ (8 * n) % 256 ∨ _ ↔ _
    exact add_mul_lt_iff hv hw

end Framing
