/-
  WcashPool.Core.Nonce — session nonce prefixes
  (`NonceNamespaceLease`, `NonceCursor`, `NoncePrefixAllocator`).

  A prefix is a domain byte and a little-endian counter.  The high bit of the
  domain byte tells the profile and its low seven bits the namespace, so a
  prefix says who may have issued it; within one namespace the counter tells
  two prefixes apart.  Neither does a short prefix ever begin a long one.

  An allocator issues the counters of a reserved range one after another and
  stops at its end; the range may be extended only where it ends.

  Main results: `noncePrefix_isPrefix` and
  `NoncePrefixAllocator.allocate_eq_ok`.
-/
import WcashPool.Lib.Fallible
import WcashPool.Lib.Framing
import WcashPool.Lib.Ranges

namespace WcashPool.Core

open Fallible Framing Ranges

/-! ## §1. Profiles, namespaces and prefixes -/

inductive NonceProfile
  | fourByte
  | eightByte
deriving DecidableEq, Repr

/-- The number of counters of a namespace. -/
def capacity : NonceProfile → ℕ
  | .fourByte => 2 ^ 24
  | .eightByte => 2 ^ 56

/-- A namespace from 1 to 127. -/
structure NonceNamespaceLease where
  namespaceId : UInt8
  range : 1 ≤ namespaceId ∧ namespaceId ≤ 0x7f
deriving DecidableEq

inductive NoncePrefixError
  | zeroNamespace
  | namespaceOutOfRange (namespaceId : UInt8)
  | exhausted (profile : NonceProfile)
  | invalidCursor (profile : NonceProfile) (next : ℕ)
  | leaseMismatch (cursorNamespace providedNamespace : UInt8)
  | invalidReservation (start endExclusive : ℕ)
  | nonContiguousReservation (currentEnd proposedStart proposedEnd : ℕ)
deriving DecidableEq, Repr

/-- Wrap a namespace granted by durable orchestration. -/
def NonceNamespaceLease.new (namespaceId : UInt8) : Except NoncePrefixError NonceNamespaceLease :=
  if hzero : namespaceId = 0 then .error .zeroNamespace
  else if hrange : namespaceId > 0x7f then .error (.namespaceOutOfRange namespaceId)
  else .ok ⟨namespaceId, by
    have hpos : namespaceId.toNat ≠ 0 := fun h => hzero (UInt8.toNat.inj h)
    have hle := UInt8.not_lt.mp hrange
    exact ⟨UInt8.le_iff_toNat_le.mpr (Nat.one_le_iff_ne_zero.mpr hpos), hle⟩⟩

variable (profile : NonceProfile) (lease : NonceNamespaceLease)

def domainByte : UInt8 :=
  match profile with
  | .fourByte => lease.namespaceId
  | .eightByte => 0x80 ||| lease.namespaceId

/-- A prefix assigned by the server. -/
inductive NoncePrefix
  | four (bytes : Vector UInt8 4)
  | eight (bytes : Vector UInt8 8)
deriving DecidableEq, Repr

def NoncePrefix.asBytes : NoncePrefix → List UInt8
  | .four bytes => bytes.toList
  | .eight bytes => bytes.toList

/-- Byte `i` of the little-endian form of a counter. -/
def counterByte (value i : ℕ) : UInt8 := UInt8.ofNat (value / 2 ^ (8 * i))

/-- The prefix of one counter of a namespace. -/
def noncePrefix (value : ℕ) : NoncePrefix :=
  match profile with
  | .fourByte => .four #v[domainByte profile lease, counterByte value 0, counterByte value 1,
      counterByte value 2]
  | .eightByte => .eight #v[domainByte profile lease, counterByte value 0, counterByte value 1,
      counterByte value 2, counterByte value 3, counterByte value 4, counterByte value 5,
      counterByte value 6]

/-- The bytes of a profile's counter. -/
def counterBytes : NonceProfile → ℕ
  | .fourByte => 3
  | .eightByte => 7

theorem noncePrefix_asBytes (value : ℕ) :
    (noncePrefix profile lease value).asBytes =
      domainByte profile lease :: leBytes (counterBytes profile) value := by
  cases profile <;> rfl

theorem capacity_eq : capacity profile = 2 ^ (8 * counterBytes profile) := by
  cases profile <;> rfl

theorem NonceNamespaceLease.toNat_lt : lease.namespaceId.toNat < 128 :=
  Nat.lt_succ_of_le (UInt8.le_iff_toNat_le.mp lease.range.2)

/-- The high bit of the domain byte is the profile, the low seven bits are the namespace. -/
theorem domainByte_toNat :
    (domainByte profile lease).toNat = match profile with
      | .fourByte => lease.namespaceId.toNat
      | .eightByte => 128 + lease.namespaceId.toNat := by
  cases profile with
  | fourByte => rfl
  | eightByte =>
    have hor := @Nat.two_pow_add_eq_or_of_lt 7 lease.namespaceId.toNat lease.toNat_lt 1
    show (0x80 ||| lease.namespaceId).toNat = _
    rw [UInt8.toNat_or]
    simpa using hor.symm

/-- The domain byte names the profile and the namespace. -/
theorem domainByte_injective {profile profile' : NonceProfile} {lease lease' : NonceNamespaceLease}
    (h : domainByte profile lease = domainByte profile' lease') :
    profile = profile' ∧ lease = lease' := by
  have hbyte := congrArg UInt8.toNat h
  rw [domainByte_toNat, domainByte_toNat] at hbyte
  have hsmall := lease.toNat_lt
  have hsmall' := lease'.toNat_lt
  have hlease : lease.namespaceId.toNat = lease'.namespaceId.toNat → lease = lease' := by
    intro hsame
    cases lease
    cases lease'
    simp only [NonceNamespaceLease.mk.injEq]
    exact UInt8.toNat.inj hsame
  cases profile <;> cases profile' <;> simp only at hbyte
  · exact ⟨rfl, hlease hbyte⟩
  · omega
  · omega
  · exact ⟨rfl, hlease (by omega)⟩

/-- **A prefix that begins another one is that one**, so that no two counters of the two profiles
    and all namespaces can be confused. -/
theorem noncePrefix_isPrefix {profile profile' : NonceProfile} {lease lease' : NonceNamespaceLease}
    {value value' : ℕ} (hvalue : value < capacity profile) (hvalue' : value' < capacity profile')
    (h : (noncePrefix profile lease value).asBytes <+: (noncePrefix profile' lease' value').asBytes) :
    profile = profile' ∧ lease = lease' ∧ value = value' := by
  rw [noncePrefix_asBytes, noncePrefix_asBytes, List.cons_prefix_cons] at h
  obtain ⟨hdomain, hcounter⟩ := h
  obtain ⟨rfl, rfl⟩ := domainByte_injective hdomain
  have hbytes := hcounter.eq_of_length (by rw [length_leBytes, length_leBytes])
  have hmod := mod_eq_of_leBytes_eq hbytes
  rw [← capacity_eq, Nat.mod_eq_of_lt hvalue, Nat.mod_eq_of_lt hvalue'] at hmod
  exact ⟨rfl, rfl, hmod⟩

/-! ## §2. Cursors and allocators -/

/-- The next position of a namespace. -/
structure NonceCursor where
  profile : NonceProfile
  lease : NonceNamespaceLease
  next : ℕ
  valid : next ≤ capacity profile
deriving DecidableEq

def NonceCursor.new (next : ℕ) : Except NoncePrefixError NonceCursor :=
  if h : next > capacity profile then .error (.invalidCursor profile next)
  else .ok ⟨profile, lease, next, Nat.le_of_not_lt h⟩

/-- The counters of a namespace that may still be issued are those of `next … endExclusive - 1`. -/
structure NoncePrefixAllocator where
  profile : NonceProfile
  lease : NonceNamespaceLease
  next : ℕ
  endExclusive : ℕ
  bounded : next ≤ endExclusive
  within : endExclusive ≤ capacity profile

instance : DecidableEq NoncePrefixAllocator := fun a b =>
  decidable_of_iff ((a.profile, a.lease, a.next, a.endExclusive)
      = (b.profile, b.lease, b.next, b.endExclusive)) (by
    cases a
    cases b
    simp)

namespace NoncePrefixAllocator

/-- Restore only a transactionally reserved sub-range of one namespace. -/
def restoreReserved (cursor : NonceCursor) (lease : NonceNamespaceLease) (endExclusive : ℕ) :
    Except NoncePrefixError NoncePrefixAllocator :=
  if cursor.lease ≠ lease then
    .error (.leaseMismatch cursor.lease.namespaceId lease.namespaceId)
  else if h : endExclusive ≤ cursor.next ∨ endExclusive > capacity cursor.profile then
    .error (.invalidReservation cursor.next endExclusive)
  else .ok ⟨cursor.profile, lease, cursor.next, endExclusive,
    Nat.le_of_lt (Nat.lt_of_not_le (not_or.mp h).1), Nat.le_of_not_lt (not_or.mp h).2⟩

/-- Extend the allocator with the range that continues its own. -/
def extendReserved (allocator : NoncePrefixAllocator) (start endExclusive : ℕ) :
    Except NoncePrefixError NoncePrefixAllocator :=
  if h : start ≠ allocator.endExclusive ∨ endExclusive ≤ start ∨
      endExclusive > capacity allocator.profile then
    .error (.nonContiguousReservation allocator.endExclusive start endExclusive)
  else .ok { allocator with
    endExclusive := endExclusive
    bounded := by
      have := allocator.bounded
      omega
    within := by omega }

/-- How many reserved prefixes remain. -/
def remaining (allocator : NoncePrefixAllocator) : ℕ := allocator.endExclusive - allocator.next

/-- Issue the next prefix. -/
def allocate (allocator : NoncePrefixAllocator) :
    Except NoncePrefixError (NoncePrefixAllocator × NoncePrefix) :=
  if h : allocator.next ≥ allocator.endExclusive then .error (.exhausted allocator.profile)
  else .ok ({ allocator with next := allocator.next + 1, bounded := by omega },
    noncePrefix allocator.profile allocator.lease allocator.next)

theorem extendReserved_eq_ok {allocator allocator' : NoncePrefixAllocator} {start stop : ℕ}
    (h : allocator.extendReserved start stop = .ok allocator') :
    start = allocator.endExclusive ∧ start < stop ∧ allocator'.profile = allocator.profile ∧
      allocator'.lease = allocator.lease ∧ allocator'.next = allocator.next ∧
      allocator'.endExclusive = stop := by
  unfold extendReserved at h
  split at h
  · cases h
  · next hguard =>
    injection h with h
    subst h
    push Not at hguard
    exact ⟨hguard.1, hguard.2.1, rfl, rfl, rfl, rfl⟩

/-- **What one call issues**: the prefix of the next counter. -/
theorem allocate_eq_ok {allocator allocator' : NoncePrefixAllocator} {p : NoncePrefix}
    (h : allocator.allocate = .ok (allocator', p)) :
    allocator.next < allocator.endExclusive ∧
      p = noncePrefix allocator.profile allocator.lease allocator.next ∧
      allocator'.profile = allocator.profile ∧ allocator'.lease = allocator.lease ∧
      allocator'.next = allocator.next + 1 ∧ allocator'.endExclusive = allocator.endExclusive := by
  unfold allocate at h
  split at h
  · cases h
  · next hguard =>
    obtain ⟨rfl, rfl⟩ := ok_pair_inj h
    exact ⟨Nat.lt_of_not_le hguard, rfl, rfl, rfl, rfl, rfl⟩

end NoncePrefixAllocator

end WcashPool.Core
