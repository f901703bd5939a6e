/-
  WcashPool.Poold.Nonces — every process that issues nonce prefixes
  (`claim_nonce_allocator`, `maintain_nonce_namespace`, and the fence behind
  them).

  Any number of processes, of any deployments of one backend journal, claim
  namespaces, renew, release and reserve; build allocators from the ranges they
  reserved, extend them, and issue prefixes.  A call is one operation and they
  interleave freely; a process that crashes takes no further operation, and a
  range whose answer was lost is never used.  A range is moved into the one
  allocator that uses it (`NonceRange` is neither copied nor forged).

  Each counter of a namespace is a token.  A reservation makes the tokens of
  its range, a build or an extension passes them on, a call of the allocator
  spends one; so no counter is issued twice.

  Main results: `NonceSystem.Inv.step`, `nonce_prefixes_unique` and
  `header_nonces_disjoint`.
-/
import WcashPool.Lib.Machine
import WcashPool.Protocol.Zip301
import WcashPool.Store.NonceFence

namespace WcashPool.Poold

open Fallible WcashPool.Core Store Ranges Machine

/-! ## §1. Processes -/

/-- An allocator with the claim it serves and the ranges it was built from and extended with. -/
structure LiveAllocator where
  claim : NonceNamespaceClaim
  ranges : List NonceRange
  allocator : NoncePrefixAllocator
deriving DecidableEq

/-- The nonce tables, the ranges that processes hold, their allocators, and every prefix that was
    ever issued. -/
structure NonceSystem where
  tables : NonceTables
  inHand : List (NonceNamespaceClaim × NonceRange)
  allocators : List LiveAllocator
  issued : List NoncePrefix
deriving DecidableEq

def NonceSystem.empty : NonceSystem := ⟨NonceTables.empty, [], [], []⟩

inductive NonceOp
  | claim (deploymentId : Uuid) (clock : ClaimClock) (holderId : Uuid) (profile : NonceProfile)
      (lease : NonceNamespaceLease) (duration : Duration)
  | renew (deploymentId : Uuid) (clock : ℕ × ℕ) (claim : NonceNamespaceClaim) (duration : Duration)
  | release (deploymentId : Uuid) (now : ℕ) (claim : NonceNamespaceClaim)
  | reserve (deploymentId : Uuid) (clock : ℕ × ℕ) (id : Uuid) (claim : NonceNamespaceClaim)
      (count : ℕ)
  | build (range : ℕ)
  | extend (allocator range : ℕ)
  | allocate (allocator : ℕ)
deriving DecidableEq

/-- Two answers about one lease differ in its expiry only. -/
def SameClaim (c c' : NonceNamespaceClaim) : Prop := { c with expiresAt := c'.expiresAt } = c'

instance (c c' : NonceNamespaceClaim) : Decidable (SameClaim c c') := by
  unfold SameClaim
  infer_instance

/-- `NonceRange::allocator` on a range in hand. -/
def NonceSystem.build (s : NonceSystem) (n : ℕ) (claim : NonceNamespaceClaim) (range : NonceRange) :
    Except StoreError (NonceSystem × Unit) := do
  let allocator ← range.allocator
  pure ({ s with
    inHand := s.inHand.eraseIdx n
    allocators := s.allocators ++ [⟨claim, [range], allocator⟩] }, ())

/-- `extend_reserved` with a range in hand. -/
def NonceSystem.extend (s : NonceSystem) (a n : ℕ) (live : LiveAllocator) (range : NonceRange) :
    Except StoreError (NonceSystem × Unit) := do
  let allocator ← (live.allocator.extendReserved range.start range.stop).mapError
    .noncePrefix
  pure ({ s with
    inHand := s.inHand.eraseIdx n
    allocators := s.allocators.set a ⟨live.claim, live.ranges ++ [range], allocator⟩ }, ())

/-- `allocate`. -/
def NonceSystem.allocate (s : NonceSystem) (a : ℕ) (live : LiveAllocator) :
    Except StoreError (NonceSystem × Unit) := do
  let (allocator, issue) ← live.allocator.allocate.mapError .noncePrefix
  pure ({ s with
    allocators := s.allocators.set a { live with allocator := allocator }
    issued := s.issued ++ [issue] }, ())

/-- One operation of some process.  One that names a range or an allocator that no process has is
    no operation at all. -/
def NonceSystem.step (s : NonceSystem) : NonceOp → Except StoreError (NonceSystem × Unit)
  | .claim deploymentId clock holderId profile lease duration => do
    let (tables, _) ← claimNonceNamespace deploymentId s.tables clock holderId profile lease duration
    pure ({ s with tables := tables }, ())
  | .renew deploymentId clock claim duration => do
    let (tables, _) ← renewNonceNamespace deploymentId s.tables clock claim duration
    pure ({ s with tables := tables }, ())
  | .release deploymentId now claim => do
    let tables ← releaseNonceNamespace deploymentId s.tables now claim
    pure ({ s with tables := tables }, ())
  | .reserve deploymentId clock id claim count => do
    let (tables, range) ← reserveNonceRange deploymentId s.tables clock id claim count
    pure ({ s with tables := tables, inHand := s.inHand ++ [(claim, range)] }, ())
  | .build n =>
    match s.inHand[n]? with
    | some (claim, range) => s.build n claim range
    | none => .ok (s, ())
  | .extend a n =>
    match s.allocators[a]?, s.inHand[n]? with
    | some live, some (claim, range) =>
      if SameClaim live.claim claim then s.extend a n live range else .ok (s, ())
    | _, _ => .ok (s, ())
  | .allocate a =>
    match s.allocators[a]? with
    | some live => s.allocate a live
    | none => .ok (s, ())

/-- The system after a list of operations, whatever each of them answers. -/
def afterOps (ops : List NonceOp) : NonceSystem := run NonceSystem.step NonceSystem.empty ops

/-! ## §2. Tokens -/

/-- The counters from `lo` to `hi` of a namespace. -/
def tokens (key : NonceKey) (lo hi : ℕ) : List (NonceKey × ℕ) := (numbers lo hi).map (key, ·)

def heldTokens (p : NonceNamespaceClaim × NonceRange) : List (NonceKey × ℕ) :=
  tokens p.1.key p.2.start p.2.stop

def liveTokens (live : LiveAllocator) : List (NonceKey × ℕ) :=
  tokens live.claim.key live.allocator.next live.allocator.endExclusive

/-- The counters that were reserved and may still be issued. -/
def NonceSystem.unissued (s : NonceSystem) : List (NonceKey × ℕ) :=
  s.inHand.flatMap heldTokens ++ s.allocators.flatMap liveTokens

/-- The prefix of a counter. -/
def tokenPrefix (token : NonceKey × ℕ) : NoncePrefix :=
  noncePrefix token.1.profile token.1.lease token.2

/-- What a process has in hand belongs to the claim it was reserved under, and so does an
    allocator, which ends where its last range ends. -/
structure NonceSystem.Tagged (s : NonceSystem) : Prop where
  hand : ∀ p ∈ s.inHand, p.2.profile = p.1.profile ∧ p.2.lease = p.1.lease
  live : ∀ live ∈ s.allocators, live.allocator.profile = live.claim.profile ∧
    live.allocator.lease = live.claim.lease ∧
    ∃ front last, live.ranges = front ++ [last] ∧ live.allocator.endExclusive = last.stop

/-- **Tokens**: the issued prefixes are those of `used` counters; no counter is used twice or used
    and still to be issued, and every one lies below the cursor of its fence. -/
structure NonceSystem.Apart (s : NonceSystem) (used : List (NonceKey × ℕ)) : Prop where
  issued : s.issued = used.map tokenPrefix
  nodup : (used ++ s.unissued).Nodup
  below : ∀ token ∈ used ++ s.unissued, token.2 < (s.tables.fence token.1).nextCounter

structure NonceSystem.Inv (s : NonceSystem) : Prop where
  sound : s.tables.Sound
  tagged : s.Tagged
  apart : ∃ used, s.Apart used

theorem NonceSystem.empty_inv : NonceSystem.empty.Inv where
  sound := NonceTables.sound_empty
  tagged := ⟨by simp [NonceSystem.empty], by simp [NonceSystem.empty]⟩
  apart := ⟨[], rfl, by simp [NonceSystem.unissued, NonceSystem.empty],
    by simp [NonceSystem.unissued, NonceSystem.empty]⟩

theorem mem_tokens {key : NonceKey} {lo hi : ℕ} {token : NonceKey × ℕ} :
    token ∈ tokens key lo hi ↔ token.1 = key ∧ lo ≤ token.2 ∧ token.2 < hi := by
  unfold tokens
  rw [List.mem_map]
  constructor
  · rintro ⟨n, hn, rfl⟩
    exact ⟨rfl, mem_numbers.mp hn⟩
  · rintro ⟨rfl, hn⟩
    exact ⟨token.2, mem_numbers.mpr hn, rfl⟩

theorem nodup_tokens (key : NonceKey) (lo hi : ℕ) : (tokens key lo hi).Nodup :=
  (nodup_numbers lo hi).map fun _ _ h => (Prod.mk.inj h).2

variable {s : NonceSystem}

/-- Passing tokens on, or spending one, keeps them apart. -/
theorem NonceSystem.Apart.perm {s' : NonceSystem} {used used' : List (NonceKey × ℕ)}
    (h : s.Apart used) (hissued : s'.issued = used'.map tokenPrefix)
    (hperm : (used' ++ s'.unissued).Perm (used ++ s.unissued))
    (hfence : ∀ key, (s.tables.fence key).nextCounter ≤ (s'.tables.fence key).nextCounter) :
    s'.Apart used' where
  issued := hissued
  nodup := hperm.nodup_iff.mpr h.nodup
  below := fun token htoken => (h.below token (hperm.mem_iff.mp htoken)).trans_le (hfence token.1)

/-! ## §3. Each operation -/

section Steps

variable {s s' : NonceSystem}

/-- A call that touches the tables only. -/
theorem NonceSystem.Inv.of_moves (hinv : s.Inv) {key : NonceKey} {tables : NonceTables}
    (hmove : MovesAt key s.tables tables) : NonceSystem.Inv { s with tables := tables } := by
  obtain ⟨used, hapart⟩ := hinv.apart
  exact
    { sound := hmove.sound hinv.sound
      tagged := ⟨hinv.tagged.hand, hinv.tagged.live⟩
      apart := ⟨used, hapart.perm hapart.issued (List.Perm.refl _) hmove.nextCounter_le⟩ }

variable {claim : NonceNamespaceClaim} {range : NonceRange} {n : ℕ}

/-- A reservation makes new tokens: all others lie below the old cursor. -/
theorem NonceSystem.Inv.of_reserve (hinv : s.Inv) {tables : NonceTables} {clock : ℕ × ℕ}
    {r : NonceReservation} (hmove : MovesAt claim.key s.tables tables)
    (hr : Reserves s.tables tables claim clock range r) :
    NonceSystem.Inv { s with tables := tables, inHand := s.inHand ++ [(claim, range)] } := by
  obtain ⟨used, hapart⟩ := hinv.apart
  have hstart : range.start = (s.tables.fence claim.key).nextCounter := by
    rw [hr.answer]
    exact hr.start
  have hstop : range.stop = (tables.fence claim.key).nextCounter := by
    rw [hr.answer]
    exact hr.cursor.symm
  have hperm : (used ++ NonceSystem.unissued
      { s with tables := tables, inHand := s.inHand ++ [(claim, range)] }).Perm
        (tokens claim.key range.start range.stop ++ (used ++ s.unissued)) := by
    unfold NonceSystem.unissued
    rw [List.flatMap_append, List.flatMap_singleton]
    show (used ++ (s.inHand.flatMap heldTokens ++ tokens claim.key range.start range.stop
      ++ s.allocators.flatMap liveTokens)).Perm _
    rw [← List.append_assoc, ← List.append_assoc, List.append_assoc]
    refine (List.perm_append_comm_assoc _ _ _).trans ?_
    rw [← List.append_assoc used]
  refine ⟨hmove.sound hinv.sound, ⟨fun p hp => ?_, hinv.tagged.live⟩, used, hapart.issued, ?_, ?_⟩
  · cases List.mem_append.mp hp with
    | inl hold => exact hinv.tagged.hand p hold
    | inr hnew =>
      rw [List.mem_singleton.mp hnew, hr.answer]
      exact ⟨rfl, rfl⟩
  · rw [hperm.nodup_iff, List.nodup_append]
    refine ⟨nodup_tokens _ _ _, hapart.nodup, fun token htoken token' htoken' hsame => ?_⟩
    obtain ⟨hkey, hlo, -⟩ := mem_tokens.mp htoken
    have hbelow := hapart.below token' htoken'
    rw [← hsame, hkey] at hbelow
    omega
  · intro token htoken
    show token.2 < (tables.fence token.1).nextCounter
    cases List.mem_append.mp (hperm.mem_iff.mp htoken) with
    | inl hnew =>
      obtain ⟨hkey, -, hhi⟩ := mem_tokens.mp hnew
      rw [hkey, ← hstop]
      exact hhi
    | inr hold => exact (hapart.below token hold).trans_le (hmove.nextCounter_le token.1)

theorem NonceRange.allocator_eq_ok {allocator : NoncePrefixAllocator}
    (h : range.allocator = .ok allocator) :
    allocator.profile = range.profile ∧ allocator.lease = range.lease ∧
      allocator.next = range.start ∧ allocator.endExclusive = range.stop := by
  obtain ⟨cursor, hcursor, h⟩ := bind_eq_ok.mp h
  have hcursor := mapError_eq_ok.mp hcursor
  have h := mapError_eq_ok.mp h
  unfold NonceCursor.new at hcursor
  split at hcursor
  · cases hcursor
  · injection hcursor with hcursor
    subst hcursor
    unfold NoncePrefixAllocator.restoreReserved at h
    split at h
    · cases h
    · split at h
      · cases h
      · injection h with h
        subst h
        exact ⟨rfl, rfl, rfl, rfl⟩

/-- Taking one element out of a list takes its tokens out. -/
theorem count_flatMap_eraseIdx {α : Type} {l : List α} {a : α} (h : l[n]? = some a)
    (f : α → List (NonceKey × ℕ)) (token : NonceKey × ℕ) :
    (l.flatMap f).count token = (f a).count token + ((l.eraseIdx n).flatMap f).count token := by
  obtain ⟨hn, hget⟩ := List.getElem?_eq_some_iff.mp h
  have hperm := (List.getElem_cons_eraseIdx_perm hn).flatMap_right f
  rw [← hperm.count_eq, List.flatMap_cons, List.count_append, hget]

theorem count_flatMap_set {α : Type} {l : List α} {a : α} (h : l[n]? = some a) (b : α)
    (f : α → List (NonceKey × ℕ)) (token : NonceKey × ℕ) :
    ((l.set n b).flatMap f).count token + (f a).count token =
      (l.flatMap f).count token + (f b).count token := by
  obtain ⟨hn, -⟩ := List.getElem?_eq_some_iff.mp h
  have hperm := (List.set_perm_cons_eraseIdx hn b).flatMap_right f
  have herase := count_flatMap_eraseIdx h f token
  rw [hperm.count_eq, List.flatMap_cons, List.count_append]
  omega

/-- A build passes the tokens of a range to a new allocator. -/
theorem NonceSystem.Inv.of_build (hinv : s.Inv) (hrange : s.inHand[n]? = some (claim, range))
    (h : s.build n claim range = .ok (s', ())) : s'.Inv := by
  obtain ⟨allocator, hallocator, h⟩ := bind_eq_ok.mp h
  obtain ⟨rfl, -⟩ := ok_pair_inj h
  obtain ⟨hprofile, hlease, hnext, hend⟩ := NonceRange.allocator_eq_ok hallocator
  obtain ⟨hrangeProfile, hrangeLease⟩ := hinv.tagged.hand _ (List.mem_of_getElem? hrange)
  obtain ⟨used, hapart⟩ := hinv.apart
  refine ⟨hinv.sound, ⟨fun p hp => hinv.tagged.hand p (List.mem_of_mem_eraseIdx hp), ?_⟩, used,
    hapart.perm hapart.issued (List.perm_iff_count.mpr fun token => ?_) fun _ => le_rfl⟩
  · intro live hlive
    cases List.mem_append.mp hlive with
    | inl hold => exact hinv.tagged.live live hold
    | inr hnew =>
      rw [List.mem_singleton.mp hnew]
      exact ⟨hprofile.trans hrangeProfile, hlease.trans hrangeLease, [], range, rfl, hend⟩
  · have hhand := count_flatMap_eraseIdx hrange heldTokens token
    have hpassed : liveTokens ⟨claim, [range], allocator⟩ = heldTokens (claim, range) := by
      unfold liveTokens heldTokens
      rw [hnext, hend]
    simp only [NonceSystem.unissued, List.count_append, List.flatMap_append,
      List.flatMap_singleton, hpassed]
    omega

/-- An extension passes the tokens of a range to the allocator that ends where it starts. -/
theorem NonceSystem.Inv.of_extend (hinv : s.Inv) {a : ℕ} {live : LiveAllocator}
    (hlive : s.allocators[a]? = some live) (hrange : s.inHand[n]? = some (claim, range))
    (hclaim : SameClaim live.claim claim) (h : s.extend a n live range = .ok (s', ())) :
    s'.Inv := by
  obtain ⟨allocator, hallocator, h⟩ := bind_eq_ok.mp h
  obtain ⟨rfl, -⟩ := ok_pair_inj h
  obtain ⟨hstart, hlt, hprofile, hlease, hnext, hend⟩ :=
    NoncePrefixAllocator.extendReserved_eq_ok (mapError_eq_ok.mp hallocator)
  obtain ⟨hliveProfile, hliveLease, -⟩ := hinv.tagged.live _ (List.mem_of_getElem? hlive)
  obtain ⟨used, hapart⟩ := hinv.apart
  refine ⟨hinv.sound, ⟨fun p hp => hinv.tagged.hand p (List.mem_of_mem_eraseIdx hp), ?_⟩, used,
    hapart.perm hapart.issued (List.perm_iff_count.mpr fun token => ?_) fun _ => le_rfl⟩
  · intro live' hlive'
    cases List.mem_or_eq_of_mem_set hlive' with
    | inl hold => exact hinv.tagged.live live' hold
    | inr hnew =>
      rw [hnew]
      exact ⟨hprofile.trans hliveProfile, hlease.trans hliveLease, live.ranges, range, rfl, hend⟩
  · have hhand := count_flatMap_eraseIdx hrange heldTokens token
    have hset := count_flatMap_set hlive ⟨live.claim, live.ranges ++ [range], allocator⟩ liveTokens
      token
    have hkey : claim.key = live.claim.key := by rw [← hclaim]; rfl
    have hpassed : liveTokens ⟨live.claim, live.ranges ++ [range], allocator⟩ =
        liveTokens live ++ heldTokens (claim, range) := by
      unfold liveTokens heldTokens tokens
      rw [hkey, ← List.map_append, hnext, hend, hstart, numbers_append live.allocator.bounded]
      show live.allocator.endExclusive ≤ range.stop
      omega
    rw [hpassed, List.count_append] at hset
    simp only [NonceSystem.unissued, List.count_append]
    omega

/-- A call of an allocator spends its next token. -/
theorem NonceSystem.Inv.of_allocate (hinv : s.Inv) {a : ℕ} {live : LiveAllocator}
    (hlive : s.allocators[a]? = some live) (h : s.allocate a live = .ok (s', ())) : s'.Inv := by
  obtain ⟨⟨allocator, issue⟩, hallocate, h⟩ := bind_eq_ok.mp h
  obtain ⟨rfl, -⟩ := ok_pair_inj h
  obtain ⟨hlt, rfl, hprofile, hlease, hnext, hend⟩ :=
    NoncePrefixAllocator.allocate_eq_ok (mapError_eq_ok.mp hallocate)
  obtain ⟨hliveProfile, hliveLease, front, last, hranges, hlast⟩ :=
    hinv.tagged.live _ (List.mem_of_getElem? hlive)
  obtain ⟨used, hapart⟩ := hinv.apart
  refine ⟨hinv.sound, ⟨hinv.tagged.hand, ?_⟩, used ++ [(live.claim.key, live.allocator.next)],
    hapart.perm ?_ (List.perm_iff_count.mpr fun token => ?_) fun _ => le_rfl⟩
  · intro live' hlive'
    cases List.mem_or_eq_of_mem_set hlive' with
    | inl hold => exact hinv.tagged.live live' hold
    | inr hnew =>
      rw [hnew]
      exact ⟨hprofile.trans hliveProfile, hlease.trans hliveLease, front, last, hranges,
        hend.trans hlast⟩
  · rw [List.map_append, ← hapart.issued, hliveProfile, hliveLease]
    rfl
  · have hset := count_flatMap_set hlive { live with allocator := allocator } liveTokens token
    have hspent : liveTokens live =
        (live.claim.key, live.allocator.next) :: liveTokens { live with allocator := allocator } := by
      unfold liveTokens tokens
      rw [numbers_cons hlt, List.map_cons, hnext, hend]
    rw [hspent, List.count_cons] at hset
    simp only [NonceSystem.unissued, List.count_append, List.count_singleton]
    omega

/-- **One step** of any process. -/
theorem NonceSystem.Inv.step (hinv : s.Inv) {op : NonceOp} {u : Unit}
    (h : s.step op = .ok (s', u)) : s'.Inv := by
  cases op with
  | claim deploymentId clock holderId profile lease duration =>
    obtain ⟨⟨tables, claim⟩, hcall, h⟩ := bind_eq_ok.mp h
    obtain ⟨rfl, -⟩ := ok_pair_inj h
    exact hinv.of_moves (claimNonceNamespace_moves hcall)
  | renew deploymentId clock claim duration =>
    obtain ⟨⟨tables, claim'⟩, hcall, h⟩ := bind_eq_ok.mp h
    obtain ⟨rfl, -⟩ := ok_pair_inj h
    exact hinv.of_moves (renewNonceNamespace_moves hcall)
  | release deploymentId now claim =>
    obtain ⟨tables, hcall, h⟩ := bind_eq_ok.mp h
    obtain ⟨rfl, -⟩ := ok_pair_inj h
    exact hinv.of_moves (releaseNonceNamespace_moves hcall)
  | reserve deploymentId clock id claim count =>
    obtain ⟨⟨tables, range⟩, hcall, h⟩ := bind_eq_ok.mp h
    obtain ⟨rfl, -⟩ := ok_pair_inj h
    obtain ⟨hmove, r, hr⟩ := reserveNonceRange_spec hcall
    exact hinv.of_reserve hmove hr
  | build n =>
    simp only [NonceSystem.step] at h
    split at h
    · next hrange => exact hinv.of_build hrange h
    · injection h with h
      exact (Prod.mk.inj h).1 ▸ hinv
  | extend a n =>
    simp only [NonceSystem.step] at h
    split at h
    · next hlive hrange =>
      split at h
      · next hclaim => exact hinv.of_extend hlive hrange hclaim h
      · injection h with h
        exact (Prod.mk.inj h).1 ▸ hinv
    · injection h with h
      exact (Prod.mk.inj h).1 ▸ hinv
  | allocate a =>
    simp only [NonceSystem.step] at h
    split at h
    · next hlive => exact hinv.of_allocate hlive h
    · injection h with h
      exact (Prod.mk.inj h).1 ▸ hinv

end Steps

/-- **Every run.** -/
theorem afterOps_inv (ops : List NonceOp) : (afterOps ops).Inv :=
  run_invariant (fun _ _ _ _ hinv h => hinv.step h) NonceSystem.empty_inv ops

/-! ## §4. The law -/

/-- Neither prefix begins the other. -/
def Incomparable (p q : NoncePrefix) : Prop := ¬ p.asBytes <+: q.asBytes ∧ ¬ q.asBytes <+: p.asBytes

theorem NonceSystem.Inv.issued_incomparable (hinv : s.Inv) : s.issued.Pairwise Incomparable := by
  obtain ⟨used, hapart⟩ := hinv.apart
  have hcapacity : ∀ token ∈ used, token.2 < capacity token.1.profile := fun token htoken =>
    (hapart.below token (List.mem_append_left _ htoken)).trans_le (hinv.sound token.1).within
  have hused : used.Nodup := (List.nodup_append.mp hapart.nodup).1
  rw [hapart.issued, List.pairwise_map]
  refine hused.imp_of_mem fun {token token'} htoken htoken' hne => ?_
  have hbegins : ∀ {x y : NonceKey × ℕ}, x ∈ used → y ∈ used →
      (tokenPrefix x).asBytes <+: (tokenPrefix y).asBytes → x = y := by
    intro x y hx hy hprefix
    obtain ⟨hprofile, hlease, hcounter⟩ :=
      noncePrefix_isPrefix (hcapacity x hx) (hcapacity y hy) hprefix
    obtain ⟨⟨profile, lease⟩, counter⟩ := x
    obtain ⟨⟨profile', lease'⟩, counter'⟩ := y
    simp only at hprofile hlease hcounter
    rw [hprofile, hlease, hcounter]
  exact ⟨fun h => hne (hbegins htoken htoken' h), fun h => hne (hbegins htoken' htoken h).symm⟩

/-- The range that a reservation answered. -/
def reservedRange (r : NonceReservation) : NonceRange :=
  ⟨r.id, r.key.profile, r.key.lease, r.rangeStart, r.rangeEnd⟩

/-- The next range of an allocator's own claim continues it. -/
theorem NonceSystem.Inv.extends_ok (hinv : s.Inv) {live : LiveAllocator}
    (hlive : live ∈ s.allocators) {range : NonceRange}
    (hnext : live.ranges ++ [range] <:+: (s.tables.rangesOf live.claim).map reservedRange) :
    ∃ allocator, live.allocator.extendReserved range.start range.stop = .ok allocator := by
  have hsound := hinv.sound live.claim.key
  obtain ⟨hprofile, -, front, last, hranges, hend⟩ := hinv.tagged.live live hlive
  have hstretch := hnext.trans ((hinv.sound.rangesOf_infix live.claim).map reservedRange)
  have htiles : Tiles NonceRange.start NonceRange.stop 0
      ((s.tables.history live.claim.key).ranges.map reservedRange) _ :=
    tiles_map.mpr hsound.tiled
  have hstart : range.start = live.allocator.endExclusive := by
    rw [hranges, List.append_assoc] at hstretch
    rw [hend]
    exact htiles.adjacent hstretch
  obtain ⟨-, hlt, hstop⟩ := htiles.bounds (r := range) (hstretch.subset (by simp))
  have hwithin : range.stop ≤ capacity live.allocator.profile := by
    rw [hprofile]
    exact hstop.trans hsound.within
  unfold NoncePrefixAllocator.extendReserved
  rw [dif_neg (by omega)]
  exact ⟨_, rfl⟩

/-- **The law of the nonce prefixes** in one state of the system. -/
structure NonceLaw (s : NonceSystem) : Prop where
  /-- The ranges of a fence are contiguous from zero, -/
  contiguous : ∀ key, Tiles NonceReservation.rangeStart NonceReservation.rangeEnd 0
    (s.tables.history key).ranges (s.tables.fence key).nextCounter
  /-- pairwise disjoint, -/
  disjoint : ∀ key, (s.tables.history key).ranges.Pairwise fun r r' => r.rangeEnd ≤ r'.rangeStart
  /-- and within capacity. -/
  within : ∀ r ∈ s.tables.reservations, r.rangeEnd ≤ capacity r.key.profile
  /-- Every new claim has a greater generation than all claims before it. -/
  generations : ∀ key, (s.tables.history key).claims.Pairwise (· < ·)
  /-- Only the current generation reserves, before its lease runs out. -/
  reserves : ∀ deploymentId clock id claim count tables range,
    reserveNonceRange deploymentId s.tables clock id claim count = .ok (tables, range) →
      (s.tables.fence claim.key).leaseGeneration = claim.generation ∧
      (∀ g ∈ (s.tables.history claim.key).claims, g ≤ claim.generation) ∧
      ∃ holder, (s.tables.fence claim.key).holder = some holder ∧
        holder.holderId = claim.holderId ∧ holder.holderDeploymentId = claim.deploymentId ∧
        holder.Active clock.1 ∧ holder.Active clock.2
  /-- No prefix that was ever issued equals or begins another one. -/
  prefixes : s.issued.Pairwise Incomparable
  /-- An allocator that has taken the ranges of its claim in order can take the next one. -/
  extends_ok : ∀ live ∈ s.allocators, ∀ range,
    live.ranges ++ [range] <:+: (s.tables.rangesOf live.claim).map reservedRange →
      ∃ allocator, live.allocator.extendReserved range.start range.stop = .ok allocator

/-- **Uniqueness of nonce prefixes**, in every run of any processes, under any clock. -/
theorem nonce_prefixes_unique (ops : List NonceOp) : NonceLaw (afterOps ops) := by
  have hinv := afterOps_inv ops
  exact
    { contiguous := fun key => (hinv.sound key).tiled
      disjoint := fun key => (hinv.sound key).tiled.pairwise
      within := fun r hr => by
        have hmem : r ∈ ((afterOps ops).tables.history r.key).ranges :=
          List.mem_filter.mpr ⟨hr, by simp⟩
        exact ((hinv.sound r.key).tiled.bounds hmem).2.2.trans (hinv.sound r.key).within
      generations := fun key => (hinv.sound key).increasing
      reserves := fun deploymentId clock id claim count tables range h => by
        obtain ⟨-, r, hr⟩ := reserveNonceRange_spec h
        refine ⟨hr.current, fun g hg => ?_, hr.active⟩
        rw [← hr.current]
        exact (hinv.sound claim.key).claims_le g hg
      prefixes := hinv.issued_incomparable
      extends_ok := fun live hlive range hnext => hinv.extends_ok hlive hnext }

/-- A holder reserves two counters and one more, and issues three prefixes; when its lease has run
    out another holder goes on where it stopped. -/
def sampleOps : List NonceOp :=
  let lease : NonceNamespaceLease := ⟨1, by decide⟩
  let first : NonceNamespaceClaim := ⟨1, 1, .fourByte, lease, 1, 160⟩
  let second : NonceNamespaceClaim := ⟨2, 2, .fourByte, lease, 2, 360⟩
  [.claim 1 ⟨100, 100, 100⟩ 1 .fourByte lease ⟨60, 0⟩, .reserve 1 (101, 101) 1 first 2, .build 0,
    .allocate 0, .claim 2 ⟨102, 102, 102⟩ 2 .fourByte lease ⟨60, 0⟩,
    .reserve 1 (103, 103) 2 first 1, .extend 0 0, .allocate 0, .allocate 0,
    .claim 2 ⟨300, 300, 300⟩ 2 .fourByte lease ⟨60, 0⟩, .reserve 1 (301, 301) 3 first 1,
    .reserve 2 (302, 302) 4 second 1, .build 0, .allocate 1]

example : (afterOps sampleOps).issued.map (·.asBytes) =
    [[1, 0, 0, 0], [1, 1, 0, 0], [1, 2, 0, 0], [1, 3, 0, 0]] := by decide +kernel

/-! ## §5. Header nonces -/

open Protocol

/-- The prefix begins the bytes of the nonce. -/
theorem joinNonce_bytes {p : NoncePrefix} {suffix : NonceSuffix} {nonce : Hex32}
    (h : joinNonce p suffix = .ok nonce) : ∃ bytes, p.asBytes <+: bytes ∧ bytes.length = 32 ∧
      nonce.toNat = Limbs.value (bytes.map (·.toBitVec)) := by
  unfold joinNonce at h
  split at h
  case h_3 => cases h
  all_goals
    obtain rfl := Except.ok.inj h
    refine ⟨_, List.prefix_append _ _, ?_, Limbs.toNat_join ?_⟩ <;>
      simp [FixedHex.asBytes, NoncePrefix.asBytes]

/-- **No two connections search the same header nonces**, whatever suffixes their miners choose. -/
theorem header_nonces_disjoint (ops : List NonceOp) :
    (afterOps ops).issued.Pairwise fun p q => ∀ suffix suffix' nonce,
      joinNonce p suffix = .ok nonce → joinNonce q suffix' ≠ .ok nonce := by
  refine (afterOps_inv ops).issued_incomparable.imp ?_
  intro p q hapart suffix suffix' nonce hp hq
  obtain ⟨bytes, hbegins, hlength, hvalue⟩ := joinNonce_bytes hp
  obtain ⟨bytes', hbegins', hlength', hvalue'⟩ := joinNonce_bytes hq
  have hmap := Limbs.value_inj (by simp [hlength, hlength']) (hvalue.symm.trans hvalue')
  obtain rfl := List.map_injective_iff.mpr (fun _ _ => UInt8.toBitVec_inj.mp) hmap
  exact (List.prefix_or_prefix_of_prefix hbegins hbegins').elim hapart.1 hapart.2

end WcashPool.Poold
