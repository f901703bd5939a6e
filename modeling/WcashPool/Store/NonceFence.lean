/-
  WcashPool.Store.NonceFence — the fence of a nonce namespace
  (`claim_nonce_namespace`, `renew_nonce_namespace`, `release_nonce_namespace`,
  `reserve_nonce_range`).

  Every deployment of a backend journal shares one fence per profile and
  namespace: a counter that only grows, a lease generation, and the holder of
  the current lease.  A claim of a free or expired namespace starts a new
  generation; only the holder of the current one, before its expiry, may renew,
  release or reserve.  Each call is one transaction that locks the row of its
  fence, and reads the database clock once per statement; nothing is assumed
  about the readings.

  Main results: `MovesAt`, `FenceHistory.Sound` and `FenceMove.sound`.
-/
import WcashPool.Lib.Ranges
import WcashPool.Store.Ledger

namespace WcashPool.Store

open Fallible WcashPool.Core Ranges

/-! ## §1. Tables -/

/-- The profile and the namespace of a fence. -/
structure NonceKey where
  profile : NonceProfile
  lease : NonceNamespaceLease
deriving DecidableEq

/-- The columns of the current lease; they are null together. -/
structure NonceHolder where
  holderId : Uuid
  holderDeploymentId : Uuid
  leaseAcquiredAt : ℕ
  leaseExpiresAt : ℕ
deriving DecidableEq

/-- `nonce_namespace_fences`. -/
structure NonceFence where
  key : NonceKey
  nextCounter : ℕ
  leaseGeneration : ℕ
  holder : Option NonceHolder
deriving DecidableEq

inductive NonceClaimEventKind
  | claimed
  | renewed
  | released
deriving DecidableEq, Repr

/-- `nonce_namespace_claim_events`. -/
structure NonceClaimEvent where
  key : NonceKey
  deploymentId : Uuid
  holderId : Uuid
  leaseGeneration : ℕ
  eventKind : NonceClaimEventKind
  leaseExpiresAt : Option ℕ
  nextCounter : ℕ
deriving DecidableEq

/-- `nonce_global_range_reservations`. -/
structure NonceReservation where
  key : NonceKey
  id : Uuid
  deploymentId : Uuid
  holderId : Uuid
  leaseGeneration : ℕ
  rangeStart : ℕ
  rangeEnd : ℕ
deriving DecidableEq

/-- The nonce tables of one backend journal; events and reservations in the order of insertion. -/
structure NonceTables where
  fences : Table NonceFence.key
  claimEvents : List NonceClaimEvent
  reservations : List NonceReservation
deriving DecidableEq

def NonceTables.empty : NonceTables := ⟨Table.empty, [], []⟩

/-- The fence of a key; a row that no claim has inserted yet counts as a fresh one. -/
def NonceTables.fence (t : NonceTables) (key : NonceKey) : NonceFence :=
  (t.fences.find key).getD ⟨key, 0, 0, none⟩

/-- A transactionally reserved interval of a namespace. -/
structure NonceRange where
  id : Uuid
  profile : NonceProfile
  lease : NonceNamespaceLease
  start : ℕ
  stop : ℕ
deriving DecidableEq

/-- An allocator that cannot escape this exact reservation. -/
def NonceRange.allocator (range : NonceRange) : Except StoreError NoncePrefixAllocator := do
  let cursor ← (NonceCursor.new range.profile range.lease range.start).mapError .noncePrefix
  (NoncePrefixAllocator.restoreReserved cursor range.lease range.stop).mapError .noncePrefix

/-- The ownership proof of a namespace. -/
structure NonceNamespaceClaim where
  deploymentId : Uuid
  holderId : Uuid
  profile : NonceProfile
  lease : NonceNamespaceLease
  generation : ℕ
  expiresAt : ℕ
deriving DecidableEq

def NonceNamespaceClaim.key (claim : NonceNamespaceClaim) : NonceKey := ⟨claim.profile, claim.lease⟩

/-! ## §2. The calls -/

structure Duration where
  secs : ℕ
  subsecNanos : ℕ
deriving DecidableEq, Repr

def minNonceNamespaceLeaseSecs : ℕ := 1

def maxNonceNamespaceLeaseSecs : ℕ := 5 * 60

def nonceLeaseSeconds (duration : Duration) : Except StoreError ℕ := do
  rejectIf (duration.subsecNanos ≠ 0 ∨ duration.secs < minNonceNamespaceLeaseSecs ∨
    maxNonceNamespaceLeaseSecs < duration.secs) .invalidNonceLeaseDuration
  pure duration.secs

def validateNonceClaim (deploymentId : Uuid) (claim : NonceNamespaceClaim) :
    Except StoreError Unit :=
  rejectIf (claim.deploymentId ≠ deploymentId ∨ claim.holderId.isNil ∨ claim.generation = 0)
    .nonceNamespaceLeaseLost

/-- Rewrite the row of a fence. -/
def NonceTables.updateFence (t : NonceTables) (key : NonceKey) (f : NonceFence → NonceFence)
    (hf : ∀ fence, (f fence).key = fence.key) : NonceTables :=
  { t with fences := t.fences.modify key f hf }

/-- The audit row copies the expiry and the counter of the fence. -/
def insertNonceClaimEvent (t : NonceTables) (key : NonceKey) (deploymentId holderId : Uuid)
    (generation : ℕ) (eventKind : NonceClaimEventKind) : Except StoreError NonceTables := do
  let fence ← orReject (.corruptDatabaseState "nonce claim audit") (t.fences.find key)
  pure { t with claimEvents := t.claimEvents ++
    [⟨key, deploymentId, holderId, generation, eventKind, fence.holder.map (·.leaseExpiresAt),
      fence.nextCounter⟩] }

/-- `INSERT … ON CONFLICT DO NOTHING`. -/
def NonceTables.ensureFence (t : NonceTables) (key : NonceKey) : NonceTables :=
  { t with fences := (t.fences.insert ⟨key, 0, 0, none⟩).getD t.fences }

/-- The clock, as each statement of a claim reads it. -/
structure ClaimClock where
  active : ℕ
  acquired : ℕ
  expires : ℕ
deriving DecidableEq, Repr

/-- A lease that has not run out. -/
abbrev NonceHolder.Active (holder : NonceHolder) (now : ℕ) : Prop := now < holder.leaseExpiresAt

section Calls

variable (deploymentId : Uuid) (t : NonceTables)

/-- The answer to a claim of a namespace with an active lease: the lease itself, to its holder. -/
def answerActiveClaim (fence : NonceFence) (holder : NonceHolder) (holderId : Uuid) :
    Except StoreError (NonceTables × NonceNamespaceClaim) := do
  rejectIf (holder.holderId ≠ holderId ∨ holder.holderDeploymentId ≠ deploymentId)
    .nonceNamespaceAlreadyHeld
  pure (t, ⟨deploymentId, holderId, fence.key.profile, fence.key.lease, fence.leaseGeneration,
    holder.leaseExpiresAt⟩)

/-- A new generation of a free or expired namespace. -/
def takeOverNamespace (clock : ClaimClock) (fence : NonceFence) (holderId : Uuid)
    (leaseSeconds : ℕ) : Except StoreError (NonceTables × NonceNamespaceClaim) := do
  rejectIf (fence.leaseGeneration + 1 ≥ i64Limit) .nonceNamespaceLeaseGenerationExhausted
  -- the CHECK on the two times of a lease
  rejectIf (clock.expires + leaseSeconds ≤ clock.acquired)
    (.database "nonce_namespace_fences_check")
  let t ← insertNonceClaimEvent
    (t.updateFence fence.key (fun row => { row with
      leaseGeneration := fence.leaseGeneration + 1
      holder := some ⟨holderId, deploymentId, clock.acquired, clock.expires + leaseSeconds⟩ })
      fun _ => rfl)
    fence.key deploymentId holderId (fence.leaseGeneration + 1) .claimed
  pure (t, ⟨deploymentId, holderId, fence.key.profile, fence.key.lease, fence.leaseGeneration + 1,
    clock.expires + leaseSeconds⟩)

/-- A claim under the lock of the fence's row. -/
def claimLockedFence (clock : ClaimClock) (key : NonceKey) (holderId : Uuid) (leaseSeconds : ℕ) :
    Except StoreError (NonceTables × NonceNamespaceClaim) :=
  match (t.fence key).holder with
  | some holder =>
    if holder.Active clock.active then answerActiveClaim deploymentId t (t.fence key) holder holderId
    else takeOverNamespace deploymentId t clock (t.fence key) holderId leaseSeconds
  | none => takeOverNamespace deploymentId t clock (t.fence key) holderId leaseSeconds

/-- Claim exclusive ownership of a namespace. -/
def claimNonceNamespace (clock : ClaimClock) (holderId : Uuid) (profile : NonceProfile)
    (lease : NonceNamespaceLease) (leaseDuration : Duration) :
    Except StoreError (NonceTables × NonceNamespaceClaim) := do
  rejectIf holderId.isNil .invalidNonceReservation
  let leaseSeconds ← nonceLeaseSeconds leaseDuration
  claimLockedFence deploymentId (t.ensureFence ⟨profile, lease⟩) clock ⟨profile, lease⟩ holderId
    leaseSeconds

/-- The row that the claim still owns at `now`, locked, with its holder. -/
def lockOwnedFence (claim : NonceNamespaceClaim) (now : ℕ) :
    Except StoreError (NonceFence × NonceHolder) :=
  match t.fences.find claim.key with
  | none => .error .nonceNamespaceLeaseLost
  | some fence =>
    match fence.holder with
    | none => .error .nonceNamespaceLeaseLost
    | some holder =>
      if holder.holderId = claim.holderId ∧ holder.holderDeploymentId = deploymentId ∧
          fence.leaseGeneration = claim.generation ∧ holder.Active now
      then .ok (fence, holder) else .error .nonceNamespaceLeaseLost

/-- Extend an active claim; `clock` has the reading of the guard and that of the new expiry. -/
def renewNonceNamespace (clock : ℕ × ℕ) (claim : NonceNamespaceClaim) (leaseDuration : Duration) :
    Except StoreError (NonceTables × NonceNamespaceClaim) := do
  validateNonceClaim deploymentId claim
  let leaseSeconds ← nonceLeaseSeconds leaseDuration
  rejectIf (claim.generation ≥ i64Limit) .invalidNonceReservation
  let (_, holder) ← lockOwnedFence deploymentId t claim clock.1
  let expiresAt := max holder.leaseExpiresAt (clock.2 + leaseSeconds)
  let t ← insertNonceClaimEvent
    (t.updateFence claim.key
      (fun row => { row with holder := some { holder with leaseExpiresAt := expiresAt } })
      fun _ => rfl)
    claim.key deploymentId claim.holderId claim.generation .renewed
  pure (t, { claim with expiresAt := expiresAt })

/-- Release an active claim without changing its cursor. -/
def releaseNonceNamespace (now : ℕ) (claim : NonceNamespaceClaim) :
    Except StoreError NonceTables := do
  validateNonceClaim deploymentId claim
  rejectIf (claim.generation ≥ i64Limit) .invalidNonceReservation
  let _ ← lockOwnedFence deploymentId t claim now
  insertNonceClaimEvent
    (t.updateFence claim.key (fun row => { row with holder := none }) fun _ => rfl)
    claim.key deploymentId claim.holderId claim.generation .released

end Calls

/-- The keys of the reservations of one fence. -/
def reservationTaken (t : NonceTables) (key : NonceKey) (id : Uuid) (start stop : ℕ) : Prop :=
  ∃ r ∈ t.reservations, r.key = key ∧ (r.id = id ∨ r.rangeStart = start ∨ r.rangeEnd = stop)

instance (t : NonceTables) (key : NonceKey) (id : Uuid) (start stop : ℕ) :
    Decidable (reservationTaken t key id start stop) := by
  unfold reservationTaken
  infer_instance

/-- Record a range and move the cursor to its end. -/
def NonceTables.recordReservation (t : NonceTables) (r : NonceReservation) : NonceTables :=
  { t with
    fences := t.fences.modify r.key (fun fence => { fence with nextCounter := r.rangeEnd })
      fun _ => rfl
    reservations := t.reservations ++ [r] }

/-- Reserve a unique counter range under an active claim.  The trigger on the insertion reads the
    clock again; its other checks repeat those of the function. -/
def reserveNonceRange (deploymentId : Uuid) (t : NonceTables) (clock : ℕ × ℕ) (id : Uuid)
    (claim : NonceNamespaceClaim) (count : ℕ) : Except StoreError (NonceTables × NonceRange) := do
  validateNonceClaim deploymentId claim
  rejectIf (count = 0) .invalidNonceReservation
  rejectIf (claim.generation ≥ i64Limit) .invalidNonceReservation
  let (fence, holder) ← lockOwnedFence deploymentId t claim clock.1
  let start := fence.nextCounter
  let stop := start + count
  rejectIf (capacity claim.profile < stop) .nonceNamespaceExhausted
  rejectIf (¬ holder.Active clock.2)
    (.database "nonce reservation does not own an active namespace lease")
  rejectIf (reservationTaken t claim.key id start stop)
    (.database "nonce_global_range_reservations_key")
  pure (t.recordReservation
      ⟨claim.key, id, deploymentId, claim.holderId, claim.generation, start, stop⟩,
    ⟨id, claim.profile, claim.lease, start, stop⟩)

/-! ## §3. The history of a namespace -/

/-- What the tables say about one fence: its row, its ranges and the generations of its claims, in
    the order in which they were recorded. -/
structure FenceHistory where
  fence : NonceFence
  ranges : List NonceReservation
  claims : List ℕ

def NonceTables.history (t : NonceTables) (key : NonceKey) : FenceHistory where
  fence := t.fence key
  ranges := t.reservations.filter (·.key = key)
  claims := (t.claimEvents.filter fun e => e.key = key ∧ e.eventKind = .claimed).map
    (·.leaseGeneration)

/-- What a committed call can do to the history of the fence of `profile`. -/
inductive FenceMove (profile : NonceProfile) : FenceHistory → FenceHistory → Prop
  | idle (h : FenceHistory) : FenceMove profile h h
  | claim (h : FenceHistory) (holder : NonceHolder) :
      FenceMove profile h
        { h with
          fence := { h.fence with
            leaseGeneration := h.fence.leaseGeneration + 1
            holder := some holder }
          claims := h.claims ++ [h.fence.leaseGeneration + 1] }
  | renew (h : FenceHistory) (holder : NonceHolder) (expiresAt : ℕ)
      (hheld : h.fence.holder = some holder) :
      FenceMove profile h
        { h with fence := { h.fence with
            holder := some { holder with leaseExpiresAt := expiresAt } } }
  | release (h : FenceHistory) :
      FenceMove profile h { h with fence := { h.fence with holder := none } }
  | reserve (h : FenceHistory) (holder : NonceHolder) (r : NonceReservation)
      (hheld : h.fence.holder = some holder)
      (howner : r.holderId = holder.holderId ∧ r.deploymentId = holder.holderDeploymentId)
      (hgeneration : r.leaseGeneration = h.fence.leaseGeneration)
      (hstart : r.rangeStart = h.fence.nextCounter) (hlt : r.rangeStart < r.rangeEnd)
      (hcapacity : r.rangeEnd ≤ capacity profile) :
      FenceMove profile h
        { h with
          fence := { h.fence with nextCounter := r.rangeEnd }
          ranges := h.ranges ++ [r] }

/-- A call moves the history of one fence and leaves all others alone. -/
structure MovesAt (key : NonceKey) (t t' : NonceTables) : Prop where
  here : FenceMove key.profile (t.history key) (t'.history key)
  elsewhere : ∀ k, k ≠ key → t'.history k = t.history k

section Rows

variable {t t' : NonceTables} {key : NonceKey} {fence : NonceFence}

theorem fence_of_find (h : t.fences.find key = some fence) : t.fence key = fence := by
  unfold NonceTables.fence
  rw [h]
  rfl

theorem find_ensureFence (t : NonceTables) (key : NonceKey) :
    (t.ensureFence key).fences.find key = some (t.fence key) := by
  unfold NonceTables.ensureFence NonceTables.fence
  cases hfind : t.fences.find key with
  | some fence =>
    have hinsert : t.fences.insert ⟨key, 0, 0, none⟩ = none := by
      cases hinsert : t.fences.insert ⟨key, 0, 0, none⟩ with
      | none => rfl
      | some u => exact absurd ((Table.insert_eq_some hinsert).1.symm.trans hfind) (by simp)
    rw [hinsert]
    exact hfind
  | none =>
    obtain ⟨u, hinsert⟩ := Table.insert_of_find_none (r := (⟨key, 0, 0, none⟩ : NonceFence)) hfind
    rw [hinsert]
    exact (Table.find_insert hinsert key).trans (if_pos rfl)

theorem fence_ensureFence (t : NonceTables) (key k : NonceKey) :
    (t.ensureFence key).fence k = t.fence k := by
  by_cases hk : k = key
  · rw [hk]
    exact fence_of_find (find_ensureFence t key)
  · unfold NonceTables.ensureFence NonceTables.fence
    cases hinsert : t.fences.insert ⟨key, 0, 0, none⟩ with
    | none => rfl
    | some u =>
      show (u.find k).getD _ = _
      rw [Table.find_insert hinsert, if_neg (Ne.symm hk)]

theorem history_ensureFence (t : NonceTables) (key k : NonceKey) :
    (t.ensureFence key).history k = t.history k := by
  unfold NonceTables.history
  rw [fence_ensureFence]
  rfl

theorem fence_updateFence_self (h : t.fences.find key = some fence) (f : NonceFence → NonceFence)
    (hf : ∀ fence, (f fence).key = fence.key) : (t.updateFence key f hf).fence key = f fence :=
  fence_of_find (Table.find_modify_self h f hf)

theorem fence_updateFence_of_ne {k : NonceKey} (hne : k ≠ key) (f : NonceFence → NonceFence)
    (hf : ∀ fence, (f fence).key = fence.key) : (t.updateFence key f hf).fence k = t.fence k := by
  unfold NonceTables.updateFence NonceTables.fence
  rw [Table.find_modify, if_neg hne]

variable {deploymentId holderId : Uuid} {generation : ℕ} {kind : NonceClaimEventKind}

/-- An event of a claim is appended. -/
theorem insertNonceClaimEvent_eq_ok
    (h : insertNonceClaimEvent t key deploymentId holderId generation kind = .ok t') :
    ∃ e : NonceClaimEvent, e.key = key ∧ e.eventKind = kind ∧ e.leaseGeneration = generation ∧
      t' = { t with claimEvents := t.claimEvents ++ [e] } := by
  obtain ⟨fence, -, h⟩ := bind_eq_ok.mp h
  injection h with h
  exact ⟨_, rfl, rfl, rfl, h.symm⟩

/-- A rewritten row with its audit event. -/
theorem history_audited (hfind : t.fences.find key = some fence) (f : NonceFence → NonceFence)
    (hf : ∀ fence, (f fence).key = fence.key)
    (h : insertNonceClaimEvent (t.updateFence key f hf) key deploymentId holderId generation kind
      = .ok t') :
    t'.history key = { t.history key with
        fence := f fence
        claims := (t.history key).claims ++ if kind = .claimed then [generation] else [] } ∧
      ∀ k, k ≠ key → t'.history k = t.history k := by
  obtain ⟨e, hkey, hkind, hgeneration, rfl⟩ := insertNonceClaimEvent_eq_ok h
  have hself := fence_updateFence_self hfind f hf
  refine ⟨?_, fun k hne => ?_⟩
  · unfold NonceTables.history
    rw [FenceHistory.mk.injEq]
    refine ⟨hself, rfl, ?_⟩
    rw [List.filter_append, List.map_append]
    congr 1
    split
    · next hclaimed => simp [hkey, hkind, hgeneration, hclaimed]
    · next hclaimed => simp [hkind, hclaimed]
  · unfold NonceTables.history
    rw [FenceHistory.mk.injEq]
    refine ⟨fence_updateFence_of_ne hne f hf, rfl, ?_⟩
    rw [List.filter_append, List.filter_cons_of_neg (by simp [hkey, Ne.symm hne]),
      List.filter_nil, List.append_nil]
    rfl

/-- Such a rewrite moves the history of its fence alone. -/
theorem MovesAt.audited (hfind : t.fences.find key = some fence) {f : NonceFence → NonceFence}
    {hf : ∀ fence, (f fence).key = fence.key}
    (h : insertNonceClaimEvent (t.updateFence key f hf) key deploymentId holderId generation kind
      = .ok t') (hmove : ∀ h : FenceHistory, h.fence = fence → FenceMove key.profile h { h with
      fence := f fence
      claims := h.claims ++ if kind = .claimed then [generation] else [] }) : MovesAt key t t' := by
  obtain ⟨hhere, helse⟩ := history_audited hfind f hf h
  exact ⟨hhere ▸ hmove _ (fence_of_find hfind), helse⟩

theorem history_recordReservation {r : NonceReservation} (hfind : t.fences.find r.key = some fence) :
    (t.recordReservation r).history r.key = { t.history r.key with
        fence := { fence with nextCounter := r.rangeEnd }
        ranges := (t.history r.key).ranges ++ [r] } ∧
      ∀ k, k ≠ r.key → (t.recordReservation r).history k = t.history k := by
  refine ⟨?_, fun k hne => ?_⟩
  · unfold NonceTables.history
    rw [FenceHistory.mk.injEq]
    refine ⟨fence_updateFence_self hfind (fun fence => { fence with nextCounter := r.rangeEnd })
      fun _ => rfl, ?_, rfl⟩
    show (t.reservations ++ [r]).filter _ = _
    rw [List.filter_append, List.filter_cons_of_pos (by simp), List.filter_nil]
  · unfold NonceTables.history
    rw [FenceHistory.mk.injEq]
    refine ⟨fence_updateFence_of_ne hne (fun fence => { fence with nextCounter := r.rangeEnd })
      fun _ => rfl, ?_, rfl⟩
    show (t.reservations ++ [r]).filter _ = _
    rw [List.filter_append, List.filter_cons_of_neg (by simpa using Ne.symm hne), List.filter_nil,
      List.append_nil]

/-- The fence is locked by its holder only. -/
theorem lockOwnedFence_eq_ok {claim : NonceNamespaceClaim} {now : ℕ} {holder : NonceHolder}
    (h : lockOwnedFence deploymentId t claim now = .ok (fence, holder)) :
    t.fences.find claim.key = some fence ∧ fence.holder = some holder ∧
      holder.holderId = claim.holderId ∧ holder.holderDeploymentId = deploymentId ∧
      fence.leaseGeneration = claim.generation ∧ holder.Active now := by
  unfold lockOwnedFence at h
  split at h
  · cases h
  · next hfind =>
    split at h
    · cases h
    · next hholder =>
      split at h
      · next howned =>
        obtain ⟨rfl, rfl⟩ := ok_pair_inj h
        exact ⟨hfind, hholder, howned⟩
      · cases h

end Rows

/-! ## §4. What each call does -/

variable {key : NonceKey} {profile : NonceProfile} {t : NonceTables}

section Calls

variable {t t' : NonceTables} {deploymentId : Uuid} {claim : NonceNamespaceClaim}
  {clock : ClaimClock} {holderId : Uuid}

/-- A takeover, as a move of the fence. -/
theorem takeOverNamespace_moves {fence : NonceFence} {leaseSeconds : ℕ}
    (hfind : t.fences.find key = some fence)
    (h : takeOverNamespace deploymentId t clock fence holderId leaseSeconds = .ok (t', claim)) :
    MovesAt key t t' := by
  obtain ⟨t₁, hevent, h⟩ := bind_eq_ok.mp (passed (passed h))
  obtain ⟨rfl, -⟩ := ok_pair_inj h
  obtain rfl := Table.key_of_find hfind
  refine .audited hfind hevent fun past hfence => ?_
  subst hfence
  exact .claim past _

theorem claimLockedFence_moves {leaseSeconds : ℕ} (hfind : t.fences.find key = some (t.fence key))
    (h : claimLockedFence deploymentId t clock key holderId leaseSeconds = .ok (t', claim)) :
    MovesAt key t t' := by
  unfold claimLockedFence at h
  split at h
  · split at h
    · unfold answerActiveClaim at h
      replace h := passed h
      obtain ⟨rfl, -⟩ := ok_pair_inj h
      exact ⟨.idle _, fun _ _ => rfl⟩
    · exact takeOverNamespace_moves hfind h
  · exact takeOverNamespace_moves hfind h

/-- **A claim**, as a move of the fence. -/
theorem claimNonceNamespace_moves {lease : NonceNamespaceLease} {duration : Duration}
    (h : claimNonceNamespace deploymentId t clock holderId profile lease duration
      = .ok (t', claim)) : MovesAt ⟨profile, lease⟩ t t' := by
  obtain ⟨leaseSeconds, -, h⟩ := bind_eq_ok.mp (passed h)
  have hfind := find_ensureFence t ⟨profile, lease⟩
  rw [← fence_ensureFence t ⟨profile, lease⟩ ⟨profile, lease⟩] at hfind
  obtain ⟨hhere, helse⟩ := claimLockedFence_moves hfind h
  rw [history_ensureFence] at hhere
  exact ⟨hhere, fun k hk => (helse k hk).trans (history_ensureFence t _ k)⟩

/-- **A renewal**, as a move of the fence. -/
theorem renewNonceNamespace_moves {clock : ℕ × ℕ} {claim' : NonceNamespaceClaim}
    {duration : Duration}
    (h : renewNonceNamespace deploymentId t clock claim duration = .ok (t', claim')) :
    MovesAt claim.key t t' := by
  obtain ⟨leaseSeconds, -, h⟩ := bind_eq_ok.mp (passed h)
  obtain ⟨⟨fence, holder⟩, hlock, h⟩ := bind_eq_ok.mp (passed h)
  obtain ⟨t₁, hevent, h⟩ := bind_eq_ok.mp h
  obtain ⟨rfl, -⟩ := ok_pair_inj h
  obtain ⟨hfind, hholder, -⟩ := lockOwnedFence_eq_ok hlock
  refine .audited hfind hevent fun past hfence => ?_
  subst hfence
  simpa using FenceMove.renew past holder _ hholder

/-- **A release**, as a move of the fence. -/
theorem releaseNonceNamespace_moves {now : ℕ}
    (h : releaseNonceNamespace deploymentId t now claim = .ok t') : MovesAt claim.key t t' := by
  obtain ⟨⟨fence, holder⟩, hlock, hevent⟩ := bind_eq_ok.mp (passed (passed h))
  obtain ⟨hfind, -⟩ := lockOwnedFence_eq_ok hlock
  refine .audited hfind hevent fun past hfence => ?_
  subst hfence
  simpa using FenceMove.release past

/-- **What a reservation is**: the next counters of a fence, under its current lease, before the
    lease ran out by any reading of the clock. -/
structure Reserves (t t' : NonceTables) (claim : NonceNamespaceClaim) (clock : ℕ × ℕ)
    (range : NonceRange) (r : NonceReservation) : Prop where
  recorded : t'.reservations = t.reservations ++ [r]
  key : r.key = claim.key
  deployment : r.deploymentId = claim.deploymentId
  holder : r.holderId = claim.holderId
  generation : r.leaseGeneration = claim.generation
  answer : range = ⟨r.id, claim.profile, claim.lease, r.rangeStart, r.rangeEnd⟩
  nonempty : r.rangeStart < r.rangeEnd
  start : r.rangeStart = (t.fence claim.key).nextCounter
  cursor : (t'.fence claim.key).nextCounter = r.rangeEnd
  current : (t.fence claim.key).leaseGeneration = claim.generation
  active : ∃ holder, (t.fence claim.key).holder = some holder ∧ holder.holderId = claim.holderId ∧
    holder.holderDeploymentId = claim.deploymentId ∧ holder.Active clock.1 ∧ holder.Active clock.2

/-- **A reservation** takes the next counters. -/
theorem reserveNonceRange_spec {clock : ℕ × ℕ} {id : Uuid} {count : ℕ} {range : NonceRange}
    (h : reserveNonceRange deploymentId t clock id claim count = .ok (t', range)) :
    MovesAt claim.key t t' ∧ ∃ r, Reserves t t' claim clock range r := by
  obtain ⟨_, hvalid, h⟩ := bind_eq_ok.mp h
  obtain ⟨_, hcount, h⟩ := bind_eq_ok.mp h
  obtain ⟨⟨fence, holder⟩, hlock, h⟩ := bind_eq_ok.mp (passed h)
  obtain ⟨_, hcapacity, h⟩ := bind_eq_ok.mp h
  obtain ⟨_, hactive, h⟩ := bind_eq_ok.mp h
  replace h := passed h
  obtain ⟨rfl, rfl⟩ := ok_pair_inj h
  obtain ⟨hfind, hholder, hid, hdeployment, hgeneration, hnow⟩ := lockOwnedFence_eq_ok hlock
  simp only [validateNonceClaim, rejectIf_eq_ok, not_or, not_not] at hvalid hcount hcapacity hactive
  have hsame : deploymentId = claim.deploymentId := hvalid.1.symm
  have hfence : (t.history claim.key).fence = fence := fence_of_find hfind
  have hlt : fence.nextCounter < fence.nextCounter + count := by omega
  have hmove := @FenceMove.reserve claim.key.profile (t.history claim.key) holder
    ⟨claim.key, id, deploymentId, claim.holderId, claim.generation, fence.nextCounter,
      fence.nextCounter + count⟩ (by rw [hfence, hholder]) ⟨hid.symm, hdeployment.symm⟩
    (by rw [hfence, hgeneration]) (by rw [hfence]) hlt (Nat.le_of_not_lt hcapacity)
  obtain ⟨hhere, helse⟩ := history_recordReservation (r := ⟨claim.key, id, deploymentId,
    claim.holderId, claim.generation, fence.nextCounter, fence.nextCounter + count⟩) hfind
  refine ⟨⟨?_, helse⟩, ⟨claim.key, id, deploymentId, claim.holderId, claim.generation,
    fence.nextCounter, fence.nextCounter + count⟩, ?_⟩
  · rw [hfence] at hmove
    rw [hhere]
    exact hmove
  · exact
      { recorded := rfl
        key := rfl
        deployment := hsame
        holder := rfl
        generation := rfl
        answer := rfl
        nonempty := hlt
        start := by rw [fence_of_find hfind]
        cursor := congrArg (fun h => h.fence.nextCounter) hhere
        current := by rw [fence_of_find hfind, hgeneration]
        active := ⟨holder, by rw [fence_of_find hfind, hholder], hid, hdeployment.trans hsame,
          hnow, hactive⟩ }

end Calls

/-! ## §5. The law of one fence -/

/-- **The law**: the ranges tile the counter, within capacity; generations grow along the claims
    and along the ranges; a generation has one owner. -/
structure FenceHistory.Sound (h : FenceHistory) (profile : NonceProfile) : Prop where
  tiled : Tiles NonceReservation.rangeStart NonceReservation.rangeEnd 0 h.ranges h.fence.nextCounter
  within : h.fence.nextCounter ≤ capacity profile
  increasing : h.claims.Pairwise (· < ·)
  claims_le : ∀ g ∈ h.claims, g ≤ h.fence.leaseGeneration
  stamped : h.ranges.Pairwise fun r s => r.leaseGeneration ≤ s.leaseGeneration
  ranges_le : ∀ r ∈ h.ranges, r.leaseGeneration ≤ h.fence.leaseGeneration
  owner : ∀ r ∈ h.ranges, ∀ holder ∈ h.fence.holder,
    r.leaseGeneration = h.fence.leaseGeneration →
      r.holderId = holder.holderId ∧ r.deploymentId = holder.holderDeploymentId
  owners : ∀ r ∈ h.ranges, ∀ s ∈ h.ranges, r.leaseGeneration = s.leaseGeneration →
    r.holderId = s.holderId ∧ r.deploymentId = s.deploymentId

theorem pairwise_concat {α : Type} {R : α → α → Prop} {l : List α} {a : α} (hl : l.Pairwise R)
    (ha : ∀ b ∈ l, R b a) : (l ++ [a]).Pairwise R :=
  List.pairwise_append.mpr ⟨hl, List.pairwise_singleton R a, fun b hb _ hc =>
    List.mem_singleton.mp hc ▸ ha b hb⟩

theorem forall_mem_concat {α : Type} {p : α → Prop} {l : List α} {a : α} (hl : ∀ b ∈ l, p b)
    (ha : p a) : ∀ b ∈ l ++ [a], p b :=
  List.forall_mem_append.mpr ⟨hl, List.forall_mem_singleton.mpr ha⟩

/-- **One step.** -/
theorem FenceMove.sound {h h' : FenceHistory} (hmove : FenceMove profile h h')
    (hs : h.Sound profile) : h'.Sound profile := by
  cases hmove with
  | idle => exact hs
  | claim holder =>
    exact
      { hs with
        increasing := pairwise_concat hs.increasing fun g hg => Nat.lt_succ_of_le (hs.claims_le g hg)
        claims_le := forall_mem_concat (fun g hg => Nat.le_succ_of_le (hs.claims_le g hg)) le_rfl
        ranges_le := fun r hr => Nat.le_succ_of_le (hs.ranges_le r hr)
        owner := fun r hr _ _ hgeneration => by
          -- no range has the new generation yet
          have hle := hs.ranges_le r hr
          have hnew : r.leaseGeneration = h.fence.leaseGeneration + 1 := hgeneration
          omega }
  | renew holder expiresAt hheld =>
    exact
      { hs with
        owner := fun r hr holder' hholder' hgeneration => by
          obtain rfl : { holder with leaseExpiresAt := expiresAt } = holder' :=
            Option.some.inj hholder'
          exact hs.owner r hr holder hheld hgeneration }
  | release => exact { hs with owner := fun _ _ _ hnone => absurd hnone (by simp) }
  | reserve holder r hheld howner hgeneration hstart hlt hcapacity =>
    have hnew : ∀ s ∈ h.ranges, s.leaseGeneration = r.leaseGeneration →
        s.holderId = r.holderId ∧ s.deploymentId = r.deploymentId := by
      intro s hs' hsame
      obtain ⟨hid, hdeployment⟩ := hs.owner s hs' holder hheld (hsame.trans hgeneration)
      exact ⟨hid.trans howner.1.symm, hdeployment.trans howner.2.symm⟩
    exact
      { tiled := hs.tiled.concat hstart hlt
        within := hcapacity
        increasing := hs.increasing
        claims_le := hs.claims_le
        stamped := pairwise_concat hs.stamped fun s hs' => by
          rw [hgeneration]
          exact hs.ranges_le s hs'
        ranges_le := forall_mem_concat hs.ranges_le (le_of_eq hgeneration)
        owner := forall_mem_concat hs.owner fun holder' hholder' _ => by
          obtain rfl : holder = holder' := Option.some.inj (hheld.symm.trans hholder')
          exact howner
        owners := by
          refine forall_mem_concat (fun s hs' => forall_mem_concat (hs.owners s hs') (hnew s hs')) ?_
          refine forall_mem_concat (fun s hs' hsame => ?_) fun _ => ⟨rfl, rfl⟩
          exact (hnew s hs' hsame.symm).imp Eq.symm Eq.symm }

/-- No call takes a counter back. -/
theorem FenceMove.nextCounter_le {h h' : FenceHistory} (hmove : FenceMove profile h h') :
    h.fence.nextCounter ≤ h'.fence.nextCounter := by
  cases hmove with
  | reserve holder r hheld howner hgeneration hstart hlt hcapacity =>
    show h.fence.nextCounter ≤ r.rangeEnd
    omega
  | _ => exact le_rfl

/-- The law for every fence of the journal. -/
def NonceTables.Sound (t : NonceTables) : Prop := ∀ key, (t.history key).Sound key.profile

theorem NonceTables.sound_empty : NonceTables.empty.Sound := fun _ =>
  { tiled := rfl
    within := Nat.zero_le _
    increasing := List.Pairwise.nil
    claims_le := by simp [NonceTables.history, NonceTables.empty]
    stamped := List.Pairwise.nil
    ranges_le := by simp [NonceTables.history, NonceTables.empty]
    owner := by simp [NonceTables.history, NonceTables.empty]
    owners := by simp [NonceTables.history, NonceTables.empty] }

/-- **A move keeps the tables sound.** -/
theorem MovesAt.sound {t' : NonceTables} (hmove : MovesAt key t t') (hs : t.Sound) : t'.Sound := by
  intro k
  by_cases hk : k = key
  · rw [hk]
    exact hmove.here.sound (hs key)
  · rw [hmove.elsewhere k hk]
    exact hs k

/-- Counters never go back. -/
theorem MovesAt.nextCounter_le {t' : NonceTables} (hmove : MovesAt key t t') (k : NonceKey) :
    (t.fence k).nextCounter ≤ (t'.fence k).nextCounter := by
  by_cases hk : k = key
  · rw [hk]
    exact hmove.here.nextCounter_le
  · exact le_of_eq (congrArg (fun h => h.fence.nextCounter) (hmove.elsewhere k hk)).symm

/-- The ranges that one claim has reserved, in order. -/
def NonceTables.rangesOf (t : NonceTables) (claim : NonceNamespaceClaim) : List NonceReservation :=
  t.reservations.filter fun r => r.key = claim.key ∧ r.deploymentId = claim.deploymentId ∧
    r.holderId = claim.holderId ∧ r.leaseGeneration = claim.generation

/-- **The ranges of a claim follow one another**: no other claim reserves between two of them. -/
theorem NonceTables.Sound.rangesOf_infix (hs : t.Sound) (claim : NonceNamespaceClaim) :
    t.rangesOf claim <:+: (t.history claim.key).ranges := by
  have hkey := hs claim.key
  -- where the claim has a range at all, the ranges of its generation are its own
  have hranges : t.rangesOf claim = (t.history claim.key).ranges.filter fun r =>
      r.leaseGeneration = claim.generation ∧ r.deploymentId = claim.deploymentId ∧
        r.holderId = claim.holderId := by
    unfold NonceTables.rangesOf NonceTables.history
    rw [List.filter_filter]
    refine List.filter_congr fun r _ => ?_
    simp only [← Bool.decide_and, decide_eq_decide]
    tauto
  cases hnil : t.rangesOf claim with
  | nil => exact List.nil_infix
  | cons r rs =>
    rw [← hnil, hranges]
    have hr : r ∈ t.rangesOf claim := hnil ▸ List.mem_cons_self
    rw [hranges, List.mem_filter] at hr
    obtain ⟨hmem, hfields⟩ := hr
    obtain ⟨hgeneration, hdeployment, hid⟩ := of_decide_eq_true hfields
    have hown : (t.history claim.key).ranges.filter (fun r => r.leaseGeneration = claim.generation ∧
        r.deploymentId = claim.deploymentId ∧ r.holderId = claim.holderId) =
        (t.history claim.key).ranges.filter fun r => r.leaseGeneration = claim.generation := by
      refine List.filter_congr fun s hs' => ?_
      rw [decide_eq_decide]
      constructor
      · exact fun h => h.1
      · intro hsame
        obtain ⟨hid', hdeployment'⟩ := hkey.owners s hs' r hmem (hsame.trans hgeneration.symm)
        exact ⟨hsame, hdeployment'.trans hdeployment, hid'.trans hid⟩
    rw [hown]
    exact infix_filter_of_pairwise_le hkey.stamped _

end WcashPool.Store
