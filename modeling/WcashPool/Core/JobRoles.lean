/-
  WcashPool.Core.JobRoles — the roles of the job registry.

  Which jobs accept work is kept twice: as the states and deadlines of the
  entries, and as the current and recent roles.  In a synchronised registry the
  two agree at the last time anyone read the clock; in an unsynchronised one
  there are no roles, and nothing accepts.

  The agreement is shown for the registry before the closing expiry of a call
  (`Roles`: the role holders are the entries in the accepting state), because
  inside a call deadlines may already have passed; the expiry then restores the
  deadlines too (`Roles.expireAt`).

  Main results: `BodyStep.roles`, `SnapshotSpec.roles_install`, `perform_inv`
  and `registry_roles`.
-/
import WcashPool.Core.JobEntries

namespace WcashPool.Core

open Fallible Protocol

/-! ## §1. The agreement -/

def Entries.stateOf (entries : Entries) (id : JobId) : Option AdmissionState :=
  (entries.find id).map (·.state)

namespace GenerationRegistry

def HasRole (r : GenerationRegistry) (id : JobId) : Prop := r.current = some id ∨ id ∈ r.recent

/-- The role holders, the current one first. -/
def roles (r : GenerationRegistry) : List JobId := r.current.toList ++ r.recent

/-- The role holders are the entries in the accepting state. -/
structure Roles (r : GenerationRegistry) : Prop where
  accepting : ∀ id, id ∈ r.roles ↔ r.entries.stateOf id = some .accepting
  settled : ∀ id, r.entries.stateOf id ≠ some .suspended
  nodup : r.roles.Nodup
  bounded : r.recent.length ≤ r.config.maximumRecent

theorem mem_roles {r : GenerationRegistry} {id : JobId} : id ∈ r.roles ↔ r.HasRole id := by
  unfold roles
  rw [List.mem_append, Option.mem_toList]
  rfl

end GenerationRegistry

variable {entries : Entries} {state : AdmissionState} {now : ℕ}

theorem Entries.stateOf_eq_some {id : JobId} :
    entries.stateOf id = some state ↔ ∃ entry, entries.find id = some entry ∧ entry.state = state :=
  Option.map_eq_some_iff

/-- An entry that is not terminal holds its resource. -/
def Live (entries : Entries) : Prop :=
  ∀ id entry, entries.find id = some entry → entry.state.terminal = false →
    entry.storage.isLive = true

/-- An entry that is not terminal has time left. -/
def Unexpired (now : ℕ) (entries : Entries) : Prop :=
  ∀ id entry, entries.find id = some entry → entry.state.terminal = false →
    now < entry.acceptUntilMs

namespace RegistryEntry

theorem expire_state (now : ℕ) (entry : RegistryEntry) :
    (entry.expire now).state
      = if entry.state.terminal = false ∧ entry.acceptUntilMs ≤ now then .invalidated
        else entry.state := by
  unfold expire
  cases hstate : entry.state <;> simp [AdmissionState.terminal, enter, hstate] <;> split <;> simp_all

@[simp] theorem expire_storage (now : ℕ) (entry : RegistryEntry) :
    (entry.expire now).storage = entry.storage := by
  unfold expire
  split <;> rfl

@[simp] theorem expire_acceptUntilMs (now : ℕ) (entry : RegistryEntry) :
    (entry.expire now).acceptUntilMs = entry.acceptUntilMs := by
  unfold expire
  split <;> rfl

/-- What an expiry leaves open has time left. -/
theorem expire_open {entry : RegistryEntry} (h : (entry.expire now).state.terminal = false) :
    (entry.expire now).state = entry.state ∧ now < entry.acceptUntilMs := by
  rw [expire_state] at h ⊢
  split at h
  · cases h
  · next hnot =>
    rw [if_neg hnot]
    exact ⟨rfl, not_le.mp fun hle => hnot ⟨h, hle⟩⟩

/-- When an entry accepts. -/
theorem accepting_iff {entry : RegistryEntry} : entry.accepting now = true ↔
    entry.state = .accepting ∧ entry.storage.isLive = true ∧ now < entry.acceptUntilMs := by
  simp [accepting, and_assoc]

end RegistryEntry

theorem terminal_of_accepting (h : state = .accepting) : state.terminal = false := by
  rw [h]
  rfl

/-- Where the deadlines are ahead, the state says who accepts. -/
theorem acceptingAt_iff (hlive : Live entries) (hunexpired : Unexpired now entries) (id : JobId) :
    entries.acceptingAt now id = true ↔ entries.stateOf id = some .accepting := by
  unfold Entries.acceptingAt
  rw [Option.any_eq_true, Entries.stateOf_eq_some]
  refine exists_congr fun entry => and_congr_right fun hentry => ?_
  rw [RegistryEntry.accepting_iff]
  refine ⟨fun haccepting => haccepting.1, fun hstate => ?_⟩
  have hopen := terminal_of_accepting hstate
  exact ⟨hstate, hlive id entry hentry hopen, hunexpired id entry hentry hopen⟩

theorem Unexpired.mono {anchor : ℕ} (h : Unexpired now entries) (hanchor : anchor ≤ now) :
    Unexpired anchor entries :=
  fun id entry hentry hopen => hanchor.trans_lt (h id entry hentry hopen)

namespace GenerationRegistry

variable {r r' : GenerationRegistry} {now : ℕ}

theorem Live.expireAt (h : Live r.entries) : Live (r.expireAt now).entries := by
  intro id entry' hentry' hopen
  obtain ⟨entry, hentry, rfl⟩ := expireAt_back hentry'
  rw [RegistryEntry.expire_storage]
  exact h id entry hentry ((RegistryEntry.expire_open hopen).1 ▸ hopen)

theorem unexpired_expireAt (r : GenerationRegistry) (now : ℕ) :
    Unexpired now (r.expireAt now).entries := by
  intro id entry' hentry' hopen
  obtain ⟨entry, hentry, rfl⟩ := expireAt_back hentry'
  rw [RegistryEntry.expire_acceptUntilMs]
  exact (RegistryEntry.expire_open hopen).2

/-- An expiry leaves states as they are, or ends the job. -/
theorem stateOf_expireAt {id : JobId} (hstate : state ≠ .invalidated)
    (h : (r.expireAt now).entries.stateOf id = some state) : r.entries.stateOf id = some state := by
  obtain ⟨entry', hentry', rfl⟩ := Entries.stateOf_eq_some.mp h
  obtain ⟨entry, hentry, rfl⟩ := expireAt_back hentry'
  rw [RegistryEntry.expire_state] at hstate ⊢
  split at hstate
  · exact absurd rfl hstate
  · next hnot =>
    rw [if_neg hnot]
    exact Entries.stateOf_eq_some.mpr ⟨entry, hentry, rfl⟩

/-- Who is listed, where the deadlines are ahead. -/
theorem Roles.listed (h : r.Roles) (hlive : Live r.entries) (hunexpired : Unexpired now r.entries)
    (id : JobId) :
    (∃ entry, r.entries.find id = some entry ∧ entry.accepting now = true) ↔ id ∈ r.roles := by
  rw [h.accepting, ← acceptingAt_iff hlive hunexpired]
  unfold Entries.acceptingAt
  rw [Option.any_eq_true]

theorem filter_eq_self {α : Type} {o : Option α} {p : α → Bool} (h : ∀ a ∈ o, p a = true) :
    o.filter p = o := by
  cases o with
  | none => rfl
  | some a => exact Option.filter_some_pos (h a rfl)

/-- The same role holders in the same states. -/
theorem Roles.congr (h : r.Roles) (hstates : r'.entries.stateOf = r.entries.stateOf)
    (hroles : r'.roles = r.roles) (hbounded : r'.recent.length ≤ r'.config.maximumRecent) :
    r'.Roles where
  accepting := by rw [hroles, hstates]; exact h.accepting
  settled := by rw [hstates]; exact h.settled
  nodup := hroles ▸ h.nodup
  bounded := hbounded

/-- Some lose their role, and those no longer accept. -/
theorem Roles.filter (h : r.Roles) {p : JobId → Bool} (hcurrent : r'.current = r.current.filter p)
    (hrecent : r'.recent = r.recent.filter p) (hconfig : r'.config = r.config)
    (haccepting : ∀ id, r'.entries.stateOf id = some .accepting ↔
      r.entries.stateOf id = some .accepting ∧ p id = true)
    (hsettled : ∀ id, r'.entries.stateOf id ≠ some .suspended) : r'.Roles := by
  have hroles : r'.roles = r.roles.filter p := by
    unfold roles
    rw [hcurrent, hrecent, List.filter_append, Option.toList_filter]
  refine ⟨fun id => ?_, hsettled, hroles ▸ h.nodup.filter p, ?_⟩
  · rw [hroles, List.mem_filter, haccepting, h.accepting]
  · rw [hrecent, hconfig]
    exact (List.length_filter_le _ _).trans h.bounded

/-- **An expiry keeps the agreement.** -/
theorem Roles.expireAt (h : r.Roles) (hlive : Live r.entries) : (r.expireAt now).Roles := by
  refine h.filter rfl rfl rfl (fun id => ?_) fun id hsuspended => ?_
  · refine Iff.trans ?_
      (and_congr_right' (acceptingAt_iff (Live.expireAt hlive) (unexpired_expireAt r now) id)).symm
    exact ⟨fun h' => ⟨stateOf_expireAt (by decide) h', h'⟩, fun h' => h'.2⟩
  · exact h.settled id (stateOf_expireAt (by decide) hsuspended)

/-! ## §2. Events -/

section Events

variable {anchor : ℕ} {event : BackendEvent}

theorem rememberWinnerRecovery_eq (r : GenerationRegistry) (id : JobId) :
    ∃ winners, r.rememberWinnerRecovery id = { r with winnerRecovery := winners } := by
  unfold rememberWinnerRecovery
  split
  · exact ⟨r.winnerRecovery, rfl⟩
  · exact ⟨_, rfl⟩

theorem activateEntry_eq (r : GenerationRegistry) (entry : RegistryEntry) (anchor : ℕ) :
    ∃ winners, r.activateEntry entry anchor = { r with
      entries := r.entries.put entry
      current := some entry.id
      winnerRecovery := winners } := by
  obtain ⟨winners, hremember⟩ := rememberWinnerRecovery_eq
    { r with entries := r.entries.put entry, current := some entry.id } entry.id
  unfold activateEntry
  rw [hremember]
  exact ⟨_, rfl⟩

variable {entries' : Entries} {entry : RegistryEntry} {id : JobId}

theorem Placed.stateOf (h : Placed entries id entry entries') (id' : JobId) :
    entries'.stateOf id' = if id' = id then some entry.state else entries.stateOf id' := by
  unfold Entries.stateOf
  rw [h.find]
  split <;> rfl

theorem Placed.live (h : Placed entries id entry entries') (hlive : Live entries)
    (hentry : entry.state.terminal = false → entry.storage.isLive = true) : Live entries' := by
  intro id' entry' hentry' hopen
  rw [h.find] at hentry'
  split at hentry'
  · obtain rfl := Option.some.inj hentry'
    exact hentry hopen
  · exact hlive id' entry' hentry' hopen

/-- One event keeps open entries live. -/
theorem BodyStep.live (hlive : Live r.entries) (h : BodyStep r anchor event r') :
    Live r'.entries := by
  cases h with
  | idle => exact hlive
  | activated h =>
    rw [activateEntry_entries]
    exact (Placed.put h.fresh).live hlive fun _ => h.live
  | ended _ hplaced _ _ hstate =>
    refine hplaced.live hlive fun hopen => ?_
    obtain ⟨hold, -⟩ | hterminal := hstate
    · exact hlive _ _ hold hopen
    · cases hterminal.symm.trans hopen
  | graced _ hplaced hold hopen _ _ hstorage =>
    refine hplaced.live hlive fun _ => ?_
    rw [hstorage]
    exact hlive _ _ hold (terminal_of_accepting hopen)

/-- One event keeps the bound on generations. -/
theorem BodyStep.generations (hlength : r.entries.rows.length ≤ r.config.maximumGenerations)
    (h : BodyStep r anchor event r') :
    r'.entries.rows.length ≤ r'.config.maximumGenerations ∧ r'.synchronized = r.synchronized := by
  cases h with
  | idle => exact ⟨hlength, rfl⟩
  | activated h =>
    obtain ⟨winners, hactivated⟩ := (r.extendRecent anchor).activateEntry_eq _ anchor
    rw [hactivated]
    refine ⟨?_, rfl⟩
    show (r.entries.put _).rows.length ≤ r.config.maximumGenerations
    rw [Table.length_put_of_find_none h.fresh]
    have hcapacity := h.capacity
    omega
  | ended _ _ _ hrows => exact ⟨hrows.le.trans hlength, rfl⟩
  | graced _ _ _ _ hrows => exact ⟨hrows.le.trans hlength, rfl⟩

/-- An activation keeps the roles. -/
theorem Activated.roles {job : JobDescriptor} (h : r.Roles) (hlive : Live r.entries)
    (hunexpired : Unexpired anchor r.entries) (hactivated : Activated r anchor job entry) :
    ((r.extendRecent anchor).activateEntry entry anchor).Roles := by
  -- the current job still accepts at the anchor
  have hprior : r.priorCurrent anchor = r.current := by
    refine filter_eq_self fun id hcurrent => ?_
    rw [acceptingAt_iff hlive hunexpired, ← h.accepting, mem_roles]
    exact .inl hcurrent
  obtain ⟨winners, hregistry⟩ := (r.extendRecent anchor).activateEntry_eq entry anchor
  have hroles : ((r.extendRecent anchor).activateEntry entry anchor).roles = entry.id :: r.roles := by
    rw [hregistry]
    show entry.id :: ((r.priorCurrent anchor).toList ++ r.recent) = _
    rw [hprior]
    rfl
  have hstates : ∀ id, ((r.extendRecent anchor).activateEntry entry anchor).entries.stateOf id
      = if id = entry.id then some .accepting else r.entries.stateOf id := by
    intro id
    rw [activateEntry_entries, ← hactivated.state]
    exact (Placed.put hactivated.fresh).stateOf id
  have hnew : entry.id ∉ r.roles := by
    rw [h.accepting]
    unfold Entries.stateOf
    rw [hactivated.fresh]
    simp
  refine ⟨fun id => ?_, fun id => ?_, ?_, ?_⟩
  · rw [hroles, hstates, List.mem_cons, h.accepting]
    split <;> simp_all
  · rw [hstates]
    split
    · simp
    · exact h.settled id
  · rw [hroles]
    exact List.nodup_cons.mpr ⟨hnew, h.nodup⟩
  · rw [hregistry]
    show ((r.priorCurrent anchor).toList ++ r.recent).length ≤ r.config.maximumRecent
    have hbounded := h.bounded
    have hroom := hactivated.recent
    cases hcurrent : r.priorCurrent anchor with
    | none => exact hbounded
    | some id =>
      simp only [hcurrent, Option.isSome_some, true_and] at hroom
      simp only [Option.toList_some, List.singleton_append, List.length_cons]
      omega

/-- In a synchronised registry a job that does not accept is over. -/
theorem Roles.over (h : r.Roles)
    (hstate : (r.entries.find id = some entry ∧ entry.state ≠ .accepting) ∨
      entry.state.terminal = true) : entry.state.terminal = true := by
  obtain ⟨hentry, hnot⟩ | hterminal := hstate
  · have hsettled := h.settled id
    unfold Entries.stateOf at hsettled
    rw [hentry] at hsettled
    cases hstate : entry.state <;> simp_all [AdmissionState.terminal]
  · exact hterminal

/-- Superseded work moves from the current role to a recent one, or stays recent. -/
theorem Roles.grace (h : r.Roles) {id : JobId} {entries' : Entries}
    (hrole : id ∈ r.roles) (hstates : entries'.stateOf = r.entries.stateOf)
    (hat : entries'.acceptingAt anchor id = true)
    (hrecent : ¬ (id ∉ r.recent ∧ r.recent.length = r.config.maximumRecent))
    (winners : List JobId) :
    (withdraw { r with
      entries := entries'
      recent := if id ∉ r.recent then id :: r.recent else r.recent
      winnerRecovery := winners } id anchor).Roles := by
  have hnodup := List.nodup_append.mp h.nodup
  have hbounded := h.bounded
  unfold withdraw
  rw [if_pos hat]
  by_cases hmem : id ∈ r.recent
  · rw [if_neg (not_not.mpr hmem)]
    refine h.congr hstates ?_ hbounded
    have hcurrent : r.current.filter (· ≠ id) = r.current := by
      refine filter_eq_self fun id' hid' => ?_
      simpa using hnodup.2.2 id' (Option.mem_toList.mpr hid') id hmem
    exact congrArg (fun current => Option.toList current ++ r.recent) hcurrent
  · rw [if_pos hmem]
    have hcurrent : r.current = some id := (mem_roles.mp hrole).resolve_right hmem
    refine h.congr hstates ?_ ?_
    · unfold roles
      simp [hcurrent]
    · have hroom : r.recent.length ≠ r.config.maximumRecent := fun hfull => hrecent ⟨hmem, hfull⟩
      show r.recent.length + 1 ≤ r.config.maximumRecent
      omega

/-- **Events keep the agreement**, where no deadline has passed before the anchor. -/
theorem BodyStep.roles (h : r.Roles) (hlive : Live r.entries)
    (hunexpired : Unexpired anchor r.entries) (hbody : BodyStep r anchor event r') : r'.Roles := by
  cases hbody with
  | idle => exact h.congr rfl rfl h.bounded
  | activated hactivated => exact hactivated.roles h hlive hunexpired
  | ended _ hplaced _ _ hstate =>
    have hover := h.over hstate
    refine h.filter rfl rfl rfl (fun id' => ?_) fun id' => ?_
    · rw [hplaced.stateOf]
      split
      · next heq =>
        refine ⟨fun hopen => ?_, fun hne => absurd heq (of_decide_eq_true hne.2)⟩
        rw [Option.some.inj hopen] at hover
        cases hover
      · next hne => simp [hne]
    · rw [hplaced.stateOf]
      split
      · intro hsuspended
        rw [Option.some.inj hsuspended] at hover
        cases hover
      · exact h.settled id'
  | graced _ hplaced hold hopen _ hstate hstorage hlater _ hrecent =>
    have hbefore := Entries.stateOf_eq_some.mpr ⟨_, hold, hopen⟩
    refine h.grace ((h.accepting _).mpr hbefore) ?_ ?_ hrecent _
    · funext id'
      rw [hplaced.stateOf]
      split
      · next heq => rw [heq, hbefore, hstate]
      · rfl
    · unfold Entries.acceptingAt
      rw [hplaced.find, if_pos rfl]
      refine RegistryEntry.accepting_iff.mpr ⟨hstate, ?_, hlater⟩
      rw [hstorage]
      exact hlive _ _ hold (terminal_of_accepting hopen)

end Events

/-! ## §3. Snapshots -/

section Snapshots

variable {current : Option AcceptableJob} {recent : List AcceptableJob}
  {prepared : PreparedSnapshot} {entries : List RegistryEntry} {anchor : ℕ}

theorem RegistryEntry.leaveOut_terminal (entry : RegistryEntry) :
    entry.leaveOut.state.terminal = true := by
  unfold RegistryEntry.leaveOut
  split
  · next h => rw [h]; rfl
  · rfl

variable (h : SnapshotSpec r current recent anchor prepared entries)

include h

/-- After a snapshot the entries that are not terminal are the ones that it lists. -/
theorem SnapshotSpec.open_iff {id : JobId} {entry : RegistryEntry}
    (hentry : prepared.entries.find id = some entry) :
    (id ∈ entries.map (·.id) ∧ entry.state = .accepting ∧ entry.storage.isLive = true) ∨
      (id ∉ entries.map (·.id) ∧ entry.state.terminal = true) := by
  obtain ⟨job, entry', -, hmem, rfl, hprepared, hfind⟩ | ⟨hnot, hfind⟩ := h.find id
  · obtain rfl := Option.some.inj (hfind.symm.trans hentry)
    exact .inl ⟨List.mem_map_of_mem hmem, hprepared.state, hprepared.live⟩
  · rw [hfind] at hentry
    obtain ⟨old, -, rfl⟩ := Option.map_eq_some_iff.mp hentry
    exact .inr ⟨hnot, RegistryEntry.leaveOut_terminal old⟩

/-- A snapshot keeps open entries live. -/
theorem SnapshotSpec.live : Live prepared.entries := by
  intro id entry hentry hopen
  obtain ⟨-, -, hlive⟩ | ⟨-, hterminal⟩ := h.open_iff hentry
  · exact hlive
  · cases hterminal.symm.trans hopen

/-- **A snapshot puts the agreement in place.** -/
theorem SnapshotSpec.roles_install (hconfig : r'.config = r.config)
    (hentries : r'.entries = prepared.entries) (hcurrent : r'.current = prepared.current)
    (hrecent : r'.recent = prepared.recent) : r'.Roles := by
  have hroles : r'.roles = entries.map (·.id) := by
    unfold GenerationRegistry.roles
    rw [hcurrent, hrecent, h.roles]
  refine ⟨fun id => ?_, fun id hsuspended => ?_, hroles ▸ h.nodup, ?_⟩
  · rw [hroles, hentries, Entries.stateOf_eq_some]
    constructor
    · intro hmem
      obtain ⟨job, entry, -, -, -, hprepared, hfind⟩ | ⟨hnot, -⟩ := h.find id
      · exact ⟨entry, hfind, hprepared.state⟩
      · exact absurd hmem hnot
    · rintro ⟨entry, hentry, hstate⟩
      obtain ⟨hmem, -⟩ | ⟨-, hterminal⟩ := h.open_iff hentry
      · exact hmem
      · cases (terminal_of_accepting hstate).symm.trans hterminal
  · rw [hentries] at hsuspended
    obtain ⟨entry, hentry, hstate⟩ := Entries.stateOf_eq_some.mp hsuspended
    obtain ⟨-, hopen, -⟩ | ⟨-, hterminal⟩ := h.open_iff hentry
    · cases hstate.symm.trans hopen
    · rw [hstate] at hterminal
      cases hterminal
  · rw [hrecent, hconfig]
    exact h.recent

end Snapshots

/-! ## §4. Every call -/

/-- What holds between calls. -/
structure Inv (r : GenerationRegistry) : Prop where
  live : Live r.entries
  generations : r.entries.rows.length ≤ r.config.maximumGenerations
  unsynced : r.synchronized = false →
    (∀ id, r.entries.stateOf id ≠ some .accepting) ∧
      r.current = none ∧ r.recent = [] ∧ r.winnerRecovery = []
  synced : r.synchronized = true →
    r.Roles ∧ ∃ now, r.lastMonotonicMs = some now ∧ Unexpired now r.entries

section Calls

variable {ext : External}

/-- A new registry. -/
theorem new_inv (config : GenerationRegistryConfig) : (new config).Inv where
  live := fun _ _ h => absurd h (by simp [new, Table.find, Table.empty])
  generations := Nat.zero_le _
  unsynced := fun _ => ⟨fun _ => by simp [Entries.stateOf, new, Table.find, Table.empty], rfl, rfl, rfl⟩
  synced := fun h => absurd h (by simp [new])

/-- A suspension. -/
theorem suspend_inv (hlive : Live r.entries)
    (hgenerations : r.entries.rows.length ≤ r.config.maximumGenerations) : r.suspend.Inv where
  live := by
    intro id entry' hentry' hopen
    rw [find_suspend] at hentry'
    obtain ⟨entry, hentry, rfl⟩ := Option.map_eq_some_iff.mp hentry'
    have hstorage : entry.suspend.storage = entry.storage := by
      unfold RegistryEntry.suspend
      split <;> rfl
    rw [hstorage]
    exact hlive id entry hentry (entry.evolves_suspend.open_of_open hopen)
  generations := (List.length_map _).le.trans hgenerations
  unsynced := by
    refine fun _ => ⟨fun id haccepting => ?_, rfl, rfl, rfl⟩
    obtain ⟨entry', hentry', hstate⟩ := Entries.stateOf_eq_some.mp haccepting
    rw [find_suspend] at hentry'
    obtain ⟨entry, -, rfl⟩ := Option.map_eq_some_iff.mp hentry'
    unfold RegistryEntry.suspend at hstate
    split at hstate
    · cases hstate
    · contradiction
  synced := fun h => absurd h (by simp [suspend])

/-- The closing expiry of a call. -/
theorem expireAt_inv (hroles : r.Roles) (hlive : Live r.entries)
    (hgenerations : r.entries.rows.length ≤ r.config.maximumGenerations)
    (hentries : r'.entries = (r.expireAt now).entries)
    (hcurrent : r'.current = (r.expireAt now).current)
    (hrecent : r'.recent = (r.expireAt now).recent) (hconfig : r'.config = r.config)
    (hsync : r'.synchronized = true) (hclock : r'.lastMonotonicMs = some now) : r'.Inv := by
  have hexpired : (r.expireAt now).Roles := hroles.expireAt hlive
  refine ⟨hentries ▸ Live.expireAt hlive, ?_,
    fun hfalse => absurd (hsync.symm.trans hfalse) (by decide),
    fun _ => ⟨hexpired.congr (congrArg _ hentries) ?_ ?_, now, hclock,
      hentries ▸ unexpired_expireAt r now⟩⟩
  · rw [hentries, hconfig]
    exact (List.length_map _).le.trans hgenerations
  · unfold roles
    rw [hcurrent, hrecent]
  · rw [hrecent, hconfig]
    exact hexpired.bounded

/-- The passage of time. -/
theorem atTime_inv (h : r.Inv) (now : ℕ) : (r.atTime now).Inv := by
  cases hsync : r.synchronized with
  | true => exact expireAt_inv (h.synced hsync).1 h.live h.generations rfl rfl rfl rfl hsync rfl
  | false =>
    obtain ⟨hstates, hnone, hnil, hwinners⟩ := h.unsynced hsync
    refine ⟨Live.expireAt h.live, (List.length_map _).le.trans h.generations,
      fun _ => ⟨?_, ?_, ?_, hwinners⟩, fun htrue => absurd (hsync.symm.trans htrue) (by decide)⟩
    · exact fun id haccepting => hstates id (stateOf_expireAt (by decide) haccepting)
    · show r.current.filter _ = none
      rw [hnone]
      rfl
    · show r.recent.filter _ = []
      rw [hnil]
      rfl

theorem Unexpired.touched (h : Unexpired now r.entries) (ht : Touched r r') :
    Unexpired now r'.entries := by
  intro id entry' hentry' hopen
  obtain ⟨entry, hentry, hsame⟩ := ht.back hentry'
  rw [hsame.state] at hopen
  rw [hsame.acceptUntilMs]
  exact h id entry hentry hopen

theorem Touched.stateOf (ht : Touched r r') : r'.entries.stateOf = r.entries.stateOf := by
  funext id
  obtain ⟨f, hfind, hf⟩ := ht.entries id
  unfold Entries.stateOf
  rw [hfind, Option.map_map]
  exact congrArg (Option.map · _) (funext fun entry => (hf entry).state)

/-- A touched registry. -/
theorem Inv.touched (h : r.Inv) (ht : Touched r r') : r'.Inv := by
  have hconfig : r'.config = r.config := by rw [ht.rest]
  have hsync : r'.synchronized = r.synchronized := by rw [ht.rest]
  have hcurrent : r'.current = r.current := by rw [ht.rest]
  have hrecent : r'.recent = r.recent := by rw [ht.rest]
  refine ⟨fun id entry' hentry' hopen => ?_, by rw [ht.length, hconfig]; exact h.generations,
    fun hfalse => ?_, fun htrue => ?_⟩
  · obtain ⟨entry, hentry, hsame⟩ := ht.back hentry'
    rw [hsame.state] at hopen
    exact hsame.live hopen (h.live id entry hentry hopen)
  · obtain ⟨hstates, hnone, hnil, hwinners⟩ := h.unsynced (hsync ▸ hfalse)
    rw [ht.stateOf, hcurrent, hrecent]
    exact ⟨hstates, hnone, hnil, List.sublist_nil.mp (hwinners ▸ ht.winners)⟩
  · obtain ⟨hroles, now, hnow, hunexpired⟩ := h.synced (hsync ▸ htrue)
    refine ⟨hroles.congr ht.stateOf ?_ ?_, now, by rw [ht.rest]; exact hnow,
      Unexpired.touched hunexpired ht⟩
    · unfold roles
      rw [hcurrent, hrecent]
    · rw [hrecent, hconfig]
      exact hroles.bounded

/-- A query. -/
theorem QueryStep.inv {now : Option ℕ} (h : r.Inv) (hstep : QueryStep r now r') : r'.Inv := by
  cases hstep with
  | suspended => exact suspend_inv h.live h.generations
  | untimed ht => exact h.touched ht
  | timed _ ht => exact (atTime_inv h _).touched ht

theorem latest_of_checkClock (h : r.checkClock now = .ok ()) : r.latest now = now := by
  rw [checkClock_eq_ok] at h
  unfold latest
  cases hlast : r.lastMonotonicMs with
  | none => rfl
  | some last => simp [h last hlast]

/-- What an event must pass before it changes anything. -/
theorem checkEvent_ok {event : BackendEvent} {anchor policyNow : ℕ}
    (h : r.checkEvent ext event anchor policyNow = .ok now) :
    r.synchronized = true ∧ anchor ≤ now ∧ (∀ last ∈ r.lastMonotonicMs, last ≤ now) := by
  obtain ⟨hsync, h⟩ := rejectIf_bind_ok h
  obtain ⟨_, hclock, h⟩ := bind_eq_ok.mp (passed h)
  obtain ⟨hanchor, h⟩ := rejectIf_bind_ok h
  obtain ⟨_, -, h⟩ := bind_eq_ok.mp h
  obtain ⟨_, -, h⟩ := bind_eq_ok.mp h
  obtain ⟨_, -, h⟩ := bind_eq_ok.mp h
  obtain ⟨_, -, h⟩ := bind_eq_ok.mp h
  have hnow : now = policyNow := (Except.ok.inj h).symm.trans (latest_of_checkClock hclock)
  rw [Bool.not_eq_false] at hsync
  rw [not_lt] at hanchor
  exact ⟨hsync, hnow ▸ hanchor, hnow ▸ checkClock_eq_ok.mp hclock⟩

theorem rememberRoles_eq (r : GenerationRegistry) :
    ∃ winners, r.rememberRoles = { r with winnerRecovery := winners } := by
  unfold rememberRoles
  generalize r.current.toList ++ r.recent = ids
  induction ids generalizing r with
  | nil => exact ⟨r.winnerRecovery, rfl⟩
  | cons id ids ih =>
    obtain ⟨winners, hfirst⟩ := r.rememberWinnerRecovery_eq id
    obtain ⟨winners', hrest⟩ := ih { r with winnerRecovery := winners }
    exact ⟨winners', by rw [List.foldl_cons, hfirst, hrest]⟩

/-- What the body of an event leaves, where the registry before it was in order. -/
theorem applyBody_inv (h : r.Inv) {event : BackendEvent} {anchor policyNow : ℕ}
    {changed : GenerationRegistry} (hcheck : r.checkEvent ext event anchor policyNow = .ok now)
    (hbody : (r.expireAt now).applyBody event anchor = (.ok (), changed)) :
    changed.Roles ∧ Live changed.entries := by
  obtain ⟨hsync, hanchor, -⟩ := checkEvent_ok hcheck
  have hstep := applyBody_step hbody
  have hlive : Live (r.expireAt now).entries := Live.expireAt h.live
  exact ⟨hstep.roles ((h.synced hsync).1.expireAt h.live) hlive
    ((unexpired_expireAt r now).mono hanchor), hstep.live hlive⟩

/-- **Every call keeps the agreement.** -/
theorem perform_inv (ext : External) (call : RegistryCall) (h : r.Inv) :
    (r.perform ext call).2.Inv := by
  have hstep := perform_step ext r call
  generalize r.perform ext call = outcome at hstep ⊢
  cases hstep with
  | query _ hstep => exact hstep.inv h
  | failed => exact suspend_inv h.live h.generations
  | refused => exact suspend_inv (Live.expireAt h.live) ((List.length_map _).le.trans h.generations)
  | event _ _ hcheck hbody =>
    -- the event is applied to the expired registry, and the result expired once more
    obtain ⟨hroles, hlive⟩ := applyBody_inv h hcheck hbody
    obtain ⟨hlength, hsync⟩ :=
      (applyBody_step hbody).generations ((List.length_map _).le.trans h.generations)
    exact expireAt_inv hroles hlive hlength rfl rfl rfl rfl (hsync.trans (checkEvent_ok hcheck).1) rfl
  | @snapshot eventSeq started _ _ prepared _ _ hspec =>
    obtain ⟨winners, hremember⟩ := (r.install prepared eventSeq started).rememberRoles_eq
    rw [hremember]
    have hroles : Roles { r with
        entries := prepared.entries
        current := prepared.current
        recent := prepared.recent } := hspec.roles_install rfl rfl rfl rfl
    exact expireAt_inv hroles hspec.live hspec.generations rfl rfl rfl rfl rfl rfl

/-- **Every run** from a new registry. -/
theorem after_inv (ext : External) (config : GenerationRegistryConfig) (calls : List RegistryCall) :
    (after ext config calls).Inv :=
  after_invariant (new_inv config) (fun _ call h => perform_inv ext call h) calls

end Calls

/-! ## §5. The law of the roles -/

section Law

variable {r : GenerationRegistry} {t : ℕ}

theorem whenSynchronized_of_le {α : Type} (call : GenerationRegistry → Outcome α)
    (h : ∀ last ∈ r.lastMonotonicMs, last ≤ t) : r.whenSynchronized t call
      = if r.synchronized = false then (.error .notSynchronized, r.atTime t)
        else call (r.atTime t) := by
  unfold whenSynchronized advanceClock
  rw [checkClock_eq_ok.mpr h]
  rfl

/-- What an ordinary admission asks of the registry at its own time. -/
theorem checkAdmission_eq_ok {id : JobId} {generation : BackendGeneration} :
    r.checkAdmission id t = .ok generation ↔ ∃ entry, r.entries.find id = some entry ∧
      entry.accepting t = true ∧ entry.storage.inFlight + 1 < 2 ^ 64 ∧
      entry.generation = generation := by
  unfold checkAdmission
  simp only [bind_eq_ok, orReject_eq_ok, rejectIf_eq_ok, Bool.not_eq_false, not_le, ge_iff_le]
  constructor
  · rintro ⟨entry, hentry, _, haccepting, _, hroom, hpure⟩
    exact ⟨entry, hentry, haccepting, hroom, Except.ok.inj hpure⟩
  · rintro ⟨entry, hentry, haccepting, hroom, rfl⟩
    exact ⟨entry, hentry, (), haccepting, (), hroom, rfl⟩

/-- What a successful admission saw: the registry expired at its time, and an accepting entry. -/
theorem beginAdmission_ok {id : JobId} (hclock : ∀ last ∈ r.lastMonotonicMs, last ≤ t) :
    (∃ admission, (r.beginAdmission id t).1 = .ok admission) ↔ r.synchronized = true ∧
      ∃ entry, (r.expireAt t).entries.find id = some entry ∧ entry.accepting t = true ∧
        entry.storage.inFlight + 1 < 2 ^ 64 := by
  unfold beginAdmission
  rw [whenSynchronized_of_le _ hclock]
  cases hsync : r.synchronized with
  | false => simp
  | true =>
    simp only [Bool.true_eq_false, if_false, true_and]
    constructor
    · rintro ⟨admission, hok⟩
      split at hok
      · cases hok
      · next generation hcheck =>
        obtain ⟨entry, hentry, haccepting, hroom, -⟩ := checkAdmission_eq_ok.mp hcheck
        exact ⟨entry, hentry, haccepting, hroom⟩
    · rintro ⟨entry, hentry, haccepting, hroom⟩
      have hcheck : (r.atTime t).checkAdmission id t = .ok entry.generation :=
        checkAdmission_eq_ok.mpr ⟨entry, hentry, haccepting, hroom, rfl⟩
      rw [hcheck]
      exact ⟨_, rfl⟩

/-- The jobs that a synchronized registry admits. -/
theorem admissibleJobIds_ok {t : ℕ} {ids : AdmissibleJobIds}
    (hclock : ∀ last ∈ r.lastMonotonicMs, last ≤ t) :
    (r.admissibleJobIds t).1 = .ok ids ↔ r.synchronized = true ∧
      ids = ⟨(r.expireAt t).current, (r.expireAt t).recent⟩ := by
  unfold admissibleJobIds
  rw [whenSynchronized_of_le _ hclock]
  cases r.synchronized with
  | false => simp
  | true =>
    show Except.ok (AdmissibleJobIds.mk (r.expireAt t).current (r.expireAt t).recent) = _ ↔ _
    simp [eq_comm]

end Law

/-- The roles of a registry and what they mean for admissions. -/
structure RoleLaw (r : GenerationRegistry) : Prop where
  unsynchronized : r.synchronized = false →
    (∀ id entry, r.entries.find id = some entry → ∀ t, entry.accepting t = false) ∧
      r.current = none ∧ r.recent = [] ∧ r.winnerRecovery = []
  synchronized : r.synchronized = true → ∃ now, r.lastMonotonicMs = some now ∧
    (∀ id, (∃ entry, r.entries.find id = some entry ∧ entry.accepting now = true) ↔
      id ∈ r.current.toList ++ r.recent) ∧
    (∀ id ∈ r.current.toList ++ r.recent, ∃ entry, r.entries.find id = some entry ∧
      entry.storage.isLive = true) ∧
    (r.current.toList ++ r.recent).Nodup ∧
    r.recent.length ≤ r.config.maximumRecent
  generations : r.entries.rows.length ≤ r.config.maximumGenerations
  /-- Work is admitted exactly where it is listed, at every time not before the last reading. -/
  admissions : ∀ id t, (∀ last ∈ r.lastMonotonicMs, last ≤ t) →
    (∀ entry, r.entries.find id = some entry → entry.storage.inFlight + 1 < 2 ^ 64) →
    ((∃ admission, (r.beginAdmission id t).1 = .ok admission) ↔
      ∃ ids, (r.admissibleJobIds t).1 = .ok ids ∧ id ∈ ids.current.toList ++ ids.recent)

/-- **The law of the roles** holds in every registry that any run of calls can reach. -/
theorem registry_roles (ext : External) (config : GenerationRegistryConfig)
    (calls : List RegistryCall) : RoleLaw (after ext config calls) := by
  have hinv := after_inv ext config calls
  generalize after ext config calls = r at hinv
  refine ⟨fun hfalse => ?_, fun htrue => ?_, hinv.generations, fun id t hclock hroom => ?_⟩
  · obtain ⟨hstates, hroles⟩ := hinv.unsynced hfalse
    refine ⟨fun id entry hentry t => Bool.eq_false_iff.mpr fun haccepting => ?_, hroles⟩
    obtain ⟨hstate, -⟩ := RegistryEntry.accepting_iff.mp haccepting
    exact hstates id (Entries.stateOf_eq_some.mpr ⟨entry, hentry, hstate⟩)
  · obtain ⟨hroles, now, hnow, hunexpired⟩ := hinv.synced htrue
    refine ⟨now, hnow, hroles.listed hinv.live hunexpired, fun id hmem => ?_, hroles.nodup,
      hroles.bounded⟩
    obtain ⟨entry, hentry, haccepting⟩ := (hroles.listed hinv.live hunexpired id).mpr hmem
    exact ⟨entry, hentry, (RegistryEntry.accepting_iff.mp haccepting).2.1⟩
  · simp only [beginAdmission_ok hclock, admissibleJobIds_ok hclock]
    have hlisted (hsync : r.synchronized = true) :=
      ((hinv.synced hsync).1.expireAt hinv.live).listed (Live.expireAt hinv.live)
        (unexpired_expireAt r t) id
    constructor
    · rintro ⟨hsync, entry, hentry, haccepting, -⟩
      exact ⟨_, ⟨hsync, rfl⟩, (hlisted hsync).mp ⟨entry, hentry, haccepting⟩⟩
    · rintro ⟨ids, ⟨hsync, rfl⟩, hmem⟩
      obtain ⟨entry, hentry, haccepting⟩ := (hlisted hsync).mpr hmem
      refine ⟨hsync, entry, hentry, haccepting, ?_⟩
      obtain ⟨old, hold, rfl⟩ := expireAt_back hentry
      rw [RegistryEntry.expire_storage]
      exact hroom old hold

/-- The law at work: 900 ms of work are admitted at 899, and not at 900. -/
example :
    let r := workedRegistry
    ((r.beginAdmission ⟨1, by decide⟩ 899).1.toOption.isSome,
      (r.beginAdmission ⟨1, by decide⟩ 900).1.toOption.isSome) = (true, false) := by
  decide +kernel

end GenerationRegistry

end WcashPool.Core
