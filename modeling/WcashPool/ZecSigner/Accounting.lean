/-
  WcashPool.ZecSigner.Accounting — what an accepted PCZT pays, and from what.

  `verify_created_pczt` runs two loops over the outputs of the transaction, one
  over the transparent ones and one over the Ironwood actions.  Both look for
  the first requested output that is still unmatched and has the same kind,
  address and amount, and they share the marks.  The totals are summed on the
  way, and the fee is what the declared value sum leaves.

  Each loop is characterised by what it asks of every output and of the sums
  (`transparentLoop_iff`, `ironwoodLoop_iff`); the marks are the greedy matching
  of `Lib.Matching`.  Together they give the exact condition under which a PCZT
  is accepted.

  Main results: `verifyEffects_iff` and `pczt_accounting`.
-/
import WcashPool.Lib.Matching
import WcashPool.ZecSigner.Exactness

namespace WcashPool.ZecSigner

open Fallible Protocol Store Portal Matching

/-! ## §1. Recipients -/

/-- What the search compares. -/
abbrev OutputKey := ReceiverKind × Text × ℕ

def requestKey (output : PayoutOutput) : OutputKey :=
  (output.receiverKind, output.canonicalAddress, output.amountZat)

/-- An output of the transaction that names the address it pays. -/
structure Recipient where
  kind : ReceiverKind
  address : Text
  amountZat : ℕ
  receiver : Destination
deriving DecidableEq, Repr

def Recipient.key (recipient : Recipient) : OutputKey :=
  (recipient.kind, recipient.address, recipient.amountZat)

def PcztTransparentOutput.asRecipient (output : PcztTransparentOutput) : Option Recipient :=
  output.userAddress.map fun address =>
    ⟨.transparent, address, output.value, .transparent output.scriptPubkey⟩

namespace IronwoodAction

def spent (action : IronwoodAction) : ℕ := action.spendValue.getD 0

def paid (action : IronwoodAction) : ℕ := action.outputValue.getD 0

def asRecipient (action : IronwoodAction) : Option Recipient :=
  if 0 < action.paid then
    action.userAddress.bind fun address => action.recipient.map fun receiver =>
      ⟨.ironwood, address, action.paid, .ironwood receiver⟩
  else none

/-- An output of value that names no address. -/
def isChange (action : IronwoodAction) : Bool := decide (0 < action.paid) && action.userAddress.isNone

end IronwoodAction

/-- The outputs that name the address they pay. -/
def recipients (outputs : List PcztTransparentOutput) (actions : List IronwoodAction) :
    List Recipient :=
  outputs.filterMap (·.asRecipient) ++ actions.filterMap (·.asRecipient)

/-- The search and the mark are one claim of the greedy matching. -/
theorem findUnmatched_claim (outputs : List PayoutOutput) (matched : List Bool)
    (kind : ReceiverKind) (address : Text) (amount : ℕ) :
    (findUnmatched outputs matched kind address amount).map (matched.set · true)
      = claim (outputs.map requestKey) matched (kind, address, amount) := by
  rw [← claim_eq_findIdx?, List.zip_map_left, List.findIdx?_map]
  unfold findUnmatched
  congr 2
  funext p
  rw [Bool.eq_iff_iff]
  simp [requestKey, and_assoc]

/-! ## §2. The loop over the transparent outputs -/

/-- The output pays the script of the address that it names. -/
def PcztTransparentOutput.PaysAddress (ext : ZecExternal) (network : NetworkType)
    (output : PcztTransparentOutput) : Prop :=
  ∃ address, output.userAddress = some address ∧
    ext.decodeAddress network address = some (.transparent output.scriptPubkey)

section Transparent

variable {ext : ZecExternal} {network : NetworkType} {outputs : List PayoutOutput}

/-- One transparent output, accepted. -/
theorem matchTransparent_iff {acc acc' : List Bool × ℕ} {output : PcztTransparentOutput} :
    matchTransparent ext network outputs acc output = .ok acc' ↔
      output.PaysAddress ext network ∧
      claimAll (outputs.map requestKey) acc.1 (output.asRecipient.toList.map (·.key)) = some acc'.1 ∧
      acc'.2 = acc.2 + output.value ∧ acc'.2 < 2 ^ 64 := by
  unfold matchTransparent PcztTransparentOutput.PaysAddress PcztTransparentOutput.asRecipient
  cases haddress : output.userAddress with
  | none => simp
  | some address =>
    have hclaim := findUnmatched_claim outputs acc.1 .transparent address output.value
    simp only [orReject_some, ok_bind, Option.map_some, Option.toList_some, List.map_cons,
      List.map_nil, Recipient.key, claimAll, List.foldlM_cons, List.foldlM_nil, ← hclaim]
    cases hfind : findUnmatched outputs acc.1 .transparent address output.value with
    | none => simp
    | some index =>
      simp only [orReject_some, ok_bind, decodeDestinationForNetwork, bind_eq_ok, orReject_eq_ok,
        rejectIf_eq_ok, checkedAdd_eq_ok, pure_eq_ok, Option.map_some, Option.some.injEq,
        exists_eq_left', ne_eq, not_not]
      constructor
      · rintro ⟨destination, hdecode, _, rfl, total, ⟨hlt, rfl⟩, h⟩
        obtain rfl := Except.ok.inj h
        exact ⟨hdecode, rfl, rfl, hlt⟩
      · rintro ⟨hdecode, hmarks, htotal, hlt⟩
        refine ⟨_, hdecode, (), rfl, acc'.2, ⟨htotal ▸ hlt, htotal.symm⟩, ?_⟩
        rw [Option.some.inj hmarks]

/-- The transparent outputs, accepted. -/
theorem transparentLoop_iff {acc acc' : List Bool × ℕ} (hacc : acc.2 < 2 ^ 64)
    (transparent : List PcztTransparentOutput) :
    transparent.foldlM (matchTransparent ext network outputs) acc = .ok acc' ↔
      (∀ output ∈ transparent, output.PaysAddress ext network) ∧
      claimAll (outputs.map requestKey) acc.1
        ((transparent.filterMap (·.asRecipient)).map (·.key)) = some acc'.1 ∧
      acc'.2 = acc.2 + (transparent.map (·.value)).sum ∧ acc'.2 < 2 ^ 64 := by
  induction transparent generalizing acc with
  | nil =>
    simp only [List.foldlM_nil, pure_eq_ok, Except.ok.injEq, List.not_mem_nil, false_implies,
      implies_true, List.filterMap_nil, List.map_nil, claimAll, true_and, List.sum_nil, add_zero]
    constructor
    · rintro rfl
      exact ⟨rfl, rfl, hacc⟩
    · rintro ⟨hmarks, htotal, -⟩
      exact Prod.ext (Option.some.inj hmarks) htotal.symm
  | cons output transparent ih =>
    rw [List.foldlM_cons, bind_eq_ok, List.map_cons, List.sum_cons, List.forall_mem_cons]
    -- the keys of the list are those of its head, and then those of its tail
    have hkeys : ((output :: transparent).filterMap (·.asRecipient)).map (·.key)
        = output.asRecipient.toList.map (·.key)
          ++ (transparent.filterMap (·.asRecipient)).map (·.key) := by
      cases h : output.asRecipient <;> simp [h]
    rw [hkeys, claimAll_append]
    constructor
    · rintro ⟨mid, hturn, hrest⟩
      obtain ⟨hpays, hmark, htotal, hlt⟩ := matchTransparent_iff.mp hturn
      obtain ⟨hall, hmarks, htotal', hlt'⟩ := (ih hlt).mp hrest
      exact ⟨⟨hpays, hall⟩, ⟨mid.1, hmark, hmarks⟩, by omega, hlt'⟩
    · rintro ⟨⟨hpays, hall⟩, ⟨marks, hmark, hmarks⟩, htotal, hlt⟩
      have hmid : acc.2 + output.value < 2 ^ 64 := by omega
      refine ⟨(marks, acc.2 + output.value), matchTransparent_iff.mpr ⟨hpays, hmark, rfl, hmid⟩, ?_⟩
      exact (ih hmid).mpr ⟨hall, hmarks, by rw [htotal, add_assoc], hlt⟩

end Transparent

/-! ## §3. The loop over the Ironwood actions -/

/-- **The ciphertext is that of the output**: the recipient, who alone can read it, finds in it the
    note of the plain fields that the other checks are about, and an empty memo. -/
def CiphertextOk (ext : ZecExternal) (action : IronwoodAction) : Prop :=
  action.noteVersion = .v3 ∧ ∃ recipient value rho rseed note esk,
    action.recipient = some recipient ∧ action.outputValue = some value ∧
    ext.rhoFromBytes action.nullifier = some rho ∧ action.rseed = some rseed ∧
    ext.noteFromParts recipient value rho rseed .v3 = some note ∧ ext.deriveEsk note = some esk ∧
    ext.outputRecovery action (ext.getPkD note) esk = some ⟨note, recipient, ext.emptyMemo⟩

/-- A ciphertext that opens to the action's own note. -/
theorem verifyIronwoodCiphertext_iff {ext : ZecExternal} {action : IronwoodAction} {u : Unit} :
    verifyIronwoodCiphertext ext action = .ok u ↔ CiphertextOk ext action := by
  unfold verifyIronwoodCiphertext CiphertextOk
  simp only [bind_eq_ok, rejectIf_eq_ok, exists_const, orReject_eq_ok, not_or, not_not]
  constructor
  · rintro ⟨hversion, recipient, hrecipient, value, hvalue, rho, hrho, rseed, hrseed, note, hnote,
      esk, hesk, ⟨_, _, _⟩, hrecovered, rfl, rfl, rfl⟩
    exact ⟨hversion, _, value, rho, rseed, _, esk, hrecipient, hvalue, hrho, hrseed, hnote, hesk,
      hrecovered⟩
  · rintro ⟨hversion, recipient, value, rho, rseed, note, esk, hrecipient, hvalue, hrho, hrseed,
      hnote, hesk, hrecovered⟩
    exact ⟨hversion, recipient, hrecipient, value, hvalue, rho, hrho, rseed, hrseed, note, hnote,
      esk, hesk, _, hrecovered, rfl, rfl, rfl⟩

/-- An output of value: its ciphertext is its own, and it pays the address that it names, or the
    wallet itself. -/
def OutputOk (ext : ZecExternal) (network : NetworkType) (wallet : WalletContext)
    (action : IronwoodAction) : Prop :=
  CiphertextOk ext action ∧ ∃ receiver, action.recipient = some receiver ∧
    (∀ address, action.userAddress = some address →
      ext.decodeAddress network address = some (.ironwood receiver)) ∧
    (action.userAddress = none → ext.ownsAddress wallet.orchardFvk receiver = true)

/-- What one action must meet by itself. -/
structure ActionOk (ext : ZecExternal) (network : NetworkType) (wallet : WalletContext)
    (action : IronwoodAction) : Prop where
  real : action.dummySk = false
  commitments : ext.actionCommitments action = true
  spendValue : action.spendValue.isSome
  outputValue : action.outputValue.isSome
  spend : 0 < action.spent → ext.spendAuthority wallet.orchardFvk action = true ∧
    ext.derivedAccount wallet.seedFingerprint action = some wallet.accountIndex
  output : 0 < action.paid → OutputOk ext network wallet action
  silent : action.paid = 0 → action.userAddress = none

section Ironwood

variable {ext : ZecExternal} {network : NetworkType} {outputs : List PayoutOutput}
  {wallet : WalletContext} {action : IronwoodAction} {acc acc' : IronwoodTotals}

/-- The bounds that every turn checks. -/
structure IronwoodTotals.Within (acc : IronwoodTotals) : Prop where
  change : acc.positiveChangeOutputs ≤ 1
  spend : acc.spendTotal < 2 ^ 64
  output : acc.shieldedOutputTotal < 2 ^ 64

/-- What actions do to the totals: the keys they claim, the change outputs they count, and what
    they spend and pay. -/
structure Tallied (outputs : List PayoutOutput) (keys : List OutputKey) (change spent paid : ℕ)
    (acc acc' : IronwoodTotals) : Prop where
  matched : claimAll (outputs.map requestKey) acc.matched keys = some acc'.matched
  change : acc'.positiveChangeOutputs = acc.positiveChangeOutputs + change
  spendTotal : acc'.spendTotal = acc.spendTotal + spent
  outputTotal : acc'.shieldedOutputTotal = acc.shieldedOutputTotal + paid
  within : acc'.Within

theorem tallied_nil (h : acc.Within) : Tallied outputs [] 0 0 0 acc acc' ↔ acc = acc' := by
  constructor
  · rintro ⟨hmatched, hchange, hspend, houtput, -⟩
    cases acc
    cases acc'
    simp_all [claimAll]
  · rintro rfl
    exact ⟨rfl, rfl, rfl, rfl, h⟩

theorem tallied_append {keys keys' : List OutputKey} {c c' s s' p p' : ℕ} :
    Tallied outputs (keys ++ keys') (c + c') (s + s') (p + p') acc acc' ↔
      ∃ mid, Tallied outputs keys c s p acc mid ∧ Tallied outputs keys' c' s' p' mid acc' := by
  constructor
  · rintro ⟨hmatched, hchange, hspend, houtput, hwithin⟩
    obtain ⟨marks, hmark, hmarks⟩ := claimAll_append.mp hmatched
    rw [← add_assoc] at hchange hspend houtput
    have hmid : IronwoodTotals.Within ⟨marks, acc.positiveChangeOutputs + c, acc.spendTotal + s,
        acc.shieldedOutputTotal + p⟩ := by
      obtain ⟨hchangeLe, hspendLt, houtputLt⟩ := hwithin
      constructor <;> dsimp only <;> omega
    exact ⟨_, ⟨hmark, rfl, rfl, rfl, hmid⟩, hmarks, hchange, hspend, houtput, hwithin⟩
  · rintro ⟨mid, hfirst, hrest⟩
    refine ⟨claimAll_append.mpr ⟨mid.matched, hfirst.matched, hrest.matched⟩, ?_, ?_, ?_, hrest.within⟩
    · rw [hrest.change, hfirst.change, add_assoc]
    · rw [hrest.spendTotal, hfirst.spendTotal, add_assoc]
    · rw [hrest.outputTotal, hfirst.outputTotal, add_assoc]

/-- The values may be added first. -/
theorem tallied_sums {keys : List OutputKey} {c s p : ℕ} :
    Tallied outputs keys c s p acc acc' ↔ Tallied outputs keys c 0 0 ⟨acc.matched,
      acc.positiveChangeOutputs, acc.spendTotal + s, acc.shieldedOutputTotal + p⟩ acc' :=
  ⟨fun ⟨h₁, h₂, h₃, h₄, h₅⟩ => ⟨h₁, h₂, h₃, h₄, h₅⟩, fun ⟨h₁, h₂, h₃, h₄, h₅⟩ => ⟨h₁, h₂, h₃, h₄, h₅⟩⟩

/-- What one action claims, and whether it is change. -/
abbrev Matched (outputs : List PayoutOutput) (action : IronwoodAction) (spent paid : ℕ)
    (acc acc' : IronwoodTotals) : Prop :=
  Tallied outputs (action.asRecipient.toList.map (·.key)) (if action.isChange then 1 else 0) spent
    paid acc acc'

/-- The part of a turn that an output of value takes. -/
theorem verifyOutput_iff (hpos : 0 < action.paid) (hacc : acc.Within) :
    verifyOutput ext network outputs wallet action action.paid acc = .ok acc' ↔
      OutputOk ext network wallet action ∧ Matched outputs action 0 0 acc acc' := by
  unfold verifyOutput OutputOk
  simp only [bind_eq_ok, exists_const, orReject_eq_ok, verifyIronwoodCiphertext_iff]
  cases hrecipient : action.recipient with
  | none => simp
  | some receiver =>
    cases haddress : action.userAddress with
    | none =>
      -- a change output: the marks stand as they stood
      have hkeys : action.asRecipient = none := by
        simp [IronwoodAction.asRecipient, haddress]
      have his : action.isChange = true := by
        simp [IronwoodAction.isChange, hpos, haddress]
      simp only [Matched, hkeys, his, if_true, Option.toList_none, List.map_nil,
        Option.some.injEq, exists_eq_left', bind_eq_ok, rejectIf_eq_ok, exists_const, pure_eq_ok,
        Except.ok.injEq, reduceCtorEq, false_implies, implies_true, true_and, forall_const,
        not_or, not_not, not_lt]
      constructor
      · rintro ⟨hciphertext, ⟨hle, howns⟩, rfl⟩
        exact ⟨⟨hciphertext, howns⟩, rfl, rfl, rfl, rfl, hle, hacc.spend, hacc.output⟩
      · rintro ⟨⟨hciphertext, howns⟩, hmarks, hcount, hspend, houtput, hwithin⟩
        refine ⟨hciphertext, ⟨hcount ▸ hwithin.change, howns⟩, ?_⟩
        cases acc'
        simp_all [claimAll]
    | some address =>
      -- a recipient: no change is counted
      have hkeys : action.asRecipient
          = some ⟨.ironwood, address, action.paid, .ironwood receiver⟩ := by
        simp [IronwoodAction.asRecipient, haddress, hrecipient, hpos]
      have his : action.isChange = false := by simp [IronwoodAction.isChange, haddress]
      have hclaim := findUnmatched_claim outputs acc.matched .ironwood address action.paid
      simp only [Matched, hkeys, his, Bool.false_eq_true, if_false, Option.toList_some, List.map_cons,
        List.map_nil, Option.some.injEq, exists_eq_left', bind_eq_ok, orReject_eq_ok, rejectIf_eq_ok,
        exists_const, pure_eq_ok, Except.ok.injEq, forall_eq', reduceCtorEq, false_implies, and_true,
        ne_eq, not_not]
      constructor
      · rintro ⟨hciphertext, index, hfind, hdecode, rfl⟩
        rw [hfind] at hclaim
        refine ⟨⟨hciphertext, hdecode⟩, ?_, rfl, rfl, rfl, ⟨hacc.change, hacc.spend, hacc.output⟩⟩
        simp [Recipient.key, claimAll, ← hclaim]
      · rintro ⟨⟨hciphertext, hdecode⟩, hmarks, hcount, hspend, houtput, -⟩
        obtain ⟨index, hfind, hmarks⟩ : ∃ index, findUnmatched outputs acc.matched .ironwood address
            action.paid = some index ∧ acc.matched.set index true = acc'.matched := by
          simpa [Recipient.key, claimAll, ← hclaim] using hmarks
        refine ⟨hciphertext, index, hfind, hdecode, ?_⟩
        cases acc'
        simp_all

/-- The part of a turn that the output takes, of value or not. -/
theorem outputPart_iff (hacc : acc.Within) :
    (if action.paid > 0 then verifyOutput ext network outputs wallet action action.paid acc
      else do
        rejectIf (action.userAddress ≠ none) .walletProtocolViolation
        pure acc) = .ok acc' ↔
      (0 < action.paid → OutputOk ext network wallet action) ∧
      (action.paid = 0 → action.userAddress = none) ∧ Matched outputs action 0 0 acc acc' := by
  split
  · next hpos =>
    rw [verifyOutput_iff hpos hacc]
    simp only [hpos, hpos.ne', forall_const, false_implies, true_and]
  · next hpos =>
    have hzero : action.paid = 0 := by omega
    simp only [Matched, IronwoodAction.asRecipient, IronwoodAction.isChange, hzero, lt_irrefl,
      if_false, decide_false, Bool.false_and, Bool.false_eq_true, Option.toList_none, List.map_nil,
      tallied_nil hacc, bind_eq_ok, rejectIf_eq_ok, exists_const, not_not, false_implies,
      forall_const, true_and, pure_eq_ok, Except.ok.injEq, ne_eq]

/-- One Ironwood action, accepted. -/
theorem verifyAction_iff (hacc : acc.Within) :
    verifyAction ext network outputs wallet acc action = .ok acc' ↔
      ActionOk ext network wallet action ∧
        Matched outputs action action.spent action.paid acc acc' := by
  unfold verifyAction
  cases hspend : action.spendValue with
  | none =>
    refine iff_of_false (by simp [bind_eq_ok]) fun h => ?_
    exact absurd h.1.spendValue (by simp [hspend])
  | some spendValue =>
    cases houtput : action.outputValue with
    | none =>
      refine iff_of_false (by simp [bind_eq_ok]) fun h => ?_
      exact absurd h.1.outputValue (by simp [houtput])
    | some outputValue =>
      obtain rfl : action.spent = spendValue := by simp [IronwoodAction.spent, hspend]
      obtain rfl : action.paid = outputValue := by simp [IronwoodAction.paid, houtput]
      simp only [bind_eq_ok, rejectIf_eq_ok, exists_const, orReject_eq_ok, Option.some.injEq,
        exists_eq_left', checkedAdd_eq_ok, verifySpend]
      constructor
      · rintro ⟨hreal, _, ⟨hspendLt, rfl⟩, _, ⟨houtputLt, rfl⟩, hauthority, h⟩
        have hmid : IronwoodTotals.Within ⟨acc.matched, acc.positiveChangeOutputs,
          acc.spendTotal + action.spent, acc.shieldedOutputTotal + action.paid⟩ :=
          ⟨hacc.change, hspendLt, houtputLt⟩
        obtain ⟨hpays, hsilent, hmatched⟩ := (outputPart_iff hmid).mp h
        rw [not_or, not_not, Bool.not_eq_true] at hreal
        refine ⟨⟨hreal.1, hreal.2, by simp [hspend], by simp [houtput], fun hpos => ?_, hpays,
          hsilent⟩, ?_⟩
        · simpa [hpos] using hauthority
        · exact tallied_sums.mpr hmatched
      · rintro ⟨hok, hturn⟩
        have hmid : IronwoodTotals.Within ⟨acc.matched, acc.positiveChangeOutputs,
          acc.spendTotal + action.spent, acc.shieldedOutputTotal + action.paid⟩ :=
          ⟨hacc.change, hturn.spendTotal ▸ hturn.within.spend,
            hturn.outputTotal ▸ hturn.within.output⟩
        refine ⟨by simp [hok.real, hok.commitments], _, ⟨hmid.spend, rfl⟩, _, ⟨hmid.output, rfl⟩, ?_,
          (outputPart_iff hmid).mpr ⟨hok.output, hok.silent, tallied_sums.mp hturn⟩⟩
        rintro ⟨hpos, hnot⟩
        obtain ⟨hauthority, haccount⟩ := hok.spend hpos
        simp [hauthority, haccount] at hnot

/-- The Ironwood actions, accepted. -/
theorem ironwoodLoop_iff (hacc : acc.Within) (actions : List IronwoodAction) :
    actions.foldlM (verifyAction ext network outputs wallet) acc = .ok acc' ↔
      (∀ action ∈ actions, ActionOk ext network wallet action) ∧
      Tallied outputs ((actions.filterMap (·.asRecipient)).map (·.key))
        (actions.filter (·.isChange)).length (actions.map (·.spent)).sum
        (actions.map (·.paid)).sum acc acc' := by
  induction actions generalizing acc with
  | nil => simpa using (tallied_nil hacc).symm
  | cons action actions ih =>
    -- the keys of the list are those of its head, and then those of its tail
    have hkeys : ((action :: actions).filterMap (·.asRecipient)).map (·.key)
        = action.asRecipient.toList.map (·.key)
          ++ (actions.filterMap (·.asRecipient)).map (·.key) := by
      cases h : action.asRecipient <;> simp [h]
    have hcount : ((action :: actions).filter (·.isChange)).length
        = (if action.isChange then 1 else 0) + (actions.filter (·.isChange)).length := by
      cases h : action.isChange <;> simp [h, Nat.add_comm]
    rw [List.foldlM_cons, bind_eq_ok, List.forall_mem_cons, hkeys, hcount, List.map_cons,
      List.sum_cons, List.map_cons, List.sum_cons, tallied_append]
    constructor
    · rintro ⟨mid, hturn, hrest⟩
      obtain ⟨hok, hturn⟩ := (verifyAction_iff hacc).mp hturn
      obtain ⟨hall, hloop⟩ := (ih hturn.within).mp hrest
      exact ⟨⟨hok, hall⟩, mid, hturn, hloop⟩
    · rintro ⟨⟨hok, hall⟩, mid, hturn, hloop⟩
      exact ⟨mid, (verifyAction_iff hacc).mpr ⟨hok, hturn⟩, (ih hturn.within).mpr ⟨hall, hloop⟩⟩

end Ironwood

/-! ## §4. The whole check -/

/-- The checks that have nothing to do with the matching, and the fee that they leave. -/
structure OtherChecks (ext : ZecExternal) (network : NetworkType) (batch : PayoutBatchRequest)
    (privacyPolicy : Text) (pczt : Pczt) (coinType : ℕ) (wallet : WalletContext)
    (actions : List IronwoodAction) (fee : ℕ) : Prop where
  global : verifyGlobal ext pczt.global coinType wallet = .ok ()
  proprietary : verifyProprietary pczt.global.proprietary privacyPolicy wallet = .ok ()
  sources : verifySources pczt = .ok ()
  account : wallet.accountIndex < 2 ^ 31
  crossAddress : ext.crossAddressRestriction actions = true
  transparent : ∀ output ∈ pczt.transparentOutputs, output.PaysAddress ext network
  transparentLt : (pczt.transparentOutputs.map (·.value)).sum < 2 ^ 64
  actionsOk : ∀ action ∈ actions, ActionOk ext network wallet action
  change : (actions.filter (·.isChange)).length ≤ 1
  spendLt : (actions.map (·.spent)).sum < 2 ^ 64
  outputLt : (actions.map (·.paid)).sum < 2 ^ 64
  declared : (((actions.map (·.spent)).sum : ℕ) : ℤ) - ((actions.map (·.paid)).sum : ℕ)
    = signedValueSum pczt.ironwoodValueSum
  leaves : signedValueSum pczt.ironwoodValueSum - ((pczt.transparentOutputs.map (·.value)).sum : ℕ)
    = fee
  positive : 0 < fee
  bounded : fee ≤ batch.maximumNetworkFeeZat

section Effects

variable {ext : ZecExternal} {network : NetworkType} {batch : PayoutBatchRequest}
  {privacyPolicy : Text} {wallet : WalletContext}

/-- The fee is what the two value balances leave. -/
theorem effectsFee_iff {pczt : Pczt} {totals : IronwoodTotals} {transparentTotal maximum fee : ℕ} :
    effectsFee pczt totals transparentTotal maximum = .ok fee ↔
      (totals.spendTotal : ℤ) - totals.shieldedOutputTotal = signedValueSum pczt.ironwoodValueSum ∧
      signedValueSum pczt.ironwoodValueSum - transparentTotal = fee ∧ 0 < fee ∧ fee ≤ maximum := by
  unfold effectsFee
  simp only [bind_eq_ok, rejectIf_eq_ok, exists_const, ne_eq, not_not, pure_eq_ok, Except.ok.injEq]
  refine and_congr_right fun _ => ?_
  omega

/-- **The exact condition of acceptance.** -/
theorem verifyEffects_iff {pczt : Pczt} {coinType fee : ℕ} :
    verifyEffects ext network batch privacyPolicy pczt coinType wallet = .ok fee ↔
      ∃ actions, pczt.ironwoodActions = some actions ∧
        (batch.outputs.map requestKey).Perm
          ((recipients pczt.transparentOutputs actions).map (·.key)) ∧
        OtherChecks ext network batch privacyPolicy pczt coinType wallet actions fee := by
  have hmarks : (batch.outputs.map fun _ => false)
      = (batch.outputs.map requestKey).map fun _ => false := by rw [List.map_map]; rfl
  have hkeys : ∀ actions : List IronwoodAction,
      (recipients pczt.transparentOutputs actions).map (·.key)
        = (pczt.transparentOutputs.filterMap (·.asRecipient)).map (·.key)
          ++ (actions.filterMap (·.asRecipient)).map (·.key) := fun _ => List.map_append
  have hstart : ∀ marks : List Bool, IronwoodTotals.Within ⟨marks, 0, 0, 0⟩ := fun _ =>
    ⟨Nat.zero_le 1, Nat.two_pow_pos 64, Nat.two_pow_pos 64⟩
  unfold verifyEffects
  simp only [bind_eq_ok, rejectIf_eq_ok, exists_const, orReject_eq_ok, not_le, not_not,
    @transparentLoop_iff _ _ _ (_, 0) _ (Nat.two_pow_pos 64), ironwoodLoop_iff (hstart _),
    effectsFee_iff]
  constructor
  · rintro ⟨_, hglobal, _, hproprietary, _, hsources, transparent, ⟨hpays, hclaims, htotal, hlt⟩,
      haccount, actions, hactions, hcross, totals, ⟨hok, hloop⟩, hdone, hdeclared, hfee, hpos, hle⟩
    have hspendTotal := hloop.spendTotal
    have houtputTotal := hloop.outputTotal
    have hchange := hloop.change
    simp only [zero_add] at htotal hspendTotal houtputTotal hchange
    refine ⟨actions, hactions, (claimAll_iff_perm _ _).mp ⟨totals.matched, ?_, ?_⟩, ?_⟩
    · rw [← hmarks, hkeys, claimAll_append]
      exact ⟨transparent.1, hclaims, hloop.matched⟩
    · intro mark hmark
      by_contra hnot
      exact hdone ⟨mark, hmark, by simpa using hnot⟩
    · exact ⟨hglobal, hproprietary, hsources, haccount, hcross, hpays, htotal ▸ hlt, hok,
        hchange ▸ hloop.within.change, hspendTotal ▸ hloop.within.spend,
        houtputTotal ▸ hloop.within.output, by rw [← hspendTotal, ← houtputTotal]; exact hdeclared,
        by rw [← htotal]; exact hfee, hpos, hle⟩
  · rintro ⟨actions, hactions, hperm, hother⟩
    obtain ⟨marks, hclaims, hall⟩ := (claimAll_iff_perm _ _).mpr hperm
    rw [← hmarks, hkeys, claimAll_append] at hclaims
    obtain ⟨mid, hclaims, hclaims'⟩ := hclaims
    refine ⟨(), hother.global, (), hother.proprietary, (), hother.sources, (mid, _),
      ⟨hother.transparent, hclaims, (zero_add _).symm, hother.transparentLt⟩, hother.account, actions,
      hactions, hother.crossAddress, ⟨marks, _, _, _⟩,
      ⟨hother.actionsOk, hclaims', (zero_add _).symm, (zero_add _).symm, (zero_add _).symm,
        hother.change, hother.spendLt, hother.outputLt⟩, ?_, hother.declared, hother.leaves,
      hother.positive, hother.bounded⟩
    rintro ⟨mark, hmark, hfalse⟩
    cases hfalse.symm.trans (hall mark hmark)

end Effects

/-! ## §5. The accounting -/

/-- The transaction's output pays the requested one: same kind, address and amount, and the
    receiver that the address stands for. -/
structure Pays (ext : ZecExternal) (network : NetworkType) (output : PayoutOutput)
    (recipient : Recipient) : Prop where
  kind : recipient.kind = output.receiverKind
  address : recipient.address = output.canonicalAddress
  amountZat : recipient.amountZat = output.amountZat
  receiver : ext.decodeAddress network output.canonicalAddress = some recipient.receiver

/-- What a transaction pays, and from what. -/
structure Accounted (ext : ZecExternal) (network : NetworkType) (batch : PayoutBatchRequest)
    (wallet : WalletContext) (pczt : Pczt) (actions : List IronwoodAction) (fee : ℕ) : Prop where
  /-- The recipient outputs can be ordered so that they pay the requested ones one by one. -/
  matching : ∃ ordered, ordered.Perm (recipients pczt.transparentOutputs actions) ∧
    List.Forall₂ (Pays ext network) batch.outputs ordered
  /-- Every other output of value is change, and there is one at most, to the wallet's own key. -/
  transparent : ∀ output ∈ pczt.transparentOutputs, output.asRecipient.isSome
  shielded : ∀ action ∈ actions, 0 < action.paid → action.asRecipient.isSome ∨ action.isChange
  oneChange : (actions.filter (·.isChange)).length ≤ 1
  ownChange : ∀ action ∈ actions, action.isChange → ∃ receiver, action.recipient = some receiver ∧
    ext.ownsAddress wallet.orchardFvk receiver = true
  /-- Value comes from the wallet's own Ironwood notes only. -/
  sources : pczt.transparentInputs = 0 ∧ pczt.saplingSpends = 0 ∧ pczt.saplingOutputs = 0 ∧
    pczt.saplingValueSum = 0 ∧ pczt.orchardActions = 0 ∧ signedValueSum pczt.orchardValueSum = 0
  spends : ∀ action ∈ actions, 0 < action.spent →
    ext.spendAuthority wallet.orchardFvk action = true ∧
      ext.derivedAccount wallet.seedFingerprint action = some wallet.accountIndex
  values : ∀ action ∈ actions, action.spendValue.isSome ∧ action.outputValue.isSome
  conserved : (actions.map (·.spent)).sum = (batch.outputs.map (·.amountZat)).sum
    + ((actions.filter (·.isChange)).map (·.paid)).sum + fee
  feePositive : 1 ≤ fee
  feeBounded : fee ≤ batch.maximumNetworkFeeZat

section Accounts

variable {ext : ZecExternal} {network : NetworkType} {batch : PayoutBatchRequest}
  {privacyPolicy : Text} {wallet : WalletContext} {pczt : Pczt} {actions : List IronwoodAction}

/-- An output of value names its address, or is change. -/
theorem ActionOk.recipient_or_change {action : IronwoodAction}
    (h : ActionOk ext network wallet action) (hpos : 0 < action.paid) :
    (∃ address receiver, action.userAddress = some address ∧
      action.asRecipient = some ⟨.ironwood, address, action.paid, .ironwood receiver⟩ ∧
      ext.decodeAddress network address = some (.ironwood receiver) ∧ action.isChange = false) ∨
    (action.isChange = true ∧ action.asRecipient = none) := by
  obtain ⟨-, receiver, hreceiver, hdecode, -⟩ := h.output hpos
  cases haddress : action.userAddress with
  | none => exact .inr (by simp [IronwoodAction.isChange, IronwoodAction.asRecipient, haddress, hpos])
  | some address =>
    exact .inl ⟨address, receiver, rfl, by simp [IronwoodAction.asRecipient, haddress, hreceiver, hpos],
      hdecode address haddress, by simp [IronwoodAction.isChange, haddress]⟩

/-- What the actions pay goes to recipients and to change. -/
theorem sum_paid (h : ∀ action ∈ actions, ActionOk ext network wallet action) :
    (actions.map (·.paid)).sum = ((actions.filterMap (·.asRecipient)).map (·.amountZat)).sum
      + ((actions.filter (·.isChange)).map (·.paid)).sum := by
  induction actions with
  | nil => rfl
  | cons action actions ih =>
    obtain ⟨haction, hactions⟩ := List.forall_mem_cons.mp h
    have hrest := ih hactions
    by_cases hpos : 0 < action.paid
    · obtain ⟨address, receiver, -, hrecipient, -, hchange⟩ | ⟨hchange, hrecipient⟩ :=
        haction.recipient_or_change hpos
      · simp [hrecipient, hchange, hrest, add_assoc]
      · simp [hrecipient, hchange, hrest, add_left_comm]
    · have hzero : action.paid = 0 := by omega
      simp [IronwoodAction.asRecipient, IronwoodAction.isChange, hzero, hrest]

theorem sum_transparent {transparent : List PcztTransparentOutput}
    (h : ∀ output ∈ transparent, output.PaysAddress ext network) :
    (transparent.map (·.value)).sum
      = ((transparent.filterMap (·.asRecipient)).map (·.amountZat)).sum := by
  induction transparent with
  | nil => rfl
  | cons output transparent ih =>
    obtain ⟨⟨address, haddress, -⟩, hrest⟩ := List.forall_mem_cons.mp h
    have hrecipient : output.asRecipient
        = some ⟨.transparent, address, output.value, .transparent output.scriptPubkey⟩ := by
      simp [PcztTransparentOutput.asRecipient, haddress]
    simp [hrecipient, ih hrest]

/-- Every recipient pays the receiver of the address that it names. -/
theorem OtherChecks.receiver {coinType fee : ℕ}
    (h : OtherChecks ext network batch privacyPolicy pczt coinType wallet actions fee)
    {recipient : Recipient} (hmem : recipient ∈ recipients pczt.transparentOutputs actions) :
    ext.decodeAddress network recipient.address = some recipient.receiver := by
  obtain hmem | hmem := List.mem_append.mp hmem
  · obtain ⟨output, houtput, hrecipient⟩ := List.mem_filterMap.mp hmem
    obtain ⟨address, haddress, hdecode⟩ := h.transparent output houtput
    simp only [PcztTransparentOutput.asRecipient, haddress, Option.map_some, Option.some.injEq]
      at hrecipient
    subst hrecipient
    exact hdecode
  · obtain ⟨action, haction, hrecipient⟩ := List.mem_filterMap.mp hmem
    have hpos : 0 < action.paid := by
      by_contra hnot
      simp [IronwoodAction.asRecipient, hnot] at hrecipient
    obtain ⟨address, receiver, -, hsome, hdecode, -⟩ | ⟨-, hnone⟩ :=
      (h.actionsOk action haction).recipient_or_change hpos
    · obtain rfl := Option.some.inj (hsome.symm.trans hrecipient)
      exact hdecode
    · rw [hnone] at hrecipient
      cases hrecipient

/-- Equal keys, and receivers that fit their addresses: the outputs are paid in this order. -/
theorem forall₂_pays {outputs : List PayoutOutput} {ordered : List Recipient}
    (hkeys : outputs.map requestKey = ordered.map (·.key))
    (hreceivers : ∀ recipient ∈ ordered,
      ext.decodeAddress network recipient.address = some recipient.receiver) :
    List.Forall₂ (Pays ext network) outputs ordered := by
  induction outputs generalizing ordered with
  | nil =>
    cases ordered with
    | nil => exact .nil
    | cons recipient ordered => simp at hkeys
  | cons output outputs ih =>
    cases ordered with
    | nil => simp at hkeys
    | cons recipient ordered =>
      obtain ⟨hreceiver, hreceivers⟩ := List.forall_mem_cons.mp hreceivers
      obtain ⟨hkey, hkeys⟩ := List.cons.inj hkeys
      simp only [requestKey, Recipient.key, Prod.mk.injEq] at hkey
      obtain ⟨hkind, haddress, hamount⟩ := hkey
      exact .cons ⟨hkind.symm, haddress.symm, hamount.symm, haddress ▸ hreceiver⟩
        (ih hkeys hreceivers)

/-- The checks, with the outputs matched, account for every unit. -/
theorem OtherChecks.accounted {coinType fee : ℕ}
    (h : OtherChecks ext network batch privacyPolicy pczt coinType wallet actions fee)
    (hperm : (batch.outputs.map requestKey).Perm
      ((recipients pczt.transparentOutputs actions).map (·.key))) :
    Accounted ext network batch wallet pczt actions fee := by
  -- the permutation of the keys is one of the recipients
  obtain ⟨ordered, hkeys, hordered⟩ : ∃ ordered : List Recipient,
      batch.outputs.map requestKey = ordered.map (·.key) ∧
        ordered.Perm (recipients pczt.transparentOutputs actions) := by
    have hcomp := congrFun (congrFun (List.eq_map_comp_perm Recipient.key)
      (batch.outputs.map requestKey)) (recipients pczt.transparentOutputs actions)
    exact hcomp.mpr hperm
  have hamounts : (batch.outputs.map (·.amountZat)).sum
      = ((recipients pczt.transparentOutputs actions).map (·.amountZat)).sum := by
    have hsum := (hperm.map fun key => key.2.2).sum_eq
    simpa only [List.map_map, Function.comp_def, requestKey, Recipient.key] using hsum
  have hsources := h.sources
  unfold verifySources at hsources
  rw [rejectIf_eq_ok] at hsources
  push Not at hsources
  refine
    { matching := ⟨ordered, hordered, forall₂_pays hkeys fun recipient hmem =>
        h.receiver (hordered.mem_iff.mp hmem)⟩
      transparent := fun output houtput => ?_
      shielded := fun action haction hpos => ?_
      oneChange := h.change
      ownChange := fun action haction hchange => ?_
      sources := hsources
      spends := fun action haction hpos => (h.actionsOk action haction).spend hpos
      values := fun action haction =>
        ⟨(h.actionsOk action haction).spendValue, (h.actionsOk action haction).outputValue⟩
      conserved := ?_
      feePositive := h.positive
      feeBounded := h.bounded }
  · obtain ⟨address, haddress, -⟩ := h.transparent output houtput
    simp [PcztTransparentOutput.asRecipient, haddress]
  · obtain ⟨_, _, -, hrecipient, -, -⟩ | ⟨hchange, -⟩ :=
      (h.actionsOk action haction).recipient_or_change hpos
    · exact .inl (by simp [hrecipient])
    · exact .inr hchange
  · simp only [IronwoodAction.isChange, Bool.and_eq_true, decide_eq_true_eq,
      Option.isNone_iff_eq_none] at hchange
    obtain ⟨-, receiver, hreceiver, -, howns⟩ := (h.actionsOk action haction).output hchange.1
    exact ⟨receiver, hreceiver, howns hchange.2⟩
  · have hdeclared := h.declared
    have hfee := h.leaves
    rw [hamounts, recipients, List.map_append, List.sum_append, ← sum_transparent h.transparent]
    have hpaid := sum_paid h.actionsOk
    omega

/-- **The accounting of a created PCZT.**  An accepted one pays exactly the requested outputs, from
    the wallet's own Ironwood notes, with at most one change output and a fee within bounds.  And a
    PCZT whose recipients are the requested ones, in whatever order and however often they are
    repeated, is accepted as soon as the checks pass that have nothing to do with the matching. -/
theorem pczt_accounting (ext : ZecExternal) (network : NetworkType) (batch : PayoutBatchRequest)
    (privacyPolicy pczt : Text) (wallet : WalletContext) :
    (∀ effects, verifyCreatedPczt ext network batch privacyPolicy pczt wallet = .ok effects →
      ∃ parsed actions, parsePczt ext pczt = .ok parsed ∧ parsed.ironwoodActions = some actions ∧
        Accounted ext network batch wallet parsed actions effects.networkFeeZat) ∧
    (∀ parsed actions, parsePczt ext pczt = .ok parsed → parsed.ironwoodActions = some actions →
      (batch.outputs.map requestKey).Perm
        ((recipients parsed.transparentOutputs actions).map (·.key)) →
      ((∃ effects, verifyCreatedPczt ext network batch privacyPolicy pczt wallet = .ok effects) ↔
        ∃ coinType fee digest, pcztV2CoinType ext pczt = .ok coinType ∧
          OtherChecks ext network batch privacyPolicy parsed coinType wallet actions fee ∧
          consensusEffectsDigestFromPczt ext parsed = .ok digest)) := by
  constructor
  · intro effects h
    obtain ⟨parsed, hparsed, h⟩ := bind_eq_ok.mp h
    obtain ⟨coinType, -, h⟩ := bind_eq_ok.mp h
    obtain ⟨fee, hfee, h⟩ := bind_eq_ok.mp h
    obtain ⟨digest, -, h⟩ := bind_eq_ok.mp h
    obtain rfl := Except.ok.inj h
    obtain ⟨actions, hactions, hperm, hother⟩ := verifyEffects_iff.mp hfee
    exact ⟨parsed, actions, hparsed, hactions, hother.accounted hperm⟩
  · intro parsed actions hparsed hactions hperm
    unfold verifyCreatedPczt
    rw [hparsed]
    simp only [ok_bind, bind_eq_ok]
    constructor
    · rintro ⟨effects, coinType, hcoin, fee, hfee, digest, hdigest, -⟩
      obtain ⟨actions', hactions', -, hother⟩ := verifyEffects_iff.mp hfee
      obtain rfl := Option.some.inj (hactions'.symm.trans hactions)
      exact ⟨coinType, fee, digest, hcoin, hother, hdigest⟩
    · rintro ⟨coinType, fee, digest, hcoin, hother, hdigest⟩
      exact ⟨⟨digest, fee⟩, coinType, hcoin, fee,
        verifyEffects_iff.mpr ⟨actions, hactions, hperm, hother⟩, digest, hdigest, rfl⟩

end Accounts

/-- Two equal Ironwood outputs, a transparent one, change, and a fee of 500. -/
def repeatedPczt : Pczt :=
  { samplePczt with
    transparentOutputs := [⟨some (ascii "t1"), 30_000, ascii "script"⟩]
    ironwoodActions := some
      [sampleAction 200_000 50_000 sampleAddress (some sampleAddress),
        sampleAction 0 69_500 sampleCollector none,
        sampleAction 0 50_000 sampleAddress (some sampleAddress)]
    ironwoodValueSum := (30_500, false) }

def repeatedExternal : ZecExternal :=
  { sampleExternal with
    parse := fun _ => some repeatedPczt
    decodeAddress := fun _ text =>
      if text = ascii "t1" then some (.transparent (ascii "script")) else some (.ironwood text) }

def repeatedBatch : PayoutBatchRequest :=
  ⟨1, .zec, .testnet, 2, 3, 1_000, [⟨4, sampleAddress, .ironwood, 50_000⟩,
    ⟨5, ascii "t1", .transparent, 30_000⟩, ⟨6, sampleAddress, .ironwood, 50_000⟩]⟩

/-- What the check makes of the PCZT. -/
def repeatedCheck : Except ZecPayoutError VerifiedEffects :=
  verifyCreatedPczt repeatedExternal .test repeatedBatch fullPrivacy (ascii "AAAA")
    ⟨100, sampleSeed, 0, []⟩

theorem pczt_accounting_repeated :
    ∃ effects parsed actions, effects.networkFeeZat = 500 ∧
      repeatedCheck = .ok effects ∧
      Accounted repeatedExternal .test repeatedBatch ⟨100, sampleSeed, 0, []⟩ parsed actions
        effects.networkFeeZat := by
  have haccepted : repeatedCheck.toOption.map (·.networkFeeZat) = some 500 := by decide +kernel
  obtain ⟨effects, heffects, hfee⟩ := Option.map_eq_some_iff.mp haccepted
  have hok : repeatedCheck = .ok effects := by
    cases h : repeatedCheck with
    | error e => simp [h, Except.toOption] at heffects
    | ok r => rw [h] at heffects; exact congrArg Except.ok (Option.some.inj heffects)
  obtain ⟨parsed, actions, -, -, haccounted⟩ := (pczt_accounting repeatedExternal .test repeatedBatch
    fullPrivacy (ascii "AAAA") ⟨100, sampleSeed, 0, []⟩).1 effects hok
  exact ⟨effects, parsed, actions, hfee, hok, haccounted⟩

end WcashPool.ZecSigner
