/-
  WcashPool.ZecSigner.Pczt — partially created Zcash transactions, and what the
  signer checks of one before it approves its effects
  (`parse_pczt`, `consensus_effects_digest`, `extractable_consensus_txid`,
  `verify_ironwood_ciphertext`, `verify_created_pczt`).

  Base 64, the PCZT parser, signature hashes, proofs and the Zcash address
  codec are third-party code: `ZecExternal` names each function that the signer
  calls.  Everything that the signer decides itself is written out: which
  fields it compares, how it matches outputs with the request, and how it
  computes the fee.
-/
import WcashPool.ZecSigner.Journal

namespace WcashPool.ZecSigner

open Fallible Protocol Store Portal

/-! ## §1. Transactions -/

inductive NetworkType
  | main
  | test
  | regtest
deriving DecidableEq, Repr

inductive Destination
  | transparent (scriptPubkey : Text)
  | ironwood (receiver : Text)
deriving DecidableEq, Repr

structure PcztGlobal where
  txVersion : ℕ
  versionGroupId : ℕ
  consensusBranchId : ℕ
  expiryHeight : ℕ
  inputsModifiable : Bool
  outputsModifiable : Bool
  shieldedModifiable : Bool
  hasSighashSingle : Bool
  proprietary : List (Text × Text)
deriving DecidableEq, Repr

structure PcztTransparentOutput where
  userAddress : Option Text
  value : ℕ
  scriptPubkey : Text
deriving DecidableEq, Repr

/-- The plaintext formats of Orchard notes. -/
inductive NoteVersion
  | v2
  | v3
deriving DecidableEq, Repr

/-- One Ironwood action; `raw` is what only the cryptographic checks read. -/
structure IronwoodAction where
  dummySk : Bool
  spendValue : Option ℕ
  nullifier : Text
  noteVersion : NoteVersion
  outputValue : Option ℕ
  recipient : Option Text
  rseed : Option Text
  userAddress : Option Text
  raw : Text
deriving DecidableEq, Repr

/-- A parsed PCZT: the fields that the signer reads.  The Ironwood actions are absent where the
    verifier cannot read them. -/
structure Pczt where
  global : PcztGlobal
  transparentInputs : ℕ
  transparentOutputs : List PcztTransparentOutput
  saplingSpends : ℕ
  saplingOutputs : ℕ
  saplingValueSum : ℤ
  orchardActions : ℕ
  orchardValueSum : ℕ × Bool
  ironwoodActions : Option (List IronwoodAction)
  ironwoodValueSum : ℕ × Bool
deriving DecidableEq, Repr

/-- What an Ironwood ciphertext decrypts to. -/
structure RecoveredOutput where
  note : Text
  recipient : Text
  memo : Text
deriving DecidableEq, Repr

/-- A consensus transaction read from the front of some bytes. -/
structure ParsedTransaction where
  consumed : ℕ
  txid : Text
  canonical : Option (List UInt8)
  versionSix : Bool
  branchNu63 : Bool
deriving DecidableEq, Repr

/-- The third-party functions of the signer. -/
structure ZecExternal where
  /-- `zcash_protocol::constants`. -/
  v6TxVersion : ℕ
  v6VersionGroupId : ℕ
  zcashTestnetCoinType : ℕ
  sha256 : List UInt8 → Hex32
  base64Decode : Text → Option (List UInt8)
  base64Encode : List UInt8 → Text
  /-- `Pczt::parse`. -/
  parse : List UInt8 → Option Pczt
  /-- The coin type in the global record of a PCZT of version 2. -/
  globalCoinType : List UInt8 → Option ℕ
  /-- `Signer::new` and `shielded_sighash`. -/
  shieldedSighash : Pczt → Option Hex32
  /-- `TransactionExtractor::extract`, with all proofs and signatures verified, and its `txid`. -/
  extractedTxid : Pczt → Option Text
  /-- `Transaction::read` and `write` for the branch NU6.3. -/
  readTransaction : List UInt8 → Option ParsedTransaction
  /-- `ZcashAddress`, canonical encodings of supported receivers only. -/
  decodeAddress : NetworkType → Text → Option Destination
  /-- `SeedFingerprint::from_str`, to its bytes. -/
  seedFingerprint : Text → Option Text
  /-- `Ufvk::decode`. -/
  decodeUfvk : Text → Option (NetworkType × Text)
  /-- `UnifiedFullViewingKey::parse`, and its Orchard key. -/
  orchardKey : Text → Option Text
  /-- `orchard::Address::from_raw_address_bytes`. -/
  orchardAddress : Text → Option Text
  /-- `FullViewingKey::scope_for_address`. -/
  ownsAddress : Text → Text → Bool
  /-- `verify_cross_address_restriction`. -/
  crossAddressRestriction : List IronwoodAction → Bool
  /-- `verify_cv_net` and `verify_note_commitment`. -/
  actionCommitments : IronwoodAction → Bool
  /-- `verify_nullifier` and `verify_rk` under a viewing key. -/
  spendAuthority : Text → IronwoodAction → Bool
  /-- The account that the spend derives from, under a seed fingerprint and the coin type. -/
  derivedAccount : Text → IronwoodAction → Option ℕ
  /-- `Rho::from_bytes`. -/
  rhoFromBytes : Text → Option Text
  /-- `Note::from_parts`, of recipient, value, rho, seed and version. -/
  noteFromParts : Text → ℕ → Text → Text → NoteVersion → Option Text
  /-- `IronwoodDomain::get_pk_d` and `derive_esk`. -/
  getPkD : Text → Text
  deriveEsk : Text → Option Text
  /-- `try_output_recovery_with_pkd_esk` in the domain of the action. -/
  outputRecovery : IronwoodAction → Text → Text → Option RecoveredOutput
  /-- `MemoBytes::empty`. -/
  emptyMemo : Text

/-! ## §2. Parsing and digests -/

def zcashNu63BranchId : ℕ := 0x37a5165b

def pcztV2Header : List UInt8 := [80, 67, 90, 84, 2, 0, 0, 0]

def validatePczt (pczt : Text) : Except ZecPayoutError Unit :=
  rejectIf (¬ validPczt pczt) .walletProtocolViolation

/-- Decode a canonical PCZT. -/
def parsePczt (ext : ZecExternal) (pczt : Text) : Except ZecPayoutError Pczt := do
  validatePczt pczt
  let encoded ← orReject .walletProtocolViolation (ext.base64Decode pczt)
  rejectIf (encoded = [] ∨ ext.base64Encode encoded ≠ pczt) .walletProtocolViolation
  orReject .walletProtocolViolation (ext.parse encoded)

def pcztV2CoinType (ext : ZecExternal) (pczt : Text) : Except ZecPayoutError ℕ := do
  let encoded ← orReject .walletProtocolViolation (ext.base64Decode pczt)
  rejectIf (encoded.take pcztV2Header.length ≠ pcztV2Header) .walletProtocolViolation
  orReject .walletProtocolViolation
    (ext.globalCoinType (encoded.drop pcztV2Header.length))

def consensusEffectsDigestFromPczt (ext : ZecExternal) (pczt : Pczt) :
    Except ZecPayoutError Hex32 := do
  let digest ← orReject .walletProtocolViolation (ext.shieldedSighash pczt)
  rejectIf digest.isZero .walletProtocolViolation
  pure digest

/-- The digest of what a PCZT will do on the chain. -/
def consensusEffectsDigest (ext : ZecExternal) (pczt : Text) : Except ZecPayoutError Hex32 := do
  let parsed ← parsePczt ext pczt
  consensusEffectsDigestFromPczt ext parsed

/-- The identifier that the extracted transaction will have. -/
def extractableConsensusTxid (ext : ZecExternal) (pczt : Text) : Except ZecPayoutError Text := do
  let parsed ← parsePczt ext pczt
  orReject .walletProtocolViolation (ext.extractedTxid parsed)

def decodeDestinationForNetwork (ext : ZecExternal) (encoded : Text) (network : NetworkType) :
    Except ZecPayoutError Destination :=
  orReject .invalidRequest (ext.decodeAddress network encoded)

/-- A magnitude and its sign. -/
def signedValueSum (sum : ℕ × Bool) : ℤ := if sum.2 then -(sum.1 : ℤ) else (sum.1 : ℤ)

/-! ## §3. The created transaction -/

/-- What the wallet knows of itself. -/
structure WalletContext where
  nodeHeight : ℕ
  seedFingerprint : Text
  accountIndex : ℕ
  orchardFvk : Text
deriving DecidableEq, Repr

/-- The digest and the fee of a verified PCZT. -/
structure VerifiedEffects where
  digest : Hex32
  networkFeeZat : ℕ
deriving DecidableEq, Repr

def maxExpiryDelta : ℕ := 100

def propSeedFingerprint : Text := ascii "zallet.v1.seed_fingerprint"

def propAccountIndex : Text := ascii "zallet.v1.account_index"

def propPrivacyPolicy : Text := ascii "zallet.v1.privacy_policy"

def propBackendProposalInfo : Text := ascii "zcash_client_backend:proposal_info"

/-- Version, branch, coin type and expiry of the transaction; nothing in it may be modified. -/
def verifyGlobal (ext : ZecExternal) (global : PcztGlobal) (coinType : ℕ)
    (wallet : WalletContext) : Except ZecPayoutError Unit := do
  rejectIf (wallet.nodeHeight + maxExpiryDelta ≥ 2 ^ 32) .walletProtocolViolation
  rejectIf (global.txVersion ≠ ext.v6TxVersion ∨ global.versionGroupId ≠ ext.v6VersionGroupId ∨
      global.consensusBranchId ≠ zcashNu63BranchId ∨ coinType ≠ ext.zcashTestnetCoinType ∨
      global.expiryHeight ≤ wallet.nodeHeight ∨
      global.expiryHeight > wallet.nodeHeight + maxExpiryDelta ∨ global.inputsModifiable ∨
      global.outputsModifiable ∨ global.shieldedModifiable ∨ global.hasSighashSingle)
    .walletProtocolViolation

/-- The wallet's own marks on the transaction. -/
def verifyProprietary (proprietary : List (Text × Text)) (privacyPolicy : Text)
    (wallet : WalletContext) : Except ZecPayoutError Unit :=
  rejectIf (proprietary.lookup propSeedFingerprint ≠ some wallet.seedFingerprint ∨
      proprietary.lookup propAccountIndex ≠ some (Framing.leBytes 4 wallet.accountIndex) ∨
      proprietary.lookup propPrivacyPolicy ≠ some privacyPolicy ∨
      (proprietary.lookup propBackendProposalInfo).getD [] = [])
    .walletProtocolViolation

/-- No value comes from outside Ironwood. -/
def verifySources (pczt : Pczt) : Except ZecPayoutError Unit :=
  rejectIf (pczt.transparentInputs ≠ 0 ∨ pczt.saplingSpends ≠ 0 ∨ pczt.saplingOutputs ≠ 0 ∨
      pczt.saplingValueSum ≠ 0 ∨ pczt.orchardActions ≠ 0 ∨ signedValueSum pczt.orchardValueSum ≠ 0)
    .walletProtocolViolation

/-- The first requested output that is not matched yet and has this kind, address and amount. -/
def findUnmatched (outputs : List PayoutOutput) (matched : List Bool) (kind : ReceiverKind)
    (address : Text) (amount : ℕ) : Option ℕ :=
  (outputs.zip matched).findIdx? fun p =>
    !p.2 && p.1.receiverKind == kind && p.1.canonicalAddress == address && p.1.amountZat == amount

/-- One transparent output: matched with a requested one, and paying its script. -/
def matchTransparent (ext : ZecExternal) (network : NetworkType) (outputs : List PayoutOutput)
    (acc : List Bool × ℕ) (output : PcztTransparentOutput) :
    Except ZecPayoutError (List Bool × ℕ) := do
  let address ← orReject .walletProtocolViolation output.userAddress
  let index ← orReject .walletProtocolViolation
    (findUnmatched outputs acc.1 .transparent address output.value)
  let destination ← decodeDestinationForNetwork ext address network
  rejectIf (destination ≠ .transparent output.scriptPubkey) .walletProtocolViolation
  let total ← checkedAdd 64 .walletProtocolViolation acc.2 output.value
  pure (acc.1.set index true, total)

/-- What the loop over the Ironwood actions has seen. -/
structure IronwoodTotals where
  matched : List Bool
  positiveChangeOutputs : ℕ
  spendTotal : ℕ
  shieldedOutputTotal : ℕ
deriving DecidableEq, Repr

/-- A spend of value is the wallet's own. -/
def verifySpend (ext : ZecExternal) (wallet : WalletContext) (action : IronwoodAction)
    (spendValue : ℕ) : Except ZecPayoutError Unit :=
  rejectIf (spendValue > 0 ∧ (¬ ext.spendAuthority wallet.orchardFvk action ∨
      ext.derivedAccount wallet.seedFingerprint action ≠ some wallet.accountIndex))
    .walletProtocolViolation

/-- The ciphertext of an output decrypts to the note that its plain fields make up, with an empty
    memo. -/
def verifyIronwoodCiphertext (ext : ZecExternal) (action : IronwoodAction) :
    Except ZecPayoutError Unit := do
  rejectIf (action.noteVersion ≠ .v3) .walletProtocolViolation
  let recipient ← orReject .walletProtocolViolation action.recipient
  let value ← orReject .walletProtocolViolation action.outputValue
  let rho ← orReject .walletProtocolViolation (ext.rhoFromBytes action.nullifier)
  let rseed ← orReject .walletProtocolViolation action.rseed
  let note ← orReject .walletProtocolViolation
    (ext.noteFromParts recipient value rho rseed .v3)
  let esk ← orReject .walletProtocolViolation (ext.deriveEsk note)
  let recovered ← orReject .walletProtocolViolation
    (ext.outputRecovery action (ext.getPkD note) esk)
  rejectIf (recovered.note ≠ note ∨ recovered.recipient ≠ recipient ∨
    recovered.memo ≠ ext.emptyMemo) .walletProtocolViolation

/-- An output of value pays a requested output, or is the one change output. -/
def verifyOutput (ext : ZecExternal) (network : NetworkType) (outputs : List PayoutOutput)
    (wallet : WalletContext) (action : IronwoodAction) (outputValue : ℕ) (acc : IronwoodTotals) :
    Except ZecPayoutError IronwoodTotals := do
  verifyIronwoodCiphertext ext action
  let recipient ← orReject .walletProtocolViolation action.recipient
  match action.userAddress with
  | some address => do
    let index ← orReject .walletProtocolViolation
      (findUnmatched outputs acc.matched .ironwood address outputValue)
    rejectIf (ext.decodeAddress network address ≠ some (.ironwood recipient))
      .walletProtocolViolation
    pure { acc with matched := acc.matched.set index true }
  | none => do
    rejectIf (acc.positiveChangeOutputs + 1 > 1 ∨ ¬ ext.ownsAddress wallet.orchardFvk recipient)
      .walletProtocolViolation
    pure { acc with positiveChangeOutputs := acc.positiveChangeOutputs + 1 }

/-- One turn of the loop over the Ironwood actions. -/
def verifyAction (ext : ZecExternal) (network : NetworkType) (outputs : List PayoutOutput)
    (wallet : WalletContext) (acc : IronwoodTotals) (action : IronwoodAction) :
    Except ZecPayoutError IronwoodTotals := do
  rejectIf (action.dummySk ∨ ¬ ext.actionCommitments action) .walletProtocolViolation
  let spendValue ← orReject .walletProtocolViolation action.spendValue
  let outputValue ← orReject .walletProtocolViolation action.outputValue
  let spendTotal ← checkedAdd 64 .walletProtocolViolation acc.spendTotal spendValue
  let shieldedOutputTotal ← checkedAdd 64 .walletProtocolViolation
    acc.shieldedOutputTotal outputValue
  let acc' : IronwoodTotals :=
    { acc with spendTotal := spendTotal, shieldedOutputTotal := shieldedOutputTotal }
  verifySpend ext wallet action spendValue
  if outputValue > 0 then verifyOutput ext network outputs wallet action outputValue acc'
  else do
    rejectIf (action.userAddress ≠ none) .walletProtocolViolation
    pure acc'

/-- The fee that the transaction's values leave. -/
def effectsFee (pczt : Pczt) (totals : IronwoodTotals) (transparentTotal maximumNetworkFeeZat : ℕ) :
    Except ZecPayoutError ℕ := do
  rejectIf ((totals.spendTotal : ℤ) - totals.shieldedOutputTotal ≠
    signedValueSum pczt.ironwoodValueSum) .walletProtocolViolation
  let fee : ℤ := signedValueSum pczt.ironwoodValueSum - transparentTotal
  rejectIf (fee ≤ 0 ∨ fee > maximumNetworkFeeZat) .walletProtocolViolation
  pure fee.toNat

/-- The fee of a PCZT that pays exactly the requested outputs from the wallet's own Ironwood
    notes. -/
def verifyEffects (ext : ZecExternal) (network : NetworkType) (batch : PayoutBatchRequest)
    (privacyPolicy : Text) (pczt : Pczt) (coinType : ℕ) (wallet : WalletContext) :
    Except ZecPayoutError ℕ := do
  verifyGlobal ext pczt.global coinType wallet
  verifyProprietary pczt.global.proprietary privacyPolicy wallet
  verifySources pczt
  let transparent ← pczt.transparentOutputs.foldlM
    (matchTransparent ext network batch.outputs) (batch.outputs.map fun _ => false, 0)
  -- `AccountId::try_from`
  rejectIf (wallet.accountIndex ≥ 2 ^ 31) .walletProtocolViolation
  let actions ← orReject .walletProtocolViolation pczt.ironwoodActions
  rejectIf (¬ ext.crossAddressRestriction actions) .walletProtocolViolation
  let totals ← actions.foldlM (verifyAction ext network batch.outputs wallet)
    ⟨transparent.1, 0, 0, 0⟩
  rejectIf (∃ done ∈ totals.matched, done = false) .walletProtocolViolation
  effectsFee pczt totals transparent.2 batch.maximumNetworkFeeZat

/-- **The check of a created PCZT**: the digest and the fee of its effects. -/
def verifyCreatedPczt (ext : ZecExternal) (network : NetworkType) (batch : PayoutBatchRequest)
    (privacyPolicy pczt : Text) (wallet : WalletContext) :
    Except ZecPayoutError VerifiedEffects := do
  let parsed ← parsePczt ext pczt
  let coinType ← pcztV2CoinType ext pczt
  let networkFeeZat ← verifyEffects ext network batch privacyPolicy parsed coinType wallet
  let digest ← consensusEffectsDigestFromPczt ext parsed
  pure ⟨digest, networkFeeZat⟩

end WcashPool.ZecSigner
