/-
  WcashPool.ZecSigner.Wallet — what the ZEC signer asks the isolated wallet,
  and what it checks of the answers (`wallet_context`, `verify_inspection`,
  `SignResult::validate`, `ExtractResult::validate_against`).

  The wallet answers over RPC.  An answer that has the wrong shape or is too
  large is a violation of the protocol; here it is an absent result.
-/
import WcashPool.ZecSigner.Pczt

namespace WcashPool.ZecSigner

open Fallible Protocol Store Portal

/-! ## §1. Requests and policy -/

inductive ZecFundSource
  | orchard
  | sapling
  | anyTransparent
deriving DecidableEq, Repr

def ZecFundSource.commitmentTag : ZecFundSource → UInt8
  | .orchard => 1
  | .sapling => 2
  | .anyTransparent => 3

/-- A payout batch and the funds that it is paid from. -/
structure ZecPayoutRequest where
  batch : PayoutBatchRequest
  sourceAccount : Uuid
  fundSource : ZecFundSource
deriving DecidableEq, Repr

/-- The signer's account, its limits and the external functions. -/
structure ZecSignerConfig where
  external : ZecExternal
  network : DeploymentNetwork
  accountId : Uuid
  expectedParentPayoutCommitment : Hex32
  minConfirmations : ℕ
  maxOutputs : ℕ
  maxFeeZat : ℕ

variable (cfg : ZecSignerConfig) (request : ZecPayoutRequest)

def ZecSignerConfig.addressNetwork : NetworkType :=
  if cfg.network = .regtest then .regtest else .test

def maxZecZat : ℕ := 2_100_000_000_000_000

/-- The portal commitment, the pipeline commitment and the output total of a valid request. -/
structure ValidatedRequest where
  portalCommitment : Hex32
  pipelineCommitment : Hex32
  outputTotalZat : ℕ
deriving DecidableEq, Repr

/-- Does the address decode to a receiver of this kind? -/
def validDestination (ext : ZecExternal) (network : NetworkType) (encoded : Text) :
    ReceiverKind → Bool
  | .transparent => match ext.decodeAddress network encoded with
    | some (.transparent _) => true
    | _ => false
  | .ironwood => match ext.decodeAddress network encoded with
    | some (.ironwood _) => true
    | _ => false

/-- The request, with the account, the collector and the limits it is paid under. -/
def pipelineCommitment (portalCommitment : Hex32) : Hex32 :=
  cfg.external.sha256 (ascii "zecwec/zec-pczt-pipeline/v2" ++ portalCommitment.asBytes
    ++ request.sourceAccount.asBytes ++ cfg.expectedParentPayoutCommitment.asBytes
    ++ [request.fundSource.commitmentTag] ++ beBytes 4 cfg.minConfirmations
    ++ beBytes 2 cfg.maxOutputs ++ beBytes 8 cfg.maxFeeZat ++ ascii "0.1.0-beta.3")

/-- The checks on a request before the journal is touched. -/
def validateRequest : Except ZecPayoutError ValidatedRequest := do
  rejectIf (request.batch.asset ≠ .zec) .wrongAsset
  rejectIf (request.batch.network ≠ cfg.network) .wrongNetwork
  rejectIf (request.sourceAccount ≠ cfg.accountId) .wrongAccount
  rejectIf (request.fundSource ≠ .orchard) .wrongFundSource
  rejectIf (cfg.maxOutputs < request.batch.outputs.length ∨
    cfg.maxFeeZat < request.batch.maximumNetworkFeeZat) .invalidRequest
  let outputTotalZat ← (outputTotal request.batch).mapError fun _ => .invalidRequest
  rejectIf (maxZecZat < outputTotalZat ∨
    maxZecZat < outputTotalZat + request.batch.maximumNetworkFeeZat) .invalidRequest
  rejectIf ((∃ output ∈ request.batch.outputs, maxZecZat < output.amountZat ∨
      ¬ validDestination cfg.external cfg.addressNetwork output.canonicalAddress
        output.receiverKind) ∨
      ¬ (request.batch.outputs.map (·.canonicalAddress)).Nodup) .invalidRequest
  let portalCommitment ← (request.batch.commitment cfg.external.sha256).mapError fun _ =>
    .invalidRequest
  rejectIf (cfg.maxOutputs ≥ 2 ^ 16) .invalidRequest
  pure ⟨portalCommitment, pipelineCommitment cfg request portalCommitment, outputTotalZat⟩

/-- Some output is paid to a transparent address. -/
def hasTransparent : Prop :=
  ∃ output ∈ request.batch.outputs, output.receiverKind = .transparent

instance (request : ZecPayoutRequest) : Decidable (hasTransparent request) :=
  inferInstanceAs (Decidable (∃ _ ∈ _, _))

/-- The policy asked of the wallet. -/
def requestedPrivacyPolicy : Text :=
  if hasTransparent request then allowRevealedRecipients else fullPrivacy

/-- The policies that the wallet may report for the request. -/
def validatePrivacyPolicy (privacyPolicy : Text) (request : ZecPayoutRequest) :
    Except ZecPayoutError Unit :=
  rejectIf (privacyPolicy ∉ if hasTransparent request then [fullPrivacy, allowRevealedRecipients]
    else [fullPrivacy, allowRevealedAmounts]) .walletProtocolViolation

/-! ## §2. The wallet's state -/

structure ChainTip where
  blockhash : Text
  height : ℕ
deriving DecidableEq, Repr

structure WalletStatus where
  nodeTip : ChainTip
  walletTip : Option ChainTip
  fullySyncedHeight : Option ℕ
  syncWorkRemainingPresent : Bool
  locked : Bool
deriving DecidableEq, Repr

def validBlockHash (value : Text) : Prop :=
  value.length = 64 ∧ value ≠ List.replicate 64 48 ∧ value.all isLowerHex

instance (value : Text) : Decidable (validBlockHash value) :=
  inferInstanceAs (Decidable (_ ∧ _ ∧ _))

/-- An unlocked wallet with no work left, at the tip of the node. -/
def WalletStatus.isFullySynchronized (status : WalletStatus) : Prop :=
  ¬ status.locked ∧ ¬ status.syncWorkRemainingPresent ∧ validBlockHash status.nodeTip.blockhash ∧
    status.walletTip = some status.nodeTip ∧ status.fullySyncedHeight = some status.nodeTip.height

instance (status : WalletStatus) : Decidable status.isFullySynchronized :=
  inferInstanceAs (Decidable (_ ∧ _ ∧ _ ∧ _ ∧ _))

structure WalletAccount where
  accountUuid : Uuid
  seedfp : Option Text
  zip32AccountIndex : Option ℕ
  addresses : List (Option Text)
deriving DecidableEq, Repr

structure WalletSigningIdentity where
  seedFingerprint : Text
  accountIndex : ℕ
  unifiedAddress : Text
  unifiedReceiver : Text
deriving DecidableEq, Repr

/-- The commitment to the parent's payout address. -/
def parentPayoutAddressCommitment (ext : ZecExternal) (encodedAddress : Text) : Hex32 :=
  ext.sha256 (ascii "Wcash/Zcash parent payout address/v1" ++ [0] ++ encodedAddress)

/-- The one address of the account that the pool's templates pay to. -/
def collectorAddress (account : WalletAccount) : Except ZecPayoutError Text :=
  match account.addresses.reduceOption.filter fun address =>
    parentPayoutAddressCommitment cfg.external address = cfg.expectedParentPayoutCommitment with
  | [address] => .ok address
  | _ => .error .walletProtocolViolation

def ironwoodReceiver (destination : Destination) : Option Text :=
  match destination with
  | .ironwood receiver => some receiver
  | .transparent _ => none

/-- The wallet's account must be the configured one. -/
def WalletAccount.signingIdentity (account : WalletAccount) :
    Except ZecPayoutError WalletSigningIdentity := do
  rejectIf (account.accountUuid ≠ cfg.accountId) .walletProtocolViolation
  let seedFingerprint ← orReject .walletProtocolViolation
    (account.seedfp.bind cfg.external.seedFingerprint)
  let accountIndex ← orReject .walletProtocolViolation
    (account.zip32AccountIndex.filter (· < 2 ^ 31))
  let unifiedAddress ← collectorAddress cfg account
  let destination ← decodeDestinationForNetwork cfg.external unifiedAddress cfg.addressNetwork
  let receiver ← orReject .walletProtocolViolation (ironwoodReceiver destination)
  let unifiedReceiver ← orReject .walletProtocolViolation
    (cfg.external.orchardAddress receiver)
  pure ⟨seedFingerprint, accountIndex, unifiedAddress, unifiedReceiver⟩

structure WalletAccountBalance where
  accountUuid : Uuid
  legacyOrchardPresent : Bool
deriving DecidableEq, Repr

/-- The account is listed once, with nothing left in the old Orchard pool. -/
def requireNoLegacyOrchard (balances : List WalletAccountBalance) (expectedAccount : Uuid) :
    Except ZecPayoutError Unit :=
  match balances.filter (·.accountUuid = expectedAccount) with
  | [account] => rejectIf account.legacyOrchardPresent .walletProtocolViolation
  | _ => .error .walletProtocolViolation

/-- The Orchard key of the exported viewing key, which must own the collector's address. -/
def viewingKey (identity : WalletSigningIdentity) (encodedUfvk : Text) :
    Except ZecPayoutError Text := do
  let decoded ← orReject .walletProtocolViolation
    (cfg.external.decodeUfvk encodedUfvk)
  rejectIf (decoded.1 ≠ cfg.addressNetwork) .walletProtocolViolation
  let orchardFvk ← orReject .walletProtocolViolation
    (cfg.external.orchardKey decoded.2)
  rejectIf (¬ cfg.external.ownsAddress orchardFvk identity.unifiedReceiver) .walletProtocolViolation
  pure orchardFvk

/-! ## §3. Results of the PCZT calls -/

structure CreateResult where
  pczt : Text
  privacyPolicy : Text
deriving DecidableEq, Repr

structure SignResult where
  pczt : Text
  unsignedTransparent : List ℕ
  unsignedSapling : List ℕ
  unsignedOrchard : List ℕ
  unsignedIronwood : List ℕ
deriving DecidableEq, Repr

/-- Nothing is left unsigned. -/
def SignResult.validate (signed : SignResult) : Except ZecPayoutError Unit :=
  rejectIf (signed.unsignedTransparent ≠ [] ∨ signed.unsignedSapling ≠ [] ∨
    signed.unsignedOrchard ≠ [] ∨ signed.unsignedIronwood ≠ []) .walletProtocolViolation

structure ExtractResult where
  hex : Text
  txid : Text
  stored : Bool
deriving DecidableEq, Repr

/-- The extracted bytes are one canonical transaction with the approved identifier. -/
def ExtractResult.validateAgainst (ext : ZecExternal) (extracted : ExtractResult)
    (approvedTransactionId : Text) : Except ZecPayoutError Unit := do
  rejectIf (¬ extracted.stored ∨ ¬ validRawTransaction extracted.hex ∨
    ¬ validTransactionId extracted.txid) .walletProtocolViolation
  let raw ← orReject .walletProtocolViolation (hexDecode extracted.hex)
  let transaction ← orReject .walletProtocolViolation (ext.readTransaction raw)
  rejectIf (transaction.consumed ≠ raw.length ∨ transaction.txid ≠ extracted.txid ∨
    extracted.txid ≠ approvedTransactionId) .walletProtocolViolation
  rejectIf (transaction.canonical ≠ some raw) .walletProtocolViolation
  rejectIf (¬ transaction.versionSix ∨ ¬ transaction.branchNu63) .walletProtocolViolation

/-! ## §4. Inspection -/

structure SigningHints where
  seedFingerprint : Text
  accountIndex : ℕ
deriving DecidableEq, Repr

structure TransparentOutput where
  valueZat : ℕ
  address : Option Text
  userAddress : Option Text
deriving DecidableEq, Repr

structure ShieldedOutput where
  valueZat : Option ℕ
  userAddress : Option Text
deriving DecidableEq, Repr

structure SaplingInfo where
  spends : ℕ
  outputs : List ShieldedOutput
  valueBalanceZat : ℤ
  proofsComplete : Bool
deriving DecidableEq, Repr

structure OrchardInfo where
  actions : ℕ
  signedActions : ℕ
  outputs : List ShieldedOutput
  valueBalanceZat : ℤ
  proofComplete : Bool
deriving DecidableEq, Repr

structure InspectResult where
  txVersion : ℕ
  consensusBranchId : Text
  expiryHeight : ℕ
  privacyPolicy : Option Text
  signingHints : Option SigningHints
  walletCreated : Bool
  feeZat : ℤ
  transparentInputs : ℕ
  transparentOutputs : List TransparentOutput
  sapling : SaplingInfo
  orchard : OrchardInfo
  ironwood : OrchardInfo
deriving DecidableEq, Repr

inductive ProofRequirement
  | mayBeMissing
  | complete
deriving DecidableEq, Repr

/-- `u32::from_str_radix(_, 16)`. -/
def hexU32 (text : Text) : Option ℕ :=
  let digits := if text.head? = some 43 then text.tail else text
  if digits = [] then none
  else (digits.foldlM (fun value byte => (hexValue byte).map (16 * value + ·)) 0).filter (· < 2 ^ 32)

/-- One output for each action, and a balance in bounds. -/
def orchardBundleIsStructural (bundle : OrchardInfo) : Prop :=
  bundle.outputs.length = bundle.actions ∧ bundle.signedActions ≤ bundle.actions ∧
    bundle.valueBalanceZat.natAbs ≤ maxZecZat

instance (bundle : OrchardInfo) : Decidable (orchardBundleIsStructural bundle) :=
  inferInstanceAs (Decidable (_ ∧ _ ∧ _))

/-- The requested outputs of one kind, as the inspection lists them. -/
def expectedOutputs (kind : ReceiverKind) : List (Text × ℕ) :=
  (request.batch.outputs.filter (·.receiverKind = kind)).map fun output =>
    (output.canonicalAddress, output.amountZat)

/-- A transparent output whose address is the requested one. -/
def TransparentOutput.recipient (output : TransparentOutput) : Option (Text × ℕ) := do
  let userAddress ← output.userAddress
  if output.address = some userAddress then some (userAddress, output.valueZat) else none

def ShieldedOutput.recipient (output : ShieldedOutput) : Option (Text × ℕ) := do
  let userAddress ← output.userAddress
  let valueZat ← output.valueZat
  pure (userAddress, valueZat)

/-- The wallet's own account of a transaction's shape. -/
def verifyShape (privacyPolicy : Text) (inspected : InspectResult) (signingHints : SigningHints) :
    Except ZecPayoutError Unit :=
  rejectIf (¬ inspected.walletCreated ∨
      cfg.external.seedFingerprint signingHints.seedFingerprint = none ∨
      signingHints.accountIndex ≥ 2 ^ 31 ∨ inspected.privacyPolicy ≠ some privacyPolicy ∨
      inspected.txVersion = 0 ∨ inspected.expiryHeight = 0 ∨
      hexU32 inspected.consensusBranchId ≠ some zcashNu63BranchId ∨ inspected.feeZat < 0 ∨
      inspected.feeZat > request.batch.maximumNetworkFeeZat ∨ inspected.transparentInputs ≠ 0 ∨
      inspected.sapling.spends ≠ 0 ∨ inspected.sapling.outputs ≠ [] ∨
      inspected.sapling.valueBalanceZat ≠ 0 ∨
      (∃ output ∈ inspected.orchard.outputs, output.userAddress ≠ none) ∨
      ¬ orchardBundleIsStructural inspected.orchard ∨
      ¬ orchardBundleIsStructural inspected.ironwood)
    .walletProtocolViolation

/-- **The check of an inspection**: the outputs are the requested ones and the values leave the
    fee that the wallet states. -/
def verifyInspection (privacyPolicy : Text) (inspected : InspectResult)
    (requirement : ProofRequirement) : Except ZecPayoutError ℕ := do
  let signingHints ← orReject .walletProtocolViolation inspected.signingHints
  verifyShape cfg request privacyPolicy inspected signingHints
  rejectIf (requirement = .complete ∧ (¬ inspected.sapling.proofsComplete ∨
      ¬ inspected.orchard.proofComplete ∨ ¬ inspected.ironwood.proofComplete))
    .walletProtocolViolation
  rejectIf (inspected.transparentOutputs.mapM (·.recipient) ≠
    some (expectedOutputs request .transparent)) .walletProtocolViolation
  let actualIronwood ← orReject .walletProtocolViolation
    ((inspected.ironwood.outputs.filter (·.userAddress ≠ none)).mapM (·.recipient))
  -- the source sorts both lists and compares them
  rejectIf (¬ actualIronwood.Perm (expectedOutputs request .ironwood)) .walletProtocolViolation
  rejectIf (-((inspected.transparentOutputs.map (·.valueZat)).sum : ℤ)
      + inspected.sapling.valueBalanceZat + inspected.orchard.valueBalanceZat
      + inspected.ironwood.valueBalanceZat ≠ inspected.feeZat) .walletProtocolViolation
  pure inspected.feeZat.toNat

end WcashPool.ZecSigner
