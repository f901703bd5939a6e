/-
  WcashPool.Portal.Signer — what the isolated payout signers share
  (`PayoutBatchRequest`, `BroadcastReceipt`).

  The isolated signers accept a request under its batch identifier only once:
  every later call must carry the same commitment (`WcashPool.Store.Commitment`).
  Transactions and their identifiers travel as lowercase hexadecimal text.
-/
import WcashPool.Store.Commitment

namespace WcashPool.Portal

open Fallible Protocol Store

/-! ## §1. Requests and receipts -/

/-- The total that a valid request pays. -/
def outputTotal (request : PayoutBatchRequest) : Except StoreError ℕ := do
  request.validate
  pure (request.outputs.map (·.amountZat)).sum

structure BroadcastReceipt where
  batchId : Uuid
  requestCommitment : Hex32
  asset : Asset
  transactionId : Text
  outputTotalZat : ℕ
deriving DecidableEq, Repr

/-! ## §2. Hexadecimal text -/

def isLowerHex (byte : UInt8) : Bool := (48 ≤ byte && byte ≤ 57) || (97 ≤ byte && byte ≤ 102)

def hexValue (byte : UInt8) : Option ℕ :=
  if 48 ≤ byte ∧ byte ≤ 57 then some (byte.toNat - 48)
  else if 97 ≤ byte ∧ byte ≤ 102 then some (byte.toNat - 87)
  else if 65 ≤ byte ∧ byte ≤ 70 then some (byte.toNat - 55)
  else none

/-- `hex::decode`. -/
def hexDecode : Text → Option (List UInt8)
  | [] => some []
  | [_] => none
  | high :: low :: rest => do
    let h ← hexValue high
    let l ← hexValue low
    let bytes ← hexDecode rest
    pure (UInt8.ofNat (16 * h + l) :: bytes)

end WcashPool.Portal
