/-
  WcashPool.Protocol.Zip301 — what a miner and the pool say to each other
  (`zip301.rs`).

  The requests as they stand after strict decoding, and the messages before they
  are encoded.
-/
import WcashPool.Core.Nonce
import WcashPool.Core.Target
import WcashPool.Protocol.Work

namespace WcashPool.Protocol

open WcashPool.Core

/-- The miner's part of the nonce under one profile. -/
inductive NonceSuffix
  | twentyEight (bytes : FixedHex 28)
  | twentyFour (bytes : FixedHex 24)
deriving DecidableEq

/-- The full header nonce; a crossed profile is refused. -/
def joinNonce (noncePrefix : NoncePrefix) (suffix : NonceSuffix) : Except ProtocolError Hex32 :=
  match noncePrefix, suffix with
  | .four bytes, .twentyEight suffix => .ok (FixedHex.ofBytes 32 (bytes.toList ++ suffix.asBytes))
  | .eight bytes, .twentyFour suffix => .ok (FixedHex.ofBytes 32 (bytes.toList ++ suffix.asBytes))
  | _, _ => .error (.invalidField "ZIP-301 nonce" "prefix and suffix use different profiles")

inductive Zip301Id
  | number (value : ℕ)
  | string (value : Text)
  | null
deriving DecidableEq

/-- A decoded request.  (The parameters of a subscription are kept for diagnostics only.) -/
inductive Zip301Request
  | subscribe (id : Zip301Id)
  | authorize (id : Zip301Id) (worker password : Text)
  | suggestTarget (id : Zip301Id) (targetBe : TargetBe)
  | extranonceSubscribe (id : Zip301Id)
  | multiVersion (id : Zip301Id) (requestedVersions : ℕ)
  | submit (id : Zip301Id) (worker : Text) (jobId : Hex32) (time : Hex4) (nonce2 : NonceSuffix)
      (solution : Hex1344)
deriving DecidableEq

def Zip301Request.id : Zip301Request → Zip301Id
  | subscribe id | authorize id _ _ | suggestTarget id _ | extranonceSubscribe id
  | multiVersion id _ | submit id _ _ _ _ _ => id

structure Zip301Notify where
  jobId : Hex32
  headerInput : Hex108
  cleanJobs : Bool
deriving DecidableEq

inductive Zip301ServerMessage
  | subscribed (id : Zip301Id) (nonce1 : NoncePrefix)
  | boolean (id : Zip301Id) (result : Bool)
  | error (id : Zip301Id) (code : ℕ) (message : String)
  | setTarget (targetBe : TargetBe)
  | notify (notify : Zip301Notify)
deriving DecidableEq

end WcashPool.Protocol
