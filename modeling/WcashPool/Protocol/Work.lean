/-
  WcashPool.Protocol.Work — offered work and submitted proofs (`backend.rs`).

  A proof is a nonce and an Equihash solution for the header of a job.  The hash
  of the completed parent header and the identity of the proof are computed from
  the exact bytes; both rest on SHA-256 alone.
-/
import WcashPool.Lib.Framing
import WcashPool.Protocol.Backend

namespace WcashPool

abbrev Hex4 := FixedHex 4
abbrev Hex1344 := FixedHex 1344

end WcashPool

namespace WcashPool.Protocol

open Fallible

/-- A job plus the backend-authenticated remaining time it may accept shares. -/
structure AcceptableJob where
  job : JobDescriptor
  acceptForMs : ℕ
deriving DecidableEq, Repr

def AcceptableJob.validate (acceptable : AcceptableJob) : Check := do
  acceptable.job.validate
  checkField (acceptable.acceptForMs = 0 ∨ acceptable.acceptForMs > acceptable.job.maxAgeMs)
    "acceptable_job.accept_for_ms" "must be positive and no greater than the job's maximum age"

/-- The CompactSize encoding of 1344. -/
def equihashSolutionCompactSize : List UInt8 := [0xfd, 0x40, 0x05]

/-- The raw little-endian Zcash parent-header hash for one submitted share. -/
def canonicalParentHeaderHashLe (ext : External) (headerInput : Hex108) (nonce : Hex32)
    (solution : Hex1344) : Hex32 :=
  let first := ext.sha256
    (headerInput.asBytes ++ nonce.asBytes ++ equihashSolutionCompactSize ++ solution.asBytes)
  ext.sha256 first.asBytes

/-- `wcash-pool/share-id/v1`. -/
def shareIdDomain : Text :=
  [119, 99, 97, 115, 104, 45, 112, 111, 111, 108, 47, 115, 104, 97, 114, 101, 45, 105, 100, 47,
    118, 49]

/-- The stable identity of one exact submitted proof; worker and target are not part of it. -/
def canonicalShareId (ext : External) (jobId : Hex32) (time : Hex4) (nonce : Hex32)
    (solution : Hex1344) : Hex32 :=
  ext.sha256 (shareIdDomain ++ jobId.asBytes ++ time.asBytes ++ nonce.asBytes ++ solution.asBytes)

/-- Is the hash above the target?  Both are compared from the last byte on. -/
def exceedsTarget (hash : Hex32) (target : TargetLe) : Bool :=
  decide (target.asBytes.reverse < hash.asBytes.reverse)

/-- The comparison is that of the little-endian numbers. -/
theorem exceedsTarget_iff (hash : Hex32) (target : TargetLe) :
    exceedsTarget hash target = true ↔ target.toNat < hash.toNat := by
  have h := Framing.reverse_leBytes_lt_iff 32 target.toNat hash.toNat
  rw [Nat.mod_eq_of_lt target.isLt, Nat.mod_eq_of_lt hash.isLt] at h
  exact (decide_eq_true_iff).trans h

end WcashPool.Protocol
