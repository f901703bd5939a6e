/-
  WcashPool.Protocol.Basic — the identifiers and bounds that the wire protocol
  and the store share.

  A fixed-size byte string of the protocol (`FixedHex<N>`) is the bit vector of
  its bytes in raw order: byte `i` is bits `8i … 8i+7`.  Its little-endian
  numeric value is therefore its `toNat`, and a slice of bytes is a slice of
  bits.  A UUID is its big-endian number, so that the order on UUIDs is the
  order on their canonical bytes.
-/
import Mathlib.Data.Fin.Basic
import Mathlib.Order.Fin.Basic
import Mathlib.Data.BitVec

namespace WcashPool

/-- A UUID by its canonical (big-endian) number; `0` is the nil UUID. -/
abbrev Uuid := Fin (2 ^ 128)

instance Uuid.instNeZero : NeZero (2 ^ 128) := ⟨by decide⟩

/-- Is this the nil UUID? -/
abbrev Uuid.isNil (u : Uuid) : Prop := u = 0

/-- The sixteen canonical bytes of a UUID. -/
def Uuid.asBytes (u : Uuid) : List UInt8 :=
  (List.range 16).map fun i => UInt8.ofNat (u.val / 2 ^ (8 * (15 - i)))

/-- `n` bytes, the first one in the lowest bits. -/
abbrev FixedHex (n : ℕ) := BitVec (8 * n)

namespace FixedHex

/-- Are all bytes zero? -/
abbrev isZero {n : ℕ} (h : FixedHex n) : Prop := h = 0

/-- The bytes `start … start + len - 1`. -/
def slice {n : ℕ} (h : FixedHex n) (start len : ℕ) : FixedHex len :=
  h.extractLsb' (8 * start) (8 * len)

/-- The bytes in raw order. -/
def asBytes {n : ℕ} (h : FixedHex n) : List UInt8 :=
  (List.range n).map fun i => UInt8.ofNat (h.toNat / 2 ^ (8 * i))

end FixedHex

abbrev Hex32 := FixedHex 32
abbrev Hex108 := FixedHex 108

/-- A proof-of-work target in little-endian byte order. -/
abbrev TargetLe := FixedHex 32

/-- One of the two independently submitted merged-mining chains. -/
inductive MergedChain
  | wcash
  | zcash
deriving DecidableEq, Repr

namespace MergedChain

/-- The derived order of the source's enumeration: Wcash before Zcash. -/
def rank : MergedChain → ℕ
  | wcash => 0
  | zcash => 1

end MergedChain

/-- A text of the protocol by its UTF-8 bytes: every check on a text is a check on bytes. -/
abbrev Text := List UInt8

instance : LawfulBEq Text := inferInstanceAs (LawfulBEq (List UInt8))

/-- A syntactically valid message violated a semantic wire invariant.  (The framing and JSON
    errors of the source's type belong to the wire codec.) -/
inductive ProtocolError
  | invalidField (field reason : String)
deriving DecidableEq, Repr

/-- Maximum monetary value representable by either 21-million-coin chain. -/
def maxChainValueZat : ℕ := 2_100_000_000_000_000

end WcashPool
