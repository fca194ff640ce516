import AppchainStaking.Wire.Anchor

/-!
# Stored accounts

The data of a stored account starts with eight bytes that mark the type of its content, the first
eight bytes of the SHA-256 digest of `account:` and the name of the type. The content follows, and
whatever stands after it is left over space.
-/

namespace AppchainStaking

class Stored (α : Type) extends Wire α where
  mark : Bytes

/-- The mark of `account:AnchorState`. -/
instance : Stored Anchor where
  mark := [0xdf, 0x08, 0xf6, 0x88, 0x58, 0x7b, 0x53, 0x63]

/-- The mark of `account:StakingHistory`. -/
instance : Stored HistoryRecord where
  mark := [0x17, 0x62, 0x6f, 0x71, 0x49, 0x44, 0x5e, 0x97]

inductive DataError
  /-- There are too few bytes for a mark. -/
  | noMark
  | otherMark
  | undecodable
  deriving DecidableEq

namespace Stored

def markSize : Nat := 8

variable {α : Type} [Stored α]

def bytes (a : α) : Bytes :=
  mark α ++ Wire.encode a

def load (data : Bytes) : Except DataError α :=
  let head := data.take markSize
  if head.length < markSize then .error .noMark
  else if head ≠ mark α then .error .otherMark
  else match (Wire.decode : Reader α) (data.drop markSize) with
    | .ok (a, _) => .ok a
    | .error _ => .error .undecodable

/-- Writes a value over the start of an account's data, unless it does not fit. -/
def store? (a : α) (data : Bytes) : Option Bytes :=
  let new := bytes a
  if Wire.fits a ∧ new.length ≤ data.length then some (new ++ data.drop new.length) else none

end Stored

namespace Anchor

def initialSpace : Nat := 4096

/-- Room for what one instruction can add. -/
def growthRoom : Nat := 8192

def requiredSpace (s : Anchor) : Nat :=
  let used := if Wire.fits s then (Wire.encode s).length else initialSpace
  Stored.markSize + used + growthRoom

end Anchor

namespace HistoryRecord

/-- Longest binary form of a fact, which is that of a registration: a tag, an account, an
identifier of `0x` and sixty-four digits, an amount and a flag. -/
def maximumFactSize : Nat := 1 + 32 + (4 + (2 + 64)) + 8 + 1

/-- Space allocated for a record: mark, index, fact, time and era. -/
def space : Nat := Stored.markSize + 8 + maximumFactSize + 8 + 8

end HistoryRecord

end AppchainStaking
