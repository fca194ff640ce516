import AppchainStaking.Identity
import AppchainStaking.Text.Bytes

/-!
# Binary form

Values are stored and sent as bytes without any description of their type. Integers have a fixed
width and come least significant byte first; a text or a list starts with its length in four bytes;
an alternative starts with one byte that tells which it is; a record is its fields in order. A value
has a binary form only if all its numbers and lengths fit their fields.
-/

namespace AppchainStaking

inductive WireError
  | endOfInput
  | trailingBytes
  | unknownVariant (tag : UInt8)
  | badBool (byte : UInt8)
  | badOption (byte : UInt8)
  | badUtf8 (fault : Utf8Fault)
  deriving DecidableEq

namespace WireError

def kind : WireError → String
  | trailingBytes | badUtf8 _ => "InvalidData"
  | _ => "InvalidInput"

def message : WireError → String
  | endOfInput => "Unexpected length of input"
  | trailingBytes => "Not all bytes read"
  | unknownVariant tag => s!"Unexpected variant index: {tag.toNat}"
  | badBool byte => s!"Invalid bool representation: {byte.toNat}"
  | badOption byte =>
      s!"Invalid Option representation: {byte.toNat}. The first byte must be 0 or 1"
  | badUtf8 fault => fault.message

end WireError

/-- Reads a value off the front of some bytes and gives what is left of them. -/
abbrev Reader (α : Type) := StateT Bytes (Except WireError) α

class Wire (α : Type) where
  encode : α → Bytes
  decode : Reader α
  /-- All numbers and lengths in the value fit their fields. -/
  fits : α → Bool := fun _ => true

namespace Wire

def decodeAll {α : Type} [Wire α] (bytes : Bytes) : Except WireError α := do
  let (a, rest) ← (decode : Reader α) bytes
  if rest = [] then .ok a else .error .trailingBytes

def take (n : Nat) : Reader Bytes := fun bytes =>
  let head := bytes.take n
  if head.length = n then .ok (head, bytes.drop n) else .error .endOfInput

/-- The `width` low bytes of a number, least significant first. -/
def toBytes : Nat → Nat → Bytes
  | 0, _ => []
  | width + 1, n => .ofNat (n % 256) :: toBytes width (n / 256)

def ofBytes (bytes : Bytes) : Nat :=
  bytes.foldr (fun b n => b.toNat + 256 * n) 0

/-- Natural numbers in a field of `width` bytes. -/
def Field (_width : Nat) : Type := Nat

instance (width : Nat) : Wire (Field width) where
  encode n := toBytes width n
  decode := do
    let bytes ← take width
    return ofBytes bytes
  fits := fun (n : Nat) => n < Nat.pow 256 width

/-- The form of a type whose values correspond to those of another. -/
@[reducible] def via {α β : Type} [Wire β] (make : β → α) (back : α → β) : Wire α where
  encode a := encode (back a)
  decode := do
    let b ← decode
    return make b
  fits a := fits (back a)

instance : Wire UInt8 := via (fun n : Field 1 => UInt8.ofNat n) UInt8.toNat

instance : Wire UInt16 := via (fun n : Field 2 => UInt16.ofNat n) UInt16.toNat

instance : Wire UInt32 := via (fun n : Field 4 => UInt32.ofNat n) UInt32.toNat

instance : Wire UInt64 := via (fun n : Field 8 => UInt64.ofNat n) UInt64.toNat

instance : Wire Int64 := via UInt64.toInt64 Int64.toUInt64

instance : Wire Bool where
  encode b := [if b then 1 else 0]
  decode := do
    let byte : UInt8 ← decode
    if byte = 0 then return false
    else if byte = 1 then return true
    else throw (.badBool byte)

instance : Wire AccountId where
  encode a := a.bytes
  decode := do
    let bytes ← take 32
    match AccountId.ofBytes? bytes with
    | some a => return a
    | none => throw .endOfInput

instance : Wire String where
  encode s := toBytes 4 s.utf8ByteSize ++ s.toUTF8.data.toList
  decode := do
    let size : UInt32 ← decode
    let bytes ← take size.toNat
    match String.fromUTF8? ⟨bytes.toArray⟩ with
    | some s => return s
    | none => throw (.badUtf8 ((Utf8Fault.find? bytes).getD ⟨0, none⟩))
  fits s := s.utf8ByteSize < UInt32.size

variable {α β : Type} [Wire α] [Wire β]

instance : Wire (α × β) where
  encode p := encode p.1 ++ encode p.2
  decode := do
    let a ← decode
    let b ← decode
    return (a, b)
  fits p := fits p.1 && fits p.2

instance : Wire (Option α) where
  encode
    | none => [0]
    | some a => 1 :: encode a
  decode := do
    let byte : UInt8 ← decode
    if byte = 0 then return none
    else if byte = 1 then
      let a ← decode
      return some a
    else throw (.badOption byte)
  fits x := x.all fits

def decodeMany : Nat → Reader (List α)
  | 0 => return []
  | n + 1 => do
      let a ← decode
      let as ← decodeMany n
      return a :: as

instance : Wire (List α) where
  encode as := toBytes 4 as.length ++ as.flatMap encode
  decode := do
    let count : UInt32 ← decode
    decodeMany count.toNat
  fits as := as.length < UInt32.size && as.all fits

def content {γ : Type} (make : α → γ) : Reader γ := do
  let a ← decode
  return make a

end Wire

end AppchainStaking
