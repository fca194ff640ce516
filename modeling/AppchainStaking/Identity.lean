import AppchainStaking.Error
import AppchainStaking.Text.Bytes
import AppchainStaking.Text.Unicode

/-!
# Identities

An account is known by thirty-two bytes. A validator also has an identity on the appchain, whose
template fixes the length: it is accepted in any spelling of its bytes, and kept in one, `0x` and
lower case digits.
-/

namespace AppchainStaking

structure AccountId where
  bytes : Bytes
  length_bytes : bytes.length = 32
  deriving DecidableEq

namespace AccountId

def ofBytes? (bytes : Bytes) : Option AccountId :=
  if h : bytes.length = 32 then some ⟨bytes, h⟩ else none

@[simp] theorem ofBytes?_bytes (a : AccountId) : ofBytes? a.bytes = some a := by
  simp [ofBytes?, a.length_bytes]

theorem bytes_of_ofBytes? {bytes : Bytes} {a : AccountId} (h : ofBytes? bytes = some a) :
    a.bytes = bytes := by
  unfold ofBytes? at h
  split at h
  · cases h
    rfl
  · cases h

def toBase58 (a : AccountId) : String :=
  Base58.encode a.bytes

/-- The account that a text names: its Base58 form must stand for thirty-two bytes. -/
def ofBase58? (s : String) : Option AccountId := do
  ofBytes? (← Base58.decode? s)

end AccountId

inductive Template
  | barnacle
  | barnacleEvm
  deriving DecidableEq, Repr

namespace Template

def idSize : Template → Nat
  | barnacle => 32
  | barnacleEvm => 20

def withoutMark : List Char → List Char
  | '0' :: 'x' :: digits => digits
  | digits => digits

/-- The bytes that `raw` spells are decoded from its lower case, and written again. -/
def normalize (t : Template) (raw : String) : Except StakingError String := do
  let lower := toLowercase (trimBlank raw.toList)
  let bytes ← found .invalidAppchainAccount (bytesOfHexDigits? (withoutMark lower))
  require (bytes.length = t.idSize) .invalidAppchainAccount
  return "0x" ++ toHex bytes

theorem normalize_eq_ok_iff {t : Template} {raw id : String} :
    t.normalize raw = .ok id ↔
      ∃ bytes, bytesOfHexDigits? (withoutMark (toLowercase (trimBlank raw.toList))) = some bytes ∧
        bytes.length = t.idSize ∧ "0x" ++ toHex bytes = id := by
  simp [normalize, map_eq_ok_iff]

end Template

end AppchainStaking
