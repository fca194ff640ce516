/-!
# Bytes as text

Hexadecimal writes two digits for each byte. In Base58 a byte string is read as a number in base 256
and written in base 58, most significant digit first; leading zero bytes do not show in the number,
so each of them is written as one `1`. A byte string that is not UTF-8 has a first place where it
stops being so: the fault there either spans one to three bytes that no continuation could mend, or
the input ends inside a character.
-/

namespace AppchainStaking

abbrev Bytes := List UInt8

def hexValue? (c : Char) : Option Nat :=
  if '0' ≤ c ∧ c ≤ '9' then some (c.toNat - '0'.toNat)
  else if 'a' ≤ c ∧ c ≤ 'f' then some (c.toNat - 'a'.toNat + 10)
  else if 'A' ≤ c ∧ c ≤ 'F' then some (c.toNat - 'A'.toNat + 10)
  else none

def isHexDigit (c : Char) : Bool :=
  (hexValue? c).isSome

def hexDigits : List Char := "0123456789abcdef".toList

def hexDigit (n : Nat) : Char :=
  hexDigits.getD n '0'

def toHex (bytes : Bytes) : String :=
  .ofList (bytes.flatMap fun b => [hexDigit (b.toNat / 16), hexDigit (b.toNat % 16)])

def bytesOfHexDigits? : List Char → Option Bytes
  | [] => some []
  | [_] => none
  | high :: low :: rest => do
      let h ← hexValue? high
      let l ← hexValue? low
      let bytes ← bytesOfHexDigits? rest
      return .ofNat (16 * h + l) :: bytes

def ofHex? (s : String) : Option Bytes :=
  bytesOfHexDigits? s.toList

namespace Base58

def alphabet : List Char :=
  "123456789ABCDEFGHJKLMNPQRSTUVWXYZabcdefghijkmnopqrstuvwxyz".toList

/-- Digits of `n`, most significant first, in front of `tail`; zero has none. -/
def digits (base : Nat) (h : 1 < base) (n : Nat) (tail : List Nat) : List Nat :=
  if _h : n = 0 then tail
  else digits base h (n / base) (n % base :: tail)
termination_by n
decreasing_by exact Nat.div_lt_self (by omega) h

def ofDigits (base : Nat) (ds : List Nat) : Nat :=
  ds.foldl (fun n d => n * base + d) 0

def encode (bytes : Bytes) : String :=
  let zeros := (bytes.takeWhile (· = 0)).length
  let value := ofDigits 256 (bytes.map UInt8.toNat)
  .ofList (List.replicate zeros '1' ++
    (digits 58 (by decide) value []).map fun d => alphabet.getD d '1')

def digit? (c : Char) : Option Nat :=
  alphabet.idxOf? c

/-- The bytes that a text denotes, unless it holds a character outside the alphabet. -/
def decode? (s : String) : Option Bytes := do
  let ds ← s.toList.mapM digit?
  let zeros := (ds.takeWhile (· = 0)).length
  return List.replicate zeros 0 ++ (digits 256 (by decide) (ofDigits 58 ds) []).map UInt8.ofNat

end Base58

structure Utf8Fault where
  /-- Number of bytes of well-formed text in front of the fault. -/
  position : Nat
  /-- Length of the ill-formed sequence; absent when the input ends inside a character. -/
  length : Option Nat
  deriving DecidableEq, Repr

namespace Utf8Fault

def message (f : Utf8Fault) : String :=
  match f.length with
  | some n => s!"invalid utf-8 sequence of {n} bytes from index {f.position}"
  | none => s!"incomplete utf-8 byte sequence from index {f.position}"

/-- The range of the second byte and the number of further continuation bytes that a leading byte
asks for. The ranges leave out overlong forms, surrogates and values above U+10FFFF. -/
def following? (lead : UInt8) : Option (UInt8 × UInt8 × Nat) :=
  if 0xC2 ≤ lead ∧ lead ≤ 0xDF then some (0x80, 0xBF, 0)
  else if lead = 0xE0 then some (0xA0, 0xBF, 1)
  else if lead = 0xED then some (0x80, 0x9F, 1)
  else if 0xE1 ≤ lead ∧ lead ≤ 0xEF then some (0x80, 0xBF, 1)
  else if lead = 0xF0 then some (0x90, 0xBF, 2)
  else if 0xF1 ≤ lead ∧ lead ≤ 0xF3 then some (0x80, 0xBF, 2)
  else if lead = 0xF4 then some (0x80, 0x8F, 2)
  else none

/-- What the bytes read so far leave open: nothing, or a character begun at `start` that expects a
byte in a range and then `more` continuation bytes. -/
inductive Pending
  | none
  | inside (start : Nat) (low high : UInt8) (more : Nat)

def findFrom (position : Nat) : Pending → List UInt8 → Option Utf8Fault
  | .none, [] => none
  | .inside start _ _ _, [] => some ⟨start, none⟩
  | .none, b :: rest =>
      if b < 0x80 then findFrom (position + 1) .none rest
      else match following? b with
        | none => some ⟨position, some 1⟩
        | some (low, high, more) => findFrom (position + 1) (.inside position low high more) rest
  | .inside start low high more, b :: rest =>
      if low ≤ b ∧ b ≤ high then
        match more with
        | 0 => findFrom (position + 1) .none rest
        | more + 1 => findFrom (position + 1) (.inside start 0x80 0xBF more) rest
      else some ⟨start, some (position - start)⟩

def find? (bytes : List UInt8) : Option Utf8Fault :=
  findFrom 0 .none bytes

end Utf8Fault

end AppchainStaking
