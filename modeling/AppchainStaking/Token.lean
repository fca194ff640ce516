import AppchainStaking.Error
import AppchainStaking.Identity
import AppchainStaking.Text.Unicode

/-!
# Tokens

The token bonded as stake has a market price. Values are computed in 128-bit arithmetic: a scale or
a product that does not fit is an error, and the quotient is rounded down. The appchain's own token,
as it is bridged to the host chain, is configured step by step, and the appchain can go live only
when everything it needs is set.
-/

namespace AppchainStaking

structure StakeToken where
  mint : AccountId
  decimals : UInt8
  price : UInt64
  deriving DecidableEq

namespace StakeToken

def scale (t : StakeToken) : Nat := Nat.pow 10 t.decimals.toNat

def valueBound : Nat := UInt64.size * UInt64.size

def valueOf (t : StakeToken) (amount : Nat) : Except StakingError Nat := do
  require (t.scale < valueBound) .amountOverflow
  require (amount * t.price.toNat < valueBound) .amountOverflow
  return amount * t.price.toNat / t.scale

end StakeToken

structure TokenMetadata where
  name : String := ""
  symbol : String := ""
  decimals : UInt8 := 0
  deriving DecidableEq

structure WrappedToken where
  metadata : TokenMetadata := {}
  contract : Option AccountId := none
  preminedBeneficiary : Option AccountId := none
  preminedBalance : UInt64 := 0
  price : UInt64 := 0
  deriving DecidableEq

inductive WrappedTokenChange
  | metadata (value : TokenMetadata)
  | contract (account : AccountId)
  | preminedBalance (beneficiary : AccountId) (value : UInt64)
  | price (value : UInt64)
  deriving DecidableEq

namespace TokenMetadata

def maximumNameSize : Nat := 64

def maximumSymbolSize : Nat := 16

def Fits (m : TokenMetadata) : Prop :=
  m.name.utf8ByteSize ≤ maximumNameSize ∧ m.symbol.utf8ByteSize ≤ maximumSymbolSize

instance (m : TokenMetadata) : Decidable m.Fits := by
  unfold Fits
  infer_instance

end TokenMetadata

namespace WrappedToken

def apply (t : WrappedToken) : WrappedTokenChange → Except StakingError WrappedToken
  | .metadata value => if value.Fits then .ok { t with metadata := value } else .error .invalidValue
  | .contract account => .ok { t with contract := some account }
  | .preminedBalance beneficiary value =>
      .ok { t with preminedBeneficiary := some beneficiary, preminedBalance := value }
  | .price value => .ok { t with price := value }

def applyAll (t : WrappedToken) (changes : List WrappedTokenChange) :
    Except StakingError WrappedToken :=
  changes.foldlM apply t

def isConfigured (t : WrappedToken) : Bool :=
  t.contract.isSome && t.preminedBeneficiary.isSome && !isBlankText t.metadata.name &&
    !isBlankText t.metadata.symbol && t.metadata.decimals != 0

end WrappedToken

end AppchainStaking
