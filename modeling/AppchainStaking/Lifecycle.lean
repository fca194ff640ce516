import AppchainStaking.Settings.Protocol
import AppchainStaking.Token

/-!
# Lifecycle of an appchain

An appchain goes from staging over booting to active, and booting or running it may break. No way
leads back, and a broken appchain only lets stake leave.
-/

namespace AppchainStaking

inductive Phase
  | staging
  /-- Stake is frozen while the appchain boots. -/
  | booting
  | active
  | broken
  deriving DecidableEq, Repr

def Phase.name : Phase → String
  | staging => "Staging"
  | booting => "Booting"
  | active => "Active"
  | broken => "Broken"

structure Projection where
  totalStake : Nat
  validatorCount : Nat
  deriving DecidableEq

namespace Phase

def allowsStaking : Phase → Bool
  | staging | active => true
  | booting | broken => false

def allowsUnbonding : Phase → Bool
  | staging | active | broken => true
  | booting => false

def demandStaking (p : Phase) : Except StakingError Unit :=
  require p.allowsStaking .invalidState

def demandUnbonding (p : Phase) : Except StakingError Unit :=
  require p.allowsUnbonding .invalidState

/-- Enough validators with stake of enough value let a staging appchain boot. -/
def boot (p : Phase) (settings : ProtocolSettings) (token : StakeToken) (next : Projection) :
    Except StakingError Phase := do
  require (p = staging) .invalidState
  require (settings.minimumValidatorCount.toNat ≤ next.validatorCount) .preconditionNotMet
  let value ← token.valueOf next.totalStake
  require (settings.minimumTotalStakePriceForBooting.toNat ≤ value) .preconditionNotMet
  return booting

def goLive (p : Phase) (token : WrappedToken) : Except StakingError Phase := do
  require (p = booting) .invalidState
  require token.isConfigured .preconditionNotMet
  return active

def goBroken (p : Phase) : Except StakingError Phase := do
  require (p = booting ∨ p = active) .invalidState
  return broken

end Phase

end AppchainStaking
