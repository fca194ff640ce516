import AppchainStaking.Authority
import AppchainStaking.History
import AppchainStaking.Identity
import AppchainStaking.Ledger.Basic
import AppchainStaking.Lifecycle
import AppchainStaking.Settings.Store
import AppchainStaking.Unbonding

/-!
# The anchor of an appchain

The anchor is everything that the host chain keeps about one appchain: who governs it, what phase
it is in, and who has how much stake bonded, on its way out, and recorded.
-/

namespace AppchainStaking

structure Anchor where
  owner : AccountId
  appchainId : String
  template : Template
  phase : Phase
  era : UInt64
  stakeToken : StakeToken
  stakeVault : AccountId
  wrappedToken : WrappedToken
  settings : SettingsStore
  ledger : Ledger
  history : HistoryLog
  unbonding : UnbondingQueue
  transfersPaused : Bool
  bump : UInt8
  vaultAuthorityBump : UInt8
  deriving DecidableEq

namespace Anchor

def maximumAppchainIdSize : Nat := 64

/-- A fresh anchor: staging, in era zero, with default settings and nothing bonded. -/
def new (owner : AccountId) (appchainId : String) (template : Template) (stakeToken : StakeToken)
    (stakeVault : AccountId) (bump vaultAuthorityBump : UInt8) : Except StakingError Anchor := do
  require (isBlankText appchainId = false ∧ appchainId.utf8ByteSize ≤ maximumAppchainIdSize)
    .invalidValue
  return {
    owner, appchainId, template, phase := .staging, era := 0, stakeToken, stakeVault
    wrappedToken := {}, settings := {}, ledger := {}, history := {}, unbonding := []
    transfersPaused := false, bump, vaultAuthorityBump }

def roles (s : Anchor) : Roles :=
  { owner := s.owner
    tokenPriceMaintainer := s.settings.appointments.tokenPriceMaintainer
    relayer := s.settings.appointments.relayer }

def projection (s : Anchor) : Projection :=
  { totalStake := s.ledger.totalStake, validatorCount := s.ledger.validatorCount }

structure Status where
  totalStake : Nat
  validatorCount : Nat
  delegatorCount : Nat
  historyRange : IndexRange
  era : UInt64
  transfersPaused : Bool
  deriving DecidableEq

def status (s : Anchor) : Status :=
  { totalStake := s.ledger.totalStake
    validatorCount := s.ledger.validatorCount
    delegatorCount := s.ledger.delegatorCount
    historyRange := s.history.range
    era := s.era
    transfersPaused := s.transfersPaused }

end Anchor

end AppchainStaking
