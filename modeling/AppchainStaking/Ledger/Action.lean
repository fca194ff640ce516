import AppchainStaking.History
import AppchainStaking.Identity
import AppchainStaking.Ledger.Basic
import AppchainStaking.Settings.Protocol

/-!
# Staking actions

Everything that an account can do to its own positions, as a validator or as a delegator. An action
that the ledger accepts changes it and leaves one fact behind; otherwise there is a reason why
nothing changes.
-/

namespace AppchainStaking

structure Registration where
  validator : AccountId
  appchainId : String
  amount : Amount
  delegable : Bool
  profile : Profile

namespace Ledger

def registerValidator (l : Ledger) (settings : ProtocolSettings) (template : Template)
    (r : Registration) (era : UInt64) : Except StakingError (Ledger × Fact) := do
  require (settings.minimumValidatorDeposit ≤ r.amount) .belowMinimumDeposit
  require (l.validator? r.validator = none) .duplicateValidator
  let appchainId ← template.normalize r.appchainId
  require (∀ v ∈ l.validators, v.appchainId ≠ appchainId) .duplicateValidator
  require (l.validatorCount < settings.maximumValidatorCount.toNat) .validatorCountExceeded
  let profile ← r.profile.checked
  let validator : Validator :=
    { id := r.validator, appchainId, deposit := r.amount, delegable := r.delegable, profile
      registeredEra := era }
  return ({ l with validators := l.validators ++ [validator] },
    .validatorRegistered r.validator appchainId r.amount r.delegable)

def increaseStake (l : Ledger) (v : AccountId) (amount : Amount) :
    Except StakingError (Ledger × Fact) := do
  require (0 < amount) .invalidAmount
  let validator ← l.validator v
  let deposit ← validator.deposit.add amount
  return (l.updateValidator v ({ · with deposit }), .stakeIncreased v amount)

/-- Takes part of a deposit out; at least the minimum deposit has to remain. -/
def decreaseStake (l : Ledger) (settings : ProtocolSettings) (v : AccountId) (amount : Amount) :
    Except StakingError (Ledger × Fact) := do
  require (0 < amount) .invalidAmount
  let validator ← l.validator v
  let deposit ← validator.deposit.sub amount
  require (settings.minimumValidatorDeposit ≤ deposit) .insufficientStake
  return (l.updateValidator v ({ · with deposit }), .stakeDecreased v amount)

/-- Removes a validator. The delegations bound to it stay in place, frozen. -/
def unbondStake (l : Ledger) (v : AccountId) : Except StakingError (Ledger × Fact) := do
  let validator ← l.validator v
  return (
    { validators := l.validators.eraseP (·.id = v)
      delegations := l.delegations.map fun x =>
        if x.validator = v then { x with frozen := true } else x },
    .validatorUnbonded v validator.deposit)

def setDelegable (l : Ledger) (v : AccountId) (delegable : Bool) :
    Except StakingError (Ledger × Fact) := do
  let _ ← l.validator v
  return (l.updateValidator v ({ · with delegable }),
    if delegable then .delegationEnabled v else .delegationDisabled v)

/-- Replaces the profile of a validator, which is no staking fact. -/
def setProfile (l : Ledger) (v : AccountId) (p : Profile) : Except StakingError Ledger := do
  let profile ← p.checked
  let _ ← l.validator v
  return l.updateValidator v ({ · with profile })

def profileOf (l : Ledger) (v : AccountId) : Except StakingError (List ProfileEntry) :=
  return (← l.validator v).profile

def registerDelegator (l : Ledger) (settings : ProtocolSettings) (d v : AccountId)
    (amount : Amount) : Except StakingError (Ledger × Fact) := do
  let validator ← l.validator v
  require (l.delegation? d v = none) .duplicateDelegator
  require validator.delegable .validatorNotDelegable
  require (settings.minimumDelegatorDeposit ≤ amount) .belowMinimumDeposit
  require (l.validatorCountOf d < settings.maximumValidatorsPerDelegator.toNat)
    .tooManyDelegations
  let delegation : Delegation :=
    { delegator := d, validator := v, deposit := amount, frozen := false }
  return ({ l with delegations := l.delegations ++ [delegation] },
    .delegatorRegistered d v amount)

def increaseDelegation (l : Ledger) (d v : AccountId) (amount : Amount) :
    Except StakingError (Ledger × Fact) := do
  require (0 < amount) .invalidAmount
  let delegation ← l.liveDelegation d v
  let deposit ← delegation.deposit.add amount
  return (l.updateDelegation d v ({ · with deposit }), .delegationIncreased d v amount)

def decreaseDelegation (l : Ledger) (settings : ProtocolSettings) (d v : AccountId)
    (amount : Amount) : Except StakingError (Ledger × Fact) := do
  require (0 < amount) .invalidAmount
  let delegation ← l.liveDelegation d v
  let deposit ← delegation.deposit.sub amount
  require (settings.minimumDelegatorDeposit ≤ deposit) .insufficientStake
  return (l.updateDelegation d v ({ · with deposit }), .delegationDecreased d v amount)

/-- Removes a delegation, frozen or not; for a frozen one this is the only way out. -/
def unbondDelegation (l : Ledger) (d v : AccountId) : Except StakingError (Ledger × Fact) := do
  let delegation ← found .unknownDelegator (l.delegation? d v)
  return ({ l with delegations := l.delegations.eraseP (·.isOf d v) },
    .delegatorUnbonded d v delegation.deposit)

end Ledger

inductive StakingAction
  | registerValidator (appchainId : String) (amount : Amount) (delegable : Bool)
      (profile : Profile)
  | increaseStake (amount : Amount)
  | decreaseStake (amount : Amount)
  | unbondStake
  | setDelegable (delegable : Bool)
  | registerDelegator (validator : AccountId) (amount : Amount)
  | increaseDelegation (validator : AccountId) (amount : Amount)
  | decreaseDelegation (validator : AccountId) (amount : Amount)
  | unbondDelegation (validator : AccountId)

structure LedgerRules where
  settings : ProtocolSettings
  template : Template
  era : UInt64

def Ledger.act (l : Ledger) (rules : LedgerRules) (caller : AccountId) :
    StakingAction → Except StakingError (Ledger × Fact)
  | .registerValidator appchainId amount delegable profile =>
      l.registerValidator rules.settings rules.template
        { validator := caller, appchainId, amount, delegable, profile } rules.era
  | .increaseStake amount => l.increaseStake caller amount
  | .decreaseStake amount => l.decreaseStake rules.settings caller amount
  | .unbondStake => l.unbondStake caller
  | .setDelegable delegable => l.setDelegable caller delegable
  | .registerDelegator validator amount =>
      l.registerDelegator rules.settings caller validator amount
  | .increaseDelegation validator amount => l.increaseDelegation caller validator amount
  | .decreaseDelegation validator amount =>
      l.decreaseDelegation rules.settings caller validator amount
  | .unbondDelegation validator => l.unbondDelegation caller validator

end AppchainStaking
