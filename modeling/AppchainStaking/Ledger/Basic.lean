import AppchainStaking.Amount
import AppchainStaking.FirstMatch
import AppchainStaking.Identity
import AppchainStaking.Profile

/-!
# The ledger of bonded stake

Validators and the delegations bound to them, each in the order of registration. A validator is
looked up by its account and a delegation by the accounts of delegator and validator; the first
record that matches is meant.
-/

namespace AppchainStaking

structure Validator where
  id : AccountId
  appchainId : String
  deposit : Amount
  delegable : Bool
  profile : List ProfileEntry
  registeredEra : UInt64
  deriving DecidableEq

structure Delegation where
  delegator : AccountId
  validator : AccountId
  deposit : Amount
  /-- Set when the validator left. A frozen delegation no longer counts and can only be
  unbonded. -/
  frozen : Bool
  deriving DecidableEq

structure Ledger where
  validators : List Validator := []
  delegations : List Delegation := []
  deriving DecidableEq

def Delegation.isOf (d v : AccountId) (x : Delegation) : Bool :=
  x.delegator = d && x.validator = v

namespace Ledger

def validator? (l : Ledger) (v : AccountId) : Option Validator :=
  l.validators.find? (·.id = v)

def delegation? (l : Ledger) (d v : AccountId) : Option Delegation :=
  l.delegations.find? (·.isOf d v)

def validator (l : Ledger) (v : AccountId) : Except StakingError Validator :=
  found .unknownValidator (l.validator? v)

/-- A delegation that counts. A frozen one is bound to a validator that is gone, even if its
account has registered anew. -/
def liveDelegation (l : Ledger) (d v : AccountId) : Except StakingError Delegation := do
  let _ ← l.validator v
  let x ← found .unknownDelegator (l.delegation? d v)
  require (!x.frozen) .unknownValidator
  return x

def updateValidator (l : Ledger) (v : AccountId) (f : Validator → Validator) : Ledger :=
  { l with validators := updateFirst (·.id = v) f l.validators }

def updateDelegation (l : Ledger) (d v : AccountId) (f : Delegation → Delegation) : Ledger :=
  { l with delegations := updateFirst (·.isOf d v) f l.delegations }

def live (l : Ledger) : List Delegation :=
  l.delegations.filter (!·.frozen)

def validatorCount (l : Ledger) : Nat := l.validators.length

def delegatorCount (l : Ledger) : Nat := l.live.length

def validatorCountOf (l : Ledger) (d : AccountId) : Nat :=
  (l.live.filter (·.delegator = d)).length

/-- All validator deposits and live delegations. -/
def totalStake (l : Ledger) : Nat :=
  Amount.total (l.validators.map (·.deposit)) + Amount.total (l.live.map (·.deposit))

end Ledger

structure ValidatorOverview where
  id : AccountId
  appchainId : String
  deposit : Amount
  /-- The deposit and the live delegations. -/
  totalStake : Nat
  delegatorCount : Nat
  delegable : Bool
  deriving DecidableEq

namespace Ledger

def liveOf (l : Ledger) (v : AccountId) : List Delegation :=
  l.live.filter (·.validator = v)

def overview (l : Ledger) (v : Validator) : ValidatorOverview :=
  { id := v.id
    appchainId := v.appchainId
    deposit := v.deposit
    totalStake := v.deposit.toNat + Amount.total ((l.liveOf v.id).map (·.deposit))
    delegatorCount := (l.liveOf v.id).length
    delegable := v.delegable }

def validatorList (l : Ledger) : List ValidatorOverview :=
  l.validators.map l.overview

/-- All delegations bound to a validator, frozen ones included. -/
def delegationsOf (l : Ledger) (v : AccountId) : List Delegation :=
  l.delegations.filter (·.validator = v)

end Ledger

end AppchainStaking
