import AppchainStaking.Ledger.Action
import AppchainStaking.Proofs.Procedure

/-!
# Writing on the ledger

The actions and the replacement of a profile as procedures on one ledger, with every record changed
where it stands. They check everything before they write, so each of them either computes what the
ledger accepts or fails with the ledger as it was.
-/

namespace AppchainStaking.Ledger

open Procedure

def actInPlace (rules : LedgerRules) (caller : AccountId) :
    StakingAction → Procedure StakingError Ledger Fact
  | .registerValidator raw amount delegable profile => do
      demand (rules.settings.minimumValidatorDeposit ≤ amount) .belowMinimumDeposit
      demand ((← get).validator? caller = none) .duplicateValidator
      let appchainId ← check (rules.template.normalize raw)
      demand (∀ v ∈ (← get).validators, v.appchainId ≠ appchainId) .duplicateValidator
      demand ((← get).validatorCount < rules.settings.maximumValidatorCount.toNat)
        .validatorCountExceeded
      let profile ← check profile.checked
      let validator : Validator :=
        { id := caller, appchainId, deposit := amount, delegable, profile
          registeredEra := rules.era }
      modify fun l => { l with validators := l.validators ++ [validator] }
      return .validatorRegistered caller appchainId amount delegable
  | .increaseStake amount => do
      demand (0 < amount) .invalidAmount
      let validator ← check ((← get).validator caller)
      let deposit ← check (validator.deposit.add amount)
      modify (·.updateValidator caller ({ · with deposit }))
      return .stakeIncreased caller amount
  | .decreaseStake amount => do
      demand (0 < amount) .invalidAmount
      let validator ← check ((← get).validator caller)
      let deposit ← check (validator.deposit.sub amount)
      demand (rules.settings.minimumValidatorDeposit ≤ deposit) .insufficientStake
      modify (·.updateValidator caller ({ · with deposit }))
      return .stakeDecreased caller amount
  | .unbondStake => do
      let validator ← check ((← get).validator caller)
      modify fun l => { l with validators := l.validators.eraseP (·.id = caller) }
      modify fun l => { l with
        delegations := l.delegations.map fun x =>
          if x.validator = caller then { x with frozen := true } else x }
      return .validatorUnbonded caller validator.deposit
  | .setDelegable delegable => do
      let _ ← check ((← get).validator caller)
      modify (·.updateValidator caller ({ · with delegable }))
      return if delegable then .delegationEnabled caller else .delegationDisabled caller
  | .registerDelegator v amount => do
      let validator ← check ((← get).validator v)
      demand ((← get).delegation? caller v = none) .duplicateDelegator
      demand validator.delegable .validatorNotDelegable
      demand (rules.settings.minimumDelegatorDeposit ≤ amount) .belowMinimumDeposit
      demand ((← get).validatorCountOf caller <
        rules.settings.maximumValidatorsPerDelegator.toNat) .tooManyDelegations
      let delegation : Delegation :=
        { delegator := caller, validator := v, deposit := amount, frozen := false }
      modify fun l => { l with delegations := l.delegations ++ [delegation] }
      return .delegatorRegistered caller v amount
  | .increaseDelegation v amount => do
      demand (0 < amount) .invalidAmount
      let delegation ← check ((← get).liveDelegation caller v)
      let deposit ← check (delegation.deposit.add amount)
      modify (·.updateDelegation caller v ({ · with deposit }))
      return .delegationIncreased caller v amount
  | .decreaseDelegation v amount => do
      demand (0 < amount) .invalidAmount
      let delegation ← check ((← get).liveDelegation caller v)
      let deposit ← check (delegation.deposit.sub amount)
      demand (rules.settings.minimumDelegatorDeposit ≤ deposit) .insufficientStake
      modify (·.updateDelegation caller v ({ · with deposit }))
      return .delegationDecreased caller v amount
  | .unbondDelegation v => do
      let delegation ← check (found .unknownDelegator ((← get).delegation? caller v))
      modify fun l => { l with delegations := l.delegations.eraseP (·.isOf caller v) }
      return .delegatorUnbonded caller v delegation.deposit

def setProfileInPlace (v : AccountId) (p : Profile) : Procedure StakingError Ledger Unit := do
  let profile ← check p.checked
  let _ ← check ((← get).validator v)
  modify (·.updateValidator v ({ · with profile }))

variable {rules : LedgerRules} {caller : AccountId} {l : Ledger}

/-- Writing in place does what the ledger accepts, and nothing when it refuses. -/
theorem exec_actInPlace (action : StakingAction) :
    exec (actInPlace rules caller action) l = commit l (l.act rules caller action) := by
  cases action with
  | registerValidator => simp [actInPlace, act, registerValidator]
  | increaseStake => simp [actInPlace, act, increaseStake]
  | decreaseStake => simp [actInPlace, act, decreaseStake]
  | unbondStake => simp [actInPlace, act, unbondStake]
  | setDelegable => simp [actInPlace, act, setDelegable]
  | registerDelegator => simp [actInPlace, act, registerDelegator]
  | increaseDelegation => simp [actInPlace, act, increaseDelegation]
  | decreaseDelegation => simp [actInPlace, act, decreaseDelegation]
  | unbondDelegation => simp [actInPlace, act, unbondDelegation]

theorem exec_setProfileInPlace (v : AccountId) (p : Profile) :
    exec (setProfileInPlace v p) l = update l (l.setProfile v p) := by
  simp [setProfileInPlace, setProfile]

end AppchainStaking.Ledger
