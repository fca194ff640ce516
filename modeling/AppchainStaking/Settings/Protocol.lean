import AppchainStaking.Error

/-!
# Protocol settings

The bounds that staking obeys. Each change sets one field; it is refused when the settings that
would result are not valid.
-/

namespace AppchainStaking

structure ProtocolSettings where
  minimumValidatorDeposit : UInt64 := 5000
  /-- Largest share of the total stake, in percent, that one validator may hold. -/
  maximumValidatorStakePercent : UInt16 := 25
  minimumDelegatorDeposit : UInt64 := 200
  minimumTotalStakePriceForBooting : UInt64 := 100000
  /-- Cap on the market value of bridged tokens, in percent of the value of the stake. -/
  maximumBridgedTokensPercent : UInt16 := 33
  maximumWrappedTokenPercent : UInt16 := 67
  minimumValidatorCount : UInt64 := 4
  maximumValidatorCount : UInt64 := 60
  maximumValidatorsPerDelegator : UInt64 := 16
  validatorUnlockPeriod : UInt64 := 21
  delegatorUnlockPeriod : UInt64 := 21
  maximumUnwithdrawnRewardEras : UInt64 := 84
  maximumValidMessageEras : UInt64 := 7
  delegationFeePercent : UInt16 := 20
  maximumUnprofitableEras : UInt16 := 3
  deriving DecidableEq

inductive ProtocolChange
  | minimumValidatorDeposit (value : UInt64)
  | maximumValidatorStakePercent (value : UInt16)
  | minimumDelegatorDeposit (value : UInt64)
  | minimumTotalStakePriceForBooting (value : UInt64)
  | maximumBridgedTokensPercent (value : UInt16)
  | maximumWrappedTokenPercent (value : UInt16)
  | minimumValidatorCount (value : UInt64)
  | maximumValidatorCount (value : UInt64)
  | maximumValidatorsPerDelegator (value : UInt64)
  | validatorUnlockPeriod (value : UInt64)
  | delegatorUnlockPeriod (value : UInt64)
  | maximumUnwithdrawnRewardEras (value : UInt64)
  | maximumValidMessageEras (value : UInt64)
  | delegationFeePercent (value : UInt16)
  | maximumUnprofitableEras (value : UInt16)
  deriving DecidableEq

namespace ProtocolSettings

/-- The validator counts are in order, and the capped percentages are at most a hundred. -/
structure Valid (s : ProtocolSettings) : Prop where
  counts : s.minimumValidatorCount ≤ s.maximumValidatorCount
  validatorStake : s.maximumValidatorStakePercent ≤ 100
  bridgedTokens : s.maximumBridgedTokensPercent ≤ 100
  wrappedToken : s.maximumWrappedTokenPercent ≤ 100
  delegationFee : s.delegationFeePercent ≤ 100

instance (s : ProtocolSettings) : Decidable s.Valid :=
  decidable_of_iff
    (s.minimumValidatorCount ≤ s.maximumValidatorCount ∧ s.maximumValidatorStakePercent ≤ 100 ∧
      s.maximumBridgedTokensPercent ≤ 100 ∧ s.maximumWrappedTokenPercent ≤ 100 ∧
      s.delegationFeePercent ≤ 100)
    ⟨fun ⟨a, b, c, d, e⟩ => ⟨a, b, c, d, e⟩, fun ⟨a, b, c, d, e⟩ => ⟨a, b, c, d, e⟩⟩

def set (s : ProtocolSettings) : ProtocolChange → ProtocolSettings
  | .minimumValidatorDeposit v => { s with minimumValidatorDeposit := v }
  | .maximumValidatorStakePercent v => { s with maximumValidatorStakePercent := v }
  | .minimumDelegatorDeposit v => { s with minimumDelegatorDeposit := v }
  | .minimumTotalStakePriceForBooting v => { s with minimumTotalStakePriceForBooting := v }
  | .maximumBridgedTokensPercent v => { s with maximumBridgedTokensPercent := v }
  | .maximumWrappedTokenPercent v => { s with maximumWrappedTokenPercent := v }
  | .minimumValidatorCount v => { s with minimumValidatorCount := v }
  | .maximumValidatorCount v => { s with maximumValidatorCount := v }
  | .maximumValidatorsPerDelegator v => { s with maximumValidatorsPerDelegator := v }
  | .validatorUnlockPeriod v => { s with validatorUnlockPeriod := v }
  | .delegatorUnlockPeriod v => { s with delegatorUnlockPeriod := v }
  | .maximumUnwithdrawnRewardEras v => { s with maximumUnwithdrawnRewardEras := v }
  | .maximumValidMessageEras v => { s with maximumValidMessageEras := v }
  | .delegationFeePercent v => { s with delegationFeePercent := v }
  | .maximumUnprofitableEras v => { s with maximumUnprofitableEras := v }

def apply (s : ProtocolSettings) (change : ProtocolChange) :
    Except StakingError ProtocolSettings :=
  if (s.set change).Valid then .ok (s.set change) else .error .invalidValue

/-- All changes in order, or none of them. -/
def applyAll (s : ProtocolSettings) (changes : List ProtocolChange) :
    Except StakingError ProtocolSettings :=
  changes.foldlM apply s

end ProtocolSettings

end AppchainStaking
