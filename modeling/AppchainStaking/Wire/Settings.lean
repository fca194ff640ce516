import AppchainStaking.Settings.Store
import AppchainStaking.Wire.Basic

/-!
# Binary form of settings and their changes
-/

namespace AppchainStaking

open Wire

instance : Wire ProtocolSettings := via
  (fun (a, b, c, d, e, f, g, h, i, j, k, l, m, n, o) =>
    ⟨a, b, c, d, e, f, g, h, i, j, k, l, m, n, o⟩)
  (fun s => (s.minimumValidatorDeposit, s.maximumValidatorStakePercent, s.minimumDelegatorDeposit,
    s.minimumTotalStakePriceForBooting, s.maximumBridgedTokensPercent,
    s.maximumWrappedTokenPercent, s.minimumValidatorCount, s.maximumValidatorCount,
    s.maximumValidatorsPerDelegator, s.validatorUnlockPeriod, s.delegatorUnlockPeriod,
    s.maximumUnwithdrawnRewardEras, s.maximumValidMessageEras, s.delegationFeePercent,
    s.maximumUnprofitableEras))

instance : Wire ProtocolChange where
  encode
    | .minimumValidatorDeposit v => 0 :: encode v
    | .maximumValidatorStakePercent v => 1 :: encode v
    | .minimumDelegatorDeposit v => 2 :: encode v
    | .minimumTotalStakePriceForBooting v => 3 :: encode v
    | .maximumBridgedTokensPercent v => 4 :: encode v
    | .maximumWrappedTokenPercent v => 5 :: encode v
    | .minimumValidatorCount v => 6 :: encode v
    | .maximumValidatorCount v => 7 :: encode v
    | .maximumValidatorsPerDelegator v => 8 :: encode v
    | .validatorUnlockPeriod v => 9 :: encode v
    | .delegatorUnlockPeriod v => 10 :: encode v
    | .maximumUnwithdrawnRewardEras v => 11 :: encode v
    | .maximumValidMessageEras v => 12 :: encode v
    | .delegationFeePercent v => 13 :: encode v
    | .maximumUnprofitableEras v => 14 :: encode v
  decode := do
    match ← (decode : Reader UInt8) with
    | 0 => content .minimumValidatorDeposit
    | 1 => content .maximumValidatorStakePercent
    | 2 => content .minimumDelegatorDeposit
    | 3 => content .minimumTotalStakePriceForBooting
    | 4 => content .maximumBridgedTokensPercent
    | 5 => content .maximumWrappedTokenPercent
    | 6 => content .minimumValidatorCount
    | 7 => content .maximumValidatorCount
    | 8 => content .maximumValidatorsPerDelegator
    | 9 => content .validatorUnlockPeriod
    | 10 => content .delegatorUnlockPeriod
    | 11 => content .maximumUnwithdrawnRewardEras
    | 12 => content .maximumValidMessageEras
    | 13 => content .delegationFeePercent
    | 14 => content .maximumUnprofitableEras
    | tag => throw (.unknownVariant tag)

instance : Wire AppchainSettings := via
  (fun (a, b, c, d, e, f) => ⟨a, b, c, d, e, f⟩)
  (fun s => (s.chainSpec, s.rawChainSpec, s.bootNodes, s.rpcEndpoint, s.subqlEndpoint,
    s.eraReward))

instance : Wire AppchainChange where
  encode
    | .chainSpec v => 0 :: encode v
    | .rawChainSpec v => 1 :: encode v
    | .bootNodes v => 2 :: encode v
    | .rpcEndpoint v => 3 :: encode v
    | .subqlEndpoint v => 4 :: encode v
    | .eraReward v => 5 :: encode v
  decode := do
    match ← (decode : Reader UInt8) with
    | 0 => content .chainSpec
    | 1 => content .rawChainSpec
    | 2 => content .bootNodes
    | 3 => content .rpcEndpoint
    | 4 => content .subqlEndpoint
    | 5 => content .eraReward
    | tag => throw (.unknownVariant tag)
  fits
    | .chainSpec v | .rawChainSpec v | .bootNodes v | .rpcEndpoint v | .subqlEndpoint v => fits v
    | .eraReward _ => true

instance : Wire AppointmentSettings := via
  (fun (a, b) => ⟨a, b⟩) (fun s => (s.tokenPriceMaintainer, s.relayer))

instance : Wire AppointmentChange where
  encode
    | .tokenPriceMaintainer a => 0 :: encode a
    | .relayer a => 1 :: encode a
  decode := do
    match ← (decode : Reader UInt8) with
    | 0 => content .tokenPriceMaintainer
    | 1 => content .relayer
    | tag => throw (.unknownVariant tag)

instance : Wire SettingsStore := via
  (fun (a, b, c) => ⟨a, b, c⟩) (fun s => (s.protocol, s.appchain, s.appointments))

end AppchainStaking
