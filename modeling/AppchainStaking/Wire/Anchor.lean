import AppchainStaking.Anchor.Basic
import AppchainStaking.History
import AppchainStaking.Identity
import AppchainStaking.Ledger.Basic
import AppchainStaking.Token
import AppchainStaking.Unbonding
import AppchainStaking.Wire.Basic
import AppchainStaking.Wire.Settings

/-!
# Binary form of the anchor

With that of its parts: tokens, the ledger, the history log with its facts, and the unbonding queue.
-/

namespace AppchainStaking

open Wire

instance : Wire StakeToken := via
  (fun (a, b, c) => ⟨a, b, c⟩) (fun t => (t.mint, t.decimals, t.price))

instance : Wire TokenMetadata := via
  (fun (a, b, c) => ⟨a, b, c⟩) (fun m => (m.name, m.symbol, m.decimals))

instance : Wire WrappedToken := via
  (fun (a, b, c, d, e) => ⟨a, b, c, d, e⟩)
  (fun t => (t.metadata, t.contract, t.preminedBeneficiary, t.preminedBalance, t.price))

instance : Wire WrappedTokenChange where
  encode
    | .metadata m => 0 :: encode m
    | .contract a => 1 :: encode a
    | .preminedBalance a v => 2 :: encode (a, v)
    | .price v => 3 :: encode v
  decode := do
    match ← (decode : Reader UInt8) with
    | 0 => content .metadata
    | 1 => content .contract
    | 2 => content fun (a, v) => .preminedBalance a v
    | 3 => content .price
    | tag => throw (.unknownVariant tag)
  fits
    | .metadata m => fits m
    | .contract _ | .preminedBalance _ _ | .price _ => true

open Wire

instance : Wire Template where
  encode
    | .barnacle => [0]
    | .barnacleEvm => [1]
  decode := do
    match ← (decode : Reader UInt8) with
    | 0 => return .barnacle
    | 1 => return .barnacleEvm
    | tag => throw (.unknownVariant tag)

instance : Wire ProfileEntry := via (fun (a, b) => ⟨a, b⟩) (fun e => (e.key, e.value))

instance : Wire Validator := via
  (fun (a, b, c, d, e, f) => ⟨a, b, c, d, e, f⟩)
  (fun v => (v.id, v.appchainId, v.deposit, v.delegable, v.profile, v.registeredEra))

instance : Wire Delegation := via
  (fun (a, b, c, d) => ⟨a, b, c, d⟩) (fun x => (x.delegator, x.validator, x.deposit, x.frozen))

instance : Wire Ledger := via
  (fun (a, b) => ⟨a, b⟩) (fun l => (l.validators, l.delegations))

abbrev ValidatorOverview.Fields :=
  AccountId × String × Amount × Field 16 × Field 8 × Bool

instance : Wire ValidatorOverview :=
  @via _ ValidatorOverview.Fields _
    (fun (a, b, c, d, e, f) => ⟨a, b, c, d, e, f⟩)
    (fun v => (v.id, v.appchainId, v.deposit, v.totalStake, v.delegatorCount, v.delegable))

open Wire

instance : Wire Fact where
  encode
    | .validatorRegistered v id amount delegable => 0 :: encode (v, id, amount, delegable)
    | .stakeIncreased v amount => 1 :: encode (v, amount)
    | .stakeDecreased v amount => 2 :: encode (v, amount)
    | .validatorUnbonded v amount => 3 :: encode (v, amount)
    | .delegationEnabled v => 4 :: encode v
    | .delegationDisabled v => 5 :: encode v
    | .delegatorRegistered d v amount => 6 :: encode (d, v, amount)
    | .delegationIncreased d v amount => 7 :: encode (d, v, amount)
    | .delegationDecreased d v amount => 8 :: encode (d, v, amount)
    | .delegatorUnbonded d v amount => 9 :: encode (d, v, amount)
  decode := do
    match ← (decode : Reader UInt8) with
    | 0 => content fun (v, id, amount, delegable) => .validatorRegistered v id amount delegable
    | 1 => content fun (v, amount) => .stakeIncreased v amount
    | 2 => content fun (v, amount) => .stakeDecreased v amount
    | 3 => content fun (v, amount) => .validatorUnbonded v amount
    | 4 => content .delegationEnabled
    | 5 => content .delegationDisabled
    | 6 => content fun (d, v, amount) => .delegatorRegistered d v amount
    | 7 => content fun (d, v, amount) => .delegationIncreased d v amount
    | 8 => content fun (d, v, amount) => .delegationDecreased d v amount
    | 9 => content fun (d, v, amount) => .delegatorUnbonded d v amount
    | tag => throw (.unknownVariant tag)
  fits
    | .validatorRegistered _ id _ _ => fits id
    | _ => true

instance : Wire HistoryRecord := via
  (fun (a, b, c, d) => ⟨a, b, c, d⟩) (fun r => (r.index, r.fact, r.timestamp, r.era))

instance : Wire IndexRange := via (fun (a, b) => ⟨a, b⟩) (fun r => (r.start, r.last))

instance {α : Type} [Wire α] : Wire (Group α) := via
  (fun (a, b) => ⟨a, b⟩) (fun g => (g.account, g.items))

instance : Wire HistoryLog := via
  (fun (a, b, c) => ⟨a, b, c⟩) (fun log => (log.start, log.next, log.indexes))

instance : Wire UnbondedEntry := via
  (fun (a, b, c, d) => ⟨a, b, c, d⟩) (fun e => (e.amount, e.era, e.unlockEra, e.historyIndex))

open Wire

instance : Wire Phase where
  encode
    | .staging => [0]
    | .booting => [1]
    | .active => [2]
    | .broken => [3]
  decode := do
    match ← (decode : Reader UInt8) with
    | 0 => return .staging
    | 1 => return .booting
    | 2 => return .active
    | 3 => return .broken
    | tag => throw (.unknownVariant tag)

instance : Wire Anchor := via
  (fun (a, b, c, d, e, f, g, h, i, j, k, l, m, n, o) =>
    ⟨a, b, c, d, e, f, g, h, i, j, k, l, m, n, o⟩)
  (fun s => (s.owner, s.appchainId, s.template, s.phase, s.era, s.stakeToken, s.stakeVault,
    s.wrappedToken, s.settings, s.ledger, s.history, s.unbonding, s.transfersPaused, s.bump,
    s.vaultAuthorityBump))

abbrev Anchor.Status.Fields :=
  Field 16 × Field 8 × Field 8 × IndexRange × UInt64 × Bool

instance : Wire Anchor.Status :=
  @via _ Anchor.Status.Fields _
    (fun (a, b, c, d, e, f) => ⟨a, b, c, d, e, f⟩)
    (fun s => (s.totalStake, s.validatorCount, s.delegatorCount, s.historyRange, s.era,
      s.transfersPaused))

end AppchainStaking
