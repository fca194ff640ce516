import AppchainStaking.Chain.Address

/-!
# The instruction table

An instruction is known by its name. Its data starts with a mark, the first eight bytes of the
SHA-256 digest of `global:` and the name, and its accounts come in a fixed order.
-/

namespace AppchainStaking

inductive Entry
  | create
  | changeProtocolSettings
  | changeAppchainSettings
  | changeAppointments
  | changeWrappedToken
  | goBooting
  | goLive
  | goBroken
  | setOwner
  | setPrice
  | switchEra
  | pauseTransfers
  | setProfile
  | deposit
  | decreaseStake
  | unbondStake
  | enableDelegation
  | disableDelegation
  | decreaseDelegation
  | unbondDelegation
  | withdraw
  | getOwner
  | getProtocolSettings
  | getAppchainSettings
  | getAppointments
  | getPhase
  | getStatus
  | getStakeToken
  | getWrappedToken
  | getHistoryRange
  | getHistoryIndexes
  | getUnbonded
  | getValidators
  | getProfile
  | getDelegations
  | getRecord
  deriving DecidableEq

namespace Entry

def name : Entry → String
  | create => "initialize"
  | changeProtocolSettings => "change_protocol_settings"
  | changeAppchainSettings => "change_appchain_settings"
  | changeAppointments => "change_anchor_settings"
  | changeWrappedToken => "change_wrapped_appchain_token"
  | goBooting => "go_booting"
  | goLive => "go_live"
  | goBroken => "go_broken"
  | setOwner => "set_owner"
  | setPrice => "set_price_of_stake_token"
  | switchEra => "switch_era"
  | pauseTransfers => "pause_asset_transfer"
  | setProfile => "set_validator_profile"
  | deposit => "deposit_stake"
  | decreaseStake => "decrease_stake"
  | unbondStake => "unbond_stake"
  | enableDelegation => "enable_delegation"
  | disableDelegation => "disable_delegation"
  | decreaseDelegation => "decrease_delegation"
  | unbondDelegation => "unbond_delegation"
  | withdraw => "withdraw_stake"
  | getOwner => "get_owner"
  | getProtocolSettings => "get_protocol_settings"
  | getAppchainSettings => "get_appchain_settings"
  | getAppointments => "get_anchor_settings"
  | getPhase => "get_appchain_state"
  | getStatus => "get_anchor_status"
  | getStakeToken => "get_stake_token"
  | getWrappedToken => "get_wrapped_appchain_token"
  | getHistoryRange => "get_index_range_of_staking_history"
  | getHistoryIndexes => "get_user_staking_history_indexes"
  | getUnbonded => "get_unbonded_stakes_of"
  | getValidators => "get_validator_list"
  | getProfile => "get_validator_profile"
  | getDelegations => "get_delegators_of"
  | getRecord => "get_staking_history"

def mark : Entry → Bytes
  | create => [0xaf, 0xaf, 0x6d, 0x1f, 0x0d, 0x98, 0x9b, 0xed]
  | changeProtocolSettings => [0x16, 0xb3, 0x15, 0x4f, 0xa6, 0x44, 0x86, 0xb3]
  | changeAppchainSettings => [0xe9, 0xca, 0x16, 0x33, 0x43, 0x29, 0x83, 0x2a]
  | changeAppointments => [0x3d, 0x16, 0x11, 0xf4, 0xe7, 0x09, 0xbe, 0xe8]
  | changeWrappedToken => [0xad, 0xb1, 0x38, 0x5d, 0xa1, 0x5b, 0xaa, 0xb8]
  | goBooting => [0x85, 0xc8, 0x11, 0xc8, 0x56, 0xbd, 0x14, 0x69]
  | goLive => [0x7e, 0x62, 0x0a, 0x2b, 0x5c, 0xb8, 0x55, 0xf8]
  | goBroken => [0xd0, 0x43, 0xe1, 0xd8, 0x6e, 0xe3, 0x28, 0x6b]
  | setOwner => [0x48, 0xca, 0x78, 0x34, 0x4d, 0x80, 0x60, 0xc5]
  | setPrice => [0x97, 0x2e, 0x2e, 0x62, 0x0b, 0x95, 0xaa, 0x39]
  | switchEra => [0xdf, 0x6c, 0xf0, 0x3d, 0x3a, 0x87, 0x56, 0x39]
  | pauseTransfers => [0x43, 0x66, 0x2a, 0xad, 0xe2, 0xec, 0xda, 0x70]
  | setProfile => [0x2d, 0x15, 0xa2, 0x66, 0x3c, 0x4f, 0x7f, 0xb4]
  | deposit => [0xa0, 0xa7, 0x09, 0xdc, 0x4a, 0xf3, 0xe4, 0x2b]
  | decreaseStake => [0xd7, 0x29, 0x94, 0xd2, 0xd4, 0xd2, 0xd7, 0xd4]
  | unbondStake => [0xcd, 0x89, 0x71, 0xbd, 0xec, 0x47, 0x53, 0xa9]
  | enableDelegation => [0xb4, 0x45, 0xdf, 0x1b, 0xb9, 0xe6, 0x4b, 0x6d]
  | disableDelegation => [0x6f, 0xad, 0x03, 0xde, 0x85, 0x8d, 0x5d, 0x5b]
  | decreaseDelegation => [0xf7, 0x31, 0x51, 0xaf, 0xf6, 0x96, 0xd3, 0x19]
  | unbondDelegation => [0xa3, 0xbb, 0x9a, 0xe1, 0x2f, 0xee, 0x7f, 0x42]
  | withdraw => [0x99, 0x08, 0x16, 0x8a, 0x69, 0xb0, 0x57, 0x42]
  | getOwner => [0x7a, 0xe8, 0xf7, 0x55, 0xd3, 0xf5, 0x3e, 0x5b]
  | getProtocolSettings => [0x2f, 0x57, 0xaf, 0x2e, 0x85, 0x0f, 0x9e, 0x75]
  | getAppchainSettings => [0x76, 0x55, 0x61, 0x53, 0xe1, 0xd5, 0xa6, 0x12]
  | getAppointments => [0xe6, 0x4c, 0x07, 0x29, 0xa5, 0xa1, 0xaa, 0x36]
  | getPhase => [0x20, 0x87, 0x66, 0x3d, 0xf1, 0x80, 0x31, 0xb4]
  | getStatus => [0x9b, 0x87, 0xf0, 0x13, 0x28, 0xf3, 0x86, 0xcf]
  | getStakeToken => [0x55, 0x58, 0x29, 0x33, 0x07, 0x89, 0xf1, 0xce]
  | getWrappedToken => [0x34, 0x97, 0x9c, 0x35, 0x5f, 0x4e, 0xb0, 0xc4]
  | getHistoryRange => [0x15, 0xe1, 0xfc, 0x42, 0x85, 0xd4, 0x28, 0x75]
  | getHistoryIndexes => [0x1a, 0x2c, 0xf3, 0xe9, 0xfe, 0x84, 0xf9, 0x76]
  | getUnbonded => [0x7d, 0x56, 0x51, 0x93, 0x2a, 0xe0, 0x5c, 0x21]
  | getValidators => [0xf6, 0x89, 0x88, 0x37, 0x60, 0x64, 0xc3, 0x6a]
  | getProfile => [0xb5, 0xa2, 0x67, 0x41, 0x96, 0x61, 0xf3, 0x56]
  | getDelegations => [0xff, 0xec, 0xd2, 0xbc, 0x6d, 0x81, 0xd1, 0x3f]
  | getRecord => [0xb1, 0x7f, 0xc7, 0x83, 0xa1, 0xfa, 0xd2, 0xd4]

def all : List Entry :=
  [create, changeProtocolSettings, changeAppchainSettings, changeAppointments,
    changeWrappedToken, goBooting, goLive, goBroken, setOwner, setPrice, switchEra,
    pauseTransfers, setProfile, deposit, decreaseStake, unbondStake, enableDelegation,
    disableDelegation, decreaseDelegation, unbondDelegation, withdraw, getOwner,
    getProtocolSettings, getAppchainSettings, getAppointments, getPhase, getStatus,
    getStakeToken, getWrappedToken, getHistoryRange, getHistoryIndexes, getUnbonded,
    getValidators, getProfile, getDelegations, getRecord]

theorem mem_all (e : Entry) : e ∈ all := by
  cases e <;> simp [all]

def ofName? (name : String) : Option Entry :=
  all.find? (·.name = name)

def ofMark? (mark : Bytes) : Option Entry :=
  all.find? (·.mark = mark)

def accounts : Entry → List AccountRole
  | create =>
      [.anchorState, .vaultAuthority, .stakeVault, .stakeMint, .signer, .tokenProgram,
        .systemProgram, .programData]
  | changeProtocolSettings | changeAppchainSettings | changeAppointments | changeWrappedToken
  | goBooting | goLive | goBroken | setOwner | setPrice | switchEra | pauseTransfers
  | setProfile => [.anchorState, .signer, .systemProgram]
  | deposit =>
      [.anchorState, .stakingHistory, .stakeVault, .vaultAuthority, .userTokenAccount, .signer,
        .tokenProgram, .systemProgram]
  | decreaseStake | unbondStake | enableDelegation | disableDelegation | decreaseDelegation
  | unbondDelegation => [.anchorState, .stakingHistory, .signer, .systemProgram]
  | withdraw =>
      [.anchorState, .stakeVault, .vaultAuthority, .userTokenAccount, .signer, .tokenProgram,
        .systemProgram]
  | getRecord => [.anchorState, .stakingHistory]
  | getOwner | getProtocolSettings | getAppchainSettings | getAppointments | getPhase | getStatus
  | getStakeToken | getWrappedToken | getHistoryRange | getHistoryIndexes | getUnbonded
  | getValidators | getProfile | getDelegations => [.anchorState]

def isQuery (e : Entry) : Bool :=
  e.accounts = [.anchorState] || e = getRecord

/-- The accounts of an instruction at given addresses, with the privileges that it asks for. -/
def refs (e : Entry) (address : AccountRole → Address) : List (AccountRole × AccountRef) :=
  e.accounts.map fun role =>
    (role,
      { address := address role
        signer := role = .signer
        writable := !e.isQuery && role.isWritable })

end Entry

end AppchainStaking
