import AppchainStaking.Anchor.Governance
import AppchainStaking.Anchor.Staking
import AppchainStaking.Chain.Entry
import AppchainStaking.Chain.Fault
import AppchainStaking.Wire.Anchor
import AppchainStaking.Wire.Settings

/-!
# Instructions

An instruction with its arguments, and its data: the mark of its entry in the table and then the
arguments in binary form. Bytes after the arguments are ignored.
-/

namespace AppchainStaking

inductive DirectAction
  | decreaseStake (amount : Amount)
  | unbondStake
  | setDelegable (delegable : Bool)
  | decreaseDelegation (validator : AccountId) (amount : Amount)
  | unbondDelegation (validator : AccountId)
  deriving DecidableEq

def DirectAction.toStakingAction : DirectAction → StakingAction
  | decreaseStake amount => .decreaseStake amount
  | unbondStake => .unbondStake
  | setDelegable delegable => .setDelegable delegable
  | decreaseDelegation validator amount => .decreaseDelegation validator amount
  | unbondDelegation validator => .unbondDelegation validator

inductive Query
  | owner
  | protocolSettings
  | appchainSettings
  | appointments
  | phase
  | status
  | stakeToken
  | wrappedToken
  | historyRange
  | historyIndexes (account : AccountId)
  | unbonded (account : AccountId)
  | validators
  | profile (validator : AccountId)
  | delegations (validator : AccountId)
  deriving DecidableEq

inductive Instruction
  | create (appchainId : String) (template : Template)
  | command (c : Command)
  | setProfile (entries : List ProfileEntry)
  | deposit (amount : Amount) (message : String)
  | direct (action : DirectAction)
  | withdraw
  | query (q : Query)
  | record (index : UInt64)

namespace Instruction

open Wire

def entry : Instruction → Entry
  | create _ _ => .create
  | command (.changeSettings (.protocol _)) => .changeProtocolSettings
  | command (.changeSettings (.appchain _)) => .changeAppchainSettings
  | command (.changeSettings (.appointments _)) => .changeAppointments
  | command (.changeWrappedToken _) => .changeWrappedToken
  | command .goBooting => .goBooting
  | command .goLive => .goLive
  | command .goBroken => .goBroken
  | command (.setOwner _) => .setOwner
  | command (.setPrice _) => .setPrice
  | command .switchEra => .switchEra
  | command (.pauseTransfers _) => .pauseTransfers
  | setProfile _ => .setProfile
  | deposit _ _ => .deposit
  | direct (.decreaseStake _) => .decreaseStake
  | direct .unbondStake => .unbondStake
  | direct (.setDelegable true) => .enableDelegation
  | direct (.setDelegable false) => .disableDelegation
  | direct (.decreaseDelegation _ _) => .decreaseDelegation
  | direct (.unbondDelegation _) => .unbondDelegation
  | withdraw => .withdraw
  | query .owner => .getOwner
  | query .protocolSettings => .getProtocolSettings
  | query .appchainSettings => .getAppchainSettings
  | query .appointments => .getAppointments
  | query .phase => .getPhase
  | query .status => .getStatus
  | query .stakeToken => .getStakeToken
  | query .wrappedToken => .getWrappedToken
  | query .historyRange => .getHistoryRange
  | query (.historyIndexes _) => .getHistoryIndexes
  | query (.unbonded _) => .getUnbonded
  | query .validators => .getValidators
  | query (.profile _) => .getProfile
  | query (.delegations _) => .getDelegations
  | record _ => .getRecord

def arguments : Instruction → Bytes
  | create appchainId template => encode (appchainId, template)
  | command (.changeSettings (.protocol changes)) => encode changes
  | command (.changeSettings (.appchain changes)) => encode changes
  | command (.changeSettings (.appointments changes)) => encode changes
  | command (.changeWrappedToken changes) => encode changes
  | command (.setOwner account) => encode account
  | command (.setPrice price) => encode price
  | command (.pauseTransfers paused) => encode paused
  | setProfile entries => encode entries
  | deposit amount message => encode (amount, message)
  | direct (.decreaseStake amount) => encode amount
  | direct (.decreaseDelegation validator amount) => encode (validator, amount)
  | direct (.unbondDelegation validator) => encode validator
  | query (.historyIndexes account) => encode account
  | query (.unbonded account) => encode account
  | query (.profile validator) => encode validator
  | query (.delegations validator) => encode validator
  | record index => encode index
  | _ => []

def data (i : Instruction) : Bytes :=
  i.entry.mark ++ i.arguments

def reader : Entry → Reader Instruction
  | .create => content fun (appchainId, template) => create appchainId template
  | .changeProtocolSettings =>
      content fun changes => command (.changeSettings (.protocol changes))
  | .changeAppchainSettings =>
      content fun changes => command (.changeSettings (.appchain changes))
  | .changeAppointments =>
      content fun changes => command (.changeSettings (.appointments changes))
  | .changeWrappedToken => content fun changes => command (.changeWrappedToken changes)
  | .goBooting => return command .goBooting
  | .goLive => return command .goLive
  | .goBroken => return command .goBroken
  | .setOwner => content fun account => command (.setOwner account)
  | .setPrice => content fun price => command (.setPrice price)
  | .switchEra => return command .switchEra
  | .pauseTransfers => content fun paused => command (.pauseTransfers paused)
  | .setProfile => content setProfile
  | .deposit => content fun (amount, message) => deposit amount message
  | .decreaseStake => content fun amount => direct (.decreaseStake amount)
  | .unbondStake => return direct .unbondStake
  | .enableDelegation => return direct (.setDelegable true)
  | .disableDelegation => return direct (.setDelegable false)
  | .decreaseDelegation =>
      content fun (validator, amount) => direct (.decreaseDelegation validator amount)
  | .unbondDelegation => content fun validator => direct (.unbondDelegation validator)
  | .withdraw => return withdraw
  | .getOwner => return query .owner
  | .getProtocolSettings => return query .protocolSettings
  | .getAppchainSettings => return query .appchainSettings
  | .getAppointments => return query .appointments
  | .getPhase => return query .phase
  | .getStatus => return query .status
  | .getStakeToken => return query .stakeToken
  | .getWrappedToken => return query .wrappedToken
  | .getHistoryRange => return query .historyRange
  | .getHistoryIndexes => content fun account => query (.historyIndexes account)
  | .getUnbonded => content fun account => query (.unbonded account)
  | .getValidators => return query .validators
  | .getProfile => content fun validator => query (.profile validator)
  | .getDelegations => content fun validator => query (.delegations validator)
  | .getRecord => content record

def ofData (data : Bytes) : Except Fault Instruction := do
  let entry ← found (.access .unknownInstruction none) (Entry.ofMark? (data.take 8))
  match reader entry (data.drop 8) with
  | .ok (i, _) => return i
  | .error _ => throw (.access .undecodableInstruction none)

end Instruction

end AppchainStaking
