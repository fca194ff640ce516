import AppchainStaking.Chain.Instruction

/-!
# What an instruction reports

An instruction is sent with accounts and the time. It answers a question or changes something, and
makes that known by lines of its log and by events for those who follow the chain.
-/

namespace AppchainStaking

inductive Event
  | factRecorded (r : HistoryRecord)
  | profileUpdated (validator : AccountId) (entryCount : Nat)
  | stakeWithdrawn (user : AccountId) (amount : Amount) (mint vault : AccountId)
  | settingsChanged (admin : AccountId) (batch : SettingsBatch)
  | wrappedTokenChanged (admin : AccountId) (changes : List WrappedTokenChange)
  | phaseChanged (admin : AccountId) (old new : Phase)
  | eraSwitched (caller : AccountId) (era : UInt64)
  | ownerChanged (old new : AccountId)
  | priceUpdated (caller : AccountId) (old new : UInt64) (mint : AccountId)
  | transfersPaused (admin : AccountId) (paused : Bool)

namespace Log

def initialized (appchainId : String) (owner : AccountId) : String :=
  s!"Anchor initialized for appchain {appchainId} with owner {owner.toBase58}"

def settingsChanged : SettingsBatch → String
  | .protocol changes => s!"Protocol settings changed: {changes.length} field(s)"
  | .appchain changes => s!"Appchain settings changed: {changes.length} field(s)"
  | .appointments changes => s!"Anchor settings changed: {changes.length} field(s)"

def wrappedTokenChanged (changes : List WrappedTokenChange) : String :=
  s!"Wrapped appchain token changed: {changes.length} field(s)"

def phaseChanged (old new : Phase) : String :=
  s!"Appchain state: {old.name} -> {new.name}"

def ownerChanged (old new : AccountId) : String :=
  s!"Owner changed from {old.toBase58} to {new.toBase58}"

def eraSwitched (era : UInt64) : String :=
  s!"Switched to era {era.toNat}"

def transfersPaused (paused : Bool) : String :=
  if paused then "Asset transfer paused: true" else "Asset transfer paused: false"

def factRecorded (index : UInt64) : String :=
  s!"Staking fact recorded at index {index.toNat}"

def profileUpdated (validator : AccountId) : String :=
  s!"Validator {validator.toBase58} updated its profile"

def nothingDue (user : AccountId) : String :=
  s!"No matured unbonded stake for {user.toBase58}"

def withdrew (user : AccountId) (amount : Amount) : String :=
  s!"Withdrew {amount.toNat} unbonded stake to {user.toBase58}"

end Log

inductive Answer
  | nothing
  | owner (a : AccountId)
  | protocolSettings (s : ProtocolSettings)
  | appchainSettings (s : AppchainSettings)
  | appointments (s : AppointmentSettings)
  | phase (p : Phase)
  | status (s : Anchor.Status)
  | stakeToken (t : StakeToken)
  | wrappedToken (t : WrappedToken)
  | historyRange (r : IndexRange)
  | historyIndexes (indexes : List UInt64)
  | unbonded (entries : List UnbondedEntry)
  | validators (vs : List ValidatorOverview)
  | profile (entries : List ProfileEntry)
  | delegations (ds : List Delegation)
  | record (r : HistoryRecord)

structure Receipt where
  answer : Answer := .nothing
  log : List String := []
  events : List Event := []

/-- What an instruction reports when it fails: the lines it logged before, and why it failed. -/
structure Failure where
  fault : Fault
  log : List String := []

structure Request where
  data : Bytes
  accounts : List AccountRef
  now : Int64

namespace Anchor

def answer (s : Anchor) : Query → Except StakingError Answer
  | .owner => return .owner s.owner
  | .protocolSettings => return .protocolSettings s.settings.protocol
  | .appchainSettings => return .appchainSettings s.settings.appchain
  | .appointments => return .appointments s.settings.appointments
  | .phase => return .phase s.phase
  | .status => return .status s.status
  | .stakeToken => return .stakeToken s.stakeToken
  | .wrappedToken => return .wrappedToken s.wrappedToken
  | .historyRange => return .historyRange s.history.range
  | .historyIndexes a => return .historyIndexes (s.history.indexesOf a)
  | .unbonded a => return .unbonded (s.unbonding.of a)
  | .validators => return .validators s.ledger.validatorList
  | .profile v => return .profile (← s.ledger.profileOf v)
  | .delegations v => return .delegations (s.ledger.delegationsOf v)

def commandReceipt (before after : Anchor) (caller : AccountId) : Command → Receipt
  | .changeSettings batch =>
      { log := [Log.settingsChanged batch], events := [.settingsChanged caller batch] }
  | .changeWrappedToken changes =>
      { log := [Log.wrappedTokenChanged changes]
        events := [.wrappedTokenChanged caller changes] }
  | .goBooting | .goLive | .goBroken =>
      { log := [Log.phaseChanged before.phase after.phase]
        events := [.phaseChanged caller before.phase after.phase] }
  | .setOwner _ =>
      { log := [Log.ownerChanged before.owner after.owner]
        events := [.ownerChanged before.owner after.owner] }
  | .setPrice _ =>
      { events := [.priceUpdated caller before.stakeToken.price after.stakeToken.price
          after.stakeToken.mint] }
  | .switchEra => { log := [Log.eraSwitched after.era], events := [.eraSwitched caller after.era] }
  | .pauseTransfers paused =>
      { log := [Log.transfersPaused paused], events := [.transfersPaused caller paused] }

end Anchor

end AppchainStaking
