import AppchainStaking.Authority
import AppchainStaking.Error
import AppchainStaking.Settings.Protocol

/-!
# Groups of settings

Besides the protocol settings there is what nodes and users need to know to reach the appchain, in
texts that are bounded by their length in UTF-8 bytes, and the appointments to special roles. A
batch of changes to a group asks for the governance capability first, and takes effect as a whole or
not at all.
-/

namespace AppchainStaking

structure AppchainSettings where
  chainSpec : String := ""
  rawChainSpec : String := ""
  bootNodes : String := ""
  rpcEndpoint : String := ""
  subqlEndpoint : String := ""
  /-- Reward issued by the appchain in each era, in units of the wrapped token. -/
  eraReward : UInt64 := 0
  deriving DecidableEq

inductive AppchainChange
  | chainSpec (value : String)
  | rawChainSpec (value : String)
  | bootNodes (value : String)
  | rpcEndpoint (value : String)
  | subqlEndpoint (value : String)
  | eraReward (value : UInt64)
  deriving DecidableEq

namespace AppchainSettings

def maximumTextSize : Nat := 1024

def set (s : AppchainSettings) : AppchainChange → AppchainSettings
  | .chainSpec v => { s with chainSpec := v }
  | .rawChainSpec v => { s with rawChainSpec := v }
  | .bootNodes v => { s with bootNodes := v }
  | .rpcEndpoint v => { s with rpcEndpoint := v }
  | .subqlEndpoint v => { s with subqlEndpoint := v }
  | .eraReward v => { s with eraReward := v }

end AppchainSettings

def AppchainChange.text? : AppchainChange → Option String
  | .chainSpec v | .rawChainSpec v | .bootNodes v | .rpcEndpoint v | .subqlEndpoint v => some v
  | .eraReward _ => none

def AppchainChange.Fits (c : AppchainChange) : Prop :=
  ∀ text ∈ c.text?, text.utf8ByteSize ≤ AppchainSettings.maximumTextSize

instance (c : AppchainChange) : Decidable c.Fits := by
  unfold AppchainChange.Fits
  infer_instance

namespace AppchainSettings

def apply (s : AppchainSettings) (change : AppchainChange) :
    Except StakingError AppchainSettings :=
  if change.Fits then .ok (s.set change) else .error .invalidValue

def applyAll (s : AppchainSettings) (changes : List AppchainChange) :
    Except StakingError AppchainSettings :=
  changes.foldlM apply s

end AppchainSettings

structure SettingsStore where
  protocol : ProtocolSettings := {}
  appchain : AppchainSettings := {}
  appointments : AppointmentSettings := {}
  deriving DecidableEq

inductive SettingsBatch
  | protocol (changes : List ProtocolChange)
  | appchain (changes : List AppchainChange)
  | appointments (changes : List AppointmentChange)

namespace SettingsStore

def apply (s : SettingsStore) : SettingsBatch → Except StakingError SettingsStore
  | .protocol changes => return { s with protocol := ← s.protocol.applyAll changes }
  | .appchain changes => return { s with appchain := ← s.appchain.applyAll changes }
  | .appointments changes => return { s with appointments := s.appointments.applyAll changes }

def change (s : SettingsStore) (authorizer : Authorizer) (caller : AccountId)
    (batch : SettingsBatch) : Except StakingError SettingsStore := do
  authorizer.demand caller .governance
  s.apply batch

end SettingsStore

end AppchainStaking
