import AppchainStaking.Error
import AppchainStaking.Identity

/-!
# Capabilities and the roles that hold them

The owner holds every capability. A maintainer of the token price and a relayer, where they are
appointed, hold one capability each.
-/

namespace AppchainStaking

inductive Capability
  | governance
  | tokenPriceMaintenance
  | eraSwitching
  deriving DecidableEq, Repr

abbrev Authorizer := AccountId → Capability → Bool

def Authorizer.demand (authorizer : Authorizer) (caller : AccountId) (capability : Capability) :
    Except StakingError Unit :=
  require (authorizer caller capability) .unauthorized

structure Roles where
  owner : AccountId
  tokenPriceMaintainer : Option AccountId
  relayer : Option AccountId
  deriving DecidableEq

def Roles.authorize (roles : Roles) : Authorizer := fun caller capability =>
  caller = roles.owner ||
    match capability with
    | .governance => false
    | .tokenPriceMaintenance => roles.tokenPriceMaintainer = some caller
    | .eraSwitching => roles.relayer = some caller

structure AppointmentSettings where
  tokenPriceMaintainer : Option AccountId := none
  relayer : Option AccountId := none
  deriving DecidableEq

inductive AppointmentChange
  | tokenPriceMaintainer (account : Option AccountId)
  | relayer (account : Option AccountId)
  deriving DecidableEq

namespace AppointmentSettings

def apply (s : AppointmentSettings) : AppointmentChange → AppointmentSettings
  | .tokenPriceMaintainer account => { s with tokenPriceMaintainer := account }
  | .relayer account => { s with relayer := account }

def applyAll (s : AppointmentSettings) (changes : List AppointmentChange) : AppointmentSettings :=
  changes.foldl apply s

end AppointmentSettings

end AppchainStaking
