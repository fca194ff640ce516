import AppchainStaking.Anchor.Basic

/-!
# Commands of those who govern

Each command asks for one capability. It either takes effect as a whole or changes nothing.
-/

namespace AppchainStaking

inductive Command
  | changeSettings (batch : SettingsBatch)
  | changeWrappedToken (changes : List WrappedTokenChange)
  | goBooting
  | goLive
  | goBroken
  | setOwner (account : AccountId)
  | setPrice (price : UInt64)
  | switchEra
  | pauseTransfers (paused : Bool)

def Command.capability : Command → Capability
  | setPrice _ => .tokenPriceMaintenance
  | switchEra => .eraSwitching
  | _ => .governance

/-- What a command answers: nothing, the new phase, the former owner, the former price or the new
era. -/
inductive CommandReply
  | done
  | phase (p : Phase)
  | formerOwner (account : AccountId)
  | formerPrice (price : UInt64)
  | era (era : UInt64)
  deriving DecidableEq

namespace Anchor

/-- The effect of a command, without regard to its caller. -/
def execute (s : Anchor) : Command → Except StakingError (CommandReply × Anchor)
  | .changeSettings batch => return (.done, { s with settings := ← s.settings.apply batch })
  | .changeWrappedToken changes =>
      return (.done, { s with wrappedToken := ← s.wrappedToken.applyAll changes })
  | .goBooting => do
      let phase ← s.phase.boot s.settings.protocol s.stakeToken s.projection
      return (.phase phase, { s with phase })
  | .goLive => do
      let phase ← s.phase.goLive s.wrappedToken
      return (.phase phase, { s with phase })
  | .goBroken => do
      let phase ← s.phase.goBroken
      return (.phase phase, { s with phase })
  | .setOwner owner => return (.formerOwner s.owner, { s with owner })
  | .setPrice price =>
      return (.formerPrice s.stakeToken.price,
        { s with stakeToken := { s.stakeToken with price } })
  | .switchEra => do
      require (s.era.toNat + 1 < UInt64.size) .amountOverflow
      return (.era (s.era + 1), { s with era := s.era + 1 })
  | .pauseTransfers transfersPaused => return (.done, { s with transfersPaused })

def command (s : Anchor) (authorizer : Authorizer) (caller : AccountId) (c : Command) :
    Except StakingError (CommandReply × Anchor) := do
  authorizer.demand caller c.capability
  s.execute c

end Anchor

end AppchainStaking
