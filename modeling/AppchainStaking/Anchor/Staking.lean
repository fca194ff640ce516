import AppchainStaking.Anchor.Basic
import AppchainStaking.Ledger.Action

/-!
# Staking on an anchor

The phase decides which actions are permitted. An action of an account changes the ledger and is
recorded as one fact. A fact that takes stake out of a position also queues that stake for
withdrawal. When the history has no number left the ledger keeps the change but nothing is recorded;
in every other failure nothing changes.
-/

namespace AppchainStaking

inductive Position
  | validator
  | delegator
  deriving DecidableEq

/-- The stake that a fact takes out of a position, and the kind of that position. -/
def Fact.released? : Fact → Option (Amount × Position)
  | .stakeDecreased _ amount | .validatorUnbonded _ amount => some (amount, .validator)
  | .delegationDecreased _ _ amount | .delegatorUnbonded _ _ amount => some (amount, .delegator)
  | _ => none

def ProtocolSettings.unlockPeriod (s : ProtocolSettings) : Position → UInt64
  | .validator => s.validatorUnlockPeriod
  | .delegator => s.delegatorUnlockPeriod

/-- The era `period` eras after `era`, or the last era there is. -/
def unlockEra (era period : UInt64) : UInt64 :=
  .ofNat (min (era.toNat + period.toNat) (UInt64.size - 1))

namespace Anchor

def rules (s : Anchor) : LedgerRules :=
  { settings := s.settings.protocol, template := s.template, era := s.era }

/-- The phase permits an action. While the appchain runs, a validator may leave only if more than
the minimum number of validators are there. -/
def permit (s : Anchor) (caller : AccountId) : StakingAction → Except StakingError Unit
  | .unbondStake => do
      s.phase.demandUnbonding
      let _ ← s.ledger.validator caller
      require (s.phase = .active →
        s.settings.protocol.minimumValidatorCount.toNat < s.ledger.validatorCount)
        .tooFewValidators
  | .unbondDelegation _ => s.phase.demandUnbonding
  | _ => s.phase.demandStaking

def attempt (s : Anchor) (caller : AccountId) (action : StakingAction) :
    Except StakingError (Ledger × Fact) := do
  s.permit caller action
  s.ledger.act s.rules caller action

def releasedEntry (s : Anchor) (r : HistoryRecord) : Option UnbondedEntry :=
  r.fact.released?.map fun (amount, position) =>
    { amount
      era := s.era
      unlockEra := unlockEra s.era (s.settings.protocol.unlockPeriod position)
      historyIndex := r.index }

def queue (s : Anchor) (r : HistoryRecord) : UnbondingQueue :=
  match s.releasedEntry r with
  | none => s.unbonding
  | some e => s.unbonding.push r.fact.actor e

/-- Numbers a fact and queues the stake it releases. -/
def record (s : Anchor) (fact : Fact) (now : Int64) :
    Except StakingError HistoryRecord × Anchor :=
  match s.history.append fact now s.era with
  | .error e => (.error e, s)
  | .ok (r, history) => (.ok r, { s with history, unbonding := s.queue r })

def act (s : Anchor) (caller : AccountId) (now : Int64) (action : StakingAction) :
    Except StakingError HistoryRecord × Anchor :=
  match s.attempt caller action with
  | .error e => (.error e, s)
  | .ok (ledger, fact) => { s with ledger }.record fact now

/-- Replaces the profile of the caller's validator. Keys must not repeat. -/
def setProfile (s : Anchor) (caller : AccountId) (entries : List ProfileEntry) :
    Except StakingError Anchor := do
  let profile := Profile.ofEntries entries
  require (profile.entries.length = entries.length) .invalidValue
  return { s with ledger := ← s.ledger.setProfile caller profile }

variable {ε τ : Type} {m : Type → Type} [Monad m]

/-- Pays out what the caller has matured through `transfer`, unless transfers are paused. -/
def withdrawM (s : Anchor) (caller : AccountId) (transfer : Amount → m (Except ε τ)) :
    m (Withdrawal ε τ × Anchor) :=
  if s.transfersPaused then return (.refused .transfersPaused, s)
  else do
    let (withdrawal, unbonding) ← s.unbonding.withdrawM caller s.era transfer
    return (withdrawal, { s with unbonding })

def withdraw (s : Anchor) (caller : AccountId) (transfer : Amount → Except ε τ) :
    Withdrawal ε τ × Anchor :=
  Id.run (s.withdrawM caller fun amount => pure (transfer amount))

end Anchor

end AppchainStaking
