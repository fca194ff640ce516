import AppchainStaking.Amount
import AppchainStaking.Grouped

/-!
# Stake on its way out

Stake that leaves a position waits in a queue until its unlock era. A withdrawal pays everything of
one account that has matured in a single transfer, and takes it off the queue only when the
transfer succeeds.
-/

namespace AppchainStaking

structure UnbondedEntry where
  amount : Amount
  era : UInt64
  /-- First era in which the entry may be withdrawn. -/
  unlockEra : UInt64
  historyIndex : UInt64
  deriving DecidableEq

def UnbondedEntry.isMature (e : UnbondedEntry) (era : UInt64) : Bool :=
  e.unlockEra ≤ era

abbrev UnbondingQueue := Grouped UnbondedEntry

inductive Withdrawal (ε τ : Type)
  | refused (reason : StakingError)
  /-- What has matured sums up to zero, and no transfer is attempted. -/
  | nothingDue
  | rejected (amount : Amount) (reason : ε)
  | paid (amount : Amount) (receipt : τ)

namespace Withdrawal

variable {ε τ : Type}

def transferred? : Withdrawal ε τ → Option Amount
  | refused _ | nothingDue => none
  | rejected amount _ | paid amount _ => some amount

/-- The amount paid out; zero when nothing was due. -/
def result (embed : StakingError → ε) : Withdrawal ε τ → Except ε Amount
  | refused reason => .error (embed reason)
  | nothingDue => .ok 0
  | rejected _ reason => .error reason
  | paid amount _ => .ok amount

end Withdrawal

namespace UnbondingQueue

def maturedAmount (q : UnbondingQueue) (a : AccountId) (era : UInt64) :
    Except StakingError Amount :=
  Amount.sum (((q.of a).filter (·.isMature era)).map (·.amount))

variable {ε τ : Type} {m : Type → Type} [Monad m]

def settle (q : UnbondingQueue) (a : AccountId) (era : UInt64) (amount : Amount) :
    Except ε τ → Withdrawal ε τ × UnbondingQueue
  | .error reason => (.rejected amount reason, q)
  | .ok receipt => (.paid amount receipt, Grouped.drop (·.isMature era) q a)

/-- Pays out all matured entries of an account through `transfer`, which may have effects. -/
def withdrawM (q : UnbondingQueue) (a : AccountId) (era : UInt64)
    (transfer : Amount → m (Except ε τ)) : m (Withdrawal ε τ × UnbondingQueue) :=
  match q.maturedAmount a era with
  | .error reason => return (.refused reason, q)
  | .ok amount =>
      if amount = 0 then return (.nothingDue, q)
      else return q.settle a era amount (← transfer amount)

def withdraw (q : UnbondingQueue) (a : AccountId) (era : UInt64)
    (transfer : Amount → Except ε τ) : Withdrawal ε τ × UnbondingQueue :=
  Id.run (q.withdrawM a era fun amount => pure (transfer amount))

end UnbondingQueue

end AppchainStaking
