import AppchainStaking.Amount
import AppchainStaking.Grouped
import AppchainStaking.Identity

/-!
# The staking history

Every action that changes stake leaves one fact behind, which says what the action did and on whose
behalf. Facts are numbered without gaps in the order in which they are recorded. The log keeps the
range of the numbers given out and, for each account, the numbers of the facts it produced; the
records themselves are stored elsewhere.
-/

namespace AppchainStaking

inductive Fact
  | validatorRegistered (validator : AccountId) (appchainId : String) (amount : Amount)
      (delegable : Bool)
  | stakeIncreased (validator : AccountId) (amount : Amount)
  | stakeDecreased (validator : AccountId) (amount : Amount)
  | validatorUnbonded (validator : AccountId) (amount : Amount)
  | delegationEnabled (validator : AccountId)
  | delegationDisabled (validator : AccountId)
  | delegatorRegistered (delegator validator : AccountId) (amount : Amount)
  | delegationIncreased (delegator validator : AccountId) (amount : Amount)
  | delegationDecreased (delegator validator : AccountId) (amount : Amount)
  | delegatorUnbonded (delegator validator : AccountId) (amount : Amount)
  deriving DecidableEq

def Fact.actor : Fact → AccountId
  | validatorRegistered v _ _ _ | stakeIncreased v _ | stakeDecreased v _
  | validatorUnbonded v _ | delegationEnabled v | delegationDisabled v => v
  | delegatorRegistered d _ _ | delegationIncreased d _ _ | delegationDecreased d _ _
  | delegatorUnbonded d _ _ => d

structure HistoryRecord where
  index : UInt64
  fact : Fact
  timestamp : Int64
  era : UInt64
  deriving DecidableEq

structure HistoryLog where
  start : UInt64 := 0
  next : UInt64 := 0
  indexes : Grouped UInt64 := []
  deriving DecidableEq

/-- The numbers given out so far; there is no last one before the first fact. -/
structure IndexRange where
  start : UInt64
  last : Option UInt64
  deriving DecidableEq

namespace HistoryLog

def range (log : HistoryLog) : IndexRange :=
  { start := log.start
    last := if log.start < log.next then some (log.next - 1) else none }

/-- Numbers a fact. The largest number is never given out. -/
def append (log : HistoryLog) (fact : Fact) (timestamp : Int64) (era : UInt64) :
    Except StakingError (HistoryRecord × HistoryLog) :=
  if log.next.toNat + 1 < UInt64.size then
    .ok ({ index := log.next, fact, timestamp, era },
      { log with next := log.next + 1, indexes := log.indexes.push fact.actor log.next })
  else .error .indexOutOfRange

def demandInRange (log : HistoryLog) (index : UInt64) : Except StakingError Unit :=
  require (log.start ≤ index ∧ index < log.next) .indexOutOfRange

def indexesOf (log : HistoryLog) (a : AccountId) : List UInt64 :=
  log.indexes.of a

end HistoryLog

end AppchainStaking
