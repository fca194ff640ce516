import AppchainStaking.Anchor.Staking
import AppchainStaking.Error
import AppchainStaking.Json.Parser
import AppchainStaking.Profile
import AppchainStaking.Text.Bytes

/-!
# Deposits with a message

A deposit carries a JSON message that says what the stake is for. An intent without content is
named by a text; one with content is an object of one member, whose key names the intent. The
fields stand in an object, in any order and among others, or in an array in their fixed order.
-/

namespace AppchainStaking

inductive Intent
  | registerValidator (appchainId : String) (delegable : Bool) (profile : Profile)
  | increaseStake
  | registerDelegator (validator : String)
  | increaseDelegation (validator : String)

namespace Intent

open Json (Value)

def maximumMessageSize : Nat := 8192

/-- The only value under a key. A missing key gives `some none`, a repeated one `none`. -/
def field? (members : List (Option String × Value)) (name : String) : Option (Option Value) :=
  match members.filter (·.1 = some name) with
  | [] => some none
  | [(_, v)] => some (some v)
  | _ => none

def fields? (names : List String) : Value → Option (List (Option Value))
  | .object members =>
      if members.all (·.1.isSome) then names.mapM (field? members) else none
  | .array items =>
      if items.length ≤ names.length then
        some (items.map some ++ List.replicate (names.length - items.length) none)
      else none
  | _ => none

def profileEntry? : Option String × Value → Option ProfileEntry
  | (some key, .text (some value)) => some ⟨key, value⟩
  | _ => none

def profile? : Option Value → Option Profile
  | none => some .empty
  | some (.object members) => (members.mapM profileEntry?).map .ofEntries
  | some _ => none

def registration? (content : Value) : Option Intent := do
  match ← fields? ["validator_id_in_appchain", "can_be_delegated_to", "profile"] content with
  | [some (.text (some appchainId)), some (.bool delegable), profile] =>
      return registerValidator appchainId delegable (← profile? profile)
  | _ => none

def validator? (content : Value) : Option String := do
  match ← fields? ["validator_id"] content with
  | [some (.text (some validator))] => return validator
  | _ => none

def ofValue? : Value → Option Intent
  | .text (some "IncreaseStake") => some increaseStake
  | .object [(some "IncreaseStake", .null)] => some increaseStake
  | .object [(some "RegisterValidator", content)] => registration? content
  | .object [(some "RegisterDelegator", content)] => (validator? content).map registerDelegator
  | .object [(some "IncreaseDelegation", content)] => (validator? content).map increaseDelegation
  | _ => none

def decode (message : String) : Except StakingError Intent := do
  require (message.utf8ByteSize ≤ maximumMessageSize) .malformedIntent
  found .malformedIntent (Json.parse? message >>= ofValue?)

end Intent

/-- The staking action that an intent asks for with `amount` deposited. A validator is named by
its Base58 form. -/
def Intent.action (amount : Amount) : Intent → Except StakingError StakingAction
  | .registerValidator appchainId delegable profile =>
      .ok (.registerValidator appchainId amount delegable profile)
  | .increaseStake => .ok (.increaseStake amount)
  | .registerDelegator validator => do
      let v ← found .malformedIntent (AccountId.ofBase58? validator)
      return .registerDelegator v amount
  | .increaseDelegation validator => do
      let v ← found .malformedIntent (AccountId.ofBase58? validator)
      return .increaseDelegation v amount

def StakingAction.ofMessage (amount : Amount) (message : String) :
    Except StakingError StakingAction := do
  (← Intent.decode message).action amount

def Anchor.deposit (s : Anchor) (sender : AccountId) (amount : Amount) (message : String)
    (now : Int64) : Except StakingError HistoryRecord × Anchor :=
  match StakingAction.ofMessage amount message with
  | .error e => (.error e, s)
  | .ok action => s.act sender now action

end AppchainStaking
