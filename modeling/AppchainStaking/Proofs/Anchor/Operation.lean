import AppchainStaking.Anchor.Deposit
import AppchainStaking.Anchor.Governance
import AppchainStaking.Proofs.Ledger.Stake

/-!
# Operations on an anchor and their runs

Everything that can be asked of an anchor is an operation: staking actions, deposits with a
message, profiles, withdrawals with any transfer, and commands under any authorizer. A run performs
operations one after the other, failed ones included; its trace has one call for each.
-/

namespace AppchainStaking

variable {ε τ : Type}

inductive Operation (ε τ : Type)
  | act (caller : AccountId) (now : Int64) (action : StakingAction)
  | deposit (sender : AccountId) (now : Int64) (amount : Amount) (message : String)
  | setProfile (caller : AccountId) (entries : List ProfileEntry)
  | withdraw (caller : AccountId) (transfer : Amount → Except ε τ)
  | command (authorizer : Authorizer) (caller : AccountId) (c : Command)

inductive Reply (ε τ : Type)
  | staking (outcome : Except StakingError HistoryRecord)
  | profile (outcome : Except StakingError Unit)
  | withdrawal (w : Withdrawal ε τ)
  | command (outcome : Except StakingError CommandReply)

namespace Operation

def caller : Operation ε τ → AccountId
  | act a _ _ | deposit a _ _ _ | setProfile a _ | withdraw a _ | command _ a _ => a

def now : Operation ε τ → Int64
  | act _ now _ | deposit _ now _ _ => now
  | setProfile _ _ | withdraw _ _ | command _ _ _ => 0

/-- The staking action that is asked for; that of a deposit is in its message. -/
def action? : Operation ε τ → Option StakingAction
  | act _ _ action => some action
  | deposit _ _ amount message => (StakingAction.ofMessage amount message).toOption
  | setProfile _ _ | withdraw _ _ | command _ _ _ => none

def stake : Operation ε τ → Amount
  | act _ _ action => action.deposit
  | deposit _ _ amount _ => amount
  | setProfile _ _ | withdraw _ _ | command _ _ _ => 0

end Operation

namespace Reply

def record? : Reply ε τ → Option HistoryRecord
  | staking (.ok r) => some r
  | _ => none

def paid? : Reply ε τ → Option Amount
  | withdrawal (.paid amount _) => some amount
  | _ => none

end Reply

namespace Anchor

def commit {α : Type} (s : Anchor) (outcome : Except StakingError (α × Anchor)) :
    Except StakingError α × Anchor :=
  match outcome with
  | .ok (a, s') => (.ok a, s')
  | .error e => (.error e, s)

def perform (s : Anchor) : Operation ε τ → Reply ε τ × Anchor
  | .act caller now action => (s.act caller now action).map .staking id
  | .deposit sender now amount message => (s.deposit sender amount message now).map .staking id
  | .setProfile caller entries =>
      (s.commit ((s.setProfile caller entries).map ((), ·))).map .profile id
  | .withdraw caller transfer => (s.withdraw caller transfer).map .withdrawal id
  | .command authorizer caller c => (s.commit (s.command authorizer caller c)).map .command id

end Anchor

structure Call (ε τ : Type) where
  before : Anchor
  operation : Operation ε τ

namespace Call

def reply (c : Call ε τ) : Reply ε τ := (c.before.perform c.operation).1

def after (c : Call ε τ) : Anchor := (c.before.perform c.operation).2

def record? (c : Call ε τ) : Option HistoryRecord := c.reply.record?

/-- The stake that the call brought in; a call that failed brings none. -/
def deposited (c : Call ε τ) : Amount := if c.record?.isSome then c.operation.stake else 0

def paid (c : Call ε τ) : Amount := c.reply.paid?.getD 0

end Call

def depositedBy (who : AccountId → Bool) (calls : List (Call ε τ)) : Nat :=
  Amount.total ((calls.filter (who ·.operation.caller)).map (·.deposited))

def paidTo (who : AccountId → Bool) (calls : List (Call ε τ)) : Nat :=
  Amount.total ((calls.filter (who ·.operation.caller)).map (·.paid))

theorem depositedBy_cons (who : AccountId → Bool) (c : Call ε τ) (calls : List (Call ε τ)) :
    depositedBy who (c :: calls) =
      (share who c.operation.caller c.deposited).toNat + depositedBy who calls := by
  by_cases h : who c.operation.caller <;> simp [depositedBy, share, h]

theorem paidTo_cons (who : AccountId → Bool) (c : Call ε τ) (calls : List (Call ε τ)) :
    paidTo who (c :: calls) =
      (share who c.operation.caller c.paid).toNat + paidTo who calls := by
  by_cases h : who c.operation.caller <;> simp [paidTo, share, h]

def records (calls : List (Call ε τ)) : List HistoryRecord := calls.filterMap (·.record?)

theorem records_cons (c : Call ε τ) (calls : List (Call ε τ)) :
    records (c :: calls) = c.record?.toList ++ records calls := by
  cases h : c.record? <;> simp [records, h]

namespace Anchor

def trace (s : Anchor) : List (Operation ε τ) → List (Call ε τ)
  | [] => []
  | o :: os => ⟨s, o⟩ :: (s.perform o).2.trace os

def run (s : Anchor) : List (Operation ε τ) → Anchor
  | [] => s
  | o :: os => (s.perform o).2.run os

/-- What calls that satisfy `Q` keep holds around every call of a run of such calls, and after the
run. -/
theorem invariant_of_calls {P : Anchor → Prop} {Q : Call ε τ → Prop} {s : Anchor}
    (hstep : ∀ c, Q c → P c.before → P c.after) (ops : List (Operation ε τ))
    (hcalls : ∀ c ∈ s.trace ops, Q c) (hs : P s) :
    (∀ c ∈ s.trace ops, P c.before ∧ P c.after) ∧ P (s.run ops) := by
  induction ops generalizing s with
  | nil => exact ⟨fun c hc => absurd hc List.not_mem_nil, hs⟩
  | cons o ops ih =>
      obtain ⟨hfirst, hrest⟩ := List.forall_mem_cons.1 hcalls
      have hafter : P (s.perform o).2 := hstep ⟨s, o⟩ hfirst hs
      obtain ⟨hbetween, hend⟩ := ih hrest hafter
      exact ⟨List.forall_mem_cons.2 ⟨⟨hs, hafter⟩, hbetween⟩, hend⟩

end Anchor

namespace SampleRun

def account (b : UInt8) : AccountId := ⟨List.replicate 32 b, rfl⟩

def owner : AccountId := account 1

def validator : AccountId := account 2

def delegator : AccountId := account 3

def token : StakeToken := { mint := account 4, decimals := 6, price := 0 }

def vault : AccountId := account 5

def anchor : Anchor where
  owner := owner
  appchainId := "sample"
  template := .barnacle
  phase := .staging
  era := 0
  stakeToken := token
  stakeVault := vault
  wrappedToken := {}
  settings := {}
  ledger := {}
  history := {}
  unbonding := []
  transfersPaused := false
  bump := 253
  vaultAuthorityBump := 254

theorem new_eq_anchor : Anchor.new owner "sample" .barnacle token vault 253 254 = .ok anchor := rfl

/-- A validator takes on a delegator, leaves, and comes back. On the way an action is refused, the
owner lifts the unlock period, a transfer fails and is repeated, and the delegation is frozen. -/
def operations : List (Operation Unit Unit) :=
  [.act validator 10 (.registerValidator
      "0x1111111111111111111111111111111111111111111111111111111111111111" 6000 true .empty),
    .act delegator 11 (.registerDelegator validator 500),
    .act delegator 12 (.increaseDelegation validator 0),
    .deposit validator 13 100 "\"IncreaseStake\"",
    .command anchor.roles.authorize owner
      (.changeSettings (.protocol [.validatorUnlockPeriod 0])),
    .act validator 14 (.decreaseStake 50),
    .act validator 15 .unbondStake,
    .withdraw validator fun _ => .error (),
    .withdraw validator fun _ => .ok (),
    .act validator 16 (.registerValidator
      "0x2222222222222222222222222222222222222222222222222222222222222222" 5500 false .empty)]

end SampleRun

end AppchainStaking
