import AppchainStaking.Anchor.Staking
import AppchainStaking.Proofs.Ledger.Lookup
import AppchainStaking.Proofs.Total

/-!
# Stake on the ledger

What a set of accounts has bonded, as validators and as delegators, frozen delegations included.
An accepted action moves exactly the amounts that it names: its deposit comes in, and what its
fact releases goes out.
-/

namespace AppchainStaking

def StakingAction.deposit : StakingAction → Amount
  | registerValidator _ amount _ _ | increaseStake amount | registerDelegator _ amount
  | increaseDelegation _ amount => amount
  | decreaseStake _ | unbondStake | setDelegable _ | decreaseDelegation _ _
  | unbondDelegation _ => 0

def Fact.released : Fact → Amount
  | stakeDecreased _ amount | validatorUnbonded _ amount | delegationDecreased _ _ amount
  | delegatorUnbonded _ _ amount => amount
  | validatorRegistered _ _ _ _ | stakeIncreased _ _ | delegationEnabled _ | delegationDisabled _
  | delegatorRegistered _ _ _ | delegationIncreased _ _ _ => 0

/-- The amount if its account is among those that count, and nothing otherwise. -/
def share (who : AccountId → Bool) (a : AccountId) (amount : Amount) : Amount :=
  if who a then amount else 0

@[simp] theorem share_zero (who : AccountId → Bool) (a : AccountId) : share who a 0 = 0 := by
  simp [share]

theorem toNat_share (who : AccountId → Bool) (a : AccountId) (amount : Amount) :
    (share who a amount).toNat = if who a then amount.toNat else 0 := by
  unfold share
  split <;> rfl

theorem toNat_share_add {x y z : Amount} (h : x.toNat + y.toNat = z.toNat)
    (who : AccountId → Bool) (a : AccountId) :
    (share who a x).toNat + (share who a y).toNat = (share who a z).toNat := by
  rw [toNat_share, toNat_share, toNat_share]
  split
  · exact h
  · rfl

namespace Ledger

variable {rules : LedgerRules} {caller : AccountId} {l l' : Ledger} {f : Fact}
  {action : StakingAction}

def stakeOf (l : Ledger) (who : AccountId → Bool) : Nat :=
  Amount.total (l.validators.map fun v => share who v.id v.deposit) +
    Amount.total (l.delegations.map fun x => share who x.delegator x.deposit)

theorem stakeOf_updateValidator {v : AccountId} {x : Validator} (h : l.validator? v = some x)
    (deposit : Amount) (who : AccountId → Bool) :
    (l.updateValidator v ({ · with deposit })).stakeOf who + (share who v x.deposit).toNat =
      l.stakeOf who + (share who v deposit).toNat := by
  have htotal := Amount.total_map_updateFirst (f := ({ · with deposit }))
    (fun y : Validator => share who y.id y.deposit) h
  simp only [id_of_validator? h] at htotal
  simp only [stakeOf, updateValidator]
  omega

theorem stakeOf_updateDelegation {d v : AccountId} {x : Delegation}
    (h : l.delegation? d v = some x) (deposit : Amount) (who : AccountId → Bool) :
    (l.updateDelegation d v ({ · with deposit })).stakeOf who + (share who d x.deposit).toNat =
      l.stakeOf who + (share who d deposit).toNat := by
  have htotal := Amount.total_map_updateFirst (f := ({ · with deposit }))
    (fun y : Delegation => share who y.delegator y.deposit) h
  simp only [(isOf_of_delegation? h).1] at htotal
  simp only [stakeOf, updateDelegation]
  omega

/-- Only the account and the deposit of a validator count. -/
theorem stakeOf_updateValidator_of_same (v : AccountId) {g : Validator → Validator}
    (hid : ∀ x, (g x).id = x.id) (hdeposit : ∀ x, (g x).deposit = x.deposit)
    (who : AccountId → Bool) : (l.updateValidator v g).stakeOf who = l.stakeOf who := by
  have h := map_updateFirst (g := fun x : Validator => share who x.id x.deposit)
    (p := (·.id = v)) (f := g) (fun x => by rw [hid, hdeposit]) l.validators
  simp only [stakeOf, updateValidator, h]

/-- Every accepted action moves exactly what it names: what the fact releases leaves the ledger,
and the deposit of the action enters it. -/
theorem Step.stakeOf_add_released (h : Step rules caller l action l' f)
    (who : AccountId → Bool) :
    l'.stakeOf who + (share who caller f.released).toNat =
      l.stakeOf who + (share who caller action.deposit).toNat := by
  cases h with
  | registerValidator =>
      simp only [stakeOf, Fact.released, StakingAction.deposit, List.map_append,
        Amount.total_append, List.map_cons, List.map_nil, Amount.total_cons, Amount.total_nil,
        share_zero, UInt64.toNat_zero]
      omega
  | @increaseStake x amount deposit _ known sum =>
      have hmoved := stakeOf_updateValidator known deposit who
      have hshare := toNat_share_add sum who caller
      simp only [Fact.released, StakingAction.deposit, share_zero, UInt64.toNat_zero]
      omega
  | @decreaseStake x amount deposit _ known sum _ =>
      have hmoved := stakeOf_updateValidator known deposit who
      have hshare := toNat_share_add sum who caller
      simp only [Fact.released, StakingAction.deposit, share_zero, UInt64.toNat_zero]
      omega
  | @unbondStake x known =>
      have hleft := Amount.total_map_eraseP (fun y : Validator => share who y.id y.deposit) known
      -- Freezing touches neither the delegator nor the deposit.
      have hfrozen := map_freeze (g := fun x => share who x.delegator x.deposit) (fun _ => rfl)
        caller l.delegations
      simp only [id_of_validator? known] at hleft
      simp only [stakeOf, hfrozen, Fact.released, StakingAction.deposit, share_zero,
        UInt64.toNat_zero]
      omega
  | @setDelegable delegable known =>
      have hsame := stakeOf_updateValidator_of_same (l := l) caller (g := ({ · with delegable }))
        (fun _ => rfl) (fun _ => rfl) who
      cases delegable <;> simp [hsame, Fact.released, StakingAction.deposit]
  | registerDelegator =>
      simp only [stakeOf, Fact.released, StakingAction.deposit, List.map_append,
        Amount.total_append, List.map_cons, List.map_nil, Amount.total_cons, Amount.total_nil,
        share_zero, UInt64.toNat_zero]
      omega
  | @increaseDelegation v x amount deposit _ _ known _ sum =>
      have hmoved := stakeOf_updateDelegation known deposit who
      have hshare := toNat_share_add sum who caller
      simp only [Fact.released, StakingAction.deposit, share_zero, UInt64.toNat_zero]
      omega
  | @decreaseDelegation v x amount deposit _ _ known _ sum _ =>
      have hmoved := stakeOf_updateDelegation known deposit who
      have hshare := toNat_share_add sum who caller
      simp only [Fact.released, StakingAction.deposit, share_zero, UInt64.toNat_zero]
      omega
  | @unbondDelegation v x known =>
      have hleft := Amount.total_map_eraseP
        (fun y : Delegation => share who y.delegator y.deposit) known
      simp only [(isOf_of_delegation? known).1] at hleft
      simp only [stakeOf, Fact.released, StakingAction.deposit, share_zero, UInt64.toNat_zero]
      omega

end Ledger

end AppchainStaking
