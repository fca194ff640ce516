import AppchainStaking.Proofs.Ledger.Step
import AppchainStaking.Proofs.Total

/-!
# Exits

To leave a position as a whole takes a record off the ledger. A validator that leaves freezes the
delegations bound to it, which then no longer count. So an exit raises neither the total stake nor
the number of validators nor that of delegations that count.
-/

namespace AppchainStaking

def StakingAction.isExit : StakingAction → Bool
  | unbondStake | unbondDelegation _ => true
  | registerValidator _ _ _ _ | increaseStake _ | decreaseStake _ | setDelegable _
  | registerDelegator _ _ | increaseDelegation _ _ | decreaseDelegation _ _ => false

def Fact.isExit : Fact → Bool
  | validatorUnbonded _ _ | delegatorUnbonded _ _ _ => true
  | validatorRegistered _ _ _ _ | stakeIncreased _ _ | stakeDecreased _ _ | delegationEnabled _
  | delegationDisabled _ | delegatorRegistered _ _ _ | delegationIncreased _ _ _
  | delegationDecreased _ _ _ => false

theorem Amount.total_le_of_sublist {as bs : List Amount} (h : as.Sublist bs) :
    total as ≤ total bs := by
  induction h with
  | slnil => exact Nat.le_refl _
  | cons b _ ih => exact Nat.le_trans ih (Nat.le_add_left _ _)
  | cons_cons a _ ih => exact Nat.add_le_add_left ih _

namespace Ledger

variable {rules : LedgerRules} {caller : AccountId} {l l' : Ledger} {f : Fact}
  {action : StakingAction}

/-- No more counts on `l'` than on `l`. -/
structure Shrinks (l l' : Ledger) : Prop where
  totalStake : l'.totalStake ≤ l.totalStake
  validatorCount : l'.validatorCount ≤ l.validatorCount
  delegatorCount : l'.delegatorCount ≤ l.delegatorCount

theorem Shrinks.refl (l : Ledger) : l.Shrinks l :=
  ⟨Nat.le_refl _, Nat.le_refl _, Nat.le_refl _⟩

/-- Where records were only taken away from what counts, less counts. -/
theorem shrinks_of_sublist (hvalidators : l'.validators.Sublist l.validators)
    (hlive : l'.live.Sublist l.live) : l.Shrinks l' where
  totalStake := Nat.add_le_add (Amount.total_le_of_sublist (hvalidators.map _))
    (Amount.total_le_of_sublist (hlive.map _))
  validatorCount := hvalidators.length_le
  delegatorCount := hlive.length_le

/-- What counts after a validator left are the delegations to the other validators. -/
theorem live_freeze (v : AccountId) (xs : List Delegation) :
    (xs.map fun x => if x.validator = v then { x with frozen := true } else x).filter (!·.frozen) =
      (xs.filter (!·.frozen)).filter (·.validator ≠ v) := by
  induction xs with
  | nil => rfl
  | cons x xs ih =>
      by_cases hv : x.validator = v <;> cases hx : x.frozen <;> simp_all

theorem Step.shrinks (h : Step rules caller l action l' f) (exit : action.isExit) :
    l.Shrinks l' := by
  cases h with
  | unbondStake =>
      refine shrinks_of_sublist List.eraseP_sublist ?_
      rw [live, live_freeze]
      exact List.filter_sublist
  | unbondDelegation => exact shrinks_of_sublist (.refl _) (List.eraseP_sublist.filter _)
  | registerValidator | increaseStake | decreaseStake | setDelegable | registerDelegator
  | increaseDelegation | decreaseDelegation => cases exit

theorem Step.isExit_eq (h : Step rules caller l action l' f) : f.isExit = action.isExit := by
  cases h with
  | @setDelegable delegable => cases delegable <;> rfl
  | registerValidator | increaseStake | decreaseStake | unbondStake | registerDelegator
  | increaseDelegation | decreaseDelegation | unbondDelegation => rfl

end Ledger

end AppchainStaking
