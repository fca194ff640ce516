import AppchainStaking.Anchor.Staking
import AppchainStaking.Proofs.Ledger.Bound

/-!
# Positions that are not empty

Where both minimum deposits are positive, no position is ever empty, and what is taken out of one
is not nothing. A minimum of zero lets empty positions in, which can then leave with nothing.
-/

namespace AppchainStaking

structure ProtocolSettings.DemandsStake (s : ProtocolSettings) : Prop where
  validator : s.minimumValidatorDeposit ≠ 0
  delegator : s.minimumDelegatorDeposit ≠ 0

instance (s : ProtocolSettings) : Decidable s.DemandsStake :=
  decidable_of_iff (s.minimumValidatorDeposit ≠ 0 ∧ s.minimumDelegatorDeposit ≠ 0)
    ⟨fun h => ⟨h.1, h.2⟩, fun h => ⟨h.1, h.2⟩⟩

theorem Amount.ne_zero_of_le {a b : Amount} (ha : a ≠ 0) (h : a ≤ b) : b ≠ 0 := by
  rintro rfl
  exact ha (UInt64.le_zero_iff.1 h)

theorem Amount.ne_zero_of_add {a b c : Amount} (hb : 0 < b) (h : a.toNat + b.toNat = c.toNat) :
    c ≠ 0 := by
  rintro rfl
  have hpos : 0 < b.toNat := UInt64.lt_iff_toNat_lt.1 hb
  have hzero : (0 : Amount).toNat = 0 := rfl
  omega

namespace Ledger

variable {rules : LedgerRules} {caller : AccountId} {l l' : Ledger} {f : Fact}
  {action : StakingAction}

/-- Every position holds stake, frozen delegations included. -/
structure Positive (l : Ledger) : Prop where
  validators : ∀ x ∈ l.validators, x.deposit ≠ 0
  delegations : ∀ x ∈ l.delegations, x.deposit ≠ 0

theorem positive_empty : Positive {} where
  validators := by simp
  delegations := by simp

theorem Positive.updateValidator (hl : l.Positive) (v : AccountId) {g : Validator → Validator}
    (hg : ∀ x, x.deposit ≠ 0 → (g x).deposit ≠ 0) : (l.updateValidator v g).Positive where
  validators := forall_mem_updateFirst hl.validators hg
  delegations := hl.delegations

theorem Positive.updateDelegation (hl : l.Positive) (d v : AccountId) {deposit : Amount}
    (hdeposit : deposit ≠ 0) : (l.updateDelegation d v ({ · with deposit })).Positive where
  validators := hl.validators
  delegations := forall_mem_updateFirst hl.delegations fun _ _ => hdeposit

theorem Step.positive (h : Step rules caller l action l' f) (demands : rules.settings.DemandsStake)
    (hl : l.Positive) : l'.Positive := by
  cases h with
  | registerValidator minimum =>
      refine ⟨List.forall_mem_append.2 ⟨hl.validators, ?_⟩, hl.delegations⟩
      intro x hx
      obtain rfl := List.mem_singleton.1 hx
      exact Amount.ne_zero_of_le demands.validator minimum
  | increaseStake positive _ sum =>
      exact hl.updateValidator caller fun _ _ => Amount.ne_zero_of_add positive sum
  | decreaseStake _ _ _ minimum =>
      exact hl.updateValidator caller fun _ _ => Amount.ne_zero_of_le demands.validator minimum
  | unbondStake =>
      refine ⟨fun x hx => hl.validators x (List.mem_of_mem_eraseP hx), ?_⟩
      intro y hy
      obtain ⟨x, hx, rfl⟩ := List.mem_map.1 hy
      split <;> exact hl.delegations x hx
  | setDelegable => exact hl.updateValidator caller fun _ hx => hx
  | registerDelegator _ _ _ minimum =>
      refine ⟨hl.validators, List.forall_mem_append.2 ⟨hl.delegations, ?_⟩⟩
      intro x hx
      obtain rfl := List.mem_singleton.1 hx
      exact Amount.ne_zero_of_le demands.delegator minimum
  | increaseDelegation positive _ _ _ sum =>
      exact hl.updateDelegation _ _ (Amount.ne_zero_of_add positive sum)
  | decreaseDelegation _ _ _ _ _ minimum =>
      exact hl.updateDelegation _ _ (Amount.ne_zero_of_le demands.delegator minimum)
  | unbondDelegation =>
      exact ⟨hl.validators, fun x hx => hl.delegations x (List.mem_of_mem_eraseP hx)⟩

/-- What leaves a position that is not empty is not nothing. -/
theorem Step.released_ne_zero (h : Step rules caller l action l' f) (hl : l.Positive)
    {amount : Amount} {position : Position} (released : f.released? = some (amount, position)) :
    amount ≠ 0 := by
  cases h with
  | decreaseStake positive | decreaseDelegation positive =>
      cases released
      exact Ne.symm (UInt64.ne_of_lt positive)
  | unbondStake known =>
      cases released
      exact hl.validators _ (List.mem_of_find?_eq_some known)
  | unbondDelegation known =>
      cases released
      exact hl.delegations _ (List.mem_of_find?_eq_some known)
  | @setDelegable delegable => cases delegable <;> cases released
  | registerValidator | increaseStake | registerDelegator | increaseDelegation => cases released

end Ledger

end AppchainStaking
