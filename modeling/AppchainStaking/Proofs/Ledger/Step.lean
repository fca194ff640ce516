import AppchainStaking.Ledger.Action

/-!
# What the ledger accepts

The accepted actions as a relation, with one case for each action: what has to hold before, what
becomes of the ledger, and the fact that is left. Sums and differences are stated for natural
numbers. An action succeeds exactly when the relation holds, so the proofs about the ledger argue
by its cases.
-/

namespace AppchainStaking

open StakingError

variable {rules : LedgerRules} {caller : AccountId} {l l' : Ledger} {f : Fact}

theorem Profile.checked_eq_ok_iff {p : Profile} {entries : List ProfileEntry} :
    p.checked = .ok entries ↔ p.Fits ∧ entries = p.entries := by
  unfold Profile.checked
  by_cases h : p.Fits <;> simp [h, eq_comm]

namespace Delegation

def freeze (w : AccountId) (x : Delegation) : Delegation :=
  if x.validator = w then { x with frozen := true } else x

/-- Freezing keeps whatever does not look at the mark. -/
theorem apply_freeze {κ : Type} {g : Delegation → κ} (hg : ∀ x, g { x with frozen := true } = g x)
    (w : AccountId) (x : Delegation) : g (x.freeze w) = g x := by
  unfold freeze
  split
  · exact hg x
  · rfl

end Delegation

namespace Ledger

theorem validator_eq_ok_iff {v : AccountId} {x : Validator} :
    l.validator v = .ok x ↔ l.validator? v = some x :=
  found_eq_ok_iff

theorem liveDelegation_eq_ok_iff {d v : AccountId} {x : Delegation} :
    l.liveDelegation d v = .ok x ↔
      (l.validator? v).isSome ∧ l.delegation? d v = some x ∧ x.frozen = false := by
  simp only [liveDelegation, bind_eq_ok_iff, validator_eq_ok_iff, found_eq_ok_iff,
    require_eq_ok_iff, pure_eq_ok_iff, Option.isSome_iff_exists]
  constructor
  · rintro ⟨y, hy, z, hz, _, hlive, rfl⟩
    exact ⟨⟨y, hy⟩, hz, by simpa using hlive⟩
  · rintro ⟨⟨y, hy⟩, hx, hlive⟩
    exact ⟨y, hy, x, hx, (), by simp [hlive], rfl⟩

/-- The actions that the ledger accepts from `caller`, with what each does and the fact it
leaves. -/
inductive Step (rules : LedgerRules) (caller : AccountId) (l : Ledger) :
    StakingAction → Ledger → Fact → Prop
  | registerValidator {raw id : String} {amount : Amount} {delegable : Bool} {profile : Profile}
      (minimum : rules.settings.minimumValidatorDeposit ≤ amount)
      (fresh : l.validator? caller = none)
      (normal : rules.template.normalize raw = .ok id)
      (distinct : ∀ v ∈ l.validators, v.appchainId ≠ id)
      (room : l.validatorCount < rules.settings.maximumValidatorCount.toNat)
      (fits : profile.Fits) :
      Step rules caller l (.registerValidator raw amount delegable profile)
        { l with
          validators := l.validators ++
            [{ id := caller, appchainId := id, deposit := amount, delegable
               profile := profile.entries, registeredEra := rules.era }] }
        (.validatorRegistered caller id amount delegable)
  | increaseStake {x : Validator} {amount deposit : Amount}
      (positive : 0 < amount)
      (known : l.validator? caller = some x)
      (sum : x.deposit.toNat + amount.toNat = deposit.toNat) :
      Step rules caller l (.increaseStake amount) (l.updateValidator caller ({ · with deposit }))
        (.stakeIncreased caller amount)
  | decreaseStake {x : Validator} {amount deposit : Amount}
      (positive : 0 < amount)
      (known : l.validator? caller = some x)
      (sum : deposit.toNat + amount.toNat = x.deposit.toNat)
      (minimum : rules.settings.minimumValidatorDeposit ≤ deposit) :
      Step rules caller l (.decreaseStake amount) (l.updateValidator caller ({ · with deposit }))
        (.stakeDecreased caller amount)
  | unbondStake {x : Validator}
      (known : l.validator? caller = some x) :
      Step rules caller l .unbondStake
        { validators := l.validators.eraseP (·.id = caller)
          delegations := l.delegations.map fun x =>
            if x.validator = caller then { x with frozen := true } else x }
        (.validatorUnbonded caller x.deposit)
  | setDelegable {delegable : Bool}
      (known : (l.validator? caller).isSome) :
      Step rules caller l (.setDelegable delegable)
        (l.updateValidator caller ({ · with delegable }))
        (if delegable then .delegationEnabled caller else .delegationDisabled caller)
  | registerDelegator {v : AccountId} {y : Validator} {amount : Amount}
      (known : l.validator? v = some y)
      (fresh : l.delegation? caller v = none)
      (delegable : y.delegable)
      (minimum : rules.settings.minimumDelegatorDeposit ≤ amount)
      (room : l.validatorCountOf caller < rules.settings.maximumValidatorsPerDelegator.toNat) :
      Step rules caller l (.registerDelegator v amount)
        { l with
          delegations := l.delegations ++
            [{ delegator := caller, validator := v, deposit := amount, frozen := false }] }
        (.delegatorRegistered caller v amount)
  | increaseDelegation {v : AccountId} {x : Delegation} {amount deposit : Amount}
      (positive : 0 < amount)
      (bound : (l.validator? v).isSome)
      (known : l.delegation? caller v = some x)
      (live : x.frozen = false)
      (sum : x.deposit.toNat + amount.toNat = deposit.toNat) :
      Step rules caller l (.increaseDelegation v amount)
        (l.updateDelegation caller v ({ · with deposit }))
        (.delegationIncreased caller v amount)
  | decreaseDelegation {v : AccountId} {x : Delegation} {amount deposit : Amount}
      (positive : 0 < amount)
      (bound : (l.validator? v).isSome)
      (known : l.delegation? caller v = some x)
      (live : x.frozen = false)
      (sum : deposit.toNat + amount.toNat = x.deposit.toNat)
      (minimum : rules.settings.minimumDelegatorDeposit ≤ deposit) :
      Step rules caller l (.decreaseDelegation v amount)
        (l.updateDelegation caller v ({ · with deposit }))
        (.delegationDecreased caller v amount)
  | unbondDelegation {v : AccountId} {x : Delegation}
      (known : l.delegation? caller v = some x) :
      Step rules caller l (.unbondDelegation v)
        { l with delegations := l.delegations.eraseP (·.isOf caller v) }
        (.delegatorUnbonded caller v x.deposit)

theorem Step.of_act {action : StakingAction} (h : l.act rules caller action = .ok (l', f)) :
    Step rules caller l action l' f := by
  cases action with
  | registerValidator raw amount delegable profile =>
      simp only [act, Ledger.registerValidator, bind_eq_ok_iff, require_eq_ok_iff, pure_eq_ok_iff,
        Profile.checked_eq_ok_iff, Prod.mk.injEq] at h
      obtain ⟨_, minimum, _, fresh, id, normal, _, distinct, _, room, _, ⟨fits, rfl⟩, rfl, rfl⟩ := h
      exact .registerValidator minimum fresh normal distinct room fits
  | increaseStake amount =>
      simp only [act, Ledger.increaseStake, bind_eq_ok_iff, require_eq_ok_iff, pure_eq_ok_iff,
        validator_eq_ok_iff, Amount.add_eq_ok_iff, Prod.mk.injEq] at h
      obtain ⟨_, positive, x, known, deposit, sum, rfl, rfl⟩ := h
      exact .increaseStake positive known sum
  | decreaseStake amount =>
      simp only [act, Ledger.decreaseStake, bind_eq_ok_iff, require_eq_ok_iff, pure_eq_ok_iff,
        validator_eq_ok_iff, Amount.sub_eq_ok_iff, Prod.mk.injEq] at h
      obtain ⟨_, positive, x, known, deposit, sum, _, minimum, rfl, rfl⟩ := h
      exact .decreaseStake positive known sum minimum
  | unbondStake =>
      simp only [act, Ledger.unbondStake, bind_eq_ok_iff, pure_eq_ok_iff, validator_eq_ok_iff,
        Prod.mk.injEq] at h
      obtain ⟨x, known, rfl, rfl⟩ := h
      exact .unbondStake known
  | setDelegable delegable =>
      simp only [act, Ledger.setDelegable, bind_eq_ok_iff, pure_eq_ok_iff, validator_eq_ok_iff,
        Prod.mk.injEq] at h
      obtain ⟨x, known, rfl, rfl⟩ := h
      exact .setDelegable (Option.isSome_of_mem known)
  | registerDelegator v amount =>
      simp only [act, Ledger.registerDelegator, bind_eq_ok_iff, require_eq_ok_iff, pure_eq_ok_iff,
        validator_eq_ok_iff, Prod.mk.injEq] at h
      obtain ⟨y, known, _, fresh, _, delegable, _, minimum, _, room, rfl, rfl⟩ := h
      exact .registerDelegator known fresh delegable minimum room
  | increaseDelegation v amount =>
      simp only [act, Ledger.increaseDelegation, bind_eq_ok_iff, require_eq_ok_iff, pure_eq_ok_iff,
        liveDelegation_eq_ok_iff, Amount.add_eq_ok_iff, Prod.mk.injEq] at h
      obtain ⟨_, positive, x, ⟨bound, known, live⟩, deposit, sum, rfl, rfl⟩ := h
      exact .increaseDelegation positive bound known live sum
  | decreaseDelegation v amount =>
      simp only [act, Ledger.decreaseDelegation, bind_eq_ok_iff, require_eq_ok_iff, pure_eq_ok_iff,
        liveDelegation_eq_ok_iff, Amount.sub_eq_ok_iff, Prod.mk.injEq] at h
      obtain ⟨_, positive, x, ⟨bound, known, live⟩, deposit, sum, _, minimum, rfl, rfl⟩ := h
      exact .decreaseDelegation positive bound known live sum minimum
  | unbondDelegation v =>
      simp only [act, Ledger.unbondDelegation, bind_eq_ok_iff, found_eq_ok_iff, pure_eq_ok_iff,
        Prod.mk.injEq] at h
      obtain ⟨x, known, rfl, rfl⟩ := h
      exact .unbondDelegation known

/-- The relation is exact: whatever it allows the ledger accepts. -/
theorem act_eq_ok_iff {action : StakingAction} :
    l.act rules caller action = .ok (l', f) ↔ Step rules caller l action l' f := by
  refine ⟨Step.of_act, fun h => ?_⟩
  cases h with
  | registerValidator minimum fresh normal distinct room fits =>
      simp only [act, Ledger.registerValidator, bind_eq_ok_iff, require_eq_ok_iff, pure_eq_ok_iff,
        Profile.checked_eq_ok_iff]
      exact ⟨(), minimum, (), fresh, _, normal, (), distinct, (), room, _, ⟨fits, rfl⟩, rfl⟩
  | increaseStake positive known sum =>
      simp only [act, Ledger.increaseStake, bind_eq_ok_iff, require_eq_ok_iff, pure_eq_ok_iff,
        validator_eq_ok_iff, Amount.add_eq_ok_iff]
      exact ⟨(), positive, _, known, _, sum, rfl⟩
  | decreaseStake positive known sum minimum =>
      simp only [act, Ledger.decreaseStake, bind_eq_ok_iff, require_eq_ok_iff, pure_eq_ok_iff,
        validator_eq_ok_iff, Amount.sub_eq_ok_iff]
      exact ⟨(), positive, _, known, _, sum, (), minimum, rfl⟩
  | unbondStake known =>
      simp only [act, Ledger.unbondStake, bind_eq_ok_iff, pure_eq_ok_iff, validator_eq_ok_iff]
      exact ⟨_, known, rfl⟩
  | setDelegable known =>
      obtain ⟨x, known⟩ := Option.isSome_iff_exists.1 known
      simp only [act, Ledger.setDelegable, bind_eq_ok_iff, pure_eq_ok_iff, validator_eq_ok_iff]
      exact ⟨x, known, trivial⟩
  | registerDelegator known fresh delegable minimum room =>
      simp only [act, Ledger.registerDelegator, bind_eq_ok_iff, require_eq_ok_iff, pure_eq_ok_iff,
        validator_eq_ok_iff]
      exact ⟨_, known, (), fresh, (), delegable, (), minimum, (), room, trivial⟩
  | increaseDelegation positive bound known live sum =>
      simp only [act, Ledger.increaseDelegation, bind_eq_ok_iff, require_eq_ok_iff,
        pure_eq_ok_iff, liveDelegation_eq_ok_iff, Amount.add_eq_ok_iff]
      exact ⟨(), positive, _, ⟨bound, known, live⟩, _, sum, rfl⟩
  | decreaseDelegation positive bound known live sum minimum =>
      simp only [act, Ledger.decreaseDelegation, bind_eq_ok_iff, require_eq_ok_iff,
        pure_eq_ok_iff, liveDelegation_eq_ok_iff, Amount.sub_eq_ok_iff]
      exact ⟨(), positive, _, ⟨bound, known, live⟩, _, sum, (), minimum, rfl⟩
  | unbondDelegation known =>
      simp only [act, Ledger.unbondDelegation, bind_eq_ok_iff, found_eq_ok_iff, pure_eq_ok_iff]
      exact ⟨_, known, rfl⟩

theorem map_freeze {κ : Type} {g : Delegation → κ} (hg : ∀ x, g { x with frozen := true } = g x)
    (w : AccountId) (xs : List Delegation) :
    (xs.map fun x => if x.validator = w then { x with frozen := true } else x).map g =
      xs.map g := by
  rw [List.map_map]
  exact List.map_congr_left fun x _ => Delegation.apply_freeze hg w x

/-- A delegation that still counts was there before, and is bound to another validator. -/
theorem of_mem_freeze {w : AccountId} {y : Delegation} {xs : List Delegation}
    (h : y ∈ xs.map fun x => if x.validator = w then { x with frozen := true } else x)
    (live : y.frozen = false) : y ∈ xs ∧ y.validator ≠ w := by
  obtain ⟨x, hx, rfl⟩ := List.mem_map.1 h
  by_cases hw : x.validator = w
  · rw [if_pos hw] at live
    cases live
  · rw [if_neg hw]
    exact ⟨hx, hw⟩

end Ledger

end AppchainStaking
