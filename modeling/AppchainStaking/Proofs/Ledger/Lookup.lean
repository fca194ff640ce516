import AppchainStaking.Proofs.Ledger.Unique

/-!
# Looking up records

What is found under the account of a validator, and under the two accounts of a delegation, once the
ledger has been changed there or elsewhere. Only the first match counts, so none of this asks that
records are unique.
-/

namespace AppchainStaking

namespace Delegation

variable {v w : AccountId} {x : Delegation}

theorem freeze_of_ne (h : x.validator ≠ w) : x.freeze w = x := if_neg h

@[simp] theorem validator_freeze (w : AccountId) (x : Delegation) :
    (x.freeze w).validator = x.validator :=
  apply_freeze (fun _ => rfl) w x

@[simp] theorem deposit_freeze (w : AccountId) (x : Delegation) :
    (x.freeze w).deposit = x.deposit :=
  apply_freeze (fun _ => rfl) w x

theorem isOf_freeze (w d v : AccountId) (x : Delegation) :
    (x.freeze w).isOf d v = x.isOf d v :=
  apply_freeze (g := (·.isOf d v)) (fun _ => rfl) w x

theorem freeze_withDeposit (w : AccountId) (x : Delegation) (deposit : Amount) :
    freeze w { x with deposit } = { x.freeze w with deposit } := by
  unfold freeze
  split <;> rfl

theorem freeze_comm (ne : v ≠ w) (x : Delegation) :
    (x.freeze v).freeze w = (x.freeze w).freeze v := by
  by_cases hv : x.validator = v
  · have hw : x.validator ≠ w := fun h => ne (hv.symm.trans h)
    rw [freeze_of_ne hw]
    exact freeze_of_ne (by rwa [validator_freeze])
  · rw [freeze_of_ne hv]
    exact (freeze_of_ne (by rwa [validator_freeze])).symm

end Delegation

namespace Ledger

variable {d v d' v' : AccountId} {l : Ledger} {x : Delegation} {g : Validator → Validator}

theorem id_of_validator? {x : Validator} (h : l.validator? v = some x) : x.id = v := by
  simpa using List.find?_some h

theorem id_disjoint (hg : ∀ x, (g x).id = x.id) (ne : v' ≠ v) :
    ∀ x : Validator, decide (x.id = v') →
      decide (x.id = v) = false ∧ decide ((g x).id = v) = false := by
  intro x hx
  have hid : x.id = v' := by simpa using hx
  simp [hg, hid, ne]

theorem validator?_updateValidator_self (hg : ∀ x, (g x).id = x.id) :
    (l.updateValidator v g).validator? v = (l.validator? v).map g := by
  apply find?_updateFirst
  intro x hx
  simpa [hg] using hx

theorem validator?_updateValidator_of_ne (hg : ∀ x, (g x).id = x.id) (ne : v' ≠ v) :
    (l.updateValidator v' g).validator? v = l.validator? v :=
  find?_updateFirst_of_disjoint (id_disjoint hg ne) l.validators

theorem isSome_validator?_updateValidator (hg : ∀ x, (g x).id = x.id) :
    ((l.updateValidator v' g).validator? v).isSome = (l.validator? v).isSome := by
  by_cases ne : v' = v
  · subst ne
    rw [validator?_updateValidator_self hg, Option.isSome_map]
  · rw [validator?_updateValidator_of_ne hg ne]

theorem find?_eraseP_id_of_ne (ne : v' ≠ v) :
    (l.validators.eraseP (·.id = v')).find? (·.id = v) = l.validator? v :=
  find?_eraseP_of_disjoint (fun x hx => (id_disjoint (fun _ => rfl) ne x hx).1) l.validators

theorem isOf_of_delegation? (h : l.delegation? d v = some x) :
    x.delegator = d ∧ x.validator = v := by
  simpa [Delegation.isOf] using List.find?_some h

theorem delegation?_updateDelegation_self {deposit : Amount} (known : l.delegation? d v = some x) :
    (l.updateDelegation d v ({ · with deposit })).delegation? d v = some { x with deposit } := by
  have h := find?_updateFirst (p := (·.isOf d v)) (f := ({ · with deposit })) (fun _ h => h)
    l.delegations
  rw [show l.delegations.find? (·.isOf d v) = some x from known] at h
  exact h

theorem isOf_eq_false_of_isOf (ne : (d', v') ≠ (d, v)) (h : x.isOf d' v') :
    x.isOf d v = false := by
  rw [Delegation.isOf_eq, decide_eq_true_eq] at h
  rw [Delegation.isOf_eq, h, decide_eq_false_iff_not]
  exact ne

theorem isOf_disjoint (ne : (d', v') ≠ (d, v)) (deposit : Amount) :
    ∀ x : Delegation, x.isOf d' v' →
      x.isOf d v = false ∧ Delegation.isOf d v { x with deposit } = false := by
  intro x hx
  exact ⟨isOf_eq_false_of_isOf ne hx, isOf_eq_false_of_isOf ne hx⟩

theorem delegation?_updateDelegation_of_ne {deposit : Amount} (ne : (d', v') ≠ (d, v)) :
    (l.updateDelegation d' v' ({ · with deposit })).delegation? d v = l.delegation? d v :=
  find?_updateFirst_of_disjoint (isOf_disjoint ne deposit) l.delegations

theorem delegation?_erase_of_ne (ne : (d', v') ≠ (d, v)) :
    delegation? { l with delegations := l.delegations.eraseP (·.isOf d' v') } d v =
      l.delegation? d v := by
  apply find?_eraseP_of_disjoint
  intro y hy
  exact isOf_eq_false_of_isOf ne hy

theorem delegation?_erase_self (hl : l.Unique) (d v : AccountId) :
    delegation? { l with delegations := l.delegations.eraseP (·.isOf d v) } d v = none := by
  simp only [delegation?, Delegation.isOf_eq]
  rw [eraseP_eq_filter hl.delegations, List.find?_eq_none]
  intro y hy
  simpa using (List.mem_filter.1 hy).2

/-- The delegation that is found after a validator left is the one from before, frozen if it is
bound to that validator. -/
theorem find?_freeze (w d v : AccountId) (l : Ledger) :
    (l.delegations.map (·.freeze w)).find? (·.isOf d v) =
      (l.delegation? d v).map (·.freeze w) := by
  rw [List.find?_map]
  exact congrArg (fun p => (l.delegations.find? p).map _) (funext fun x => x.isOf_freeze w d v)

theorem find?_freeze_of_ne {w : AccountId} (ne : w ≠ v) (d : AccountId) (l : Ledger) :
    (l.delegations.map (·.freeze w)).find? (·.isOf d v) = l.delegation? d v := by
  rw [find?_freeze]
  cases h : l.delegation? d v with
  | none => rfl
  | some x =>
      rw [Option.map_some, Delegation.freeze_of_ne ((isOf_of_delegation? h).2 ▸ ne.symm)]

end Ledger

end AppchainStaking
