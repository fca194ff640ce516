import AppchainStaking.Proofs.Ledger.Run
import AppchainStaking.Proofs.Ledger.Stake
import AppchainStaking.Proofs.Ledger.Unique

/-!
# Delegations that count are bound

A delegation that is not frozen is bound to a validator that is there. Every accepted action keeps
this, whatever rules it is judged by, because a validator that leaves freezes its delegations.
-/

namespace AppchainStaking

theorem forall_mem_updateFirst {α : Type} {P : α → Prop} {p : α → Bool} {f : α → α} {xs : List α}
    (h : ∀ x ∈ xs, P x) (hf : ∀ x, P x → P (f x)) : ∀ x ∈ updateFirst p f xs, P x := by
  induction xs with
  | nil => exact h
  | cons x xs ih =>
      obtain ⟨hx, hxs⟩ := List.forall_mem_cons.1 h
      by_cases hp : p x
      · rw [updateFirst, if_pos hp]
        exact List.forall_mem_cons.2 ⟨hf x hx, hxs⟩
      · rw [updateFirst, if_neg hp]
        exact List.forall_mem_cons.2 ⟨hx, ih hxs⟩

namespace Ledger

variable {rules : LedgerRules} {caller : AccountId} {l l' : Ledger} {f : Fact}
  {action : StakingAction} {t : Template}

def IsBound (l : Ledger) : Prop :=
  ∀ x ∈ l.delegations, x.frozen = false → x.validator ∈ l.validators.map (·.id)

theorem isBound_empty : IsBound {} := by simp [IsBound]

theorem mem_ids_of_validator? {v : AccountId} {x : Validator} (h : l.validator? v = some x) :
    v ∈ l.validators.map (·.id) :=
  List.mem_map.2 ⟨x, List.mem_of_find?_eq_some h, id_of_validator? h⟩

theorem IsBound.updateValidator (h : l.IsBound) (v : AccountId) {g : Validator → Validator}
    (hid : ∀ x, (g x).id = x.id) : (l.updateValidator v g).IsBound := by
  rw [IsBound, Ledger.updateValidator, map_updateFirst hid]
  exact h

theorem IsBound.updateDelegation (h : l.IsBound) (d v : AccountId) (deposit : Amount) :
    (l.updateDelegation d v ({ · with deposit })).IsBound :=
  forall_mem_updateFirst h fun _ hx => hx

/-- When a validator leaves, the delegations that still count are bound to others. -/
theorem IsBound.unbonded (h : l.IsBound) (v : AccountId) :
    ∀ y ∈ l.delegations.map (fun x => if x.validator = v then { x with frozen := true } else x),
      y.frozen = false → y.validator ∈ (l.validators.eraseP (·.id = v)).map (·.id) := by
  intro y hy live
  obtain ⟨hy, hv⟩ := of_mem_freeze hy live
  obtain ⟨z, hz, hid⟩ := List.mem_map.1 (h y hy live)
  have hkept : z ∈ l.validators.eraseP (·.id = v) :=
    (List.mem_eraseP_of_neg (by simp [hid, hv])).2 hz
  exact List.mem_map.2 ⟨z, hkept, hid⟩

theorem Step.isBound (h : Step rules caller l action l' f) (hl : l.IsBound) : l'.IsBound := by
  cases h with
  | registerValidator =>
      intro x hx live
      rw [List.map_append]
      exact List.mem_append_left _ (hl x hx live)
  | increaseStake | decreaseStake | setDelegable => exact hl.updateValidator _ fun _ => rfl
  | unbondStake => exact hl.unbonded caller
  | registerDelegator known =>
      refine List.forall_mem_append.2 ⟨hl, ?_⟩
      intro x hx _
      obtain rfl := List.mem_singleton.1 hx
      exact mem_ids_of_validator? known
  | increaseDelegation | decreaseDelegation => exact hl.updateDelegation _ _ _
  | unbondDelegation => exact fun x hx => hl x (List.mem_of_mem_eraseP hx)

theorem Change.isBound (h : Change t l l') (hl : l.IsBound) : l'.IsBound := by
  cases h with
  | acted _ step => exact step.isBound hl
  | profileSet => exact hl.updateValidator _ fun _ => rfl
  | unchanged => exact hl

theorem Change.unique (h : Change t l l') (hl : l.Unique) : l'.Unique := by
  cases h with
  | acted _ step => exact step.unique hl
  | profileSet => exact hl.updateValidator _ fun _ => rfl
  | unchanged => exact hl

theorem Reachable.isBound (h : l.Reachable) : l.IsBound := h.invariant isBound_empty Change.isBound

theorem Reachable.unique (h : l.Reachable) : l.Unique := h.invariant unique_empty Change.unique

end Ledger

end AppchainStaking
