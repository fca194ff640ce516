import AppchainStaking.Proofs.Ledger.Step

/-!
# Records are unique

No two validators share an account, and no two delegations, frozen ones included, share the pair
of delegator and validator. Every accepted action keeps this, so on a ledger that grew from the
empty one the first match is the only match, and changing or removing it affects one record.
-/

namespace AppchainStaking

section FirstMatch

variable {α κ : Type} [DecidableEq κ] {key : α → κ} {f : α → α}

/-- With unique keys, changing the first match changes every match. -/
theorem updateFirst_eq_map {k : κ} {xs : List α} (h : (xs.map key).Nodup) :
    updateFirst (key · = k) f xs = xs.map fun x => if key x = k then f x else x := by
  induction xs with
  | nil => rfl
  | cons x xs ih =>
      obtain ⟨hx, hxs⟩ := List.nodup_cons.1 h
      by_cases hk : key x = k
      · have hrest : ∀ y ∈ xs, key y ≠ k := fun y hy heq =>
          hx (hk ▸ heq ▸ List.mem_map_of_mem hy)
        have hid : xs.map (fun x => if key x = k then f x else x) = xs.map id :=
          List.map_congr_left fun y hy => by simp [hrest y hy]
        simp [updateFirst, hk, hid]
      · simp [updateFirst, hk, ih hxs]

theorem eraseP_eq_filter {k : κ} {xs : List α} (h : (xs.map key).Nodup) :
    xs.eraseP (key · = k) = xs.filter (key · ≠ k) := by
  induction xs with
  | nil => rfl
  | cons x xs ih =>
      obtain ⟨hx, hxs⟩ := List.nodup_cons.1 h
      by_cases hk : key x = k
      · have hrest : ∀ y ∈ xs, key y ≠ k := fun y hy heq =>
          hx (hk ▸ heq ▸ List.mem_map_of_mem hy)
        have hid : xs.filter (key · ≠ k) = xs :=
          List.filter_eq_self.2 fun y hy => by simp [hrest y hy]
        rw [List.eraseP_cons_of_pos (by simp [hk]), List.filter_cons_of_neg (by simp [hk]), hid]
      · rw [List.eraseP_cons_of_neg (by simp [hk]), List.filter_cons_of_pos (by simp [hk]),
          ih hxs]

theorem filter_eq_toList_find? {k : κ} {xs : List α} (h : (xs.map key).Nodup) :
    xs.filter (key · = k) = (xs.find? (key · = k)).toList := by
  induction xs with
  | nil => rfl
  | cons x xs ih =>
      obtain ⟨hx, hxs⟩ := List.nodup_cons.1 h
      by_cases hk : key x = k
      · have hrest : ∀ y ∈ xs, key y ≠ k := fun y hy heq =>
          hx (hk ▸ heq ▸ List.mem_map_of_mem hy)
        have hnil : xs.filter (key · = k) = [] :=
          List.filter_eq_nil_iff.2 fun y hy => by simp [hrest y hy]
        simp [hk, hnil]
      · simp [hk, ih hxs]

theorem eq_of_find?_eq_some {k : κ} {x y : α} {xs : List α} (h : (xs.map key).Nodup)
    (hy : xs.find? (key · = k) = some y) (hx : x ∈ xs) (hk : key x = k) : x = y := by
  have hmem : x ∈ xs.filter (key · = k) := List.mem_filter.2 ⟨hx, by simp [hk]⟩
  rw [filter_eq_toList_find? h, hy] at hmem
  simpa using hmem

theorem nodup_concat_of_find?_eq_none {k : κ} {x : α} {xs : List α} (h : (xs.map key).Nodup)
    (hnone : xs.find? (key · = k) = none) (hx : key x = k) : ((xs ++ [x]).map key).Nodup := by
  rw [List.map_append, List.nodup_append]
  refine ⟨h, by simp, fun a ha b hb => ?_⟩
  obtain ⟨y, hy, rfl⟩ := List.mem_map.1 ha
  obtain rfl : b = k := by simpa [hx] using hb
  simpa using List.find?_eq_none.1 hnone y hy

end FirstMatch

def Delegation.pair (x : Delegation) : AccountId × AccountId := (x.delegator, x.validator)

theorem Delegation.isOf_eq (d v : AccountId) (x : Delegation) :
    x.isOf d v = decide (x.pair = (d, v)) := by
  simp [isOf, pair]

namespace Ledger

variable {rules : LedgerRules} {caller : AccountId} {l l' : Ledger} {f : Fact}
  {action : StakingAction}

structure Unique (l : Ledger) : Prop where
  validators : (l.validators.map (·.id)).Nodup
  delegations : (l.delegations.map (·.pair)).Nodup

theorem unique_empty : Unique {} := ⟨.nil, .nil⟩

theorem Unique.updateValidator (h : l.Unique) (v : AccountId) {g : Validator → Validator}
    (hg : ∀ x, (g x).id = x.id) : (l.updateValidator v g).Unique :=
  ⟨by rw [Ledger.updateValidator, map_updateFirst hg]; exact h.validators, h.delegations⟩

theorem Unique.updateDelegation (h : l.Unique) (d v : AccountId) {g : Delegation → Delegation}
    (hg : ∀ x, (g x).pair = x.pair) : (l.updateDelegation d v g).Unique :=
  ⟨h.validators, by rw [Ledger.updateDelegation, map_updateFirst hg]; exact h.delegations⟩

theorem Step.unique (h : Step rules caller l action l' f) (hl : l.Unique) : l'.Unique := by
  cases h with
  | registerValidator _ fresh =>
      exact ⟨nodup_concat_of_find?_eq_none hl.validators fresh rfl, hl.delegations⟩
  | increaseStake | decreaseStake | setDelegable => exact hl.updateValidator _ fun _ => rfl
  | unbondStake =>
      refine ⟨hl.validators.sublist (List.eraseP_sublist.map _), ?_⟩
      rw [map_freeze fun _ => rfl]
      exact hl.delegations
  | @registerDelegator v _ _ _ fresh =>
      refine ⟨hl.validators, nodup_concat_of_find?_eq_none (k := (caller, v)) hl.delegations ?_ rfl⟩
      simpa only [delegation?, Delegation.isOf_eq] using fresh
  | increaseDelegation | decreaseDelegation => exact hl.updateDelegation _ _ fun _ => rfl
  | unbondDelegation =>
      exact ⟨hl.validators, hl.delegations.sublist (List.eraseP_sublist.map _)⟩

end Ledger

end AppchainStaking
