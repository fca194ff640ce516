import AppchainStaking.Ledger.Basic
import AppchainStaking.Proofs.Ledger.Bound
import AppchainStaking.Proofs.Total
import Mathlib.Algebra.BigOperators.Finprod

/-!
# Aggregate views agree

Stake and delegations are counted over the whole ledger, validator by validator, and account by
account. The three countings agree on every ledger that grew from the empty one, because there a
delegation that counts is bound to exactly one of the listed validators, and no pair of delegator
and validator occurs twice.
-/

namespace AppchainStaking

/-- Grouping by distinct keys that occur for every element is a rearrangement. -/
theorem flatMap_filter_perm {α κ : Type} [DecidableEq κ] {key : α → κ} {ks : List κ} {xs : List α}
    (hks : ks.Nodup) (covered : ∀ x ∈ xs, key x ∈ ks) :
    (ks.flatMap fun k => xs.filter (key · = k)).Perm xs := by
  induction ks generalizing xs with
  | nil =>
      have hxs : xs = [] := List.eq_nil_iff_forall_not_mem.2 fun x hx => by simpa using covered x hx
      rw [hxs]
      exact .nil
  | cons k ks ih =>
      obtain ⟨hk, hks⟩ := List.nodup_cons.1 hks
      -- What is left after the group of `k` is grouped by the other keys as before.
      have hrest : (ks.flatMap fun j => xs.filter (key · = j)) =
          ks.flatMap fun j => (xs.filter fun x => !decide (key x = k)).filter (key · = j) := by
        refine List.flatMap_congr fun j hj => ?_
        have hjk : j ≠ k := fun heq => hk (heq ▸ hj)
        rw [List.filter_filter]
        refine List.filter_congr fun x _ => ?_
        by_cases hx : key x = j <;> simp [hx, hjk]
      have hcovered : ∀ x ∈ xs.filter (fun x => !decide (key x = k)), key x ∈ ks := by
        intro x hx
        obtain ⟨hmem, hne⟩ := List.mem_filter.1 hx
        exact (List.mem_cons.1 (covered x hmem)).resolve_left (by simpa using hne)
      rw [List.flatMap_cons, hrest]
      exact ((ih hks hcovered).append_left _).trans (List.filter_append_perm _ xs)

theorem Amount.total_map_flatMap {α β : Type} (g : β → Amount) (f : α → List β) (xs : List α) :
    Amount.total ((xs.flatMap f).map g) = (xs.map fun x => Amount.total ((f x).map g)).sum := by
  induction xs with
  | nil => rfl
  | cons x xs ih => simp [ih]

namespace Ledger

variable {l : Ledger}

/-- The registered validators to which a delegation of `d` that counts is bound. -/
def chosenBy (l : Ledger) (d : AccountId) : Finset AccountId :=
  (l.validators.map (·.id)).toFinset.filter fun v =>
    ∃ x ∈ l.delegations, x.frozen = false ∧ x.delegator = d ∧ x.validator = v

structure ViewsAgree (l : Ledger) : Prop where
  totalStake_list : l.totalStake = (l.validatorList.map (·.totalStake)).sum
  delegatorCount_list : l.delegatorCount = (l.validatorList.map (·.delegatorCount)).sum
  /-- Summed over all accounts there are; only delegators contribute. -/
  delegatorCount_accounts : l.delegatorCount = ∑ᶠ d, l.validatorCountOf d
  validatorCount_list : l.validatorCount = l.validatorList.length
  delegatorCount_record : ∀ v ∈ l.validatorList,
    v.delegatorCount = ((l.delegationsOf v.id).filter (!·.frozen)).length
  totalStake_record : ∀ v ∈ l.validatorList,
    v.totalStake = v.deposit.toNat +
      Amount.total (((l.delegationsOf v.id).filter (!·.frozen)).map (·.deposit))
  validatorCountOf_distinct : ∀ d, l.validatorCountOf d = (l.chosenBy d).card

theorem mem_live {x : Delegation} : x ∈ l.live ↔ x ∈ l.delegations ∧ x.frozen = false := by
  simp [live]

theorem liveOf_eq (l : Ledger) (v : AccountId) :
    l.liveOf v = (l.delegationsOf v).filter (!·.frozen) := by
  simp only [liveOf, live, delegationsOf, List.filter_filter]
  exact List.filter_congr fun x _ => Bool.and_comm _ _

/-- Read validator by validator, every delegation that counts is met once. -/
theorem flatMap_liveOf_perm (hl : l.Unique) (hbound : l.IsBound) :
    (l.validators.flatMap fun v => l.liveOf v.id).Perm l.live := by
  have covered : ∀ x ∈ l.live, x.validator ∈ l.validators.map (·.id) := by
    intro x hx
    obtain ⟨hmem, live⟩ := mem_live.1 hx
    exact hbound x hmem live
  have hperm := flatMap_filter_perm hl.validators covered
  rwa [List.flatMap_map] at hperm

theorem totalStake_eq_sum (hl : l.Unique) (hbound : l.IsBound) :
    l.totalStake = (l.validatorList.map (·.totalStake)).sum := by
  have hlive := Amount.total_perm ((flatMap_liveOf_perm hl hbound).map (·.deposit))
  rw [Amount.total_map_flatMap] at hlive
  rw [totalStake, ← hlive, validatorList, List.map_map]
  generalize l.validators = vs
  induction vs with
  | nil => rfl
  | cons v vs ih =>
      simp only [List.map_cons, Amount.total_cons, List.sum_cons, Function.comp_apply, overview]
        at ih ⊢
      omega

theorem delegatorCount_eq_sum (hl : l.Unique) (hbound : l.IsBound) :
    l.delegatorCount = (l.validatorList.map (·.delegatorCount)).sum := by
  have hlength := (flatMap_liveOf_perm hl hbound).length_eq
  rw [List.length_flatMap] at hlength
  rw [delegatorCount, ← hlength, validatorList, List.map_map]
  rfl

theorem validatorCountOf_eq_count (l : Ledger) (d : AccountId) :
    l.validatorCountOf d = (l.live.map (·.delegator)).count d := by
  rw [validatorCountOf, ← List.countP_eq_length_filter, List.count, List.countP_map]
  rfl

/-- Every delegation that counts has one delegator, whatever the ledger. -/
theorem delegatorCount_eq_finsum (l : Ledger) : l.delegatorCount = ∑ᶠ d, l.validatorCountOf d := by
  have hsupport : Function.support l.validatorCountOf ⊆ (l.live.map (·.delegator)).toFinset := by
    intro d hd
    rw [Function.mem_support, validatorCountOf_eq_count] at hd
    simpa using List.count_pos_iff.1 (Nat.pos_of_ne_zero hd)
  rw [finsum_eq_finsetSum_of_support_subset _ hsupport,
    Finset.sum_congr rfl fun d _ => validatorCountOf_eq_count l d,
    List.sum_toFinset_count_eq_length, List.length_map, delegatorCount]

/-- The validators of the delegations that count for `d` are registered and do not repeat. -/
theorem validatorCountOf_eq_card (hl : l.Unique) (hbound : l.IsBound) (d : AccountId) :
    l.validatorCountOf d = (l.chosenBy d).card := by
  have hnodup : ((l.live.filter (·.delegator = d)).map (·.validator)).Nodup := by
    have hpairs : ((l.live.filter (·.delegator = d)).map (·.pair)).Nodup :=
      hl.delegations.sublist ((List.filter_sublist.trans List.filter_sublist).map _)
    have hfst : (l.live.filter (·.delegator = d)).map (·.pair) =
        ((l.live.filter (·.delegator = d)).map (·.validator)).map (d, ·) := by
      rw [List.map_map]
      refine List.map_congr_left fun x hx => ?_
      have hd : x.delegator = d := by simpa using (List.mem_filter.1 hx).2
      simp [Delegation.pair, hd]
    exact .of_map _ (hfst ▸ hpairs)
  have hchosen : l.chosenBy d = ((l.live.filter (·.delegator = d)).map (·.validator)).toFinset := by
    ext v
    simp only [chosenBy, Finset.mem_filter, List.mem_toFinset, List.mem_map, List.mem_filter,
      mem_live, decide_eq_true_eq]
    constructor
    · rintro ⟨-, x, hx, live, rfl, rfl⟩
      exact ⟨x, ⟨⟨hx, live⟩, rfl⟩, rfl⟩
    · rintro ⟨x, ⟨⟨hx, live⟩, rfl⟩, rfl⟩
      exact ⟨List.mem_map.1 (hbound x hx live), x, hx, live, rfl, rfl⟩
  rw [hchosen, List.toFinset_card_of_nodup hnodup, List.length_map, validatorCountOf]

/-- On every ledger that grew from the empty one the views agree. -/
theorem views_agree (h : l.Reachable) : l.ViewsAgree where
  totalStake_list := totalStake_eq_sum h.unique h.isBound
  delegatorCount_list := delegatorCount_eq_sum h.unique h.isBound
  delegatorCount_accounts := delegatorCount_eq_finsum l
  validatorCount_list := (List.length_map _).symm
  delegatorCount_record := by
    intro v hv
    obtain ⟨x, -, rfl⟩ := List.mem_map.1 hv
    rw [← liveOf_eq]
    rfl
  totalStake_record := by
    intro v hv
    obtain ⟨x, -, rfl⟩ := List.mem_map.1 hv
    rw [← liveOf_eq]
    rfl
  validatorCountOf_distinct := validatorCountOf_eq_card h.unique h.isBound

namespace SampleReturn

def validator : AccountId := ⟨List.replicate 32 1, rfl⟩

def former : AccountId := ⟨List.replicate 32 2, rfl⟩

def delegator : AccountId := ⟨List.replicate 32 3, rfl⟩

/-- The validator leaves a delegation behind, comes back, and finds another delegator. -/
def ledger : Ledger :=
  let register : LedgerOperation := .act {} 0 validator (.registerValidator
    "0x1111111111111111111111111111111111111111111111111111111111111111" 5000 true .empty)
  ({} : Ledger).run .barnacle
    [register, .act {} 1 former (.registerDelegator validator 500),
      .act {} 2 validator .unbondStake, register,
      .act {} 3 delegator (.registerDelegator validator 300)]

end SampleReturn

theorem views_agree_sampleReturn :
    SampleReturn.ledger.Reachable ∧ SampleReturn.ledger.ViewsAgree ∧
      SampleReturn.ledger.totalStake = 5300 ∧
      (SampleReturn.ledger.delegationsOf SampleReturn.validator).map (·.frozen) = [true, false] ∧
      SampleReturn.ledger.validatorCountOf SampleReturn.former = 0 :=
  ⟨Reachable.empty.run _, views_agree (Reachable.empty.run _), by decide +kernel,
    by decide +kernel, by decide +kernel⟩

end Ledger

end AppchainStaking
