import AppchainStaking.Proofs.Anchor.Conservation
import AppchainStaking.Proofs.Ledger.Positive
import AppchainStaking.Proofs.Withdrawal

/-!
# What a withdrawal leaves behind

A withdrawal that answers takes out all that has matured and nothing else, with one exception: where
all that has matured adds up to nothing, it ends before anything is taken out. Such entries come
from empty positions, which need a minimum deposit of zero.
-/

namespace AppchainStaking

variable {ε τ : Type}

namespace Anchor

variable {s s' : Anchor} {a : AccountId} {o : Operation ε τ} {reply : Reply ε τ}

/-- Nothing that an account has in the queue has matured. -/
def Cleared (s : Anchor) (a : AccountId) : Prop := ∀ e ∈ s.unbonding.of a, s.era < e.unlockEra

instance (s : Anchor) (a : AccountId) : Decidable (s.Cleared a) :=
  inferInstanceAs (Decidable (∀ e ∈ s.unbonding.of a, s.era < e.unlockEra))

structure Positive (s : Anchor) : Prop where
  ledger : s.ledger.Positive
  unbonding : ∀ p ∈ s.unbonding.pairs, p.2.amount ≠ 0

theorem Positive.queue (hs : s.Positive) {r : HistoryRecord}
    (released : ∀ amount position, r.fact.released? = some (amount, position) → amount ≠ 0) :
    ∀ p ∈ (s.queue r).pairs, p.2.amount ≠ 0 := by
  intro p hp
  rw [Anchor.queue] at hp
  cases hentry : s.releasedEntry r with
  | none =>
      rw [hentry] at hp
      exact hs.unbonding p hp
  | some e =>
      rw [hentry] at hp
      rcases List.mem_cons.1 ((Grouped.pairs_push_perm _ _ _).subset hp) with rfl | hp
      · obtain ⟨⟨amount, position⟩, hreleased, rfl⟩ := Option.map_eq_some_iff.1 hentry
        exact released amount position hreleased
      · exact hs.unbonding p hp

theorem Effect.positive (h : Effect s o reply s') (demands : s.settings.protocol.DemandsStake)
    (hs : s.Positive) : s'.Positive := by
  cases h with
  | recorded _ _ step =>
      exact ⟨step.positive demands hs.ledger,
        hs.queue fun _ _ => step.released_ne_zero hs.ledger⟩
  | profileSet => exact ⟨hs.ledger.updateValidator _ fun _ hx => hx, hs.unbonding⟩
  | paid =>
      exact ⟨hs.ledger, fun p hp => hs.unbonding p ((Grouped.pairs_drop_sublist _ _ _).subset hp)⟩
  | commanded _ executed =>
      obtain ⟨hledger, -, hunbonding, -⟩ := execute_frame executed
      exact ⟨hledger ▸ hs.ledger, hunbonding ▸ hs.unbonding⟩
  | unchanged => exact hs

theorem Unrecorded.positive (h : Unrecorded s o reply s')
    (demands : s.settings.protocol.DemandsStake) (hs : s.Positive) : s'.Positive := by
  cases h with
  | intro _ _ step => exact ⟨step.positive demands hs.ledger, hs.unbonding⟩

/-- Nothing becomes empty in a run during which both minimum deposits are positive. -/
theorem Positive.run (hs : s.Positive) (ops : List (Operation ε τ))
    (demands : ∀ c ∈ s.trace ops, c.before.settings.protocol.DemandsStake) :
    (s.run ops).Positive := by
  have hstep : ∀ c : Call ε τ, c.before.settings.protocol.DemandsStake → c.before.Positive →
      c.after.Positive := by
    intro c hdemands hbefore
    rcases perform_outcome c.before c.operation with heffect | hunrecorded
    · exact heffect.positive hdemands hbefore
    · exact hunrecorded.positive hdemands hbefore
  exact (invariant_of_calls hstep ops demands hs).2

theorem positive_of_new {owner : AccountId} {id : String} {template : Template}
    {token : StakeToken} {vault : AccountId} {bump vaultBump : UInt8}
    (h : Anchor.new owner id template token vault bump vaultBump = .ok s) : s.Positive := by
  obtain ⟨hledger, -, hunbonding, -⟩ := new_eq_ok h
  refine ⟨hledger ▸ Ledger.positive_empty, ?_⟩
  rw [hunbonding]
  exact fun p hp => absurd hp List.not_mem_nil

variable {transfer : Amount → Except ε τ} {embed : StakingError → ε} {amount : Amount}

theorem withdraw_of_running (running : s.transfersPaused = false) (a : AccountId)
    (transfer : Amount → Except ε τ) :
    s.withdraw a transfer =
      (s.unbonding.withdraw a s.era transfer).map id fun unbonding => { s with unbonding } := by
  rw [withdraw, withdrawM, if_neg (by simp [running])]
  rfl

/-- A withdrawal that answers found nothing due and left all as it was, or took out what has
matured. -/
theorem withdraw_of_result (h : (s.withdraw a transfer).1.result embed = .ok amount) :
    (s.withdraw a transfer).2 =
      if s.unbonding.due a s.era = 0 then s
      else { s with unbonding := Grouped.drop (·.isMature s.era) s.unbonding a } := by
  have running : s.transfersPaused = false := by
    cases hpaused : s.transfersPaused with
    | false => rfl
    | true =>
        rw [withdraw, withdrawM, if_pos hpaused] at h
        cases h
  rw [withdraw_of_running running] at h ⊢
  have hqueue := UnbondingQueue.withdraw_snd_of_result h
  change { s with unbonding := (s.unbonding.withdraw a s.era transfer).2 } = _
  rw [hqueue]
  split <;> rfl

theorem due_ne_zero_iff :
    s.unbonding.due a s.era ≠ 0 ↔
      ∃ e ∈ s.unbonding.of a, e.unlockEra ≤ s.era ∧ e.amount ≠ 0 := by
  rw [UnbondingQueue.due, Ne, Amount.total_eq_zero_iff, List.forall_mem_map]
  simp [UnbondingQueue.matured, UnbondedEntry.isMature]

/-- Without empty entries nothing is due only if nothing has matured. -/
theorem Positive.cleared (hs : s.Positive) (nothing : s.unbonding.due a s.era = 0) :
    s.Cleared a := by
  refine fun e he => UInt64.not_le.1 fun mature => ?_
  exact due_ne_zero_iff.2 ⟨e, he, mature, hs.unbonding _ (Grouped.mem_pairs_of_mem he)⟩ nothing

/-- How a withdrawal that answers leaves the queue of its account. -/
structure Clears (s : Anchor) (a : AccountId) (s' : Anchor) : Prop where
  era : s'.era = s.era
  /-- What has not matured is still there, in its old order. -/
  pending : (s'.unbonding.of a).filter (s.era < ·.unlockEra) =
    (s.unbonding.of a).filter (s.era < ·.unlockEra)
  /-- Something that has matured is left only if all that has matured is empty. -/
  cleared : s'.Cleared a ↔
    s.Cleared a ∨ ∃ e ∈ s.unbonding.of a, e.unlockEra ≤ s.era ∧ e.amount ≠ 0

theorem clears_of_result (hs : Grouped.Unique s.unbonding)
    (h : (s.withdraw a transfer).1.result embed = .ok amount) :
    s.Clears a (s.withdraw a transfer).2 := by
  rw [withdraw_of_result h]
  by_cases nothing : s.unbonding.due a s.era = 0
  · rw [if_pos nothing]
    refine ⟨rfl, rfl, ?_⟩
    rw [← due_ne_zero_iff]
    exact ⟨.inl, fun h => h.resolve_right (· nothing)⟩
  · rw [if_neg nothing]
    have hof : (Grouped.drop (·.isMature s.era) s.unbonding a).of a =
        (s.unbonding.of a).filter (s.era < ·.unlockEra) := by
      rw [Grouped.of_drop_self (hs.single _)]
      exact List.filter_congr fun e _ => by simp [UnbondedEntry.isMature, ← decide_not]
    refine ⟨rfl, ?_, iff_of_true ?_ (.inr (due_ne_zero_iff.1 nothing))⟩
    · exact (congrArg _ hof).trans (by simp)
    · intro e he
      rw [hof] at he
      exact of_decide_eq_true (List.mem_filter.1 he).2

/-- After every run of a new anchor a withdrawal that answers leaves what has not matured and takes
out the rest, unless there is nothing but empty entries to take out. That cannot be where both
minimum deposits were positive all along. -/
theorem withdrawal_clears {owner : AccountId} {id : String} {template : Template}
    {token : StakeToken} {vault : AccountId} {bump vaultBump : UInt8} {new : Anchor}
    (hnew : Anchor.new owner id template token vault bump vaultBump = .ok new)
    (ops : List (Operation ε τ)) (a : AccountId) (transfer : Amount → Except ε τ)
    (embed : StakingError → ε) (amount : Amount)
    (answered : ((new.run ops).withdraw a transfer).1.result embed = .ok amount) :
    let s := new.run ops
    let s' := (s.withdraw a transfer).2
    s.Clears a s' ∧
      ((∀ c ∈ new.trace ops, c.before.settings.protocol.DemandsStake) → s'.Cleared a) := by
  intro s s'
  have hclears : s.Clears a s' :=
    clears_of_result (unique_run ops (unique_of_new hnew)).unbonding answered
  refine ⟨hclears, fun demands => hclears.cleared.2 ?_⟩
  have hs : s.Positive := (positive_of_new hnew).run ops demands
  by_cases nothing : s.unbonding.due a s.era = 0
  · exact .inl (hs.cleared nothing)
  · exact .inr (due_ne_zero_iff.1 nothing)

end Anchor

namespace SampleRun

/-- The owner lifts the minimum deposit and the unlock period. A validator comes with one unit,
takes it back, and only then leaves. -/
def emptyExit : List (Operation Unit Unit) :=
  [.command anchor.roles.authorize owner
      (.changeSettings (.protocol [.minimumValidatorDeposit 0, .validatorUnlockPeriod 0])),
    .act validator 10 (.registerValidator
      "0x1111111111111111111111111111111111111111111111111111111111111111" 1 true .empty),
    .act validator 11 (.decreaseStake 1),
    .withdraw validator fun _ => .ok (),
    .act validator 12 .unbondStake]

end SampleRun

open SampleRun in
theorem Anchor.withdrawal_clears_sampleRun :
    let accept : Amount → Except Unit Unit := fun _ => .ok ()
    let embed : StakingError → Unit := fun _ => ()
    let s := anchor.run (operations.take 7)
    let s' := (s.withdraw validator accept).2
    (s.withdraw validator accept).1.result embed = .ok 6100 ∧
      (∀ c ∈ anchor.trace (operations.take 7), c.before.settings.protocol.DemandsStake) ∧
      (s.unbonding.of validator).length = 2 ∧ s.Clears validator s' ∧ s'.Cleared validator := by
  intro accept embed s s'
  have answered : (s.withdraw validator accept).1.result embed = .ok 6100 :=
    toOption_eq_some_iff.1 (by decide +kernel)
  have demands : ∀ c ∈ anchor.trace (operations.take 7),
      c.before.settings.protocol.DemandsStake := by decide +kernel
  obtain ⟨hclears, hcleared⟩ :=
    withdrawal_clears new_eq_anchor (operations.take 7) validator accept embed 6100 answered
  exact ⟨answered, demands, by decide +kernel, hclears, hcleared demands⟩

open SampleRun in
/-- The withdrawal answers with zero, and the entry that has matured is still there. -/
theorem Anchor.empty_entry_stays :
    let accept : Amount → Except Unit Unit := fun _ => .ok ()
    let embed : StakingError → Unit := fun _ => ()
    let s := anchor.run emptyExit
    Anchor.new SampleRun.owner "sample" .barnacle token vault 253 254 = .ok anchor ∧
      (s.withdraw validator accept).1.result embed = .ok 0 ∧
      ¬(s.withdraw validator accept).2.Cleared validator :=
  ⟨new_eq_anchor, toOption_eq_some_iff.1 (by decide +kernel), by decide +kernel⟩

end AppchainStaking
