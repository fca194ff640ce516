import AppchainStaking.Proofs.Anchor.Effect
import AppchainStaking.Proofs.Ledger.Unique

/-!
# Conservation of stake

An operation moves stake between the ledger and the queue, takes it in, or pays it out, but never
makes or loses any. So over every run what an account brought in is what it has bonded, what it has
on its way out, and what it was paid.
-/

namespace AppchainStaking

variable {ε τ : Type}

def Ledger.depositOf (l : Ledger) (a : AccountId) : Nat :=
  ((l.validator? a).map (·.deposit.toNat)).getD 0

/-- The delegations of an account, frozen ones included. -/
def Ledger.delegationsBy (l : Ledger) (a : AccountId) : List Delegation :=
  l.delegations.filter (·.delegator = a)

theorem Intent.deposit_of_action {amount : Amount} {i : Intent} {action : StakingAction}
    (h : i.action amount = .ok action) : action.deposit = amount := by
  cases i with
  | registerValidator | increaseStake =>
      cases h
      rfl
  | registerDelegator | increaseDelegation =>
      simp only [Intent.action, bind_eq_ok_iff, pure_eq_ok_iff] at h
      obtain ⟨_, _, rfl⟩ := h
      rfl

theorem Operation.stake_eq_deposit {o : Operation ε τ} {action : StakingAction}
    (h : o.action? = some action) : o.stake = action.deposit := by
  cases o with
  | act =>
      cases h
      rfl
  | deposit sender now amount message =>
      simp only [action?, toOption_eq_some_iff, StakingAction.ofMessage, bind_eq_ok_iff] at h
      obtain ⟨i, _, hi⟩ := h
      exact (Intent.deposit_of_action hi).symm
  | setProfile | withdraw | command => cases h

theorem Ledger.Step.actor_eq {rules : LedgerRules} {caller : AccountId} {l l' : Ledger}
    {action : StakingAction} {f : Fact} (h : Step rules caller l action l' f) :
    f.actor = caller := by
  cases h with
  | @setDelegable delegable => cases delegable <;> rfl
  | _ => rfl

namespace Anchor

variable {s s' : Anchor} {o : Operation ε τ} {reply : Reply ε τ}

/-- What the accounts in `who` have bonded or on its way out. -/
def heldBy (s : Anchor) (who : AccountId → Bool) : Nat :=
  s.ledger.stakeOf who + s.unbonding.pendingOf who

theorem pendingOf_queue (s : Anchor) (r : HistoryRecord) (who : AccountId → Bool) :
    (s.queue r).pendingOf who =
      s.unbonding.pendingOf who + (share who r.fact.actor r.fact.released).toNat := by
  unfold queue releasedEntry
  cases r.fact <;>
    simp [Fact.released?, Fact.released, UnbondingQueue.pendingOf_push]

theorem Effect.heldBy_add_paid (h : Effect s o reply s') (who : AccountId → Bool) :
    s'.heldBy who + (share who o.caller (reply.paid?.getD 0)).toNat =
      s.heldBy who +
        (share who o.caller (if reply.record?.isSome then o.stake else 0)).toNat := by
  cases h with
  | @recorded o action l f asked _ step _ =>
      have hstake := step.stakeOf_add_released who
      have hqueue := pendingOf_queue s (s.nextRecord f o.now) who
      have hactor : (s.nextRecord f o.now).fact.actor = o.caller := step.actor_eq
      rw [hactor] at hqueue
      simp only [heldBy, Anchor.recorded, Reply.paid?, Reply.record?, Option.getD_none, share_zero,
        Option.isSome_some, if_true, Operation.stake_eq_deposit asked, hqueue]
      simp only [nextRecord, UInt64.toNat_zero]
      omega
  | profileSet =>
      simp [heldBy, Ledger.stakeOf_updateValidator_of_same, Reply.paid?, Reply.record?]
  | @paid caller transfer amount receipt running due positive accepted =>
      have hdrop := UnbondingQueue.pendingOf_drop s.unbonding caller s.era who
      simp only [heldBy, Reply.paid?, Reply.record?, Option.getD_some, Option.isSome_none,
        Bool.false_eq_true, if_false, share_zero, Operation.caller, UInt64.toNat_zero, toNat_share]
      rw [due] at hdrop
      omega
  | commanded _ executed =>
      obtain ⟨hledger, -, hunbonding, -⟩ := execute_frame executed
      simp [heldBy, hledger, hunbonding, Reply.paid?, Reply.record?]
  | unchanged unrecorded unpaid => simp [unrecorded, unpaid]

/-- A run conserves stake: what is held and paid out after it was held before or brought in. -/
theorem heldBy_run_add_paid (ops : List (Operation ε τ)) (who : AccountId → Bool)
    (hroom : ∀ c ∈ s.trace ops, c.before.history.HasRoom) :
    (s.run ops).heldBy who + paidTo who (s.trace ops) =
      s.heldBy who + depositedBy who (s.trace ops) := by
  -- The start is arbitrary, because the rest of a run starts where its first operation ends.
  induction ops generalizing s with
  | nil => rfl
  | cons o ops ih =>
      have room : s.history.HasRoom := hroom _ List.mem_cons_self
      have hstep : (s.perform o).2.heldBy who + (share who o.caller (Call.mk s o).paid).toNat =
          s.heldBy who + (share who o.caller (Call.mk s o).deposited).toNat :=
        (perform_effect room o).heldBy_add_paid who
      have hrest := @ih (s.perform o).2 fun c hc => hroom c (List.mem_cons_of_mem _ hc)
      simp only [run, trace, paidTo_cons, depositedBy_cons]
      omega

structure Unique (s : Anchor) : Prop where
  ledger : s.ledger.Unique
  unbonding : Grouped.Unique s.unbonding

theorem Effect.unique (h : Effect s o reply s') (hs : s.Unique) : s'.Unique := by
  cases h with
  | @recorded o action l f _ _ step _ =>
      refine ⟨step.unique hs.ledger, ?_⟩
      simp only [Anchor.recorded, queue]
      split
      · exact hs.unbonding
      · exact hs.unbonding.push _ _
  | profileSet => exact ⟨hs.ledger.updateValidator _ fun _ => rfl, hs.unbonding⟩
  | paid => exact ⟨hs.ledger, hs.unbonding.drop _ _⟩
  | commanded _ executed =>
      obtain ⟨hledger, -, hunbonding, -⟩ := execute_frame executed
      exact ⟨hledger ▸ hs.ledger, hunbonding ▸ hs.unbonding⟩
  | unchanged => exact hs

theorem Unrecorded.unique (h : Unrecorded s o reply s') (hs : s.Unique) : s'.Unique := by
  cases h with
  | intro _ _ step => exact ⟨step.unique hs.ledger, hs.unbonding⟩

theorem unique_run (ops : List (Operation ε τ)) (hs : s.Unique) : (s.run ops).Unique := by
  have hstep : ∀ c : Call ε τ, True → c.before.Unique → c.after.Unique := by
    intro c _ hbefore
    rcases perform_outcome c.before c.operation with heffect | hunrecorded
    · exact heffect.unique hbefore
    · exact hunrecorded.unique hbefore
  exact (invariant_of_calls hstep ops (fun _ _ => trivial) hs).2

theorem new_eq_ok {owner : AccountId} {id : String} {template : Template} {token : StakeToken}
    {vault : AccountId} {bump vaultBump : UInt8}
    (h : Anchor.new owner id template token vault bump vaultBump = .ok s) :
    s.ledger = {} ∧ s.history = {} ∧ s.unbonding = [] ∧ s.owner = owner ∧ s.phase = .staging ∧
      s.era = 0 ∧ s.stakeToken = token ∧ s.stakeVault = vault := by
  simp only [Anchor.new, bind_eq_ok_iff, pure_eq_ok_iff] at h
  obtain ⟨_, _, rfl⟩ := h
  exact ⟨rfl, rfl, rfl, rfl, rfl, rfl, rfl, rfl⟩

theorem unique_of_new {owner : AccountId} {id : String} {template : Template}
    {token : StakeToken} {vault : AccountId} {bump vaultBump : UInt8}
    (h : Anchor.new owner id template token vault bump vaultBump = .ok s) : s.Unique := by
  obtain ⟨hledger, -, hunbonding, -⟩ := new_eq_ok h
  exact ⟨hledger ▸ Ledger.unique_empty, hunbonding ▸ Grouped.unique_nil⟩

end Anchor

theorem Ledger.stakeOf_single {l : Ledger} (hl : l.Unique) (a : AccountId) :
    l.stakeOf (· = a) = l.depositOf a + Amount.total ((l.delegationsBy a).map (·.deposit)) := by
  have hvalidators := Amount.total_map_ite (·.id = a) (·.deposit) l.validators
  have hdelegations := Amount.total_map_ite (·.delegator = a) (·.deposit) l.delegations
  rw [filter_eq_toList_find? hl.validators] at hvalidators
  unfold stakeOf share
  rw [hvalidators, hdelegations, depositOf, validator?, delegationsBy]
  cases l.validators.find? (·.id = a) <;> simp

/-- Over every run of a new anchor, what an account deposited is its deposit as a validator, its
delegations, its entries in the queue, and what it was paid. -/
theorem Anchor.deposits_conserved {owner : AccountId} {id : String} {template : Template}
    {token : StakeToken} {vault : AccountId} {bump vaultBump : UInt8} {s : Anchor}
    (hnew : Anchor.new owner id template token vault bump vaultBump = .ok s)
    (ops : List (Operation ε τ)) (hroom : ∀ c ∈ s.trace ops, c.before.history.HasRoom)
    (a : AccountId) :
    depositedBy (· = a) (s.trace ops) =
      (s.run ops).ledger.depositOf a +
        Amount.total (((s.run ops).ledger.delegationsBy a).map (·.deposit)) +
        Amount.total (((s.run ops).unbonding.of a).map (·.amount)) +
        paidTo (· = a) (s.trace ops) := by
  obtain ⟨hledger, -, hunbonding, -⟩ := new_eq_ok hnew
  have hunique := run_invariant Effect.unique ops hroom (unique_of_new hnew)
  have hzero : s.heldBy (· = a) = 0 := by
    rw [heldBy, hledger, hunbonding]
    rfl
  have hrun := heldBy_run_add_paid ops (· = a) hroom
  rw [hzero, heldBy, Ledger.stakeOf_single hunique.ledger,
    UnbondingQueue.pendingOf_single hunique.unbonding] at hrun
  omega

open SampleRun in
theorem Anchor.deposits_conserved_sampleRun :
    (∀ c ∈ anchor.trace operations, c.before.history.HasRoom) ∧
      depositedBy (· = validator) (anchor.trace operations) = 11600 ∧
      (anchor.run operations).ledger.depositOf validator +
          Amount.total (((anchor.run operations).ledger.delegationsBy validator).map (·.deposit)) +
          Amount.total (((anchor.run operations).unbonding.of validator).map (·.amount)) +
          paidTo (· = validator) (anchor.trace operations) = 11600 := by
  have hroom : ∀ c ∈ anchor.trace operations, c.before.history.HasRoom := by decide +kernel
  have hdeposited : depositedBy (· = validator) (anchor.trace operations) = 11600 := by
    decide +kernel
  exact ⟨hroom, hdeposited,
    (deposits_conserved new_eq_anchor operations hroom validator).symm.trans hdeposited⟩

end AppchainStaking
