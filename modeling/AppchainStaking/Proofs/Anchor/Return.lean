import AppchainStaking.Proofs.Anchor.Isolation
import AppchainStaking.Proofs.Anchor.Pending

/-!
# Unbonded stake comes back

An exit puts the whole of its position in the queue, until an era that is fixed there and then.
Nobody but its account can touch that entry, and neither can a change of the unlock periods. So
from its era on a withdrawal pays exactly that stake, and before it nothing, no matter what others
did meanwhile.
-/

namespace AppchainStaking

variable {ε τ : Type} {m : Type → Type} [Monad m]

namespace Anchor

variable {s s' : Anchor} {a : AccountId} {action : StakingAction} {r : HistoryRecord}

def withdrawal (s : Anchor) (a : AccountId) (embed : StakingError → ε)
    (transfer : Amount → m (Except ε τ)) : m (Except ε Amount × Anchor) :=
  (fun (w, s') => (w.result embed, s')) <$> s.withdrawM a transfer

/-- How an anchor answers to an account that has `amount` pending until the era `unlock`. Transfers
may have effects. -/
structure Repays (s : Anchor) (a : AccountId) (amount : Amount) (unlock : Nat) : Prop where
  /-- In time a transfer that accepts is carried out once, for the amount, and nothing is pending
  any more. -/
  due : unlock ≤ s.era.toNat → ∃ s', s'.unbonding.of a = [] ∧
    ∀ {ε τ : Type} {m : Type → Type} [Monad m] [LawfulMonad m] (embed : StakingError → ε)
      (pay : Amount → m τ),
      s.withdrawal a embed (fun x => Except.ok <$> pay x) =
        (fun _ => (.ok amount, s')) <$> pay amount
  early : s.era.toNat < unlock →
    ∀ {ε τ : Type} {m : Type → Type} [Monad m] [LawfulMonad m] (embed : StakingError → ε)
      (transfer : Amount → m (Except ε τ)), s.withdrawal a embed transfer = pure (.ok 0, s)

/-- What an action takes out of a position goes to the end of the queue of its account. -/
theorem of_unbonding_of_act {amount : Amount} {position : Position} {now : Int64}
    (hout : s.ledger.outgoing? a action = some (amount, position))
    (hact : s.act a now action = (.ok r, s')) :
    ∃ index, s'.unbonding.of a = s.unbonding.of a ++
      [⟨amount, s.era, unlockEra s.era (s.settings.protocol.unlockPeriod position), index⟩] := by
  obtain ⟨l, f, -, step, -, rfl, rfl⟩ := act_eq_ok_iff.1 hact
  have hreleased : f.released? = some (amount, position) := step.released?_eq.trans hout
  refine ⟨s.history.next, ?_⟩
  change (s.queue (s.nextRecord f now)).of a = _
  rw [queue, releasedEntry, nextRecord, hreleased, Option.map_some, step.actor_eq]
  exact Grouped.of_push_self ..

theorem due_of_single {e : UnbondedEntry} (single : s.unbonding.of a = [e]) :
    s.unbonding.due a s.era = if e.unlockEra ≤ s.era then e.amount.toNat else 0 := by
  rw [UnbondingQueue.due, UnbondingQueue.matured, single]
  by_cases mature : e.unlockEra ≤ s.era <;> simp [UnbondedEntry.isMature, mature]

theorem repays_of_single {e : UnbondedEntry} (hs : Grouped.Unique s.unbonding)
    (single : s.unbonding.of a = [e]) (positive : e.amount ≠ 0)
    (running : s.transfersPaused = false) : s.Repays a e.amount e.unlockEra.toNat where
  due hera := by
    have mature : e.unlockEra ≤ s.era := UInt64.le_iff_toNat_le.2 hera
    have hdue : s.unbonding.due a s.era = e.amount.toNat := by
      rw [due_of_single single, if_pos mature]
    refine ⟨{ s with unbonding := Grouped.drop (·.isMature s.era) s.unbonding a }, ?_, ?_⟩
    · change (Grouped.drop (·.isMature s.era) s.unbonding a).of a = []
      rw [Grouped.of_drop_self (hs.single _), single]
      simp [UnbondedEntry.isMature, mature]
    · intro ε τ m _ _ embed pay
      have hpayment : (s.payment a : Except (Withdrawal ε τ) Amount) = .ok e.amount :=
        payment_eq_ok_iff.2 ⟨running, hdue, positive⟩
      rw [withdrawal, withdrawM_eq, hpayment]
      simp only [Functor.map_map]
      rfl
  early hera := by
    intro ε τ m _ _ embed transfer
    have immature : ¬e.unlockEra ≤ s.era := fun h => by
      have hle := UInt64.le_iff_toNat_le.1 h
      omega
    have hdue : s.unbonding.due a s.era = 0 := by
      rw [due_of_single single, if_neg immature]
    have hpayment : (s.payment a : Except (Withdrawal ε τ) Amount) = .error .nothingDue := by
      rw [payment, running, hdue]
      rfl
    rw [withdrawal, withdrawM_eq, hpayment]
    exact map_pure _ _

/-- What an account with nothing pending takes out of a position comes back to it, whatever others
do in between. -/
theorem repays_of_exit {amount : Amount} {position : Position} {now : Int64} (hs : s.Unique)
    (hout : s.ledger.outgoing? a action = some (amount, position)) (positive : amount ≠ 0)
    (settled : s.unbonding.of a = []) (hact : s.act a now action = (.ok r, s'))
    (later : List (Operation ε τ)) (silent : ∀ o ∈ later, o.caller ≠ a)
    (running : (s'.run later).transfersPaused = false) :
    (s'.run later).Repays a amount
      (min (UInt64.size - 1)
        (s.era.toNat + (s.settings.protocol.unlockPeriod position).toNat)) := by
  obtain ⟨index, hqueue⟩ := of_unbonding_of_act hout hact
  have hunique : s'.Unique := by
    have hperform : (s.perform (.act a now action : Operation ε τ)).2 = s' :=
      congrArg Prod.snd hact
    rw [← hperform]
    exact unique_run [.act a now action] hs
  have hkept := run_spares (s := s') later fun o ho => (silent o ho).symm
  rw [settled, List.nil_append] at hqueue
  rw [← toNat_unlockEra]
  exact repays_of_single (unique_run later hunique).unbonding (hkept.entries.trans hqueue) positive
    running

/-- At any point of a run of a new anchor, a validator with nothing pending that unbonds gets back
exactly its deposit: nothing before the era that the unlock period of that point gives, and all of
it from then on, whatever others do in between. The same holds for a delegation. -/
theorem unbonded_stake_returns {owner : AccountId} {id : String} {template : Template}
    {token : StakeToken} {vault : AccountId} {bump vaultBump : UInt8} {new : Anchor}
    (hnew : Anchor.new owner id template token vault bump vaultBump = .ok new)
    (earlier later : List (Operation ε τ)) (a : AccountId)
    (settled : (new.run earlier).unbonding.of a = [])
    (silent : ∀ o ∈ later, o.caller ≠ a) :
    let s := new.run earlier
    (∀ x, s.ledger.validator? a = some x → x.deposit ≠ 0 → ∀ now r s',
      s.act a now .unbondStake = (.ok r, s') → (s'.run later).transfersPaused = false →
        (s'.run later).Repays a x.deposit
          (min (UInt64.size - 1)
            (s.era.toNat + s.settings.protocol.validatorUnlockPeriod.toNat))) ∧
      ∀ v x, s.ledger.delegation? a v = some x → x.deposit ≠ 0 → ∀ now r s',
        s.act a now (.unbondDelegation v) = (.ok r, s') →
          (s'.run later).transfersPaused = false →
            (s'.run later).Repays a x.deposit
              (min (UInt64.size - 1)
                (s.era.toNat + s.settings.protocol.delegatorUnlockPeriod.toNat)) := by
  intro s
  have hunique : s.Unique := unique_run earlier (unique_of_new hnew)
  constructor
  · intro x known positive now r s' hact running
    have hout : s.ledger.outgoing? a .unbondStake = some (x.deposit, .validator) := by
      rw [Ledger.outgoing?, known]
      rfl
    exact repays_of_exit hunique hout positive settled hact later silent running
  · intro v x known positive now r s' hact running
    have hout : s.ledger.outgoing? a (.unbondDelegation v) = some (x.deposit, .delegator) := by
      rw [Ledger.outgoing?, known]
      rfl
    exact repays_of_exit hunique hout positive settled hact later silent running

end Anchor

namespace SampleRun

/-- While unbonded stake waits, the owner makes both unlock periods longer, the era advances,
transfers stop for a while, and the owner bonds stake as well. -/
def interlude : List (Operation Unit Unit) :=
  .command anchor.roles.authorize owner
      (.changeSettings (.protocol [.validatorUnlockPeriod 90, .delegatorUnlockPeriod 90])) ::
    List.replicate 20 (.command anchor.roles.authorize owner .switchEra) ++
    [.command anchor.roles.authorize owner (.pauseTransfers true),
      .act owner 20 (.registerDelegator validator 700),
      .command anchor.roles.authorize owner .switchEra,
      .command anchor.roles.authorize owner (.pauseTransfers false)]

end SampleRun

open SampleRun in
/-- The entries mature in era 21, although both periods are 90 by then. -/
theorem Anchor.unbonded_stake_returns_interlude :
    let s := anchor.run (operations.take 4)
    let s₁ := (s.act validator 15 .unbondStake).2
    let s₂ := (s.act delegator 15 (.unbondDelegation validator)).2
    (s.unbonding.of validator = [] ∧ (∀ o ∈ interlude, o.caller ≠ validator) ∧
      (s.ledger.validator? validator).map (·.deposit) = some 6100 ∧
      (s₁.run interlude).transfersPaused = false ∧ (s₁.run interlude).era = 21 ∧
      (s₁.run interlude).Repays validator 6100 21) ∧
    s.unbonding.of delegator = [] ∧ (∀ o ∈ interlude, o.caller ≠ delegator) ∧
      s.ledger.delegation? delegator validator = some ⟨delegator, validator, 500, false⟩ ∧
      (s₂.run interlude).transfersPaused = false ∧ (s₂.run interlude).era = 21 ∧
      (s₂.run interlude).Repays delegator 500 21 := by
  intro s s₁ s₂
  have hunlock : min (UInt64.size - 1) (s.era.toNat + (21 : UInt64).toNat) = 21 := by
    decide +kernel
  constructor
  · have settled : s.unbonding.of validator = [] := by decide +kernel
    have silent : ∀ o ∈ interlude, o.caller ≠ validator := by decide +kernel
    have hdeposit : (s.ledger.validator? validator).map (·.deposit) = some 6100 := by
      decide +kernel
    have running : (s₁.run interlude).transfersPaused = false := by decide +kernel
    obtain ⟨x, known, hamount⟩ := Option.map_eq_some_iff.1 hdeposit
    have positive : x.deposit ≠ 0 := by
      rw [hamount]
      decide
    have hact : s.act validator 15 .unbondStake =
        (.ok ⟨3, .validatorUnbonded validator 6100, 15, 0⟩, s₁) := Prod.ext (by rfl) rfl
    obtain ⟨hvalidator, -⟩ := unbonded_stake_returns new_eq_anchor (operations.take 4) interlude
      validator settled silent
    have hrepays := hvalidator x known positive 15 _ s₁ hact running
    rw [hamount] at hrepays
    refine ⟨settled, silent, hdeposit, running, by decide +kernel, ?_⟩
    rw [← hunlock]
    exact hrepays
  · have settled : s.unbonding.of delegator = [] := by decide +kernel
    have silent : ∀ o ∈ interlude, o.caller ≠ delegator := by decide +kernel
    have known : s.ledger.delegation? delegator validator =
        some ⟨delegator, validator, 500, false⟩ := by decide +kernel
    have running : (s₂.run interlude).transfersPaused = false := by decide +kernel
    have hact : s.act delegator 15 (.unbondDelegation validator) =
        (.ok ⟨3, .delegatorUnbonded delegator validator 500, 15, 0⟩, s₂) :=
      Prod.ext (by rfl) rfl
    obtain ⟨-, hdelegation⟩ := unbonded_stake_returns new_eq_anchor (operations.take 4) interlude
      delegator settled silent
    refine ⟨settled, silent, known, running, by decide +kernel, ?_⟩
    rw [← hunlock]
    exact hdelegation validator _ known (by decide) 15 _ s₂ hact running

end AppchainStaking
