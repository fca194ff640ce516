import AppchainStaking.Proofs.Anchor.Conservation
import AppchainStaking.Proofs.Anchor.Lifecycle
import AppchainStaking.Proofs.History.Numbering

/-!
# Winding down a broken appchain

On a broken appchain each validator and each delegator can leave. An exit takes its own position off
the list of those that are left and no other, so in whatever order all of them leave, every exit
succeeds, nothing stays behind, and all stake is in the queue.
-/

namespace AppchainStaking

variable {ε τ : Type}

/-- Removing the first match takes one image off the list, if all matches have the same image. -/
theorem perm_map_eraseP {α β : Type} {g : α → β} {b : β} {p : α → Bool} {xs : List α} {x : α}
    (hx : x ∈ xs) (hp : p x) (hg : ∀ y, p y → g y = b) :
    (b :: (xs.eraseP p).map g).Perm (xs.map g) := by
  obtain ⟨y, before, after, -, hy, hxs, herase⟩ := List.exists_of_eraseP hx hp
  rw [herase, hxs, List.map_append, List.map_append, List.map_cons, hg y hy]
  exact List.perm_middle.symm

structure Exit where
  caller : AccountId
  action : StakingAction

def Exit.at (e : Exit) (now : Int64) : Operation ε τ := .act e.caller now e.action

namespace Ledger

variable {rules : LedgerRules} {caller : AccountId} {l l' : Ledger} {f : Fact}
  {action : StakingAction}

/-- All exits: each validator may leave, and each delegator each of its delegations. -/
def exits (l : Ledger) : List Exit :=
  l.validators.map (fun v => ⟨v.id, .unbondStake⟩) ++
    l.delegations.map fun x => ⟨x.delegator, .unbondDelegation x.validator⟩

theorem length_exits (l : Ledger) :
    l.exits.length = l.validators.length + l.delegations.length := by
  rw [exits, List.length_append, List.length_map, List.length_map]

theorem eq_empty_of_exits_eq_nil (h : l.exits = []) : l = {} := by
  obtain ⟨hvalidators, hdelegations⟩ := List.append_eq_nil_iff.1 h
  rw [List.map_eq_nil_iff] at hvalidators hdelegations
  cases l
  simp_all

/-- An exit that is there is accepted. -/
theorem exists_step_of_mem_exits {e : Exit} (h : e ∈ l.exits) (rules : LedgerRules) :
    e.action.isExit ∧ ∃ l' f, Step rules e.caller l e.action l' f := by
  rcases List.mem_append.1 h with h | h
  · obtain ⟨v, hv, rfl⟩ := List.mem_map.1 h
    have hfound : (l.validator? v.id).isSome := List.find?_isSome.2 ⟨v, hv, by simp⟩
    obtain ⟨x, known⟩ := Option.isSome_iff_exists.1 hfound
    exact ⟨rfl, _, _, .unbondStake known⟩
  · obtain ⟨x, hx, rfl⟩ := List.mem_map.1 h
    have hfound : (l.delegation? x.delegator x.validator).isSome :=
      List.find?_isSome.2 ⟨x, hx, by simp [Delegation.isOf]⟩
    obtain ⟨y, known⟩ := Option.isSome_iff_exists.1 hfound
    exact ⟨rfl, _, _, .unbondDelegation known⟩

/-- An exit takes itself off the list, and no other. -/
theorem Step.exits_perm (h : Step rules caller l action l' f) (exit : action.isExit) :
    (⟨caller, action⟩ :: l'.exits).Perm l.exits := by
  cases h with
  | @unbondStake x known =>
      have hid := id_of_validator? known
      have hleft : (⟨caller, .unbondStake⟩ ::
          (l.validators.eraseP (·.id = caller)).map fun v => (⟨v.id, .unbondStake⟩ : Exit)).Perm
            (l.validators.map fun v => ⟨v.id, .unbondStake⟩) :=
        perm_map_eraseP (List.mem_of_find?_eq_some known) (by simpa using hid)
          fun y hy => by simpa using hy
      -- A frozen delegation can be left just as a live one.
      have hfrozen := map_freeze
        (g := fun x => (⟨x.delegator, .unbondDelegation x.validator⟩ : Exit)) (fun _ => rfl)
        caller l.delegations
      rw [exits, exits, hfrozen]
      exact hleft.append_right _
  | @unbondDelegation v x known =>
      have hleft : (⟨caller, .unbondDelegation v⟩ ::
          (l.delegations.eraseP (·.isOf caller v)).map
            fun x => (⟨x.delegator, .unbondDelegation x.validator⟩ : Exit)).Perm
          (l.delegations.map fun x => ⟨x.delegator, .unbondDelegation x.validator⟩) :=
        perm_map_eraseP (List.mem_of_find?_eq_some known) (List.find?_some known)
          fun y hy => by simpa [Delegation.isOf] using hy
      exact List.perm_middle.symm.trans (hleft.append_left _)
  | registerValidator | increaseStake | decreaseStake | setDelegable | registerDelegator
  | increaseDelegation | decreaseDelegation => cases exit

end Ledger

theorem StakingAction.deposit_of_isExit {action : StakingAction} (exit : action.isExit) :
    action.deposit = 0 := by
  cases action with
  | unbondStake | unbondDelegation => rfl
  | registerValidator | increaseStake | decreaseStake | setDelegable | registerDelegator
  | increaseDelegation | decreaseDelegation => cases exit

namespace Anchor

variable {s s' : Anchor} {caller : AccountId} {action : StakingAction} {l : Ledger} {f : Fact}

theorem permit_of_broken (broken : s.phase = .broken) (exit : action.isExit)
    (step : Ledger.Step s.rules caller s.ledger action l f) : s.permit caller action = .ok () := by
  cases step with
  | unbondStake known =>
      simp only [permit, Phase.demandUnbonding, bind_eq_ok_iff, require_eq_ok_iff,
        Ledger.validator_eq_ok_iff, broken]
      exact ⟨(), rfl, _, known, fun active => by cases active⟩
  | unbondDelegation known =>
      simp only [permit, Phase.demandUnbonding, require_eq_ok_iff, broken]
      rfl
  | registerValidator | increaseStake | decreaseStake | setDelegable | registerDelegator
  | increaseDelegation | decreaseDelegation => cases exit

/-- What one exit makes of a broken anchor: its stake goes into the queue, and it is off the list of
exits. -/
structure Takes (s : Anchor) (e : Exit) (s' : Anchor) : Prop where
  broken : s'.phase = .broken
  next : s'.history.next.toNat = s.history.next.toNat + 1
  exits : (e :: s'.ledger.exits).Perm s.ledger.exits
  held : ∀ who, s'.heldBy who = s.heldBy who

theorem takes_of_mem_exits {e : Exit} (broken : s.phase = .broken) (room : s.history.HasRoom)
    (he : e ∈ s.ledger.exits) (now : Int64) :
    (Call.mk s (e.at now : Operation ε τ)).record?.isSome ∧
      s.Takes e (s.perform (e.at now : Operation ε τ)).2 := by
  obtain ⟨exit, l, f, step⟩ := Ledger.exists_step_of_mem_exits he s.rules
  have hact := act_of_step (permit_of_broken broken exit step) step room now
  have hperform : s.perform (e.at now : Operation ε τ) =
      (.staking (.ok (s.nextRecord f now)), s.recorded l (s.nextRecord f now)) := by
    rw [Exit.at, perform, hact]
    rfl
  have heffect := perform_effect room (e.at now : Operation ε τ)
  have hnone : (e.at now : Operation ε τ).stake = 0 := StakingAction.deposit_of_isExit exit
  rw [hperform] at heffect
  rw [Call.record?, Call.reply, hperform]
  refine ⟨rfl, broken, heffect.next_eq.2, step.exits_perm exit, ?_⟩
  intro who
  have hheld := heffect.heldBy_add_paid who
  simpa [Reply.paid?, Reply.record?, hnone] using hheld

def exitsInOrder (order : List (Exit × Int64)) : List (Operation ε τ) :=
  order.map fun (e, now) => e.at now

/-- What is left of a broken anchor after all have left it. -/
structure WoundDown (s : Anchor) (calls : List (Call ε τ)) (s' : Anchor) : Prop where
  recorded : ∀ c ∈ calls, c.record?.isSome
  empty : s'.ledger = {}
  held : ∀ who, s'.heldBy who = s.heldBy who

theorem woundDown (order : List (Exit × Int64)) (broken : s.phase = .broken)
    (room : s.history.next.toNat + s.ledger.exits.length < UInt64.size)
    (all : (order.map (·.1)).Perm s.ledger.exits) :
    s.WoundDown (s.trace (exitsInOrder order : List (Operation ε τ)))
      (s.run (exitsInOrder order : List (Operation ε τ))) := by
  -- What remains of the order lists just the exits that remain.
  induction order generalizing s with
  | nil =>
      have hnone : s.ledger.exits = [] := List.nil_perm.1 all
      exact ⟨by simp [exitsInOrder, trace], Ledger.eq_empty_of_exits_eq_nil hnone, fun _ => rfl⟩
  | cons first order ih =>
      obtain ⟨e, now⟩ := first
      have he : e ∈ s.ledger.exits := all.mem_iff.1 List.mem_cons_self
      have hlength := all.length_eq
      rw [List.map_cons, List.length_cons] at hlength
      have hroom : s.history.HasRoom := by
        rw [HistoryLog.HasRoom]
        omega
      obtain ⟨hrecord, htakes⟩ := takes_of_mem_exits (ε := ε) (τ := τ) broken hroom he now
      have hrest := (all.trans htakes.exits.symm).cons_inv
      have hroom' : (s.perform (e.at now : Operation ε τ)).2.history.next.toNat +
          (s.perform (e.at now : Operation ε τ)).2.ledger.exits.length < UInt64.size := by
        have hleft := htakes.exits.length_eq
        rw [List.length_cons] at hleft
        have hnext := htakes.next
        omega
      have hwound := ih htakes.broken hroom' hrest
      exact ⟨List.forall_mem_cons.2 ⟨hrecord, hwound.recorded⟩, hwound.empty,
        fun who => (hwound.held who).trans (htakes.held who)⟩

/-- A new anchor that has come to be broken can be left by everybody, in every order. Each exit
succeeds, nothing stays bonded, and what each account had bonded waits for it in the queue. -/
theorem broken_winds_down {owner : AccountId} {id : String} {template : Template}
    {token : StakeToken} {vault : AccountId} {bump vaultBump : UInt8}
    (hnew : Anchor.new owner id template token vault bump vaultBump = .ok s)
    (ops : List (Operation ε τ)) (broken : (s.run ops).phase = .broken)
    (room : (s.run ops).history.next.toNat +
      ((s.run ops).ledger.validators.length + (s.run ops).ledger.delegations.length) <
        UInt64.size)
    (order : List (Exit × Int64)) (all : (order.map (·.1)).Perm (s.run ops).ledger.exits) :
    let exits : List (Operation ε τ) := exitsInOrder order
    (∀ c ∈ (s.run ops).trace exits, c.record?.isSome) ∧
      ((s.run ops).run exits).ledger = {} ∧
      ∀ a, Amount.total ((((s.run ops).run exits).unbonding.of a).map (·.amount)) =
        Amount.total (((s.run ops).unbonding.of a).map (·.amount)) +
          ((s.run ops).ledger.depositOf a +
            Amount.total (((s.run ops).ledger.delegationsBy a).map (·.deposit))) := by
  intro exits
  rw [← Ledger.length_exits] at room
  have hwound := woundDown (ε := ε) (τ := τ) order broken room all
  refine ⟨hwound.recorded, hwound.empty, fun a => ?_⟩
  have hbefore := unique_run ops (unique_of_new hnew)
  have hafter := unique_run exits hbefore
  have hheld := hwound.held (· = a)
  have hnothing : ((s.run ops).run exits).ledger.stakeOf (· = a) = 0 := by
    rw [hwound.empty]
    rfl
  rw [heldBy, heldBy, hnothing, Ledger.stakeOf_single hbefore.ledger,
    UnbondingQueue.pendingOf_single hbefore.unbonding,
    UnbondingQueue.pendingOf_single hafter.unbonding] at hheld
  omega

end Anchor

namespace SampleRun

/-- The launch with a delegation to each validator. One validator leaves while the appchain runs,
and its delegation is frozen when the appchain breaks. -/
def breakdown : List (Operation Unit Unit) :=
  launch.take 3 ++
    [.act delegator 11 (.registerDelegator validator 500),
      .act delegator 11 (.registerDelegator second 700)] ++
    (launch.take 11).drop 3

/-- The validator leaves before its delegator does, and the frozen delegation is left last. -/
def order : List (Exit × Int64) :=
  [(⟨second, .unbondStake⟩, 20), (⟨delegator, .unbondDelegation second⟩, 21),
    (⟨delegator, .unbondDelegation validator⟩, 22)]

end SampleRun

open SampleRun in
theorem Anchor.broken_winds_down_breakdown :
    (anchor.run breakdown).ledger.delegations.map (·.frozen) = [true, false] ∧
      ((anchor.run breakdown).run (exitsInOrder order : List (Operation Unit Unit))).ledger = {} ∧
      Amount.total ((((anchor.run breakdown).run
        (exitsInOrder order : List (Operation Unit Unit))).unbonding.of delegator).map (·.amount)) =
          1200 := by
  have broken : (anchor.run breakdown).phase = .broken := by decide +kernel
  have hvalidators : (anchor.run breakdown).ledger.validators.map (·.id) = [second] := by
    decide +kernel
  have hdelegations : (anchor.run breakdown).ledger.delegations =
      [⟨delegator, validator, 500, true⟩, ⟨delegator, second, 700, false⟩] := by
    decide +kernel
  have hexits : (anchor.run breakdown).ledger.exits =
      [⟨second, .unbondStake⟩, ⟨delegator, .unbondDelegation validator⟩,
        ⟨delegator, .unbondDelegation second⟩] := by
    have hleave : (anchor.run breakdown).ledger.validators.map
        (fun v => (⟨v.id, .unbondStake⟩ : Exit)) = [⟨second, .unbondStake⟩] := by
      have hmap := congrArg (List.map fun v => (⟨v, .unbondStake⟩ : Exit)) hvalidators
      rw [List.map_map] at hmap
      exact hmap
    rw [Ledger.exits, hdelegations, hleave]
    rfl
  have all : (order.map (·.1)).Perm (anchor.run breakdown).ledger.exits := by
    rw [hexits]
    exact .cons _ (.swap _ _ _)
  obtain ⟨-, hempty, htotal⟩ :=
    broken_winds_down new_eq_anchor breakdown broken (by decide +kernel) order all
  refine ⟨by rw [hdelegations]; rfl, hempty, (htotal delegator).trans ?_⟩
  decide +kernel

end AppchainStaking
