import AppchainStaking.Ledger.Basic
import AppchainStaking.Proofs.Anchor.Isolation
import AppchainStaking.Proofs.Anchor.Lifecycle
import AppchainStaking.Proofs.Ledger.Lookup

/-!
# Frozen delegations

A delegation whose validator left is frozen. It stays as it is until its delegator unbonds it, even
when the validator comes back. Until then it counts nowhere, and nothing else can be done to it;
what is queued in the end is the amount that was frozen.
-/

namespace AppchainStaking

variable {ε τ : Type}

/-- The validator with which an action bonds more stake or less, as a delegator. -/
def StakingAction.bondsWith : StakingAction → Option AccountId
  | registerDelegator v _ | increaseDelegation v _ | decreaseDelegation v _ => some v
  | registerValidator _ _ _ _ | increaseStake _ | decreaseStake _ | unbondStake | setDelegable _
  | unbondDelegation _ => none

/-- What may become of a delegation as long as it is there: it is frozen, or its deposit changes
while it counts. -/
inductive Delegation.Becomes (x : Delegation) : Delegation → Prop
  | same : x.Becomes x
  | frozen : x.Becomes { x with frozen := true }
  | changed (live : x.frozen = false) (deposit : Amount) : x.Becomes { x with deposit }

namespace Delegation

variable {x y : Delegation}

theorem freeze_eq_self (frozen : x.frozen) : { x with frozen := true } = x := by
  rw [← frozen]

theorem Becomes.eq_of_frozen (h : x.Becomes y) (frozen : x.frozen) : y = x := by
  cases h with
  | same => rfl
  | frozen => exact freeze_eq_self frozen
  | changed live => rw [live] at frozen; cases frozen

theorem Becomes.eq_freeze (h : x.Becomes y) (frozen : y.frozen) :
    y = { x with frozen := true } := by
  cases h with
  | same => exact (freeze_eq_self frozen).symm
  | frozen => rfl
  | changed live =>
      -- What is written here counts as it did before.
      change x.frozen = true at frozen
      rw [live] at frozen
      cases frozen

end Delegation

namespace Ledger

variable {rules : LedgerRules} {caller d v : AccountId} {l l' : Ledger} {f : Fact}
  {action : StakingAction} {x : Delegation}

theorem becomes_updateDelegation {d' v' : AccountId} {z : Delegation}
    (known : l.delegation? d v = some x) (bonded : l.delegation? d' v' = some z)
    (live : z.frozen = false) (deposit : Amount) :
    ∃ y, (l.updateDelegation d' v' ({ · with deposit })).delegation? d v = some y ∧
      x.Becomes y := by
  by_cases ne : (d', v') = (d, v)
  · obtain ⟨rfl, rfl⟩ := Prod.mk.inj ne
    obtain rfl : x = z := Option.some.inj (known.symm.trans bonded)
    exact ⟨_, delegation?_updateDelegation_self known, .changed live deposit⟩
  · exact ⟨x, (delegation?_updateDelegation_of_ne ne).trans known, .same⟩

/-- Until its delegator unbonds it, an action leaves the delegation there, frozen at most. -/
theorem Step.becomes (h : Step rules caller l action l' f) (hl : l.Unique)
    (known : l.delegation? d v = some x) :
    (∃ y, l'.delegation? d v = some y ∧ x.Becomes y) ∨
      (caller = d ∧ action = .unbondDelegation v ∧ l'.delegation? d v = none) := by
  cases h with
  | registerValidator | increaseStake | decreaseStake | setDelegable =>
      exact .inl ⟨x, known, .same⟩
  | unbondStake =>
      refine .inl ⟨x.freeze caller, (find?_freeze ..).trans (congrArg _ known), ?_⟩
      unfold Delegation.freeze
      split
      · exact .frozen
      · exact .same
  | registerDelegator =>
      refine .inl ⟨x, ?_, .same⟩
      rw [delegation?, List.find?_append, show l.delegations.find? (·.isOf d v) = some x from known]
      rfl
  | increaseDelegation _ _ bonded live | decreaseDelegation _ _ bonded live =>
      exact .inl (becomes_updateDelegation known bonded live _)
  | @unbondDelegation w =>
      by_cases ne : (caller, w) = (d, v)
      · obtain ⟨rfl, rfl⟩ := Prod.mk.inj ne
        exact .inr ⟨rfl, rfl, delegation?_erase_self hl caller w⟩
      · exact .inl ⟨x, (delegation?_erase_of_ne ne).trans known, .same⟩

/-- Whoever bonds stake with a validator has no frozen delegation to it. -/
theorem Step.not_bondsWith (h : Step rules d l action l' f) (known : l.delegation? d v = some x)
    (frozen : x.frozen) : action.bondsWith ≠ some v := by
  intro bonds
  cases h with
  | registerDelegator _ fresh =>
      obtain rfl := Option.some.inj bonds
      rw [fresh] at known
      cases known
  | increaseDelegation _ _ bonded live | decreaseDelegation _ _ bonded live =>
      obtain rfl := Option.some.inj bonds
      obtain rfl := Option.some.inj (known.symm.trans bonded)
      rw [live] at frozen
      cases frozen
  | registerValidator | increaseStake | decreaseStake | unbondStake | setDelegable
  | unbondDelegation => cases bonds

theorem filter_isOf (hl : l.Unique) (d v : AccountId) :
    l.delegations.filter (·.isOf d v) = (l.delegation? d v).toList := by
  simp only [delegation?, Delegation.isOf_eq]
  exact filter_eq_toList_find? hl.delegations

theorem delegation?_of_mem (hl : l.Unique) (hx : x ∈ l.delegations) :
    l.delegation? x.delegator x.validator = some x := by
  have hmem : x ∈ l.delegations.filter (·.isOf x.delegator x.validator) :=
    List.mem_filter.2 ⟨hx, by simp [Delegation.isOf]⟩
  rw [filter_isOf hl] at hmem
  simpa using hmem

def without (l : Ledger) (d v : AccountId) : Ledger :=
  { l with delegations := l.delegations.filter fun y => !y.isOf d v }

/-- Counted are the delegations that are not frozen, so nothing changes without frozen ones. -/
theorem live_without (hfrozen : ∀ y ∈ l.delegations, y.isOf d v → y.frozen) :
    (l.without d v).live = l.live := by
  rw [live, without, List.filter_filter]
  refine List.filter_congr fun y hy => ?_
  cases hisOf : y.isOf d v with
  | false => simp
  | true => simp [hfrozen y hy hisOf]

/-- All that is counted is counted from the validators and the live delegations. -/
structure CountsAs (l l' : Ledger) : Prop where
  totalStake : l.totalStake = l'.totalStake
  delegatorCount : l.delegatorCount = l'.delegatorCount
  validatorCountOf : ∀ a, l.validatorCountOf a = l'.validatorCountOf a
  validatorList : l.validatorList = l'.validatorList

theorem countsAs_of_live (hvalidators : l.validators = l'.validators) (hlive : l.live = l'.live) :
    l.CountsAs l' where
  totalStake := by rw [totalStake, totalStake, hvalidators, hlive]
  delegatorCount := by rw [delegatorCount, delegatorCount, hlive]
  validatorCountOf := fun a => by rw [validatorCountOf, validatorCountOf, hlive]
  validatorList := by
    have hoverview : l.overview = l'.overview := by
      funext v
      simp only [overview, liveOf, hlive]
    rw [validatorList, validatorList, hvalidators, hoverview]

end Ledger

namespace Call

def unbonds (c : Call ε τ) (d v : AccountId) : Bool :=
  match c.operation, c.record? with
  | .act caller _ (.unbondDelegation w), some _ => caller = d && w = v
  | _, _ => false

end Call

namespace Anchor

variable {s s' : Anchor} {d v : AccountId} {x y : Delegation} {o : Operation ε τ}

/-- A frozen delegation on an anchor, and all that can still be done with it. -/
structure KeepsFrozen (s : Anchor) (x : Delegation) : Prop where
  /-- It is the one delegation of its pair. -/
  kept : s.ledger.delegations.filter (·.isOf x.delegator x.validator) = [x]
  frozen : x.frozen
  uncounted : s.ledger.CountsAs (s.ledger.without x.delegator x.validator)
  refused : ∀ {ε τ : Type} (o : Operation ε τ), o.caller = x.delegator →
    o.action?.bind (·.bondsWith) = some x.validator → ∃ e, s.perform o = (.staking (.error e), s)
  waits : s.phase = .booting → ∀ now,
    s.act x.delegator now (.unbondDelegation x.validator) = (.error .invalidState, s)
  leaves : s.phase ≠ .booting → s.history.HasRoom → ∀ now, ∃ r e s',
    s.act x.delegator now (.unbondDelegation x.validator) = (.ok r, s') ∧
      r.fact = .delegatorUnbonded x.delegator x.validator x.deposit ∧
      e.amount = x.deposit ∧ s'.unbonding = s.unbonding.push x.delegator e ∧
      s'.ledger.delegation? x.delegator x.validator = none

theorem perform_eq_act {action : StakingAction} (s : Anchor) (asked : o.action? = some action) :
    s.perform o = (s.act o.caller o.now action).map .staking id := by
  cases o with
  | act caller now =>
      cases asked
      rfl
  | deposit sender now amount message =>
      have h : StakingAction.ofMessage amount message = .ok action := toOption_eq_some_iff.1 asked
      simp only [perform, deposit, h]
      rfl
  | setProfile | withdraw | command => cases asked

theorem refused_of_frozen (known : s.ledger.delegation? d v = some x) (frozen : x.frozen)
    (hcaller : o.caller = d) (bonds : o.action?.bind (·.bondsWith) = some v) :
    ∃ e, s.perform o = (.staking (.error e), s) := by
  obtain ⟨action, asked, bonds⟩ := Option.bind_eq_some_iff.1 bonds
  rw [perform_eq_act s asked, hcaller]
  cases h : s.attempt d action with
  | error e =>
      rw [act_of_refused h]
      exact ⟨e, rfl⟩
  | ok lf =>
      obtain ⟨-, step⟩ := attempt_eq_ok_iff.1 h
      exact absurd bonds (step.not_bondsWith known frozen)

theorem act_unbondDelegation_of_booting (booting : s.phase = .booting) (d v : AccountId)
    (now : Int64) : s.act d now (.unbondDelegation v) = (.error .invalidState, s) := by
  apply act_of_refused
  rw [attempt, permit, Phase.demandUnbonding, booting]
  rfl

theorem permit_unbondDelegation (hphase : s.phase ≠ .booting) (d v : AccountId) :
    s.permit d (.unbondDelegation v) = .ok () := by
  rw [permit, Phase.demandUnbonding, require_eq_ok_iff]
  cases h : s.phase with
  | booting => exact absurd h hphase
  | staging | active | broken => rfl

theorem act_unbondDelegation (hphase : s.phase ≠ .booting) (room : s.history.HasRoom)
    (hs : s.ledger.Unique) (known : s.ledger.delegation? d v = some x) (now : Int64) :
    ∃ r e s', s.act d now (.unbondDelegation v) = (.ok r, s') ∧
      r.fact = .delegatorUnbonded d v x.deposit ∧ e.amount = x.deposit ∧
      s'.unbonding = s.unbonding.push d e ∧ s'.ledger.delegation? d v = none := by
  have hact := act_of_step (permit_unbondDelegation hphase d v) (.unbondDelegation known) room now
  exact ⟨_, _, _, hact, rfl, rfl, rfl, Ledger.delegation?_erase_self hs d v⟩

theorem keepsFrozen (hs : s.ledger.Unique) (known : s.ledger.delegation? d v = some x)
    (frozen : x.frozen) : s.KeepsFrozen x := by
  obtain ⟨rfl, rfl⟩ := Ledger.isOf_of_delegation? known
  have kept : s.ledger.delegations.filter (·.isOf x.delegator x.validator) = [x] := by
    rw [Ledger.filter_isOf hs, known]
    rfl
  refine ⟨kept, frozen, ?_, fun o => refused_of_frozen known frozen,
    fun booting => act_unbondDelegation_of_booting booting _ _,
    fun hphase room => act_unbondDelegation hphase room hs known⟩
  refine Ledger.countsAs_of_live rfl (Ledger.live_without ?_).symm
  intro y hy hisOf
  have hmem : y ∈ s.ledger.delegations.filter (·.isOf x.delegator x.validator) :=
    List.mem_filter.2 ⟨hy, hisOf⟩
  rw [kept] at hmem
  obtain rfl := List.mem_singleton.1 hmem
  exact frozen

theorem Effect.becomes {reply : Reply ε τ} (h : Effect s o reply s') (hs : s.ledger.Unique)
    (known : s.ledger.delegation? d v = some x) :
    (∃ y, s'.ledger.delegation? d v = some y ∧ x.Becomes y) ∨
      (o.caller = d ∧ o.action? = some (.unbondDelegation v) ∧ reply.record?.isSome ∧
        s'.ledger.delegation? d v = none) := by
  cases h with
  | recorded asked _ step =>
      rcases step.becomes hs known with hthere | ⟨hcaller, rfl, hgone⟩
      · exact .inl hthere
      · exact .inr ⟨hcaller, asked, rfl, hgone⟩
  | profileSet | paid | unchanged => exact .inl ⟨x, known, .same⟩
  | commanded _ executed =>
      rw [(execute_frame executed).1]
      exact .inl ⟨x, known, .same⟩

end Anchor

namespace Call

variable {c : Call ε τ} {d v : AccountId} {x y : Delegation}

theorem becomes (room : c.before.history.HasRoom) (hs : c.before.ledger.Unique)
    (known : c.before.ledger.delegation? d v = some x) (bonded : c.unbonds d v = false) :
    ∃ y, c.after.ledger.delegation? d v = some y ∧ x.Becomes y := by
  rcases (Call.effect room).becomes hs known with hthere | ⟨hcaller, asked, hrecord, -⟩
  · exact hthere
  · obtain ⟨now, hact⟩ := Operation.eq_act_of_isExit asked rfl
    obtain ⟨r, hr⟩ : ∃ r, c.record? = some r := Option.isSome_iff_exists.1 hrecord
    rw [hcaller] at hact
    simp [unbonds, hact, hr] at bonded

/-- The call that freezes a delegation changes nothing else of it. -/
theorem eq_freeze (room : c.before.history.HasRoom) (hs : c.before.ledger.Unique)
    (known : c.before.ledger.delegation? d v = some y)
    (left : c.after.ledger.delegation? d v = some x) (frozen : x.frozen) :
    x = { y with frozen := true } := by
  rcases (Call.effect room).becomes hs known with ⟨z, hz, hbecomes⟩ | ⟨-, -, -, hgone⟩
  · obtain rfl : z = x := Option.some.inj (hz.symm.trans left)
    exact hbecomes.eq_freeze frozen
  · cases hgone.symm.trans left

end Call

namespace Anchor

variable {s : Anchor} {d v : AccountId} {x : Delegation}

theorem delegation?_run_of_frozen (ops : List (Operation ε τ))
    (hroom : ∀ c ∈ s.trace ops, c.before.history.HasRoom) (hs : s.Unique)
    (known : s.ledger.delegation? d v = some x) (frozen : x.frozen)
    (bonded : ∀ c ∈ s.trace ops, c.unbonds d v = false) :
    (s.run ops).ledger.delegation? d v = some x := by
  induction ops generalizing s with
  | nil => exact known
  | cons o ops ih =>
      obtain ⟨room, hroom⟩ := List.forall_mem_cons.1 hroom
      obtain ⟨hbonded, bonded⟩ := List.forall_mem_cons.1 bonded
      obtain ⟨y, hy, hbecomes⟩ := Call.becomes room hs.ledger known hbonded
      obtain rfl := hbecomes.eq_of_frozen frozen
      exact ih hroom ((perform_effect room o).unique hs) hy bonded

/-- A delegation that is frozen at some point of a run is kept from there on, as long as its
delegator does not unbond it. The call that froze it left its amount alone. -/
theorem frozen_until_unbonded {owner : AccountId} {id : String} {template : Template}
    {token : StakeToken} {vault : AccountId} {bump vaultBump : UInt8}
    (hnew : Anchor.new owner id template token vault bump vaultBump = .ok s)
    (earlier later : List (Operation ε τ))
    (hroom : ∀ c ∈ s.trace (earlier ++ later), c.before.history.HasRoom)
    (there : x ∈ (s.run earlier).ledger.delegations) (frozen : x.frozen)
    (bonded : ∀ c ∈ (s.run earlier).trace later, c.unbonds x.delegator x.validator = false) :
    (s.run (earlier ++ later)).KeepsFrozen x ∧
      ∀ before o, earlier = before ++ [o] → ∀ y ∈ (s.run before).ledger.delegations,
        y.pair = x.pair → x = { y with frozen := true } := by
  rw [trace_append, List.forall_mem_append] at hroom
  obtain ⟨hearlier, hlater⟩ := hroom
  have hunique := unique_run earlier (unique_of_new hnew)
  have known := Ledger.delegation?_of_mem hunique.ledger there
  constructor
  · rw [run_append]
    exact keepsFrozen (unique_run later hunique).ledger
      (delegation?_run_of_frozen later hlater hunique known frozen bonded) frozen
  · rintro before o rfl y hy hpair
    obtain ⟨hdelegator, hvalidator⟩ := Prod.mk.inj hpair
    rw [trace_append, List.forall_mem_append] at hearlier
    obtain ⟨-, hlast⟩ := hearlier
    have hunique := unique_run before (unique_of_new hnew)
    have hy' := Ledger.delegation?_of_mem hunique.ledger hy
    rw [hdelegator, hvalidator] at hy'
    rw [run_append] at known
    exact Call.eq_freeze (c := ⟨s.run before, o⟩) (hlast _ List.mem_cons_self) hunique.ledger hy'
      known frozen

end Anchor

open SampleRun in
/-- The delegation to the validator that left stays frozen when that validator is back, and the
delegator can neither top it up nor register anew. -/
theorem Anchor.frozen_until_unbonded_sampleRun :
    let x : Delegation := ⟨delegator, validator, 500, true⟩
    let later := operations.drop 7 ++
      [.act validator 17 (.setDelegable true), .act delegator 18 (.increaseDelegation validator 10),
        .act delegator 19 (.registerDelegator validator 500)]
    x ∈ (anchor.run (operations.take 7)).ledger.delegations ∧
      (anchor.run (operations.take 7 ++ later)).KeepsFrozen x ∧
      ((anchor.run (operations.take 7 ++ later)).ledger.validator? validator).isSome ∧
      (anchor.run (operations.take 7 ++ later)).ledger.validatorCountOf delegator = 0 := by
  intro x later
  have there : x ∈ (anchor.run (operations.take 7)).ledger.delegations := by decide +kernel
  have hroom : ∀ c ∈ anchor.trace (operations.take 7 ++ later), c.before.history.HasRoom := by
    decide +kernel
  have bonded : ∀ c ∈ (anchor.run (operations.take 7)).trace later,
      c.unbonds x.delegator x.validator = false := by
    decide +kernel
  exact ⟨there,
    (frozen_until_unbonded new_eq_anchor (operations.take 7) later hroom there rfl bonded).1,
    by decide +kernel, by decide +kernel⟩

end AppchainStaking
