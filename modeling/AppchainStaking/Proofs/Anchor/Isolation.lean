import AppchainStaking.Proofs.Anchor.Conservation
import Mathlib.Data.List.Forall2

/-!
# Accounts are isolated from each other

An operation changes nothing that belongs to another account than its caller, with one exception: a
validator that leaves freezes the delegations that others have with it. So a run in which an account
asks for nothing leaves that account what it had, but for delegations whose validators left.
-/

namespace AppchainStaking

variable {ε τ : Type}

theorem forall₂_trans {α : Type} {R : α → α → Prop} (hR : ∀ x y z, R x y → R y z → R x z)
    {xs ys zs : List α} (hxy : List.Forall₂ R xs ys) (hyz : List.Forall₂ R ys zs) :
    List.Forall₂ R xs zs := by
  induction hxy generalizing zs with
  | nil => exact hyz
  | cons hx _ ih =>
      cases hyz with
      | cons hy htail => exact .cons (hR _ _ _ hx hy) (ih htail)

/-- A delegation stays as it is, or it is frozen and its validator leaves. -/
def Delegation.SparedBy (leaves : AccountId → Prop) (x y : Delegation) : Prop :=
  y = x ∨ leaves x.validator ∧ x.frozen = false ∧ y = { x with frozen := true }

theorem Delegation.SparedBy.trans {leaves : AccountId → Prop} {x y z : Delegation}
    (hxy : x.SparedBy leaves y) (hyz : y.SparedBy leaves z) : x.SparedBy leaves z := by
  rcases hxy with rfl | ⟨left, live, rfl⟩
  · exact hyz
  -- What is frozen already is not frozen again.
  · rcases hyz with rfl | ⟨_, frozen, _⟩
    · exact .inr ⟨left, live, rfl⟩
    · cases frozen

namespace Ledger

variable {rules : LedgerRules} {caller a v : AccountId} {l l' l'' : Ledger} {f : Fact}
  {action : StakingAction}

def validatorsOf (l : Ledger) (a : AccountId) : List Validator :=
  l.validators.filter (·.id = a)

/-- What a ledger keeps of an account while others change it: its records as a validator, and its
delegations, of which those may be frozen whose validators leave. -/
structure Spares (l : Ledger) (leaves : AccountId → Prop) (l' : Ledger) (a : AccountId) : Prop where
  validators : l'.validatorsOf a = l.validatorsOf a
  delegations : List.Forall₂ (Delegation.SparedBy leaves) (l.delegationsBy a) (l'.delegationsBy a)

variable {leaves leaves' : AccountId → Prop}

theorem spares_of_eq
    (hvalidators : l'.validatorsOf a = l.validatorsOf a)
    (hdelegations : l'.delegationsBy a = l.delegationsBy a) : l.Spares leaves l' a := by
  refine ⟨hvalidators, ?_⟩
  rw [hdelegations]
  exact List.forall₂_same.2 fun x _ => .inl rfl

theorem Spares.validator?_eq (h : l.Spares leaves l' a) : l'.validator? a = l.validator? a := by
  have hhead : ∀ l : Ledger, l.validator? a = (l.validatorsOf a).head? := fun l =>
    List.head?_filter.symm
  rw [hhead, hhead, h.validators]

theorem Spares.mono (h : l.Spares leaves l' a) (hleaves : ∀ v, leaves v → leaves' v) :
    l.Spares leaves' l' a := by
  refine ⟨h.validators, h.delegations.imp fun x y hxy => ?_⟩
  exact hxy.imp_right fun ⟨left, rest⟩ => ⟨hleaves _ left, rest⟩

theorem Spares.trans (h : l.Spares leaves l' a) (h' : l'.Spares leaves l'' a) :
    l.Spares leaves l'' a := by
  refine ⟨h'.validators.trans h.validators, forall₂_trans ?_ h.delegations h'.delegations⟩
  intro x y z hxy hyz
  exact hxy.trans hyz

theorem validatorsOf_updateValidator_of_ne {g : Validator → Validator} (hg : ∀ x, (g x).id = x.id)
    (ne : a ≠ v) : (l.updateValidator v g).validatorsOf a = l.validatorsOf a := by
  refine filter_updateFirst_of_disjoint (fun x hx => ?_) l.validators
  have hid : x.id = v := by simpa using hx
  simp [hg, hid, ne.symm]

theorem delegationsBy_updateDelegation_of_ne {d : AccountId} {g : Delegation → Delegation}
    (hg : ∀ x, (g x).delegator = x.delegator) (ne : a ≠ d) :
    (l.updateDelegation d v g).delegationsBy a = l.delegationsBy a := by
  refine filter_updateFirst_of_disjoint (fun x hx => ?_) l.delegations
  have hd : x.delegator = d := by simp_all [Delegation.isOf]
  simp [hg, hd, ne.symm]

/-- A validator that leaves freezes the delegations bound to it, and no others. -/
theorem spares_unbonded (ne : a ≠ caller) :
    l.Spares (· = caller)
      { validators := l.validators.eraseP (·.id = caller)
        delegations := l.delegations.map fun x =>
          if x.validator = caller then { x with frozen := true } else x } a := by
  constructor
  · refine filter_eraseP_of_disjoint (fun x hx => ?_) l.validators
    have hid : x.id = caller := by simpa using hx
    simp [hid, ne.symm]
  · have hdelegator : (fun x : Delegation => decide (x.delegator = a)) ∘ (fun x =>
          if x.validator = caller then { x with frozen := true } else x) =
        fun x => decide (x.delegator = a) :=
      funext fun x =>
        Delegation.apply_freeze (g := fun x => decide (x.delegator = a)) (fun _ => rfl) caller x
    rw [delegationsBy, delegationsBy, List.filter_map, hdelegator, List.forall₂_map_right_iff,
      List.forall₂_same]
    intro x _
    by_cases bound : x.validator = caller
    · rw [if_pos bound]
      cases live : x.frozen with
      | false => exact .inr ⟨bound, live, rfl⟩
      | true =>
          left
          rw [← live]
    · rw [if_neg bound]
      exact .inl rfl

/-- An action spares every account but its caller. -/
theorem Step.spares (h : Step rules caller l action l' f) (ne : a ≠ caller) :
    l.Spares (fun v => action = .unbondStake ∧ v = caller) l' a := by
  cases h with
  | registerValidator =>
      refine spares_of_eq ?_ rfl
      simp [validatorsOf, ne.symm]
  | increaseStake | decreaseStake | setDelegable =>
      exact spares_of_eq (validatorsOf_updateValidator_of_ne (fun _ => rfl) ne) rfl
  | unbondStake => exact (spares_unbonded ne).mono fun v left => ⟨rfl, left⟩
  | registerDelegator =>
      refine spares_of_eq rfl ?_
      simp [delegationsBy, ne.symm]
  | increaseDelegation | decreaseDelegation =>
      exact spares_of_eq rfl (delegationsBy_updateDelegation_of_ne (fun _ => rfl) ne)
  | unbondDelegation =>
      refine spares_of_eq rfl (filter_eraseP_of_disjoint (fun x hx => ?_) l.delegations)
      have hd : x.delegator = caller := by simp_all [Delegation.isOf]
      simp [hd, ne.symm]

end Ledger

def Operation.Leaves (o : Operation ε τ) (v : AccountId) : Prop :=
  ∃ now, o = .act v now .unbondStake

theorem Operation.leaves_caller {o : Operation ε τ} (h : o.action? = some .unbondStake) :
    o.Leaves o.caller := by
  cases o with
  | act caller now action =>
      cases h
      exact ⟨now, rfl⟩
  | deposit sender now amount message =>
      simp only [action?, toOption_eq_some_iff, StakingAction.ofMessage, bind_eq_ok_iff] at h
      obtain ⟨i, _, hi⟩ := h
      cases i with
      | registerValidator | increaseStake => cases hi
      | registerDelegator | increaseDelegation =>
          simp only [Intent.action, bind_eq_ok_iff, pure_eq_ok_iff] at hi
          obtain ⟨_, _, hi⟩ := hi
          cases hi
  | setProfile | withdraw | command => cases h

namespace Anchor

variable {s s' s'' : Anchor} {o : Operation ε τ} {reply : Reply ε τ} {a : AccountId}
  {leaves leaves' : AccountId → Prop}

structure Spares (s : Anchor) (leaves : AccountId → Prop) (s' : Anchor) (a : AccountId) : Prop where
  ledger : s.ledger.Spares leaves s'.ledger a
  entries : s'.unbonding.of a = s.unbonding.of a
  indexes : s'.history.indexesOf a = s.history.indexesOf a

theorem Spares.refl (s : Anchor) (leaves : AccountId → Prop) (a : AccountId) :
    s.Spares leaves s a :=
  ⟨Ledger.spares_of_eq rfl rfl, rfl, rfl⟩

theorem Spares.mono (h : s.Spares leaves s' a) (hleaves : ∀ v, leaves v → leaves' v) :
    s.Spares leaves' s' a :=
  ⟨h.ledger.mono hleaves, h.entries, h.indexes⟩

theorem Spares.trans (h : s.Spares leaves s' a) (h' : s'.Spares leaves s'' a) :
    s.Spares leaves s'' a :=
  ⟨h.ledger.trans h'.ledger, h'.entries.trans h.entries, h'.indexes.trans h.indexes⟩

theorem queue_of_ne (s : Anchor) {r : HistoryRecord} (ne : a ≠ r.fact.actor) :
    (s.queue r).of a = s.unbonding.of a := by
  unfold queue
  split
  · rfl
  · exact Grouped.of_push_of_ne _ _ ne.symm

theorem ledger_spares_of_step {action : StakingAction} {l : Ledger} {f : Fact}
    (asked : o.action? = some action) (step : Ledger.Step s.rules o.caller s.ledger action l f)
    (ne : a ≠ o.caller) : s.ledger.Spares o.Leaves l a := by
  refine (step.spares ne).mono ?_
  rintro v ⟨rfl, rfl⟩
  exact Operation.leaves_caller asked

theorem Effect.spares (h : Effect s o reply s') (ne : a ≠ o.caller) : s.Spares o.Leaves s' a := by
  cases h with
  | @recorded o action l f asked _ step _ =>
      have hactor : (s.nextRecord f o.now).fact.actor = o.caller := step.actor_eq
      rw [← hactor] at ne
      exact ⟨ledger_spares_of_step asked step (hactor ▸ ne), queue_of_ne s ne,
        Grouped.of_push_of_ne _ _ ne.symm⟩
  | profileSet =>
      refine ⟨Ledger.spares_of_eq ?_ rfl, rfl, rfl⟩
      exact Ledger.validatorsOf_updateValidator_of_ne (fun _ => rfl) ne
  | paid =>
      exact ⟨Ledger.spares_of_eq rfl rfl, Grouped.of_drop_of_ne _ _ ne.symm, rfl⟩
  | commanded _ executed =>
      obtain ⟨hledger, hhistory, hunbonding, -⟩ := execute_frame executed
      exact ⟨Ledger.spares_of_eq (by rw [hledger]) (by rw [hledger]), by rw [hunbonding],
        by rw [hhistory]⟩
  | unchanged => exact .refl s _ a

theorem Unrecorded.spares (h : Unrecorded s o reply s') (ne : a ≠ o.caller) :
    s.Spares o.Leaves s' a := by
  cases h with
  | intro asked _ step _ => exact ⟨ledger_spares_of_step asked step ne, rfl, rfl⟩

theorem perform_spares (s : Anchor) (o : Operation ε τ) (ne : a ≠ o.caller) :
    s.Spares o.Leaves (s.perform o).2 a :=
  (perform_outcome s o).elim (·.spares ne) (·.spares ne)

/-- A run in which an account asks for nothing spares that account. -/
theorem run_spares (ops : List (Operation ε τ)) (silent : ∀ o ∈ ops, a ≠ o.caller) :
    s.Spares (fun v => ∃ o ∈ ops, o.Leaves v) (s.run ops) a := by
  induction ops generalizing s with
  | nil => exact .refl s _ a
  | cons o ops ih =>
      have hstep := perform_spares s o (silent o List.mem_cons_self)
      have hrest := @ih (s.perform o).2 fun o' ho' => silent o' (List.mem_cons_of_mem _ ho')
      refine (hstep.mono fun v left => ?_).trans (hrest.mono fun v hv => ?_)
      · exact ⟨o, List.mem_cons_self, left⟩
      · obtain ⟨o', ho', left⟩ := hv
        exact ⟨o', List.mem_cons_of_mem _ ho', left⟩

/-- No operation touches the records of another account than its caller. Only the delegations of
others with a validator that leaves are frozen. -/
theorem accounts_isolated (s : Anchor) (o : Operation ε τ) {a : AccountId} (ne : a ≠ o.caller) :
    (s.perform o).2.ledger.validator? a = s.ledger.validator? a ∧
      (s.perform o).2.ledger.validatorsOf a = s.ledger.validatorsOf a ∧
      List.Forall₂
        (fun x y => y = x ∨
          (∃ now, o = .act x.validator now .unbondStake) ∧ x.frozen = false ∧
            y = { x with frozen := true })
        (s.ledger.delegationsBy a) ((s.perform o).2.ledger.delegationsBy a) ∧
      (s.perform o).2.unbonding.of a = s.unbonding.of a ∧
      (s.perform o).2.history.indexesOf a = s.history.indexesOf a := by
  have hspares := perform_spares s o ne
  exact ⟨hspares.ledger.validator?_eq, hspares.ledger.validators, hspares.ledger.delegations,
    hspares.entries, hspares.indexes⟩

/-- A validator that leaves touches its delegator no more than by freezing the delegation. -/
theorem accounts_isolated_sampleRun :
    let s := SampleRun.anchor.run (SampleRun.operations.take 6)
    let o : Operation Unit Unit := .act SampleRun.validator 15 .unbondStake
    let s' := (s.perform o).2
    SampleRun.delegator ≠ o.caller ∧
      s.ledger.delegationsBy SampleRun.delegator =
        [⟨SampleRun.delegator, SampleRun.validator, 500, false⟩] ∧
      s'.ledger.delegationsBy SampleRun.delegator =
        [⟨SampleRun.delegator, SampleRun.validator, 500, true⟩] ∧
      s'.unbonding.of SampleRun.delegator = s.unbonding.of SampleRun.delegator ∧
      s'.history.indexesOf SampleRun.delegator = s.history.indexesOf SampleRun.delegator := by
  intro s o s'
  have ne : SampleRun.delegator ≠ o.caller := by decide +kernel
  obtain ⟨-, -, -, hentries, hindexes⟩ := accounts_isolated s o ne
  exact ⟨ne, by decide +kernel, by decide +kernel, hentries, hindexes⟩

end Anchor

end AppchainStaking
