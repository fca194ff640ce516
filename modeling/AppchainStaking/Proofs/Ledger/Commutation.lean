import AppchainStaking.Proofs.Ledger.Request

/-!
# Requests to different records commute

Two requests to different records are answered alike, and leave the same ledger in the same order,
whichever comes first. There is one exception. The deposit of a delegation changes only while its
validator is there, so it matters whether that validator leaves before or after.
-/

namespace AppchainStaking

namespace RecordEdit

open Ledger

variable {e e' : RecordEdit} {d d' v w : AccountId} {g g' : Validator → Validator}

def leaves? : RecordEdit → Option AccountId
  | removal (.validator v) => some v
  | validator _ _ _ | delegation _ _ _ | removal (.delegation _ _) => none

theorem eq_removal_of_leaves? (h : e.leaves? = some v) : e = removal (.validator v) := by
  cases e with
  | validator | delegation => cases h
  | removal k =>
      cases k with
      | validator => cases h; rfl
      | delegation => cases h

theorem validator_comm (hg : ∀ x, (g x).id = x.id) (hg' : ∀ x, (g' x).id = x.id) (ne : v ≠ w)
    (l : Ledger) :
    (validator w g' hg').apply ((validator v g hg).apply l) =
      (validator v g hg).apply ((validator w g' hg').apply l) := by
  have h := updateFirst_comm (id_disjoint hg ne) (id_disjoint hg' ne.symm) l.validators
  simp only [apply, updateValidator, h]

theorem validator_leave_comm (hg : ∀ x, (g x).id = x.id) (ne : v ≠ w) (l : Ledger) :
    (removal (.validator w)).apply ((validator v g hg).apply l) =
      (validator v g hg).apply ((removal (.validator w)).apply l) := by
  have h := eraseP_updateFirst_of_disjoint (id_disjoint hg ne) l.validators
  simp only [apply, updateValidator, h]

/-- Of two validators that leave, each freezes its own delegations. -/
theorem leave_comm (ne : v ≠ w) (l : Ledger) :
    (removal (.validator w)).apply ((removal (.validator v)).apply l) =
      (removal (.validator v)).apply ((removal (.validator w)).apply l) := by
  have herase : (l.validators.eraseP (·.id = v)).eraseP (·.id = w) =
      (l.validators.eraseP (·.id = w)).eraseP (·.id = v) := by
    refine List.eraseP_comm fun x _ => ?_
    by_cases hx : x.id = v <;> simp [hx, ne]
  have hfreeze : (l.delegations.map (·.freeze v)).map (·.freeze w) =
      (l.delegations.map (·.freeze w)).map (·.freeze v) := by
    rw [List.map_map, List.map_map]
    exact List.map_congr_left fun x _ => x.freeze_comm ne
  simp only [apply, herase, hfreeze]

theorem delegation_comm (ne : (d, v) ≠ (d', w)) (deposit deposit' : Amount) (l : Ledger) :
    (delegation d' w deposit').apply ((delegation d v deposit).apply l) =
      (delegation d v deposit).apply ((delegation d' w deposit').apply l) := by
  have h := updateFirst_comm (isOf_disjoint ne deposit) (isOf_disjoint ne.symm deposit')
    l.delegations
  simp only [apply, updateDelegation, h]

/-- Freezing touches neither the deposit of a delegation nor what it is looked up by. -/
theorem delegation_leave_comm (d v w : AccountId) (deposit : Amount) (l : Ledger) :
    (removal (.validator w)).apply ((delegation d v deposit).apply l) =
      (delegation d v deposit).apply ((removal (.validator w)).apply l) := by
  have h := map_updateFirst_comm (p := (·.isOf d v)) (f := ({ · with deposit })) (h := (·.freeze w))
    (fun x => x.isOf_freeze w d v) (fun x => x.freeze_withDeposit w deposit) l.delegations
  simp only [apply, updateDelegation, h]

theorem delegation_unbond_comm (ne : (d, v) ≠ (d', w)) (deposit : Amount) (l : Ledger) :
    (removal (.delegation d' w)).apply ((delegation d v deposit).apply l) =
      (delegation d v deposit).apply ((removal (.delegation d' w)).apply l) := by
  have h := eraseP_updateFirst_of_disjoint (isOf_disjoint ne deposit) l.delegations
  simp only [apply, updateDelegation, h]

theorem leave_unbond_comm (v d w : AccountId) (l : Ledger) :
    (removal (.delegation d w)).apply ((removal (.validator v)).apply l) =
      (removal (.validator v)).apply ((removal (.delegation d w)).apply l) := by
  have hisOf : (Delegation.isOf d w) ∘ (Delegation.freeze v) = Delegation.isOf d w :=
    funext fun x => x.isOf_freeze v d w
  simp only [apply, List.eraseP_map, hisOf]

theorem unbond_comm (ne : (d, v) ≠ (d', w)) (l : Ledger) :
    (removal (.delegation d' w)).apply ((removal (.delegation d v)).apply l) =
      (removal (.delegation d v)).apply ((removal (.delegation d' w)).apply l) := by
  have herase : (l.delegations.eraseP (·.isOf d v)).eraseP (·.isOf d' w) =
      (l.delegations.eraseP (·.isOf d' w)).eraseP (·.isOf d v) := by
    refine List.eraseP_comm fun x _ => ?_
    by_cases hx : x.isOf d v
    · exact .inr (by simp [isOf_eq_false_of_isOf ne hx])
    · exact .inl hx
  simp only [apply, herase]

/-- Edits of different records commute, on any ledger. -/
theorem apply_comm (ne : e.key ≠ e'.key) (l : Ledger) :
    e'.apply (e.apply l) = e.apply (e'.apply l) := by
  cases e with
  | validator v g hg =>
      cases e' with
      | validator w g' hg' => exact validator_comm hg hg' (fun h => ne (by rw [key, key, h])) l
      | delegation => rfl
      | removal k =>
          cases k with
          | validator w => exact validator_leave_comm hg (fun h => ne (by rw [key, key, h])) l
          | delegation => rfl
  | delegation d v deposit =>
      cases e' with
      | validator => rfl
      | delegation d' w deposit' =>
          exact delegation_comm (fun h => ne (by cases h; rfl)) deposit deposit' l
      | removal k =>
          cases k with
          | validator w => exact delegation_leave_comm d v w deposit l
          | delegation d' w =>
              exact delegation_unbond_comm (fun h => ne (by cases h; rfl)) deposit l
  | removal k =>
      cases k with
      | validator v =>
          cases e' with
          | validator w g' hg' =>
              exact (validator_leave_comm hg' (fun h => ne (by rw [key, key, h])) l).symm
          | delegation d' w deposit' => exact (delegation_leave_comm d' w v deposit' l).symm
          | removal k' =>
              cases k' with
              | validator w => exact leave_comm (fun h => ne (by rw [key, key, h])) l
              | delegation d' w => exact leave_unbond_comm v d' w l
      | delegation d v =>
          cases e' with
          | validator => rfl
          | delegation d' w deposit' =>
              exact (delegation_unbond_comm (fun h => ne (by cases h; rfl)) deposit' l).symm
          | removal k' =>
              cases k' with
              | validator w => exact (leave_unbond_comm w d v l).symm
              | delegation d' w => exact unbond_comm (fun h => ne (by cases h; rfl)) l

end RecordEdit

namespace RecordRequest

def leaves? : RecordRequest → Option AccountId
  | leave (.validator v) => some v
  | leave (.delegation _ _) | increase _ _ | decrease _ _ | setDelegable _ _
  | setProfile _ _ => none

/-- The validator that has to be there while the deposit of a delegation to it changes. -/
def needs? : RecordRequest → Option AccountId
  | increase (.delegation _ v) _ | decrease (.delegation _ v) _ => some v
  | increase (.validator _) _ | decrease (.validator _) _ | leave _ | setDelegable _ _
  | setProfile _ _ => none

def Evicts (p q : RecordRequest) : Prop :=
  ∃ v, p.leaves? = some v ∧ q.needs? = some v

variable {s : ProtocolSettings} {l l' : Ledger} {r : RecordRequest} {e : RecordEdit}
  {deposit? : Except StakingError Amount} {fact : Option Fact}

theorem leaves?_write (k : RecordKey) (deposit : Amount) : (k.write deposit).leaves? = none := by
  cases k <;> rfl

/-- An accepted request has found a deposit. It edits its own record, and takes off no validator but
the one that leaves. -/
theorem of_decides (h : r.decides s deposit? = .ok (e, fact)) :
    (∃ deposit, deposit? = .ok deposit) ∧ e.key = r.key ∧ e.leaves? = r.leaves? := by
  cases r with
  | increase k amount =>
      obtain ⟨-, deposit, deposit', hdeposit, -, hdecision⟩ := decides_increase_eq_ok_iff.1 h
      obtain ⟨rfl, -⟩ := Prod.mk.inj hdecision
      refine ⟨⟨deposit, hdeposit⟩, k.key_write deposit', ?_⟩
      rw [leaves?_write]
      cases k <;> rfl
  | decrease k amount =>
      obtain ⟨-, deposit, deposit', hdeposit, -, -, hdecision⟩ := decides_decrease_eq_ok_iff.1 h
      obtain ⟨rfl, -⟩ := Prod.mk.inj hdecision
      refine ⟨⟨deposit, hdeposit⟩, k.key_write deposit', ?_⟩
      rw [leaves?_write]
      cases k <;> rfl
  | leave k =>
      simp only [decides, bind_eq_ok_iff, pure_eq_ok_iff] at h
      obtain ⟨deposit, hdeposit, hdecision⟩ := h
      obtain ⟨rfl, -⟩ := Prod.mk.inj hdecision
      refine ⟨⟨deposit, hdeposit⟩, rfl, ?_⟩
      cases k <;> rfl
  | setDelegable v delegable =>
      simp only [decides, bind_eq_ok_iff, pure_eq_ok_iff] at h
      obtain ⟨deposit, hdeposit, hdecision⟩ := h
      obtain ⟨rfl, -⟩ := Prod.mk.inj hdecision
      exact ⟨⟨deposit, hdeposit⟩, rfl, rfl⟩
  | setProfile v profile =>
      simp only [decides, bind_eq_ok_iff, pure_eq_ok_iff] at h
      obtain ⟨_, -, deposit, hdeposit, hdecision⟩ := h
      obtain ⟨rfl, -⟩ := Prod.mk.inj hdecision
      exact ⟨⟨deposit, hdeposit⟩, rfl, rfl⟩

/-- Whether a deposit may change hangs on its delegation, and on the validator only by its being
there. -/
theorem deposit_delegation_congr {d v : AccountId}
    (bound : (l'.validator? v).isSome = (l.validator? v).isSome)
    (same : l'.delegation? d v = l.delegation? d v) :
    (RecordKey.delegation d v).deposit l' = (RecordKey.delegation d v).deposit l := by
  simp only [RecordKey.deposit, Ledger.liveDelegation, Ledger.validator, same]
  cases hl : l.validator? v with
  | none =>
      have hl' : l'.validator? v = none := by simpa [hl] using bound
      rw [hl']
  | some x =>
      obtain ⟨y, hl'⟩ : ∃ y, l'.validator? v = some y := by
        simpa [hl, Option.isSome_iff_exists] using bound
      rw [hl']
      rfl

theorem deposit_validator_apply {v : AccountId} (ne : e.key ≠ .validator v) :
    (RecordKey.validator v).deposit (e.apply l) = (RecordKey.validator v).deposit l := by
  suffices h : (e.apply l).validator? v = l.validator? v by
    rw [RecordKey.deposit, RecordKey.deposit, Ledger.validator, Ledger.validator, h]
  cases e with
  | validator w g hg =>
      exact Ledger.validator?_updateValidator_of_ne hg fun h => ne (by rw [← h]; rfl)
  | delegation => rfl
  | removal k =>
      cases k with
      | validator w => exact Ledger.find?_eraseP_id_of_ne fun h => ne (by rw [← h]; rfl)
      | delegation => rfl

theorem deposit_delegation_apply {d v : AccountId} (ne : e.key ≠ .delegation d v)
    (stays : e.leaves? ≠ some v) :
    (RecordKey.delegation d v).deposit (e.apply l) = (RecordKey.delegation d v).deposit l := by
  cases e with
  | validator w g hg =>
      exact deposit_delegation_congr (Ledger.isSome_validator?_updateValidator hg) rfl
  | delegation d' w deposit =>
      refine deposit_delegation_congr rfl (Ledger.delegation?_updateDelegation_of_ne fun h => ne ?_)
      cases h
      rfl
  | removal k =>
      cases k with
      | validator w =>
          have hne : w ≠ v := fun h => stays (by rw [← h]; rfl)
          exact deposit_delegation_congr (congrArg Option.isSome (Ledger.find?_eraseP_id_of_ne hne))
            (Ledger.find?_freeze_of_ne hne d l)
      | delegation d' w =>
          refine deposit_delegation_congr rfl (Ledger.delegation?_erase_of_ne fun h => ne ?_)
          cases h
          rfl

/-- What a delegation that leaves takes with it is not changed by its being frozen. -/
theorem reads_leave_apply {d v : AccountId} (ne : e.key ≠ .delegation d v) :
    (leave (.delegation d v)).reads (e.apply l) = (leave (.delegation d v)).reads l := by
  suffices h : ((e.apply l).delegation? d v).map (·.deposit) =
      (l.delegation? d v).map (·.deposit) by
    rw [reads, reads, map_found, map_found, h]
  cases e with
  | validator => rfl
  | delegation d' w deposit =>
      refine congrArg _ (Ledger.delegation?_updateDelegation_of_ne fun h => ne ?_)
      cases h
      rfl
  | removal k =>
      cases k with
      | validator w =>
          refine (congrArg _ (Ledger.find?_freeze w d v l)).trans ?_
          rw [Option.map_map]
          exact congrArg (fun g => (l.delegation? d v).map g) (funext (Delegation.deposit_freeze w))
      | delegation d' w =>
          refine congrArg _ (Ledger.delegation?_erase_of_ne fun h => ne ?_)
          cases h
          rfl

/-- Once a validator has left, no deposit bound to it may change, even where another record of that
validator is still there. -/
theorem reads_ne_ok_of_left {v : AccountId} (needs : r.needs? = some v) (deposit : Amount) :
    r.reads (RecordEdit.apply l (.removal (.validator v))) ≠ .ok deposit := by
  have hdelegation : ∀ d, (RecordKey.delegation d v).deposit
      (RecordEdit.apply l (.removal (.validator v))) ≠ .ok deposit := by
    intro d h
    obtain ⟨x, hx, -⟩ := map_eq_ok_iff.1 h
    obtain ⟨-, hfound, live⟩ := Ledger.liveDelegation_eq_ok_iff.1 hx
    obtain ⟨y, hy, rfl⟩ := Option.map_eq_some_iff.1
      ((Ledger.find?_freeze v d v l).symm.trans hfound)
    rw [Delegation.freeze, if_pos (Ledger.isOf_of_delegation? hy).2] at live
    cases live
  cases r with
  | increase k | decrease k =>
      cases k with
      | validator => cases needs
      | delegation d w =>
          cases needs
          exact hdelegation d
  | leave | setDelegable | setProfile => cases needs

/-- An edit elsewhere does not change what a request reads, unless it takes off the validator that
the request needs. -/
theorem reads_apply (ne : e.key ≠ r.key) (stays : ∀ v, e.leaves? = some v → r.needs? ≠ some v) :
    r.reads (e.apply l) = r.reads l := by
  cases r with
  | increase k | decrease k =>
      cases k with
      | validator v => exact deposit_validator_apply ne
      | delegation d v => exact deposit_delegation_apply ne fun h => stays v h rfl
  | leave k =>
      cases k with
      | validator v => exact deposit_validator_apply ne
      | delegation d v => exact reads_leave_apply ne
  | setDelegable | setProfile => exact deposit_validator_apply ne

end RecordRequest

namespace Ledger

open RecordRequest

variable {rules : LedgerRules} {l : Ledger} {p q r : RecordRequest}
  {x y : Except StakingError (RecordEdit × Option Fact)}

theorem carryOut_fst (l l' : Ledger) (x : Except StakingError (RecordEdit × Option Fact)) :
    (l.carryOut x).1 = (l'.carryOut x).1 := by
  cases x <;> rfl

/-- What a request reads is left alone by a decision about another record. -/
theorem reads_carryOut
    (away : ∀ e fact, x = .ok (e, fact) →
      e.key ≠ r.key ∧ ∀ v, e.leaves? = some v → r.needs? ≠ some v) :
    r.reads (l.carryOut x).2 = r.reads l := by
  cases x with
  | error reason => rfl
  | ok decision =>
      obtain ⟨hkey, hleaves⟩ := away _ _ rfl
      exact reads_apply hkey hleaves

theorem carryOut_comm
    (ne : ∀ e fact e' fact', x = .ok (e, fact) → y = .ok (e', fact') → e.key ≠ e'.key) :
    ((l.carryOut x).2.carryOut y).2 = ((l.carryOut y).2.carryOut x).2 := by
  cases x with
  | error reason => cases y <;> rfl
  | ok decision =>
      cases y with
      | error reason => rfl
      | ok decision' => exact RecordEdit.apply_comm (ne _ _ _ _ rfl rfl) l

/-- A request reads the same after another one that it does not hang on. -/
theorem reads_ask (rules : LedgerRules) (distinct : p.key ≠ q.key) (h : ¬p.Evicts q) :
    q.reads (l.ask rules p).2 = q.reads l := by
  rw [ask_eq]
  refine reads_carryOut fun e fact hdecision => ?_
  obtain ⟨-, hkey, hleaves⟩ := of_decides hdecision
  rw [hkey, hleaves]
  exact ⟨distinct, fun v hp hq => h ⟨v, hp, hq⟩⟩

/-- Two requests to different records, of which neither takes off the validator that the other one
needs, are answered alike in either order and leave the same ledger. This holds of every ledger,
whether its records are unique or not. -/
theorem requests_commute (rules : LedgerRules) (l : Ledger) (distinct : p.key ≠ q.key)
    (hpq : ¬p.Evicts q) (hqp : ¬q.Evicts p) :
    let first := l.ask rules p
    let second := first.2.ask rules q
    let first' := l.ask rules q
    let second' := first'.2.ask rules p
    first.1 = second'.1 ∧ second.1 = first'.1 ∧ second.2 = second'.2 := by
  intro first second first' second'
  have hfirst : first = l.carryOut (p.decides rules.settings (p.reads l)) := ask_eq rules l p
  have hfirst' : first' = l.carryOut (q.decides rules.settings (q.reads l)) := ask_eq rules l q
  have hsecond : second = first.2.carryOut (q.decides rules.settings (q.reads l)) := by
    rw [← reads_ask rules distinct hpq]
    exact ask_eq rules first.2 q
  have hsecond' : second' = first'.2.carryOut (p.decides rules.settings (p.reads l)) := by
    rw [← reads_ask rules distinct.symm hqp]
    exact ask_eq rules first'.2 p
  refine ⟨?_, ?_, ?_⟩
  · rw [hfirst, hsecond']
    exact carryOut_fst ..
  · rw [hsecond, hfirst']
    exact carryOut_fst ..
  · rw [hsecond, hsecond', hfirst, hfirst']
    refine carryOut_comm fun e fact e' fact' he he' => ?_
    rw [(of_decides he).2.1, (of_decides he').2.1]
    exact distinct

open SampleLedger in
/-- A validator leaves with its stake and a delegator with the delegation to it, in either order. -/
theorem requests_commute_sampleLedger :
    let p : RecordRequest := .leave (.validator senior)
    let q : RecordRequest := .leave (.delegation delegator senior)
    p.key ≠ q.key ∧ ¬p.Evicts q ∧ ¬q.Evicts p ∧
      (ledger.ask current p).1 = .ok (some (.validatorUnbonded senior 6000)) ∧
      ((ledger.ask current p).2.ask current q).1 =
        .ok (some (.delegatorUnbonded delegator senior 500)) ∧
      ((ledger.ask current p).2.ask current q).2 = ((ledger.ask current q).2.ask current p).2 := by
  intro p q
  have distinct : p.key ≠ q.key := fun h => by cases h
  have hpq : ¬p.Evicts q := fun ⟨_, _, h⟩ => by cases h
  have hqp : ¬q.Evicts p := fun ⟨_, h, _⟩ => by cases h
  obtain ⟨-, hsecond, hledger⟩ := requests_commute current ledger distinct hpq hqp
  exact ⟨distinct, hpq, hqp, rfl, hsecond.trans rfl, hledger⟩

/-- A request that needs a validator is refused once that validator has left. So where it would
have been accepted before, the two requests do not commute. -/
theorem refused_of_evicts {fact : Option Fact} (evicts : p.Evicts q)
    (left : (l.ask rules p).1 = .ok fact) :
    ∃ reason, ((l.ask rules p).2.ask rules q).1 = .error reason := by
  obtain ⟨v, hp, hq⟩ := evicts
  obtain ⟨e, hdecision, hledger⟩ := ask_eq_ok left
  have he : e = .removal (.validator v) :=
    RecordEdit.eq_removal_of_leaves? ((of_decides hdecision).2.2.trans hp)
  rw [hledger, he, ask_eq]
  cases hq' : q.decides rules.settings (q.reads (RecordEdit.apply l (.removal (.validator v)))) with
  | error reason => exact ⟨reason, rfl⟩
  | ok decision =>
      obtain ⟨⟨deposit, hdeposit⟩, -⟩ := of_decides hq'
      exact absurd hdeposit (reads_ne_ok_of_left hq deposit)

end Ledger

end AppchainStaking
