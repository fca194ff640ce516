import AppchainStaking.Proofs.Ledger.Exit
import AppchainStaking.Proofs.Ledger.Run
import AppchainStaking.Proofs.Ledger.Unique

/-!
# Limits of the settings

The settings name the least deposit of a validator and of a delegation, and the largest number of
validators on the ledger and for one delegator. They may be tightened while the ledger is beyond
them already. Then nothing takes it further: a deposit that is too small was at most as large
before, and a count that is too large was at least as large.
-/

namespace AppchainStaking

/-- The settings that an action obeys. A new profile obeys none. -/
def LedgerOperation.RunsUnder (s : ProtocolSettings) : LedgerOperation → Prop
  | act settings _ _ _ => settings = s
  | setProfile _ _ => True

instance (s : ProtocolSettings) : (o : LedgerOperation) → Decidable (o.RunsUnder s)
  | .act settings _ _ _ => inferInstanceAs (Decidable (settings = s))
  | .setProfile _ _ => isTrue trivial

namespace Ledger

variable {rules : LedgerRules} {caller : AccountId} {l l' l'' : Ledger} {f : Fact}
  {action : StakingAction} {s : ProtocolSettings}

structure Within (s : ProtocolSettings) (l : Ledger) : Prop where
  validators : ∀ x ∈ l.validators, s.minimumValidatorDeposit ≤ x.deposit
  delegations : ∀ x ∈ l.delegations, x.frozen = false → s.minimumDelegatorDeposit ≤ x.deposit
  validatorCount : l.validatorCount ≤ s.maximumValidatorCount.toNat
  validatorCountOf : ∀ d, l.validatorCountOf d ≤ s.maximumValidatorsPerDelegator.toNat

/-- Where `l'` is beyond a limit, `l` was as far beyond it, and with the same records. -/
structure NoFurther (s : ProtocolSettings) (l l' : Ledger) : Prop where
  validators : ∀ y ∈ l'.validators, y.deposit < s.minimumValidatorDeposit →
    ∃ x ∈ l.validators, x.id = y.id ∧ x.deposit ≤ y.deposit
  delegations : ∀ y ∈ l'.delegations, y.frozen = false → y.deposit < s.minimumDelegatorDeposit →
    ∃ x ∈ l.delegations, x.pair = y.pair ∧ x.frozen = false ∧ x.deposit ≤ y.deposit
  validatorCount : l'.validatorCount ≤ max l.validatorCount s.maximumValidatorCount.toNat
  validatorCountOf : ∀ d,
    l'.validatorCountOf d ≤ max (l.validatorCountOf d) s.maximumValidatorsPerDelegator.toNat

theorem NoFurther.refl (s : ProtocolSettings) (l : Ledger) : NoFurther s l l where
  validators := fun y hy _ => ⟨y, hy, rfl, UInt64.le_refl _⟩
  delegations := fun y hy hlive _ => ⟨y, hy, rfl, hlive, UInt64.le_refl _⟩
  validatorCount := Nat.le_max_left _ _
  validatorCountOf := fun _ => Nat.le_max_left _ _

theorem NoFurther.trans (h : NoFurther s l l') (h' : NoFurther s l' l'') : NoFurther s l l'' where
  validators := by
    intro z hz hbelow
    obtain ⟨y, hy, hid, hle⟩ := h'.validators z hz hbelow
    obtain ⟨x, hx, hid', hle'⟩ := h.validators y hy (UInt64.lt_of_le_of_lt hle hbelow)
    exact ⟨x, hx, hid'.trans hid, UInt64.le_trans hle' hle⟩
  delegations := by
    intro z hz hlive hbelow
    obtain ⟨y, hy, hpair, hlive', hle⟩ := h'.delegations z hz hlive hbelow
    obtain ⟨x, hx, hpair', hlive'', hle'⟩ :=
      h.delegations y hy hlive' (UInt64.lt_of_le_of_lt hle hbelow)
    exact ⟨x, hx, hpair'.trans hpair, hlive'', UInt64.le_trans hle' hle⟩
  validatorCount := by
    have hbefore := h.validatorCount
    have hafter := h'.validatorCount
    omega
  validatorCountOf := by
    intro d
    have hbefore := h.validatorCountOf d
    have hafter := h'.validatorCountOf d
    omega

/-- A ledger within its limits stays there. -/
theorem Within.noFurther (hl : l.Within s) (h : NoFurther s l l') : l'.Within s where
  validators := by
    intro y hy
    apply UInt64.not_lt.1
    intro hbelow
    obtain ⟨x, hx, -, hle⟩ := h.validators y hy hbelow
    exact UInt64.not_lt.2 (UInt64.le_trans (hl.validators x hx) hle) hbelow
  delegations := by
    intro y hy hlive
    apply UInt64.not_lt.1
    intro hbelow
    obtain ⟨x, hx, -, hlive', hle⟩ := h.delegations y hy hlive hbelow
    exact UInt64.not_lt.2 (UInt64.le_trans (hl.delegations x hx hlive') hle) hbelow
  validatorCount := by
    have hbefore := hl.validatorCount
    have hafter := h.validatorCount
    omega
  validatorCountOf := by
    intro d
    have hbefore := hl.validatorCountOf d
    have hafter := h.validatorCountOf d
    omega

theorem within_empty (s : ProtocolSettings) : Within s {} where
  validators := by simp
  delegations := by simp
  validatorCount := Nat.zero_le _
  validatorCountOf := fun _ => Nat.zero_le _

/-- Validators were changed, and no delegation. -/
theorem noFurther_of_validators {vs : List Validator}
    (below : ∀ y ∈ vs, y.deposit < s.minimumValidatorDeposit →
      ∃ x ∈ l.validators, x.id = y.id ∧ x.deposit ≤ y.deposit)
    (count : vs.length ≤ max l.validatorCount s.maximumValidatorCount.toNat) :
    NoFurther s l { l with validators := vs } where
  validators := below
  delegations := (NoFurther.refl s l).delegations
  validatorCount := count
  validatorCountOf := (NoFurther.refl s l).validatorCountOf

theorem noFurther_updateValidator {v : AccountId} {g : Validator → Validator}
    (hid : ∀ x, (g x).id = x.id)
    (hdeposit : ∀ x, l.validator? v = some x → (g x).deposit < s.minimumValidatorDeposit →
      x.deposit ≤ (g x).deposit) :
    NoFurther s l (l.updateValidator v g) := by
  apply noFurther_of_validators
  · intro y hy hbelow
    rcases mem_updateFirst hy with hy | ⟨x, hx, rfl⟩
    · exact ⟨y, hy, rfl, UInt64.le_refl _⟩
    · exact ⟨x, List.mem_of_find?_eq_some hx, (hid x).symm, hdeposit x hx hbelow⟩
  · rw [length_updateFirst]
    exact Nat.le_max_left _ _

/-- Only whose a delegation is and whether it counts matters for the number of validators that an
account delegates to. -/
theorem validatorCountOf_eq_countP (l : Ledger) (d : AccountId) :
    l.validatorCountOf d = l.delegations.countP fun x => x.delegator = d && !x.frozen := by
  rw [validatorCountOf, live, List.filter_filter, List.countP_eq_length_filter]

theorem validatorCountOf_updateDelegation (d v : AccountId) (deposit : Amount) (a : AccountId) :
    (l.updateDelegation d v ({ · with deposit })).validatorCountOf a = l.validatorCountOf a := by
  have hsame := map_updateFirst (g := fun x : Delegation => decide (x.delegator = a) && !x.frozen)
    (p := (·.isOf d v)) (f := ({ · with deposit })) (fun _ => rfl) l.delegations
  have hcount := congrArg (List.countP id) hsame
  rw [List.countP_map, List.countP_map] at hcount
  rw [validatorCountOf_eq_countP, validatorCountOf_eq_countP]
  exact hcount

theorem validatorCountOf_concat (l : Ledger) (d v : AccountId) (deposit : Amount) (a : AccountId) :
    validatorCountOf { l with
      delegations := l.delegations ++
        [{ delegator := d, validator := v, deposit, frozen := false }] } a =
      l.validatorCountOf a + if d = a then 1 else 0 := by
  rw [validatorCountOf_eq_countP, List.countP_append, ← validatorCountOf_eq_countP,
    List.countP_singleton]
  simp

theorem validatorCountOf_le_of_sublist (h : l'.live.Sublist l.live) (d : AccountId) :
    l'.validatorCountOf d ≤ l.validatorCountOf d :=
  (h.filter _).length_le

/-- Delegations were changed, and no validator. -/
theorem noFurther_of_delegations {xs : List Delegation}
    (below : ∀ y ∈ xs, y.frozen = false → y.deposit < s.minimumDelegatorDeposit →
      ∃ x ∈ l.delegations, x.pair = y.pair ∧ x.frozen = false ∧ x.deposit ≤ y.deposit)
    (count : ∀ d, validatorCountOf { l with delegations := xs } d ≤
      max (l.validatorCountOf d) s.maximumValidatorsPerDelegator.toNat) :
    NoFurther s l { l with delegations := xs } where
  validators := (NoFurther.refl s l).validators
  delegations := below
  validatorCount := Nat.le_max_left _ _
  validatorCountOf := count

theorem noFurther_updateDelegation {d v : AccountId} {x : Delegation} {deposit : Amount}
    (known : l.delegation? d v = some x) (hlive : x.frozen = false)
    (hdeposit : deposit < s.minimumDelegatorDeposit → x.deposit ≤ deposit) :
    NoFurther s l (l.updateDelegation d v ({ · with deposit })) := by
  apply noFurther_of_delegations
  · intro y hy hlive' hbelow
    rcases mem_updateFirst hy with hy | ⟨z, hz, rfl⟩
    · exact ⟨y, hy, rfl, hlive', UInt64.le_refl _⟩
    · obtain rfl : z = x := Option.some.inj (hz.symm.trans known)
      exact ⟨z, List.mem_of_find?_eq_some hz, rfl, hlive, hdeposit hbelow⟩
  · intro a
    have hsame := validatorCountOf_updateDelegation (l := l) d v deposit a
    exact Nat.le_trans (Nat.le_of_eq hsame) (Nat.le_max_left _ _)

/-- A delegation that counts after a validator left is one that counted before. -/
theorem noFurther_freeze (v : AccountId) :
    NoFurther s l { l with
      delegations := l.delegations.map fun x =>
        if x.validator = v then { x with frozen := true } else x } := by
  apply noFurther_of_delegations
  · intro y hy hlive _
    exact ⟨y, (of_mem_freeze hy hlive).1, rfl, hlive, UInt64.le_refl _⟩
  · intro d
    refine Nat.le_trans (validatorCountOf_le_of_sublist ?_ d) (Nat.le_max_left _ _)
    rw [live, live_freeze]
    exact List.filter_sublist

theorem Step.noFurther (h : Step rules caller l action l' f) : NoFurther rules.settings l l' := by
  cases h with
  | registerValidator minimum fresh normal distinct room fits =>
      apply noFurther_of_validators
      · intro y hy hbelow
        rcases List.mem_append.1 hy with hy | hy
        · exact ⟨y, hy, rfl, UInt64.le_refl _⟩
        · obtain rfl := List.mem_singleton.1 hy
          exact absurd minimum (UInt64.not_le.2 hbelow)
      · rw [List.length_append, List.length_singleton]
        exact Nat.le_trans room (Nat.le_max_right _ _)
  | @increaseStake x amount deposit positive known sum =>
      refine noFurther_updateValidator (fun _ => rfl) ?_
      intro y hy _
      obtain rfl : y = x := Option.some.inj (hy.symm.trans known)
      have hle : y.deposit.toNat ≤ deposit.toNat := by omega
      exact UInt64.le_iff_toNat_le.2 hle
  | decreaseStake positive known sum minimum =>
      exact noFurther_updateValidator (fun _ => rfl) fun _ _ hbelow =>
        absurd minimum (UInt64.not_le.2 hbelow)
  | unbondStake known =>
      have hleft : NoFurther rules.settings l
          { l with validators := l.validators.eraseP (·.id = caller) } := by
        apply noFurther_of_validators
        · exact fun y hy _ => ⟨y, List.mem_of_mem_eraseP hy, rfl, UInt64.le_refl _⟩
        · exact Nat.le_trans List.eraseP_sublist.length_le (Nat.le_max_left _ _)
      exact hleft.trans (noFurther_freeze caller)
  | setDelegable known =>
      exact noFurther_updateValidator (fun _ => rfl) fun _ _ _ => UInt64.le_refl _
  | @registerDelegator v y amount known fresh delegable minimum room =>
      apply noFurther_of_delegations
      · intro z hz hlive hbelow
        rcases List.mem_append.1 hz with hz | hz
        · exact ⟨z, hz, rfl, hlive, UInt64.le_refl _⟩
        · obtain rfl := List.mem_singleton.1 hz
          exact absurd minimum (UInt64.not_le.2 hbelow)
      · intro d
        rw [validatorCountOf_concat]
        by_cases hd : caller = d
        · obtain rfl := hd
          rw [if_pos rfl]
          exact Nat.le_trans room (Nat.le_max_right _ _)
        · rw [if_neg hd]
          exact Nat.le_max_left _ _
  | @increaseDelegation v x amount deposit positive bound known live sum =>
      have hle : x.deposit.toNat ≤ deposit.toNat := by omega
      exact noFurther_updateDelegation known live fun _ => UInt64.le_iff_toNat_le.2 hle
  | decreaseDelegation positive bound known live sum minimum =>
      exact noFurther_updateDelegation known live fun hbelow =>
        absurd minimum (UInt64.not_le.2 hbelow)
  | @unbondDelegation v x known =>
      apply noFurther_of_delegations
      · exact fun y hy hlive _ => ⟨y, List.mem_of_mem_eraseP hy, rfl, hlive, UInt64.le_refl _⟩
      · intro d
        have hlive : (live { l with
            delegations := l.delegations.eraseP (·.isOf caller v) }).Sublist l.live :=
          List.eraseP_sublist.filter _
        exact Nat.le_trans (validatorCountOf_le_of_sublist hlive d) (Nat.le_max_left _ _)

theorem noFurther_perform (l : Ledger) (template : Template) {o : LedgerOperation}
    (under : o.RunsUnder s) : NoFurther s l (l.perform template o) := by
  cases o with
  | act settings era caller action =>
      obtain rfl : settings = s := under
      rw [perform, exec_actInPlace]
      cases h : l.act { settings, template, era } caller action with
      | error e => exact .refl settings l
      | ok x =>
          obtain ⟨l', f⟩ := x
          exact (Step.of_act h).noFurther
  | setProfile v p =>
      rw [perform, exec_setProfileInPlace]
      cases h : l.setProfile v p with
      | error e => exact .refl s l
      | ok l' =>
          obtain ⟨-, -, rfl⟩ := setProfile_eq_ok_iff.1 h
          exact noFurther_updateValidator (fun _ => rfl) fun _ _ _ => UInt64.le_refl _

/-- A ledger that grew from the empty one under the same settings throughout. -/
inductive ReachableUnder (s : ProtocolSettings) : Ledger → Prop
  | empty : ReachableUnder s {}
  | perform {l : Ledger} (reached : ReachableUnder s l) (template : Template) {o : LedgerOperation}
      (under : o.RunsUnder s) : ReachableUnder s (l.perform template o)

theorem ReachableUnder.run (h : ReachableUnder s l) (template : Template)
    (ops : List LedgerOperation) (under : ∀ o ∈ ops, o.RunsUnder s) :
    ReachableUnder s (l.run template ops) := by
  induction ops generalizing l with
  | nil => exact h
  | cons o ops ih =>
      obtain ⟨hunder, hrest⟩ := List.forall_mem_cons.1 under
      exact ih (h.perform template hunder) hrest

theorem ReachableUnder.within (h : ReachableUnder s l) : l.Within s := by
  induction h with
  | empty => exact within_empty s
  | perform _ template under ih => exact ih.noFurther (noFurther_perform _ template under)

/-- Whatever the ledger and the settings it grew under, an operation takes it no further beyond the
limits of the settings that the operation obeys. Under settings that never change the ledger stays
within its limits. -/
theorem limits_never_newly_violated (s : ProtocolSettings) :
    (∀ (l : Ledger) (t : Template) (o : LedgerOperation), o.RunsUnder s →
      NoFurther s l (l.perform t o)) ∧
    ∀ l : Ledger, ReachableUnder s l → l.Within s :=
  ⟨fun l t _ under => noFurther_perform l t under, fun _ reached => reached.within⟩

namespace SampleTightening

def first : AccountId := ⟨List.replicate 32 11, rfl⟩

def second : AccountId := ⟨List.replicate 32 12, rfl⟩

def delegator : AccountId := ⟨List.replicate 32 13, rfl⟩

def loose : ProtocolSettings := { minimumValidatorDeposit := 300, minimumDelegatorDeposit := 50 }

def tight : ProtocolSettings :=
  { minimumValidatorCount := 1, maximumValidatorCount := 1, maximumValidatorsPerDelegator := 1 }

def operations : List LedgerOperation :=
  [.act loose 0 first (.registerValidator
      "0x1111111111111111111111111111111111111111111111111111111111111111" 300 true .empty),
    .act loose 0 second (.registerValidator
      "0x2222222222222222222222222222222222222222222222222222222222222222" 300 true .empty),
    .act loose 1 delegator (.registerDelegator first 50),
    .act loose 1 delegator (.registerDelegator second 50)]

def ledger : Ledger := ({} : Ledger).run .barnacle operations

/-- Under settings that both validators, both delegations and both counts violate. -/
def topUp : LedgerOperation := .act tight 2 delegator (.increaseDelegation second 7)

end SampleTightening

open SampleTightening in
theorem limits_never_newly_violated_tightened :
    ledger.Within loose ∧ NoFurther tight ledger (ledger.perform .barnacle topUp) ∧
      (ledger.perform .barnacle topUp).validators.map (·.deposit) = [300, 300] ∧
      (ledger.perform .barnacle topUp).delegations.map (·.deposit) = [50, 57] ∧
      (ledger.perform .barnacle topUp).validatorCountOf delegator = 2 := by
  have grown : ReachableUnder loose ledger :=
    ReachableUnder.empty.run .barnacle operations (by decide +kernel)
  exact ⟨(limits_never_newly_violated loose).2 ledger grown,
    (limits_never_newly_violated tight).1 ledger .barnacle topUp rfl,
    by decide +kernel, by decide +kernel, by decide +kernel⟩

end Ledger

end AppchainStaking
