import AppchainStaking.Proofs.Ledger.InPlace
import AppchainStaking.Proofs.Ledger.Step

/-!
# Runs of the ledger

The ledger of an appchain keeps one template, while settings and era may be others each time that
something is asked of it. What is asked is written in place, so a request that fails leaves whatever
it wrote.
-/

namespace AppchainStaking

inductive LedgerOperation
  | act (settings : ProtocolSettings) (era : UInt64) (caller : AccountId) (action : StakingAction)
  | setProfile (v : AccountId) (profile : Profile)

namespace Ledger

open Procedure

def perform (template : Template) (l : Ledger) : LedgerOperation → Ledger
  | .act settings era caller action =>
      (exec (actInPlace { settings, template, era } caller action) l).2
  | .setProfile v profile => (exec (setProfileInPlace v profile) l).2

def run (template : Template) (l : Ledger) (ops : List LedgerOperation) : Ledger :=
  ops.foldl (perform template) l

/-- A ledger that grew from the empty one. Nothing stays the same between two operations: each may
come with a template of its own. -/
inductive Reachable : Ledger → Prop
  | empty : Reachable {}
  | perform {l : Ledger} (reached : Reachable l) (template : Template) (o : LedgerOperation) :
      Reachable (l.perform template o)

inductive Change (template : Template) (l : Ledger) : Ledger → Prop
  | acted {rules : LedgerRules} {caller : AccountId} {action : StakingAction} {l' : Ledger}
      {f : Fact}
      (same : rules.template = template)
      (step : Step rules caller l action l' f) :
      Change template l l'
  | profileSet {v : AccountId} {profile : Profile}
      (fits : profile.Fits)
      (known : (l.validator? v).isSome) :
      Change template l (l.updateValidator v ({ · with profile := profile.entries }))
  | unchanged : Change template l l

variable {template : Template} {l : Ledger}

theorem setProfile_eq_ok_iff {v : AccountId} {p : Profile} {l' : Ledger} :
    l.setProfile v p = .ok l' ↔
      p.Fits ∧ (l.validator? v).isSome ∧
        l' = l.updateValidator v ({ · with profile := p.entries }) := by
  simp only [setProfile, bind_eq_ok_iff, pure_eq_ok_iff, Profile.checked_eq_ok_iff,
    validator_eq_ok_iff, Option.isSome_iff_exists]
  constructor
  · rintro ⟨_, ⟨fits, rfl⟩, x, known, rfl⟩
    exact ⟨fits, ⟨x, known⟩, rfl⟩
  · rintro ⟨fits, ⟨x, known⟩, rfl⟩
    exact ⟨_, ⟨fits, rfl⟩, x, known, rfl⟩

theorem perform_change (l : Ledger) (o : LedgerOperation) :
    Change template l (l.perform template o) := by
  cases o with
  | act settings era caller action =>
      rw [perform, exec_actInPlace]
      cases h : l.act { settings, template, era } caller action with
      | error e => exact .unchanged
      | ok x =>
          obtain ⟨l', f⟩ := x
          exact .acted rfl (act_eq_ok_iff.1 h)
  | setProfile v p =>
      rw [perform, exec_setProfileInPlace]
      cases h : l.setProfile v p with
      | error e => exact .unchanged
      | ok l' =>
          obtain ⟨fits, known, rfl⟩ := setProfile_eq_ok_iff.1 h
          exact .profileSet fits known

theorem run_invariant {P : Ledger → Prop}
    (hstep : ∀ {l l' : Ledger}, Change template l l' → P l → P l')
    (ops : List LedgerOperation) (hl : P l) : P (l.run template ops) := by
  induction ops generalizing l with
  | nil => exact hl
  | cons o ops ih => exact ih (hstep (perform_change l o) hl)

theorem Reachable.invariant {P : Ledger → Prop} (hempty : P {})
    (hstep : ∀ {t : Template} {l l' : Ledger}, Change t l l' → P l → P l') (h : l.Reachable) :
    P l := by
  induction h with
  | empty => exact hempty
  | perform _ template o ih => exact hstep (perform_change _ o) ih

theorem Reachable.run (h : l.Reachable) (ops : List LedgerOperation) :
    (l.run template ops).Reachable := by
  induction ops generalizing l with
  | nil => exact h
  | cons o ops ih => exact ih (h.perform template o)

end Ledger

end AppchainStaking
