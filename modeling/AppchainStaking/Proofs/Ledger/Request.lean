import AppchainStaking.Proofs.Ledger.InPlace
import AppchainStaking.Proofs.Ledger.Lookup

/-!
# Requests to records

A request is about one record of the ledger, be it a validator or a delegation, and every request
works alike. It reads the deposit of its record, decides from that alone, and then edits this one
record. Only a validator that leaves touches others: it freezes the delegations bound to it.
-/

namespace AppchainStaking

inductive RecordKey
  | validator (v : AccountId)
  | delegation (d v : AccountId)
  deriving DecidableEq

inductive RecordRequest
  | increase (k : RecordKey) (amount : Amount)
  | decrease (k : RecordKey) (amount : Amount)
  | leave (k : RecordKey)
  | setDelegable (v : AccountId) (delegable : Bool)
  | setProfile (v : AccountId) (profile : Profile)

/-- A change of one record. What it is looked up by stays. -/
inductive RecordEdit
  | validator (v : AccountId) (change : Validator → Validator)
      (keeps : ∀ x, (change x).id = x.id)
  | delegation (d v : AccountId) (deposit : Amount)
  | removal (k : RecordKey)

namespace RecordKey

def minimum (s : ProtocolSettings) : RecordKey → Amount
  | validator _ => s.minimumValidatorDeposit
  | delegation _ _ => s.minimumDelegatorDeposit

def deposit (l : Ledger) : RecordKey → Except StakingError Amount
  | validator v => (·.deposit) <$> l.validator v
  | delegation d v => (·.deposit) <$> l.liveDelegation d v

def write (deposit : Amount) : RecordKey → RecordEdit
  | validator v => .validator v ({ · with deposit }) fun _ => rfl
  | delegation d v => .delegation d v deposit

def increased (amount : Amount) : RecordKey → Fact
  | validator v => .stakeIncreased v amount
  | delegation d v => .delegationIncreased d v amount

def decreased (amount : Amount) : RecordKey → Fact
  | validator v => .stakeDecreased v amount
  | delegation d v => .delegationDecreased d v amount

def left (amount : Amount) : RecordKey → Fact
  | validator v => .validatorUnbonded v amount
  | delegation d v => .delegatorUnbonded d v amount

end RecordKey

namespace RecordEdit

def key : RecordEdit → RecordKey
  | validator v _ _ => .validator v
  | delegation d v _ => .delegation d v
  | removal k => k

def apply (l : Ledger) : RecordEdit → Ledger
  | validator v change _ => l.updateValidator v change
  | delegation d v deposit => l.updateDelegation d v ({ · with deposit })
  | removal (.validator v) =>
      { validators := l.validators.eraseP (·.id = v)
        delegations := l.delegations.map (·.freeze v) }
  | removal (.delegation d v) => { l with delegations := l.delegations.eraseP (·.isOf d v) }

end RecordEdit

theorem RecordKey.key_write (k : RecordKey) (deposit : Amount) : (k.write deposit).key = k := by
  cases k <;> rfl

namespace RecordRequest

open Ledger Procedure

def key : RecordRequest → RecordKey
  | increase k _ | decrease k _ | leave k => k
  | setDelegable v _ | setProfile v _ => .validator v

/-- How a request writes on the ledger. A new profile is the only one that leaves no fact. -/
def inPlace (rules : LedgerRules) : RecordRequest → Procedure StakingError Ledger (Option Fact)
  | increase (.validator v) amount => some <$> actInPlace rules v (.increaseStake amount)
  | increase (.delegation d v) amount => some <$> actInPlace rules d (.increaseDelegation v amount)
  | decrease (.validator v) amount => some <$> actInPlace rules v (.decreaseStake amount)
  | decrease (.delegation d v) amount => some <$> actInPlace rules d (.decreaseDelegation v amount)
  | leave (.validator v) => some <$> actInPlace rules v .unbondStake
  | leave (.delegation d v) => some <$> actInPlace rules d (.unbondDelegation v)
  | setDelegable v delegable => some <$> actInPlace rules v (.setDelegable delegable)
  | setProfile v profile => (fun _ => none) <$> setProfileInPlace v profile

/-- The deposit that a request finds. To leave with a delegation it need not count any more. -/
def reads (l : Ledger) : RecordRequest → Except StakingError Amount
  | increase k _ | decrease k _ | leave k@(.validator _) => k.deposit l
  | leave (.delegation d v) => (·.deposit) <$> found .unknownDelegator (l.delegation? d v)
  | setDelegable v _ | setProfile v _ => (RecordKey.validator v).deposit l

/-- What a request makes of the deposit that it finds: an edit, and the fact that it leaves. -/
def decides (s : ProtocolSettings) (deposit? : Except StakingError Amount) :
    RecordRequest → Except StakingError (RecordEdit × Option Fact)
  | increase k amount => do
      require (0 < amount) .invalidAmount
      let deposit ← (← deposit?).add amount
      return (k.write deposit, some (k.increased amount))
  | decrease k amount => do
      require (0 < amount) .invalidAmount
      let deposit ← (← deposit?).sub amount
      require (k.minimum s ≤ deposit) .insufficientStake
      return (k.write deposit, some (k.decreased amount))
  | leave k => do
      let deposit ← deposit?
      return (.removal k, some (k.left deposit))
  | setDelegable v delegable => do
      let _ ← deposit?
      return (.validator v ({ · with delegable }) fun _ => rfl,
        some (if delegable then .delegationEnabled v else .delegationDisabled v))
  | setProfile v profile => do
      let profile ← profile.checked
      let _ ← deposit?
      return (.validator v ({ · with profile }) fun _ => rfl, none)

variable {s : ProtocolSettings} {k : RecordKey} {amount : Amount}
  {deposit? : Except StakingError Amount} {decision : RecordEdit × Option Fact}

theorem decides_increase_eq_ok_iff :
    decides s deposit? (increase k amount) = .ok decision ↔
      0 < amount ∧ ∃ deposit deposit' : Amount, deposit? = .ok deposit ∧
        deposit.toNat + amount.toNat = deposit'.toNat ∧
        decision = (k.write deposit', some (k.increased amount)) := by
  simp only [decides, bind_eq_ok_iff, require_eq_ok_iff, pure_eq_ok_iff, Amount.add_eq_ok_iff]
  constructor
  · rintro ⟨_, positive, deposit, hdeposit, deposit', sum, rfl⟩
    exact ⟨positive, deposit, deposit', hdeposit, sum, rfl⟩
  · rintro ⟨positive, deposit, deposit', hdeposit, sum, rfl⟩
    exact ⟨(), positive, deposit, hdeposit, deposit', sum, rfl⟩

theorem decides_decrease_eq_ok_iff :
    decides s deposit? (decrease k amount) = .ok decision ↔
      0 < amount ∧ ∃ deposit deposit' : Amount, deposit? = .ok deposit ∧
        deposit'.toNat + amount.toNat = deposit.toNat ∧ k.minimum s ≤ deposit' ∧
        decision = (k.write deposit', some (k.decreased amount)) := by
  simp only [decides, bind_eq_ok_iff, require_eq_ok_iff, pure_eq_ok_iff, Amount.sub_eq_ok_iff]
  constructor
  · rintro ⟨_, positive, deposit, hdeposit, deposit', sum, _, minimum, rfl⟩
    exact ⟨positive, deposit, deposit', hdeposit, sum, minimum, rfl⟩
  · rintro ⟨positive, deposit, deposit', hdeposit, sum, minimum, rfl⟩
    exact ⟨(), positive, deposit, hdeposit, deposit', sum, (), minimum, rfl⟩

end RecordRequest

namespace Ledger

open Procedure

def ask (rules : LedgerRules) (l : Ledger) (r : RecordRequest) :
    Except StakingError (Option Fact) × Ledger :=
  exec (r.inPlace rules) l

def carryOut (l : Ledger) :
    Except StakingError (RecordEdit × Option Fact) → Except StakingError (Option Fact) × Ledger
  | .ok (e, fact) => (.ok fact, e.apply l)
  | .error reason => (.error reason, l)

theorem carryOut_eq_commit (l : Ledger) (x : Except StakingError (RecordEdit × Option Fact)) :
    l.carryOut x = commit l ((fun y => (y.1.apply l, y.2)) <$> x) := by
  cases x <;> rfl

/-- What becomes of a request is decided by the deposit that it reads. -/
theorem ask_eq (rules : LedgerRules) (l : Ledger) (r : RecordRequest) :
    l.ask rules r = l.carryOut (r.decides rules.settings (r.reads l)) := by
  have hact : ∀ caller action, exec (some <$> actInPlace rules caller action) l =
      commit l ((fun y => (y.1, some y.2)) <$> l.act rules caller action) :=
    fun caller action => exec_map_of_commit (exec_actInPlace action) some
  rw [carryOut_eq_commit]
  cases r with
  | increase k amount =>
      cases k with
      | validator v =>
          refine (hact ..).trans (congrArg (commit l) ?_)
          simp [act, increaseStake, RecordRequest.decides, RecordRequest.reads,
            RecordKey.deposit, RecordKey.write, RecordKey.increased, RecordEdit.apply]
      | delegation d v =>
          refine (hact ..).trans (congrArg (commit l) ?_)
          simp [act, increaseDelegation, RecordRequest.decides, RecordRequest.reads,
            RecordKey.deposit, RecordKey.write, RecordKey.increased, RecordEdit.apply]
  | decrease k amount =>
      cases k with
      | validator v =>
          refine (hact ..).trans (congrArg (commit l) ?_)
          simp [act, decreaseStake, RecordRequest.decides, RecordRequest.reads,
            RecordKey.deposit, RecordKey.write, RecordKey.decreased, RecordEdit.apply]
          rfl
      | delegation d v =>
          refine (hact ..).trans (congrArg (commit l) ?_)
          simp [act, decreaseDelegation, RecordRequest.decides, RecordRequest.reads,
            RecordKey.deposit, RecordKey.write, RecordKey.decreased, RecordEdit.apply]
          rfl
  | leave k =>
      cases k with
      | validator v =>
          refine (hact ..).trans (congrArg (commit l) ?_)
          simp [act, unbondStake, RecordRequest.decides, RecordRequest.reads,
            RecordKey.deposit, RecordKey.left, RecordEdit.apply, Delegation.freeze]
      | delegation d v =>
          refine (hact ..).trans (congrArg (commit l) ?_)
          simp [act, unbondDelegation, RecordRequest.decides, RecordRequest.reads,
            RecordKey.left, RecordEdit.apply]
  | setDelegable v delegable =>
      refine (hact ..).trans (congrArg (commit l) ?_)
      simp [act, setDelegable, RecordRequest.decides, RecordRequest.reads, RecordKey.deposit,
        RecordEdit.apply]
  | setProfile v profile =>
      refine (exec_map_of_update (exec_setProfileInPlace v profile) _).trans
        (congrArg (commit l) ?_)
      simp [setProfile, RecordRequest.decides, RecordRequest.reads, RecordKey.deposit,
        RecordEdit.apply]

theorem ask_eq_ok {rules : LedgerRules} {l : Ledger} {r : RecordRequest} {fact : Option Fact}
    (accepted : (l.ask rules r).1 = .ok fact) :
    ∃ e, r.decides rules.settings (r.reads l) = .ok (e, fact) ∧
      (l.ask rules r).2 = e.apply l := by
  rw [ask_eq] at accepted ⊢
  cases hdecision : r.decides rules.settings (r.reads l) with
  | error reason =>
      rw [hdecision] at accepted
      cases accepted
  | ok decision =>
      rw [hdecision] at accepted
      cases accepted
      exact ⟨decision.1, rfl, rfl⟩

end Ledger

namespace SampleLedger

def senior : AccountId := ⟨List.replicate 32 51, rfl⟩

def junior : AccountId := ⟨List.replicate 32 52, rfl⟩

def delegator : AccountId := ⟨List.replicate 32 53, rfl⟩

def ledger : Ledger where
  validators :=
    [{ id := senior
       appchainId := "0x5151515151515151515151515151515151515151515151515151515151515151"
       deposit := 6000, delegable := true, profile := [], registeredEra := 0 },
     { id := junior
       appchainId := "0x5252525252525252525252525252525252525252525252525252525252525252"
       deposit := 5500, delegable := true, profile := [], registeredEra := 1 }]
  delegations :=
    [{ delegator, validator := junior, deposit := 300, frozen := false },
     { delegator, validator := senior, deposit := 500, frozen := false }]

def current : LedgerRules where
  settings := {}
  template := .barnacle
  era := 2

end SampleLedger

end AppchainStaking
