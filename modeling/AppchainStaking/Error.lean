/-!
# Reasons for refusing a staking request

Every rule of the anchor that a request can break has one cause here. Clients see the cause by
its number, its name and its message.
-/

namespace AppchainStaking

inductive StakingError
  | unauthorized
  | invalidValue
  | invalidState
  | preconditionNotMet
  | unknownValidator
  | duplicateValidator
  | belowMinimumDeposit
  | insufficientStake
  | validatorCountExceeded
  | validatorNotDelegable
  | tooManyDelegations
  | malformedIntent
  | indexOutOfRange
  | unknownDelegator
  | duplicateDelegator
  | invalidAppchainAccount
  | tooFewValidators
  | invalidAmount
  | amountOverflow
  | transfersPaused
  | invalidMint
  | invalidVaultAuthority
  | invalidTokenOwner
  | invalidProgramData
  | noUpgradeAuthority
  | invalidUpgradeAuthority
  deriving DecidableEq, Repr

namespace StakingError

def entry : StakingError → Nat × String × String
  | unauthorized => (1, "Unauthorized", "Caller lacks the capability required for this action")
  | invalidValue => (2, "InvalidValue", "Invalid setting value")
  | invalidState => (3, "InvalidState", "Action is not allowed in the current appchain state")
  | preconditionNotMet => (4, "PreconditionNotMet", "Lifecycle transition requirements are not met")
  | unknownValidator => (5, "UnknownValidator", "Unknown validator")
  | duplicateValidator => (6, "DuplicateValidator", "Validator is already registered")
  | belowMinimumDeposit => (7, "BelowMinimumDeposit", "Amount is below the minimum deposit")
  | insufficientStake => (8, "InsufficientStake", "Insufficient stake for this decrease")
  | validatorCountExceeded =>
      (9, "ValidatorCountExceeded", "Validator count exceeds the upper limit")
  | validatorNotDelegable => (10, "ValidatorNotDelegable", "Validator cannot be delegated to")
  | tooManyDelegations => (11, "TooManyDelegations", "Too many validators delegated")
  | malformedIntent => (12, "MalformedIntent", "Malformed staking intent")
  | indexOutOfRange => (13, "IndexOutOfRange", "Index out of range")
  | unknownDelegator => (14, "UnknownDelegator", "Unknown delegator")
  | duplicateDelegator =>
      (15, "DuplicateDelegator", "Delegator is already registered to this validator")
  | invalidAppchainAccount =>
      (16, "InvalidValidatorIdInAppchain", "Invalid validator id in appchain")
  | tooFewValidators => (17, "TooFewValidators", "Too few validators, cannot unbond any more")
  | invalidAmount => (18, "InvalidAmount", "Invalid amount")
  | amountOverflow => (19, "AmountOverflow", "Amount overflow")
  | transfersPaused => (20, "AssetTransferPaused", "Asset transfer is paused")
  | invalidMint => (21, "InvalidMint", "Invalid mint provided")
  | invalidVaultAuthority => (22, "InvalidVaultAuthority", "Invalid vault authority")
  | invalidTokenOwner => (23, "InvalidTokenOwner", "Invalid token account owner")
  | invalidProgramData =>
      (24, "InvalidProgramData", "ProgramData account did not match expected PDA.")
  | noUpgradeAuthority =>
      (25, "NoUpgradeAuthority", "Program has no upgrade authority (set to None).")
  | invalidUpgradeAuthority =>
      (26, "InvalidUpgradeAuthority", "Signer is not the upgrade authority.")

def code (e : StakingError) : Nat := 6000 + e.entry.1

def name (e : StakingError) : String := e.entry.2.1

def message (e : StakingError) : String := e.entry.2.2

def all : List StakingError :=
  [unauthorized, invalidValue, invalidState, preconditionNotMet, unknownValidator,
    duplicateValidator, belowMinimumDeposit, insufficientStake, validatorCountExceeded,
    validatorNotDelegable, tooManyDelegations, malformedIntent, indexOutOfRange, unknownDelegator,
    duplicateDelegator, invalidAppchainAccount, tooFewValidators, invalidAmount, amountOverflow,
    transfersPaused, invalidMint, invalidVaultAuthority, invalidTokenOwner, invalidProgramData,
    noUpgradeAuthority, invalidUpgradeAuthority]

theorem mem_all (e : StakingError) : e ∈ all := by
  cases e <;> decide

def ofName? (name : String) : Option StakingError :=
  all.find? (·.name = name)

end StakingError

variable {ε α β : Type}

/-- Goes on if `p` holds and fails with `e` otherwise. -/
def require (p : Prop) [Decidable p] (e : ε) : Except ε Unit :=
  if p then .ok () else .error e

def found (e : ε) : Option α → Except ε α
  | some a => .ok a
  | none => .error e

@[simp] theorem require_eq_ok_iff {p : Prop} [Decidable p] {e : ε} {u : Unit} :
    require p e = .ok u ↔ p := by
  by_cases h : p <;> simp [require, h]

@[simp] theorem require_eq_error_iff {p : Prop} [Decidable p] {e e' : ε} :
    require p e = .error e' ↔ ¬p ∧ e = e' := by
  by_cases h : p <;> simp [require, h]

@[simp] theorem found_eq_ok_iff {e : ε} {o : Option α} {a : α} :
    found e o = .ok a ↔ o = some a := by
  cases o <;> simp [found]

@[simp] theorem found_eq_error_iff {e e' : ε} {o : Option α} :
    found e o = .error e' ↔ o = none ∧ e = e' := by
  cases o <;> simp [found]

@[simp] theorem bind_eq_ok_iff {x : Except ε α} {f : α → Except ε β} {b : β} :
    x >>= f = .ok b ↔ ∃ a, x = .ok a ∧ f a = .ok b := by
  cases x <;> simp [bind, Except.bind]

@[simp] theorem bind_eq_error_iff {x : Except ε α} {f : α → Except ε β} {e : ε} :
    x >>= f = .error e ↔ x = .error e ∨ ∃ a, x = .ok a ∧ f a = .error e := by
  cases x <;> simp [bind, Except.bind]

theorem map_eq_ok_iff {x : Except ε α} {g : α → β} {b : β} :
    g <$> x = .ok b ↔ ∃ a, x = .ok a ∧ g a = b := by
  cases x <;> simp [Functor.map, Except.map]

theorem map_found (g : α → β) (e : ε) (o : Option α) : g <$> found e o = found e (o.map g) := by
  cases o <;> rfl

@[simp] theorem toOption_eq_some_iff {x : Except ε α} {a : α} :
    x.toOption = some a ↔ x = .ok a := by
  cases x <;> simp [Except.toOption]

@[simp] theorem mapError_eq_ok_iff {ε' : Type} {x : Except ε α} {f : ε → ε'} {a : α} :
    x.mapError f = .ok a ↔ x = .ok a := by
  cases x with
  | error e => constructor <;> intro h <;> cases h
  | ok b => exact ⟨fun h => by cases h; rfl, fun h => by cases h; rfl⟩

@[simp] theorem pure_eq_ok_iff {a b : α} : (pure a : Except ε α) = .ok b ↔ a = b := by
  simp [pure, Except.pure]

end AppchainStaking
