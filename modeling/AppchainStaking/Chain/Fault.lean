import AppchainStaking.Chain.Address
import AppchainStaking.Error
import AppchainStaking.Wire.Account

/-!
# Why an instruction fails

An instruction fails because its data or its accounts are not what it needs, because a program it
calls refuses, or because staking rules are broken. Some failures name the account at fault.
-/

namespace AppchainStaking

inductive AccessError
  | unknownInstruction
  | undecodableInstruction
  | notWritable
  | otherAddress
  | otherTokenMint
  | data (e : DataError)
  | doesNotFit
  | notEnoughAccounts
  | otherOwner
  | otherProgram
  | notSigner
  | notInitialized
  deriving DecidableEq

def AccessError.entry : AccessError → Nat × String × String
  | unknownInstruction =>
      (101, "InstructionFallbackNotFound", "Fallback functions are not supported")
  | undecodableInstruction =>
      (102, "InstructionDidNotDeserialize",
        "The program could not deserialize the given instruction")
  | notWritable => (2000, "ConstraintMut", "A mut constraint was violated")
  | otherAddress => (2006, "ConstraintSeeds", "A seeds constraint was violated")
  | otherTokenMint => (2014, "ConstraintTokenMint", "A token mint constraint was violated")
  | data .noMark =>
      (3001, "AccountDiscriminatorNotFound", "No discriminator was found on the account")
  | data .otherMark =>
      (3002, "AccountDiscriminatorMismatch",
        "Account discriminator did not match what was expected")
  | data .undecodable => (3003, "AccountDidNotDeserialize", "Failed to deserialize the account")
  | doesNotFit => (3004, "AccountDidNotSerialize", "Failed to serialize the account")
  | notEnoughAccounts =>
      (3005, "AccountNotEnoughKeys", "Not enough account keys given to the instruction")
  | otherOwner =>
      (3007, "AccountOwnedByWrongProgram",
        "The given account is owned by a different program than expected")
  | otherProgram => (3008, "InvalidProgramId", "Program ID was not as expected")
  | notSigner => (3010, "AccountNotSigner", "The given account did not sign")
  | notInitialized =>
      (3012, "AccountNotInitialized",
        "The program expected this account to be already initialized")

inductive TokenError
  | insufficientFunds
  | mintMismatch
  | ownerMismatch
  | overflow
  | frozen
  deriving DecidableEq

def TokenError.code : TokenError → Nat
  | insufficientFunds => 1
  | mintMismatch => 3
  | ownerMismatch => 4
  | overflow => 14
  | frozen => 17

inductive Fault
  | staking (e : StakingError) (account : Option AccountRole)
  | access (e : AccessError) (account : Option AccountRole)
  /-- An account of the token program is of another kind than the one asked for. -/
  | invalidTokenData (account : AccountRole)
  | token (e : TokenError)
  | accountInUse
  deriving DecidableEq

namespace Fault

/-- The number under which clients know a fault; programs that are called have their own. -/
def code? : Fault → Option Nat
  | staking e _ => some e.code
  | access e _ => some e.entry.1
  | invalidTokenData _ | token _ | accountInUse => none

def name : Fault → String
  | staking e _ => e.name
  | access e _ => e.entry.2.1
  | invalidTokenData _ | token _ | accountInUse => "ProgramError"

def message : Fault → String
  | staking e _ => e.message
  | access e _ => e.entry.2.2
  | invalidTokenData _ => "InvalidAccountData"
  | token e => s!"Custom({e.code})"
  | accountInUse => "Custom(0)"

def account? : Fault → Option AccountRole
  | staking _ account | access _ account => account
  | invalidTokenData account => some account
  | token _ | accountInUse => none

end Fault

end AppchainStaking
