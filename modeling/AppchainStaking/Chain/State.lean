import AppchainStaking.Amount
import AppchainStaking.Chain.Fault
import AppchainStaking.FirstMatch

/-!
# The host chain

The accounts that the program meets: wallets, mints and token accounts, the code of the program
with its upgrade authority, and the accounts of the program itself. The latter are kept as their
data; all others stand for what they contain. The token program is asked for two things: to move
tokens, and to hand an account to a new owner.
-/

namespace AppchainStaking

structure Mint where
  address : AccountId
  decimals : UInt8
  deriving DecidableEq

structure TokenAccount where
  address : AccountId
  mint : AccountId
  owner : AccountId
  amount : Amount
  frozen : Bool
  deriving DecidableEq

abbrev TokenBook := List TokenAccount

namespace TokenBook

def account? (book : TokenBook) (a : AccountId) : Option TokenAccount :=
  book.find? (·.address = a)

def update (book : TokenBook) (a : AccountId) (f : TokenAccount → TokenAccount) : TokenBook :=
  updateFirst (·.address = a) f book

/-- Moves tokens by the will of the owner of `source`. A transfer to the same account is checked
and changes nothing. -/
def transfer (book : TokenBook) (source target : TokenAccount) (authority : AccountId)
    (amount : Amount) : Except TokenError TokenBook := do
  require (source.frozen = false ∧ target.frozen = false) .frozen
  require (amount ≤ source.amount) .insufficientFunds
  require (source.mint = target.mint) .mintMismatch
  require (source.owner = authority) .ownerMismatch
  if source.address = target.address then return book
  else
    require (target.amount.toNat + amount.toNat < UInt64.size) .overflow
    return (book.update source.address ({ · with amount := source.amount - amount })).update
      target.address ({ · with amount := target.amount + amount })

def handOver (book : TokenBook) (account : TokenAccount) (authority owner : AccountId) :
    Except TokenError TokenBook := do
  require (account.frozen = false) .frozen
  require (account.owner = authority) .ownerMismatch
  return book.update account.address ({ · with owner })

def changedSince (book before : TokenBook) : TokenBook :=
  book.filter fun t => before.account? t.address ≠ some t

end TokenBook

structure Chain where
  wallets : List AccountId
  mints : List Mint
  tokens : TokenBook
  programData : Bytes
  anchorData : Option Bytes := none
  /-- Data of the accounts of history records, by index. -/
  records : List (UInt64 × Bytes) := []
  deriving DecidableEq

inductive Holding
  | vacant
  | wallet
  | mint (m : Mint)
  | token (t : TokenAccount)
  | own (data : Bytes)
  | foreign

namespace Chain

def recordData? (c : Chain) (index : UInt64) : Option Bytes :=
  (c.records.find? (·.1 = index)).map (·.2)

def holding (c : Chain) : Address → Holding
  | .anchor => c.anchorData.elim .vacant .own
  | .record index => (c.recordData? index).elim .vacant .own
  | .programData => .foreign
  | .key a =>
      match c.tokens.account? a, c.mints.find? (·.address = a) with
      | some t, _ => .token t
      | none, some m => .mint m
      | none, none =>
          if a ∈ c.wallets then .wallet
          else if a = Address.tokenProgramId ∨ a = Address.systemProgramId then .foreign
          else .vacant

def anchor? (c : Chain) : Option Anchor :=
  c.anchorData.bind fun data => (Stored.load data).toOption

def record? (c : Chain) (index : UInt64) : Option HistoryRecord :=
  (c.recordData? index).bind fun data => (Stored.load data).toOption

def anchorSpace (c : Chain) : Nat :=
  (c.anchorData.map List.length).getD 0

/-- Changes the stored anchor by hand, within the space it has. -/
def amendAnchor (c : Chain) (f : Anchor → Anchor) : Chain :=
  match c.anchor?, c.anchorData with
  | some s, some data => { c with anchorData := (Stored.store? (f s) data).getD data }
  | _, _ => c

end Chain

end AppchainStaking
