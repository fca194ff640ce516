import AppchainStaking.Chain.State
import AppchainStaking.Error
import AppchainStaking.Wire.Basic

/-!
# Access to accounts

Before an instruction runs it looks at each of its accounts in order: whether it is there at all,
and whether it is of the kind that its part asks for. Conditions between accounts come after that.
The account of the program's code starts with a record that tells in which slot the code was put
there and who may replace it, under a four-byte variant number.
-/

namespace AppchainStaking

def present (role : AccountRole) (r : Option AccountRef) : Except Fault AccountRef :=
  found (.access .notEnoughAccounts (some role)) r

def presentNew (r : Option AccountRef) : Except Fault AccountRef :=
  found (.access .notEnoughAccounts none) r

def presentSigner (r : Option AccountRef) : Except Fault (AccountRef × AccountId) := do
  let r ← present .signer r
  match r.signer, r.address with
  | true, .key a => return (r, a)
  | _, _ => throw (.access .notSigner (some .signer))

def presentProgram (role : AccountRole) (program : Address) (r : Option AccountRef) :
    Except Fault Unit := do
  let r ← present role r
  require (r.address = program) (.access .otherProgram (some role))

def demandAddress (role : AccountRole) (r : AccountRef) (a : Address) : Except Fault Unit :=
  require (r.address = a) (.access .otherAddress (some role))

def demandWritable (role : AccountRole) (r : AccountRef) : Except Fault Unit :=
  require r.writable (.access .notWritable (some role))

namespace Chain

def presentAnchor (c : Chain) (r : Option AccountRef) : Except Fault (AccountRef × Anchor) := do
  let r ← present .anchorState r
  match c.holding r.address with
  | .own data =>
      match Stored.load data with
      | .ok s => return (r, s)
      | .error e => throw (.access (.data e) (some .anchorState))
  | .vacant => throw (.access .notInitialized (some .anchorState))
  | _ => throw (.access .otherOwner (some .anchorState))

def presentToken (c : Chain) (role : AccountRole) (r : Option AccountRef) :
    Except Fault (AccountRef × TokenAccount) := do
  let r ← present role r
  match c.holding r.address with
  | .token t => return (r, t)
  | .mint _ => throw (.invalidTokenData role)
  | .vacant => throw (.access .notInitialized (some role))
  | _ => throw (.access .otherOwner (some role))

def presentMint (c : Chain) (r : Option AccountRef) : Except Fault Mint := do
  let r ← present .stakeMint r
  match c.holding r.address with
  | .mint m => return m
  | .token _ => throw (.invalidTokenData .stakeMint)
  | .vacant => throw (.access .notInitialized (some .stakeMint))
  | _ => throw (.access .otherOwner (some .stakeMint))

def demandCreatable (c : Chain) (role : AccountRole) (r : AccountRef) (a : Address) :
    Except Fault Unit := do
  demandAddress role r a
  match c.holding a with
  | .vacant => demandWritable role r
  | _ => throw .accountInUse

end Chain

def demandOwnAnchor (r : AccountRef) : Except Fault Unit := do
  demandAddress .anchorState r .anchor
  demandWritable .anchorState r

def demandVault (s : Anchor) (r : AccountRef) (vault : TokenAccount) (authority : AccountRef) :
    Except Fault Unit := do
  demandWritable .stakeVault r
  require (vault.address = s.stakeVault) (.staking .invalidVaultAuthority (some .stakeVault))
  require (.key vault.owner = authority.address)
    (.staking .invalidVaultAuthority (some .stakeVault))
  require (vault.mint = s.stakeToken.mint) (.access .otherTokenMint none)

def demandUserAccount (s : Anchor) (r : AccountRef) (account : TokenAccount) (user : AccountId) :
    Except Fault Unit := do
  demandWritable .userTokenAccount r
  require (account.owner = user) (.staking .invalidTokenOwner (some .userTokenAccount))
  require (account.mint = s.stakeToken.mint) (.access .otherTokenMint none)

inductive LoaderRecord
  | uninitialized
  | buffer (authority : Option AccountId)
  | program (programData : AccountId)
  | programData (slot : UInt64) (upgradeAuthority : Option AccountId)
  deriving DecidableEq

namespace LoaderRecord

open Wire

def reader : Reader LoaderRecord := do
  match ← (decode : Reader UInt32) with
  | 0 => return uninitialized
  | 1 => content buffer
  | 2 => content program
  | 3 => content fun (slot, authority) => programData slot authority
  | _ => throw .endOfInput

def ofData? (data : Bytes) : Option LoaderRecord :=
  match reader data with
  | .ok (r, _) => some r
  | .error _ => none

end LoaderRecord

/-- Only the upgrade authority of the program may create the anchor. -/
def demandUpgradeAuthority (programData : Bytes) (signer : AccountId) :
    Except StakingError Unit :=
  match LoaderRecord.ofData? programData with
  | some (.programData _ (some authority)) => require (signer = authority) .invalidUpgradeAuthority
  | some (.programData _ none) => .error .noUpgradeAuthority
  | _ => .error .invalidProgramData

end AppchainStaking
