import AppchainStaking.Identity

/-!
# Addresses on the host chain

An account of the program itself has an address that the program derives from a name, so such an
address is kept as the name. The vault authority is derived too, but shows as an owner of token
accounts and is known by its bytes. Derived addresses have no private key and never sign.
-/

namespace AppchainStaking

inductive Address
  | key (a : AccountId)
  | anchor
  | record (index : UInt64)
  /-- The account that holds the code of the program and names its upgrade authority. -/
  | programData
  deriving DecidableEq

namespace Address

def vaultAuthorityId : AccountId where
  bytes := [0xd0, 0x22, 0x50, 0xf8, 0x84, 0x31, 0xc8, 0x9d, 0xd4, 0x3a, 0x75, 0x69, 0xe1, 0x2f,
    0x4b, 0x82, 0x9c, 0xb2, 0x3d, 0xaa, 0xf5, 0x49, 0xf6, 0x1a, 0x76, 0xff, 0xb9, 0xee, 0x41,
    0x98, 0x6b, 0xb2]
  length_bytes := rfl

def tokenProgramId : AccountId where
  bytes := [0x06, 0xdd, 0xf6, 0xe1, 0xd7, 0x65, 0xa1, 0x93, 0xd9, 0xcb, 0xe1, 0x46, 0xce, 0xeb,
    0x79, 0xac, 0x1c, 0xb4, 0x85, 0xed, 0x5f, 0x5b, 0x37, 0x91, 0x3a, 0x8c, 0xf5, 0x85, 0x7e,
    0xff, 0x00, 0xa9]
  length_bytes := rfl

def systemProgramId : AccountId where
  bytes := List.replicate 32 0
  length_bytes := rfl

def vaultAuthority : Address := key vaultAuthorityId

def tokenProgram : Address := key tokenProgramId

def systemProgram : Address := key systemProgramId

/-- The seed with which the address of the anchor is derived. -/
def anchorBump : UInt8 := 253

def vaultAuthorityBump : UInt8 := 254

end Address

inductive AccountRole
  | anchorState
  | stakingHistory
  | stakeVault
  | stakeMint
  | vaultAuthority
  | userTokenAccount
  | signer
  | tokenProgram
  | systemProgram
  | programData
  deriving DecidableEq

def AccountRole.name : AccountRole → String
  | anchorState => "anchor_state"
  | stakingHistory => "staking_history"
  | stakeVault => "stake_vault"
  | stakeMint => "stake_mint"
  | vaultAuthority => "vault_authority"
  | userTokenAccount => "user_token_account"
  | signer => "signer"
  | tokenProgram => "token_program"
  | systemProgram => "system_program"
  | programData => "program_data"

def AccountRole.isWritable : AccountRole → Bool
  | anchorState | stakingHistory | stakeVault | userTokenAccount | signer => true
  | stakeMint | vaultAuthority | tokenProgram | systemProgram | programData => false

structure AccountRef where
  address : Address
  signer : Bool
  writable : Bool
  deriving DecidableEq

/-- Privileges belong to an address: where it is listed more than once, each mention has the
privileges of all of them. -/
def AccountRef.merge (refs : List AccountRef) : List AccountRef :=
  refs.map fun r =>
    let same := refs.filter (·.address = r.address)
    { r with signer := same.any (·.signer), writable := same.any (·.writable) }

end AppchainStaking
