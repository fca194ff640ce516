import AppchainStaking.Anchor.Deposit
import AppchainStaking.Chain.Access
import AppchainStaking.Chain.Receipt

/-!
# Running instructions

An instruction that succeeds changes the chain as a whole; one that fails changes nothing. The
account of the anchor is first sized for what one instruction can add to the anchor.
-/

namespace AppchainStaking

def blankData (size : Nat) : Bytes := List.replicate size 0

/-- Data cut or filled up to a size. -/
def resized (data : Bytes) (size : Nat) : Bytes :=
  data.take size ++ blankData (size - data.length)

/-- A staking error raised by an instruction itself names no account. -/
def liftStaking {α : Type} : Except StakingError α → Except Fault α
  | .ok a => .ok a
  | .error e => .error (.staking e none)

namespace Chain

/-- Stores `new` in the account of the anchor, which was sized for `old`. -/
def saveAnchor (c : Chain) (old new : Anchor) : Except Fault Chain := do
  let data := resized (c.anchorData.getD []) old.requiredSpace
  let data ← found (.access .doesNotFit (some .anchorState)) (Stored.store? new data)
  return { c with anchorData := some data }

def createRecord (c : Chain) (r : HistoryRecord) : Except Fault Chain := do
  let data ← found (.access .doesNotFit (some .stakingHistory))
    (Stored.store? r (blankData HistoryRecord.space))
  return { c with records := (r.index, data) :: c.records }

/-- Stores the outcome of a staking action: the anchor, and the record under the index for which
an account was set up. -/
def saveRecorded (c : Chain) (before : Anchor)
    (outcome : Except StakingError HistoryRecord × Anchor) : Except Fault (Receipt × Chain) := do
  let r ← liftStaking outcome.1
  require (r.index = before.history.next) (.staking .indexOutOfRange none)
  let c ← c.saveAnchor before outcome.2
  let c ← c.createRecord r
  return ({ log := [Log.factRecorded r.index], events := [.factRecorded r] }, c)

def create.check (c : Chain) (refs : List AccountRef) :
    Except Fault (Mint × TokenAccount × AccountId) := do
  let anchor ← presentNew refs[0]?
  let authority ← present .vaultAuthority refs[1]?
  let (vaultRef, vault) ← c.presentToken .stakeVault refs[2]?
  let mint ← c.presentMint refs[3]?
  let (signerRef, signer) ← presentSigner refs[4]?
  presentProgram .tokenProgram .tokenProgram refs[5]?
  presentProgram .systemProgram .systemProgram refs[6]?
  let programData ← present .programData refs[7]?
  c.demandCreatable .anchorState anchor .anchor
  demandAddress .vaultAuthority authority .vaultAuthority
  demandWritable .stakeVault vaultRef
  require (vault.mint = mint.address) (.staking .invalidMint (some .stakeVault))
  require (vault.owner = signer ∨ vault.owner = Address.vaultAuthorityId)
    (.staking .invalidVaultAuthority (some .stakeVault))
  demandWritable .signer signerRef
  require (programData.address = .programData) (.staking .invalidProgramData (some .programData))
  return (mint, vault, signer)

def create.establish (c : Chain) (appchainId : String) (template : Template) (mint : Mint)
    (vault : TokenAccount) (signer : AccountId) : Except StakingError Anchor := do
  demandUpgradeAuthority c.programData signer
  let token : StakeToken := { mint := mint.address, decimals := mint.decimals, price := 0 }
  Anchor.new signer appchainId template token vault.address Address.anchorBump
    Address.vaultAuthorityBump

def create.commit (c : Chain) (s : Anchor) (vault : TokenAccount) (signer : AccountId) :
    Except Fault Chain := do
  let tokens ←
    if vault.owner = signer then
      (c.tokens.handOver vault signer Address.vaultAuthorityId).mapError .token
    else pure c.tokens
  let data ← found (.access .doesNotFit (some .anchorState))
    (Stored.store? s (blankData Anchor.initialSpace))
  return { c with tokens, anchorData := some data }

/-- Creates the anchor and makes the vault authority the owner of the vault. -/
def create (c : Chain) (refs : List AccountRef) (appchainId : String) (template : Template) :
    Except Failure (Receipt × Chain) := do
  let (mint, vault, signer) ← (create.check c refs).mapError (⟨·, []⟩)
  let established := create.establish c appchainId template mint vault signer
  let s ← (liftStaking established).mapError (⟨·, []⟩)
  let line := Log.initialized s.appchainId s.owner
  let c ← (create.commit c s vault signer).mapError (⟨·, [line]⟩)
  return ({ log := [line] }, c)

def manage.check (c : Chain) (refs : List AccountRef) : Except Fault (Anchor × AccountId) := do
  let (anchor, s) ← c.presentAnchor refs[0]?
  let (signerRef, signer) ← presentSigner refs[1]?
  presentProgram .systemProgram .systemProgram refs[2]?
  demandOwnAnchor anchor
  demandWritable .signer signerRef
  return (s, signer)

def manage (c : Chain) (refs : List AccountRef)
    (change : Anchor → AccountId → Except StakingError (Receipt × Anchor)) :
    Except Fault (Receipt × Chain) := do
  let (s, signer) ← manage.check c refs
  let (receipt, s') ← liftStaking (change s signer)
  return (receipt, ← c.saveAnchor s s')

def command (c : Chain) (refs : List AccountRef) (command : Command) :
    Except Fault (Receipt × Chain) :=
  c.manage refs fun s signer => do
    let (_, s') ← s.command s.roles.authorize signer command
    return (s.commandReceipt s' signer command, s')

def setProfile (c : Chain) (refs : List AccountRef) (entries : List ProfileEntry) :
    Except Fault (Receipt × Chain) :=
  c.manage refs fun s signer => do
    let s' ← s.setProfile signer entries
    return ({ log := [Log.profileUpdated signer]
              events := [.profileUpdated signer entries.length] }, s')

def deposit.check (c : Chain) (refs : List AccountRef) :
    Except Fault (Anchor × AccountId × TokenAccount × TokenAccount) := do
  let (anchor, s) ← c.presentAnchor refs[0]?
  let record ← presentNew refs[1]?
  let (vaultRef, vault) ← c.presentToken .stakeVault refs[2]?
  let authority ← present .vaultAuthority refs[3]?
  let (userRef, account) ← c.presentToken .userTokenAccount refs[4]?
  let (signerRef, signer) ← presentSigner refs[5]?
  presentProgram .tokenProgram .tokenProgram refs[6]?
  presentProgram .systemProgram .systemProgram refs[7]?
  c.demandCreatable .stakingHistory record (.record s.history.next)
  demandOwnAnchor anchor
  demandVault s vaultRef vault authority
  demandAddress .vaultAuthority authority .vaultAuthority
  demandUserAccount s userRef account signer
  demandWritable .signer signerRef
  return (s, signer, account, vault)

def deposit (c : Chain) (refs : List AccountRef) (now : Int64) (amount : Amount)
    (message : String) : Except Fault (Receipt × Chain) := do
  let (s, signer, account, vault) ← deposit.check c refs
  require (0 < amount) (.staking .invalidAmount none)
  let tokens ← (c.tokens.transfer account vault signer amount).mapError .token
  { c with tokens }.saveRecorded s (s.deposit signer amount message now)

def direct.check (c : Chain) (refs : List AccountRef) : Except Fault (Anchor × AccountId) := do
  let (anchor, s) ← c.presentAnchor refs[0]?
  let record ← presentNew refs[1]?
  let (signerRef, signer) ← presentSigner refs[2]?
  presentProgram .systemProgram .systemProgram refs[3]?
  c.demandCreatable .stakingHistory record (.record s.history.next)
  demandOwnAnchor anchor
  demandWritable .signer signerRef
  return (s, signer)

def direct (c : Chain) (refs : List AccountRef) (now : Int64) (action : DirectAction) :
    Except Fault (Receipt × Chain) := do
  let (s, signer) ← direct.check c refs
  c.saveRecorded s (s.act signer now action.toStakingAction)

def withdraw.check (c : Chain) (refs : List AccountRef) :
    Except Fault (Anchor × AccountId × TokenAccount × TokenAccount) := do
  let (anchor, s) ← c.presentAnchor refs[0]?
  let (vaultRef, vault) ← c.presentToken .stakeVault refs[1]?
  let authority ← present .vaultAuthority refs[2]?
  let (userRef, account) ← c.presentToken .userTokenAccount refs[3]?
  let (signerRef, signer) ← presentSigner refs[4]?
  presentProgram .tokenProgram .tokenProgram refs[5]?
  presentProgram .systemProgram .systemProgram refs[6]?
  demandOwnAnchor anchor
  demandVault s vaultRef vault authority
  demandAddress .vaultAuthority authority .vaultAuthority
  demandUserAccount s userRef account signer
  demandWritable .signer signerRef
  return (s, signer, account, vault)

def withdraw (c : Chain) (refs : List AccountRef) : Except Fault (Receipt × Chain) := do
  let (s, signer, account, vault) ← withdraw.check c refs
  match s.withdraw signer (c.tokens.transfer vault account Address.vaultAuthorityId) with
  | (.refused e, _) => throw (.staking e none)
  | (.rejected _ e, _) => throw (.token e)
  | (.nothingDue, s') => return ({ log := [Log.nothingDue signer] }, ← c.saveAnchor s s')
  | (.paid amount tokens, s') =>
      let c ← { c with tokens }.saveAnchor s s'
      return (
        { log := [Log.withdrew signer amount]
          events := [.stakeWithdrawn signer amount s.stakeToken.mint vault.address] }, c)

def query (c : Chain) (refs : List AccountRef) (q : Query) : Except Fault Receipt := do
  let (anchor, s) ← c.presentAnchor refs[0]?
  demandAddress .anchorState anchor .anchor
  return { answer := ← liftStaking (s.answer q) }

def queryRecord.check (c : Chain) (refs : List AccountRef) (index : UInt64) :
    Except Fault Anchor := do
  let (anchor, s) ← c.presentAnchor refs[0]?
  let record ← present .stakingHistory refs[1]?
  demandAddress .anchorState anchor .anchor
  demandAddress .stakingHistory record (.record index)
  return s

/-- Looks up a history record. An account that is not there has no data to be read. -/
def queryRecord (c : Chain) (refs : List AccountRef) (index : UInt64) : Except Fault Receipt := do
  let s ← queryRecord.check c refs index
  liftStaking (s.history.demandInRange index)
  match Stored.load ((c.recordData? index).getD []) with
  | .ok r => return { answer := .record r }
  | .error e => throw (.access (.data e) none)

/-- Runs an instruction on accounts with merged privileges. -/
def run (c : Chain) (refs : List AccountRef) (now : Int64) :
    Instruction → Except Failure (Receipt × Chain)
  | .create appchainId template => c.create refs appchainId template
  | .command command => (c.command refs command).mapError (⟨·, []⟩)
  | .setProfile entries => (c.setProfile refs entries).mapError (⟨·, []⟩)
  | .deposit amount message => (c.deposit refs now amount message).mapError (⟨·, []⟩)
  | .direct action => (c.direct refs now action).mapError (⟨·, []⟩)
  | .withdraw => (c.withdraw refs).mapError (⟨·, []⟩)
  | .query q => ((c.query refs q).map (·, c)).mapError (⟨·, []⟩)
  | .record index => ((c.queryRecord refs index).map (·, c)).mapError (⟨·, []⟩)

def execute (c : Chain) (r : Request) : Except Failure (Receipt × Chain) := do
  let instruction ← (Instruction.ofData r.data).mapError (⟨·, []⟩)
  c.run (AccountRef.merge r.accounts) r.now instruction

def step (c : Chain) (r : Request) : Chain :=
  match c.execute r with
  | .ok (_, c') => c'
  | .error _ => c

end Chain

end AppchainStaking
