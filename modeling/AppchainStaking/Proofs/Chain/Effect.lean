import AppchainStaking.Proofs.Anchor.Effect
import AppchainStaking.Proofs.Chain.Access
import AppchainStaking.Proofs.Chain.Settlement

/-!
# What an instruction can do

An instruction that succeeds asks a question, creates the anchor, or performs one operation on the
stored anchor. Tokens move with the operation: what it takes in comes from an account of the signer
into the vault, and what it pays out goes from the vault to the signer.
-/

namespace AppchainStaking

def Instruction.isQuestion : Instruction → Bool
  | query _ | record _ => true
  | create _ _ | command _ | setProfile _ | deposit _ _ | direct _ | withdraw => false

/-- The stake token that a mint stands for, before it has a price. -/
def Mint.stakeToken (m : Mint) : StakeToken :=
  { mint := m.address, decimals := m.decimals, price := 0 }

namespace Chain

/-- What an instruction can do to the chain. -/
inductive Effect (c : Chain) (r : Request) : Chain → Prop
  | asked : Effect c r c
  | created {c' : Chain} {s : Anchor} {vault : TokenAccount} {signer : AccountId} {id : String}
      {template : Template} {token : StakeToken} {bump vaultBump : UInt8}
      (vacant : c.anchorData = none)
      (listed : c.tokens.account? vault.address = some vault)
      (handed : c'.tokens = c.tokens.update vault.address (·.ownedBy Address.vaultAuthorityId))
      (fresh : Anchor.new signer id template token vault.address bump vaultBump = .ok s)
      (saved : c'.anchor? = some s) :
      Effect c r c'
  | performed {c' : Chain} {s s' : Anchor} {o : Operation TokenError TokenBook}
      {reply : Reply TokenError TokenBook}
      (loaded : c.anchor? = some s)
      (signed : r.SignedBy o.caller)
      (effect : Anchor.Effect s o reply s')
      (settled : Settlement s o.caller c.tokens (if reply.record?.isSome then o.stake else 0)
        (reply.paid?.getD 0) c'.tokens)
      (saved : c'.anchor? = some s') :
      Effect c r c'

variable {c c' : Chain} {r : Request} {receipt : Receipt}

theorem ne_of_signedBy {a : AccountId} (hr : ¬ r.SignedBy Address.vaultAuthorityId)
    (h : r.SignedBy a) : a ≠ Address.vaultAuthorityId := by
  rintro rfl
  exact hr h

theorem effect_of_idle {s s' : Anchor} {o : Operation TokenError TokenBook}
    {reply : Reply TokenError TokenBook} (loaded : c.anchor? = some s)
    (signed : r.SignedBy o.caller) (effect : Anchor.Effect s o reply s')
    (unstaked : reply.record? = none ∨ o.stake = 0) (unpaid : reply.paid? = none)
    (saved : c'.anchor? = some s') (same : c'.tokens = c.tokens) : Effect c r c' := by
  refine .performed loaded signed effect ?_ saved
  have hstake : (if reply.record?.isSome then o.stake else 0) = 0 := by
    rcases unstaked with hnone | hzero
    · rw [hnone]
      rfl
    · rw [hzero, ite_self]
  rw [hstake, unpaid, same]
  exact .idle

/-- The account of the anchor holds `s`, and nothing else has changed. -/
structure Saved (c : Chain) (s : Anchor) (c' : Chain) : Prop where
  saved : c'.anchor? = some s
  tokens : c'.tokens = c.tokens
  records : c'.records = c.records
  programData : c'.programData = c.programData

/-- The anchor was saved and the record of an instruction put in an account of its own, as its event
tells. -/
structure Filed (c : Chain) (s : Anchor) (record : HistoryRecord) (receipt : Receipt)
    (c' : Chain) : Prop where
  saved : c'.anchor? = some s
  tokens : c'.tokens = c.tokens
  filed : ∃ data, c'.records = (record.index, data) :: c.records ∧ Stored.load data = .ok record
  programData : c'.programData = c.programData
  told : receipt.events = [.factRecorded record]

theorem saved_of_store {s : Anchor} {data data' : Bytes} (h : Stored.store? s data = some data') :
    c.Saved s { c with anchorData := some data' } := by
  refine ⟨?_, rfl, rfl, rfl⟩
  rw [anchor?, Option.bind_some, Stored.load_of_store? h]
  rfl

theorem saveAnchor_eq_ok {s s' : Anchor} (h : c.saveAnchor s s' = .ok c') : c.Saved s' c' := by
  simp only [saveAnchor, bind_eq_ok_iff, found_eq_ok_iff, pure_eq_ok_iff] at h
  obtain ⟨data, hstore, rfl⟩ := h
  exact saved_of_store hstore

theorem saveRecorded_eq_ok {s : Anchor} {outcome : Except StakingError HistoryRecord × Anchor}
    (h : c.saveRecorded s outcome = .ok (receipt, c')) :
    ∃ record, outcome.1 = .ok record ∧ c.Filed outcome.2 record receipt c' := by
  simp only [saveRecorded, createRecord, bind_eq_ok_iff, found_eq_ok_iff, pure_eq_ok_iff,
    Prod.mk.injEq] at h
  obtain ⟨record, hlift, _, -, c₁, hsave, c₂, ⟨data, hstore, rfl⟩, rfl, rfl⟩ := h
  obtain ⟨hanchor, htokens, hrecords, hprogram⟩ := saveAnchor_eq_ok hsave
  refine ⟨record, liftStaking_eq_ok_iff.1 hlift, hanchor, htokens, ⟨data, ?_, ?_⟩, hprogram, rfl⟩
  · rw [hrecords]
  · exact Stored.load_of_store? hstore

theorem manage_eq_ok {change : Anchor → AccountId → Except StakingError (Receipt × Anchor)}
    (h : c.manage (AccountRef.merge r.accounts) change = .ok (receipt, c')) :
    ∃ s s' signer, c.anchor? = some s ∧ r.SignedAt 1 signer ∧ change s signer = .ok (receipt, s') ∧
      c.Saved s' c' := by
  simp only [manage, bind_eq_ok_iff, liftStaking_eq_ok_iff, pure_eq_ok_iff, Prod.mk.injEq] at h
  obtain ⟨⟨s, signer⟩, hcheck, ⟨receipt', s'⟩, hchange, c₁, hsave, rfl, rfl⟩ := h
  obtain ⟨loaded, signed⟩ := manage_check_eq_ok hcheck
  exact ⟨s, s', signer, loaded, signed, hchange, saveAnchor_eq_ok hsave⟩

theorem command_eq_ok {command : Command}
    (h : c.command (AccountRef.merge r.accounts) command = .ok (receipt, c')) :
    ∃ s s' signer reply, c.anchor? = some s ∧ r.SignedAt 1 signer ∧
      s.command s.roles.authorize signer command = .ok (reply, s') ∧
      receipt = s.commandReceipt s' signer command ∧ c.Saved s' c' := by
  obtain ⟨s, s', signer, loaded, signed, hchange, hsaved⟩ := manage_eq_ok h
  simp only [bind_eq_ok_iff, pure_eq_ok_iff, Prod.mk.injEq] at hchange
  obtain ⟨⟨reply, s₁⟩, hcommand, rfl, rfl⟩ := hchange
  exact ⟨s, s₁, signer, reply, loaded, signed, hcommand, rfl, hsaved⟩

theorem setProfile_eq_ok {entries : List ProfileEntry}
    (h : c.setProfile (AccountRef.merge r.accounts) entries = .ok (receipt, c')) :
    ∃ s s' signer, c.anchor? = some s ∧ r.SignedAt 1 signer ∧
      s.setProfile signer entries = .ok s' ∧
      receipt.events = [.profileUpdated signer entries.length] ∧ c.Saved s' c' := by
  obtain ⟨s, s', signer, loaded, signed, hchange, hsaved⟩ := manage_eq_ok h
  simp only [bind_eq_ok_iff, pure_eq_ok_iff, Prod.mk.injEq] at hchange
  obtain ⟨s₁, hprofile, rfl, rfl⟩ := hchange
  exact ⟨s, s₁, signer, loaded, signed, hprofile, rfl, hsaved⟩

theorem direct_eq_ok {action : DirectAction}
    (h : c.direct (AccountRef.merge r.accounts) r.now action = .ok (receipt, c')) :
    ∃ s s' signer record, c.anchor? = some s ∧ r.SignedAt 2 signer ∧
      c.recordData? s.history.next = none ∧
      s.act signer r.now action.toStakingAction = (.ok record, s') ∧
      c.Filed s' record receipt c' := by
  simp only [direct, bind_eq_ok_iff] at h
  obtain ⟨⟨s, signer⟩, hcheck, h⟩ := h
  obtain ⟨loaded, signed, untaken⟩ := direct_check_eq_ok hcheck
  obtain ⟨record, hact, hfiled⟩ := saveRecorded_eq_ok h
  exact ⟨s, _, signer, record, loaded, signed, untaken, Prod.ext hact rfl, hfiled⟩

theorem deposit_eq_ok {amount : Amount} {message : String}
    (h : c.deposit (AccountRef.merge r.accounts) r.now amount message = .ok (receipt, c')) :
    ∃ s s' signer account vault tokens record, c.DepositAccounts r s signer account vault ∧
      c.tokens.transfer account vault signer amount = .ok tokens ∧
      s.deposit signer amount message r.now = (.ok record, s') ∧
      { c with tokens }.Filed s' record receipt c' := by
  simp only [deposit, bind_eq_ok_iff, mapError_eq_ok_iff] at h
  obtain ⟨⟨s, signer, account, vault⟩, hcheck, _, -, tokens, htransfer, h⟩ := h
  obtain ⟨record, hdeposit, hfiled⟩ := saveRecorded_eq_ok h
  exact ⟨s, _, signer, account, vault, tokens, record, deposit_check_eq_ok hcheck, htransfer,
    Prod.ext hdeposit rfl, hfiled⟩

/-- A withdrawal that succeeds pays, or finds nothing due and changes nothing. -/
theorem withdraw_eq_ok (h : c.withdraw (AccountRef.merge r.accounts) = .ok (receipt, c')) :
    ∃ s s' signer account vault w tokens, c.WithdrawalAccounts r s signer account vault ∧
      s.withdraw signer (c.tokens.transfer vault account Address.vaultAuthorityId) = (w, s') ∧
      { c with tokens }.Saved s' c' ∧
      (w = .nothingDue ∧ s' = s ∧ tokens = c.tokens ∧ receipt.events = [] ∨
        ∃ amount, w = .paid amount tokens ∧
          receipt.events =
            [.stakeWithdrawn signer amount s.stakeToken.mint vault.address]) := by
  simp only [withdraw, bind_eq_ok_iff] at h
  obtain ⟨⟨s, signer, account, vault⟩, hcheck, h⟩ := h
  have accounts := withdraw_check_eq_ok hcheck
  split at h
  · cases h
  · cases h
  · next s' hw =>
      simp only [bind_eq_ok_iff, pure_eq_ok_iff, Prod.mk.injEq] at h
      obtain ⟨c₁, hsave, rfl, rfl⟩ := h
      have hs' : s' = s := Anchor.eq_of_withdraw_unpaid hw (by simp)
      exact ⟨s, s', signer, account, vault, _, _, accounts, hw, saveAnchor_eq_ok hsave,
        .inl ⟨rfl, hs', rfl, rfl⟩⟩
  · next amount tokens s' hw =>
      simp only [bind_eq_ok_iff, pure_eq_ok_iff, Prod.mk.injEq] at h
      obtain ⟨c₁, hsave, rfl, rfl⟩ := h
      exact ⟨s, s', signer, account, vault, _, tokens, accounts, hw, saveAnchor_eq_ok hsave,
        .inr ⟨amount, rfl, rfl⟩⟩

theorem create_establish_eq_ok {id : String} {template : Template} {mint : Mint}
    {vault : TokenAccount} {signer : AccountId} {s : Anchor}
    (h : create.establish c id template mint vault signer = .ok s) :
    demandUpgradeAuthority c.programData signer = .ok () ∧
      Anchor.new signer id template mint.stakeToken vault.address Address.anchorBump
        Address.vaultAuthorityBump = .ok s := by
  obtain ⟨_, hauthority, fresh⟩ := bind_eq_ok_iff.1 h
  exact ⟨hauthority, fresh⟩

/-- A vault that belongs to its signer or to the authority belongs to the authority afterwards. -/
theorem create_commit_eq_ok {s : Anchor} {vault : TokenAccount} {signer : AccountId}
    (listed : c.tokens.account? vault.address = some vault)
    (howner : vault.owner = signer ∨ vault.owner = Address.vaultAuthorityId)
    (h : create.commit c s vault signer = .ok c') :
    { c with tokens := c.tokens.update vault.address (·.ownedBy Address.vaultAuthorityId) }.Saved
      s c' := by
  unfold create.commit at h
  split at h
  · simp only [bind_eq_ok_iff, mapError_eq_ok_iff, found_eq_ok_iff, pure_eq_ok_iff,
      TokenBook.handOver, require_eq_ok_iff] at h
    obtain ⟨_, ⟨_, -, _, -, rfl⟩, data, hstore, rfl⟩ := h
    exact saved_of_store hstore
  · next hne =>
      simp only [pure_bind, bind_eq_ok_iff, found_eq_ok_iff, pure_eq_ok_iff] at h
      obtain ⟨data, hstore, rfl⟩ := h
      have hself : vault.ownedBy Address.vaultAuthorityId = vault := by
        rw [← howner.resolve_left hne]
        rfl
      rw [TokenBook.update_eq_self listed hself]
      exact saved_of_store hstore

theorem create_eq_ok {id : String} {template : Template}
    (h : c.create (AccountRef.merge r.accounts) id template = .ok (receipt, c')) :
    ∃ s mint vault signer, c.CreationAccounts r mint vault signer ∧
      demandUpgradeAuthority c.programData signer = .ok () ∧
      Anchor.new signer id template mint.stakeToken vault.address Address.anchorBump
        Address.vaultAuthorityBump = .ok s ∧
      receipt.events = [] ∧
      { c with tokens := c.tokens.update vault.address (·.ownedBy Address.vaultAuthorityId) }.Saved
        s c' := by
  simp only [create, bind_eq_ok_iff, mapError_eq_ok_iff, liftStaking_eq_ok_iff, pure_eq_ok_iff,
    Prod.mk.injEq] at h
  obtain ⟨⟨mint, vault, signer⟩, hcheck, s, hestablished, c₁, hcommit, rfl, rfl⟩ := h
  have accounts := create_check_eq_ok hcheck
  obtain ⟨hauthority, fresh⟩ := create_establish_eq_ok hestablished
  exact ⟨s, mint, vault, signer, accounts, hauthority, fresh, rfl,
    create_commit_eq_ok accounts.vaultListed accounts.vaultOwner hcommit⟩

theorem events_of_query {refs : List AccountRef} {q : Query} (h : c.query refs q = .ok receipt) :
    receipt.events = [] := by
  simp only [query, bind_eq_ok_iff, pure_eq_ok_iff] at h
  obtain ⟨_, -, _, -, answer, -, rfl⟩ := h
  rfl

theorem events_of_queryRecord {refs : List AccountRef} {index : UInt64}
    (h : c.queryRecord refs index = .ok receipt) : receipt.events = [] := by
  simp only [queryRecord, bind_eq_ok_iff] at h
  obtain ⟨s, -, _, -, h⟩ := h
  split at h
  · cases h
    rfl
  · cases h

/-- An instruction that only asks leaves the chain as it is, and tells nothing. -/
theorem run_question_eq_ok {i : Instruction} (question : i.isQuestion) {refs : List AccountRef}
    {now : Int64} (h : c.run refs now i = .ok (receipt, c')) : c' = c ∧ receipt.events = [] := by
  cases i with
  | query q =>
      cases hq : c.query refs q <;> rw [run, hq] at h <;> cases h
      exact ⟨rfl, events_of_query hq⟩
  | record index =>
      cases hq : c.queryRecord refs index <;> rw [run, hq] at h <;> cases h
      exact ⟨rfl, events_of_queryRecord hq⟩
  | create | command | setProfile | deposit | direct | withdraw => cases question

theorem execute_eq_ok_iff :
    c.execute r = .ok (receipt, c') ↔ ∃ i, Instruction.ofData r.data = .ok i ∧
      c.run (AccountRef.merge r.accounts) r.now i = .ok (receipt, c') := by
  simp only [execute, bind_eq_ok_iff, mapError_eq_ok_iff]

theorem effect_of_command {command : Command}
    (h : c.command (AccountRef.merge r.accounts) command = .ok (receipt, c')) :
    Effect c r c' := by
  obtain ⟨s, s', signer, reply, loaded, signed, hcommand, -, hsaved⟩ := command_eq_ok h
  obtain ⟨authorized, executed⟩ := Anchor.command_eq_ok_iff.1 hcommand
  exact effect_of_idle (o := .command s.roles.authorize signer command) loaded signed.signedBy
    (.commanded authorized executed) (.inl rfl) rfl hsaved.saved hsaved.tokens

theorem effect_of_setProfile {entries : List ProfileEntry}
    (h : c.setProfile (AccountRef.merge r.accounts) entries = .ok (receipt, c')) :
    Effect c r c' := by
  obtain ⟨s, s', signer, loaded, signed, hprofile, -, hsaved⟩ := setProfile_eq_ok h
  obtain ⟨distinct, fits, known, rfl⟩ := Anchor.setProfile_eq_ok_iff.1 hprofile
  exact effect_of_idle (o := .setProfile signer entries) loaded signed.signedBy
    (.profileSet rfl distinct fits known) (.inl rfl) rfl hsaved.saved hsaved.tokens

theorem effect_of_act {s s' : Anchor} {caller : AccountId} {now : Int64} {action : StakingAction}
    {record : HistoryRecord} {o : Operation TokenError TokenBook}
    (h : s.act caller now action = (.ok record, s')) (hcaller : o.caller = caller)
    (hnow : o.now = now) (hasked : o.action? = some action) :
    Anchor.Effect s o (.staking (.ok record)) s' := by
  obtain ⟨l, f, permitted, step, room, rfl, rfl⟩ := Anchor.act_eq_ok_iff.1 h
  subst hcaller
  subst hnow
  exact .recorded hasked permitted step room

theorem effect_of_direct {action : DirectAction}
    (h : c.direct (AccountRef.merge r.accounts) r.now action = .ok (receipt, c')) :
    Effect c r c' := by
  obtain ⟨s, s', signer, record, loaded, signed, -, hact, hfiled⟩ := direct_eq_ok h
  have hzero : action.toStakingAction.deposit = 0 := by
    cases action <;> rfl
  exact effect_of_idle (o := .act signer r.now action.toStakingAction) loaded signed.signedBy
    (effect_of_act hact rfl rfl rfl) (.inr hzero) rfl hfiled.saved hfiled.tokens

theorem effect_of_anchor_deposit {s s' : Anchor} {sender : AccountId} {now : Int64}
    {amount : Amount} {message : String} {record : HistoryRecord}
    (h : s.deposit sender amount message now = (.ok record, s')) :
    Anchor.Effect s (.deposit sender now amount message : Operation TokenError TokenBook)
      (.staking (.ok record)) s' := by
  cases haction : StakingAction.ofMessage amount message with
  | error e =>
      rw [Anchor.deposit, haction] at h
      cases h
  | ok action =>
      rw [Anchor.deposit, haction] at h
      exact effect_of_act h rfl rfl (toOption_eq_some_iff.2 haction)

theorem effect_of_deposit (hr : ¬ r.SignedBy Address.vaultAuthorityId) {amount : Amount}
    {message : String}
    (h : c.deposit (AccountRef.merge r.accounts) r.now amount message = .ok (receipt, c')) :
    Effect c r c' := by
  obtain ⟨s, s', signer, account, vault, tokens, record, accounts, htransfer, hdeposit, hfiled⟩ :=
    deposit_eq_ok h
  have signed := accounts.signed.signedBy
  refine .performed (o := .deposit signer r.now amount message) accounts.loaded signed
    (effect_of_anchor_deposit hdeposit) ?_ hfiled.saved
  rw [hfiled.tokens]
  exact .taken_of_transfer (ne_of_signedBy hr signed) accounts.owned accounts.listed
    accounts.kept accounts.vaulted htransfer

theorem effect_of_withdraw (hr : ¬ r.SignedBy Address.vaultAuthorityId)
    (h : c.withdraw (AccountRef.merge r.accounts) = .ok (receipt, c')) :
    Effect c r c' := by
  obtain ⟨s, s', signer, account, vault, w, tokens, accounts, hw, hsaved,
    ⟨-, rfl, rfl, -⟩ | ⟨amount, rfl, -⟩⟩ := withdraw_eq_ok h
  · have unchanged : Anchor.Effect s' (.withdraw signer fun _ => .error TokenError.frozen)
        (.withdrawal (.nothingDue : Withdrawal TokenError TokenBook)) s' := .unchanged rfl rfl
    exact effect_of_idle (o := .withdraw signer _) accounts.loaded accounts.signed.signedBy
      unchanged (.inl rfl) rfl hsaved.saved hsaved.tokens
  · obtain ⟨running, due, positive, accepted, rfl⟩ := Anchor.withdraw_eq_paid hw
    have signed := accounts.signed.signedBy
    refine .performed accounts.loaded (o := .withdraw signer _) signed
      (.paid running due positive accepted) ?_ hsaved.saved
    rw [hsaved.tokens]
    exact .paid_of_transfer (ne_of_signedBy hr signed) accounts.owned accounts.listed
      accounts.kept accounts.vaulted accepted

theorem effect_of_create {id : String} {template : Template}
    (h : c.create (AccountRef.merge r.accounts) id template = .ok (receipt, c')) :
    Effect c r c' := by
  obtain ⟨s, mint, vault, signer, accounts, -, fresh, -, hsaved⟩ := create_eq_ok h
  exact .created accounts.vacant accounts.vaultListed hsaved.tokens fresh hsaved.saved

/-- Every instruction that succeeds has one of the effects, if the vault authority did not sign. -/
theorem effect_of_execute (hr : ¬ r.SignedBy Address.vaultAuthorityId)
    (h : c.execute r = .ok (receipt, c')) : Effect c r c' := by
  obtain ⟨instruction, -, h⟩ := execute_eq_ok_iff.1 h
  cases instruction with
  | create id template => exact effect_of_create h
  | command command => exact effect_of_command (mapError_eq_ok_iff.1 h)
  | setProfile entries => exact effect_of_setProfile (mapError_eq_ok_iff.1 h)
  | deposit amount message => exact effect_of_deposit hr (mapError_eq_ok_iff.1 h)
  | direct action => exact effect_of_direct (mapError_eq_ok_iff.1 h)
  | withdraw => exact effect_of_withdraw hr (mapError_eq_ok_iff.1 h)
  | query | record =>
      obtain ⟨rfl, -⟩ := run_question_eq_ok rfl h
      exact .asked

/-- Every request has one of the effects; one that fails changes nothing. -/
theorem step_effect (hr : ¬ r.SignedBy Address.vaultAuthorityId) : Effect c r (c.step r) := by
  unfold step
  split
  · next h => exact effect_of_execute hr h
  · exact .asked

end Chain

end AppchainStaking
