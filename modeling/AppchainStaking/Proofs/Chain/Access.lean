import AppchainStaking.Chain.Execute
import AppchainStaking.Proofs.Chain.Tokens
import AppchainStaking.Proofs.Wire.RoundTrip

/-!
# What the checks of an instruction establish

A check that an instruction passed says what its account is: the anchor as it is stored, a token
account as the book has it, a signer that signed the request.
-/

namespace AppchainStaking

def Request.SignedBy (r : Request) (a : AccountId) : Prop :=
  ∃ ref ∈ r.accounts, ref.address = .key a ∧ ref.signer = true

instance (r : Request) (a : AccountId) : Decidable (r.SignedBy a) :=
  inferInstanceAs (Decidable (∃ ref ∈ r.accounts, ref.address = .key a ∧ ref.signer = true))

theorem signedBy_of_mem_merge {r : Request} {ref : AccountRef} {a : AccountId}
    (h : ref ∈ AccountRef.merge r.accounts) (haddress : ref.address = .key a)
    (hsigner : ref.signer = true) : r.SignedBy a := by
  obtain ⟨ref₀, -, rfl⟩ := List.mem_map.1 h
  obtain ⟨ref₁, hmem, hsigned⟩ := List.any_eq_true.1 hsigner
  obtain ⟨hin, hsame⟩ := List.mem_filter.1 hmem
  exact ⟨ref₁, hin, (of_decide_eq_true hsame).trans haddress, hsigned⟩

/-- The account at a position of the request has the address of a key. -/
def Request.Lists (r : Request) (n : Nat) (a : AccountId) : Prop :=
  r.accounts[n]?.map (·.address) = some (.key a)

theorem lists_of_getElem?_merge {r : Request} {n : Nat} {ref : AccountRef} {a : AccountId}
    (h : (AccountRef.merge r.accounts)[n]? = some ref) (haddress : ref.address = .key a) :
    r.Lists n a := by
  rw [AccountRef.merge, List.getElem?_map] at h
  obtain ⟨ref₀, hget, rfl⟩ := Option.map_eq_some_iff.1 h
  rw [Request.Lists, hget]
  exact congrArg some haddress

structure Request.SignedAt (r : Request) (n : Nat) (a : AccountId) : Prop where
  listed : r.Lists n a
  signedBy : r.SignedBy a

/-- The token accounts of an instruction of `user`: one of its own, and the vault. -/
structure Chain.TokensOf (c : Chain) (s : Anchor) (user : AccountId)
    (account vault : TokenAccount) : Prop where
  owned : account.owner = user
  listed : c.tokens.account? account.address = some account
  kept : vault.owner = Address.vaultAuthorityId
  vaulted : c.tokens.account? s.stakeVault = some vault

section Checks

variable {c : Chain} {role : AccountRole} {o : Option AccountRef} {ref : AccountRef}

theorem presentSigner_eq_ok {a : AccountId} (h : presentSigner o = .ok (ref, a)) :
    o = some ref ∧ ref.address = .key a ∧ ref.signer = true := by
  simp only [presentSigner, present, bind_eq_ok_iff, found_eq_ok_iff] at h
  obtain ⟨ref', rfl, h⟩ := h
  split at h
  · next hsigner haddress =>
      cases h
      exact ⟨rfl, haddress, hsigner⟩
  · cases h

theorem signedAt_of_presentSigner {r : Request} {n : Nat} {a : AccountId}
    (h : presentSigner (AccountRef.merge r.accounts)[n]? = .ok (ref, a)) : r.SignedAt n a := by
  obtain ⟨hget, haddress, hsigner⟩ := presentSigner_eq_ok h
  exact ⟨lists_of_getElem?_merge hget haddress,
    signedBy_of_mem_merge (List.mem_of_getElem? hget) haddress hsigner⟩

@[simp] theorem liftStaking_eq_ok_iff {α : Type} {x : Except StakingError α} {a : α} :
    liftStaking x = .ok a ↔ x = .ok a := by
  cases x <;> simp [liftStaking]

theorem account?_of_holding {address : Address} {t : TokenAccount}
    (h : c.holding address = .token t) :
    address = .key t.address ∧ c.tokens.account? t.address = some t := by
  cases address with
  | key a =>
      simp only [Chain.holding] at h
      split at h
      · next haccount =>
          cases h
          obtain rfl := TokenBook.address_of_account? haccount
          exact ⟨rfl, haccount⟩
      · cases h
      · split at h
        · cases h
        · split at h <;> cases h
  | anchor =>
      simp only [Chain.holding] at h
      cases hdata : c.anchorData <;> simp [hdata] at h
  | record index =>
      simp only [Chain.holding] at h
      cases hdata : c.recordData? index <;> simp [hdata] at h
  | programData => cases h

theorem presentToken_eq_ok {t : TokenAccount} (h : c.presentToken role o = .ok (ref, t)) :
    o = some ref ∧ ref.address = .key t.address ∧ c.tokens.account? t.address = some t := by
  simp only [Chain.presentToken, present, bind_eq_ok_iff, found_eq_ok_iff] at h
  obtain ⟨ref', rfl, h⟩ := h
  split at h
  · next hholding =>
      cases h
      exact ⟨rfl, account?_of_holding hholding⟩
  · cases h
  · cases h
  · cases h

theorem lists_of_presentToken {r : Request} {n : Nat} {t : TokenAccount}
    (h : c.presentToken role (AccountRef.merge r.accounts)[n]? = .ok (ref, t)) :
    r.Lists n t.address := by
  obtain ⟨hget, haddress, -⟩ := presentToken_eq_ok h
  exact lists_of_getElem?_merge hget haddress

theorem mint_of_holding {address : Address} {m : Mint} (h : c.holding address = .mint m) :
    address = .key m.address ∧ c.mints.find? (·.address = m.address) = some m := by
  cases address with
  | key a =>
      simp only [Chain.holding] at h
      split at h
      · cases h
      · next hmint =>
          cases h
          have hsame := List.find?_some hmint
          obtain rfl : m.address = a := of_decide_eq_true hsame
          exact ⟨rfl, hmint⟩
      · split at h
        · cases h
        · split at h <;> cases h
  | anchor =>
      simp only [Chain.holding] at h
      cases hdata : c.anchorData <;> simp [hdata] at h
  | record index =>
      simp only [Chain.holding] at h
      cases hdata : c.recordData? index <;> simp [hdata] at h
  | programData => cases h

theorem presentMint_eq_ok {r : Request} {n : Nat} {m : Mint}
    (h : c.presentMint (AccountRef.merge r.accounts)[n]? = .ok m) :
    r.Lists n m.address ∧ c.mints.find? (·.address = m.address) = some m := by
  simp only [Chain.presentMint, present, bind_eq_ok_iff, found_eq_ok_iff] at h
  obtain ⟨ref, hget, h⟩ := h
  split at h
  · next hholding =>
      cases h
      obtain ⟨haddress, hlisted⟩ := mint_of_holding hholding
      exact ⟨lists_of_getElem?_merge hget haddress, hlisted⟩
  · cases h
  · cases h
  · cases h

theorem anchorData_of_holding {data : Bytes} (h : c.holding .anchor = .own data) :
    c.anchorData = some data := by
  simp only [Chain.holding] at h
  cases hdata : c.anchorData with
  | none => simp [hdata] at h
  | some data' => simpa [hdata] using h

theorem presentAnchor_eq_ok {s : Anchor} (h : c.presentAnchor o = .ok (ref, s))
    (haddress : ref.address = .anchor) : c.anchor? = some s := by
  simp only [Chain.presentAnchor, present, bind_eq_ok_iff, found_eq_ok_iff] at h
  obtain ⟨ref', rfl, h⟩ := h
  split at h
  · next data hholding =>
      split at h
      · next hload =>
          cases h
          rw [haddress] at hholding
          rw [Chain.anchor?, anchorData_of_holding hholding, Option.bind_some, hload]
          rfl
      · cases h
  · cases h
  · cases h

theorem demandOwnAnchor_eq_ok {u : Unit} (h : demandOwnAnchor ref = .ok u) :
    ref.address = .anchor := by
  simp only [demandOwnAnchor, demandAddress, bind_eq_ok_iff, require_eq_ok_iff] at h
  obtain ⟨_, haddress, -⟩ := h
  exact haddress

theorem holding_of_demandCreatable {a : Address} {u : Unit}
    (h : c.demandCreatable role ref a = .ok u) : c.holding a = .vacant := by
  simp only [Chain.demandCreatable, bind_eq_ok_iff] at h
  obtain ⟨-, -, h⟩ := h
  split at h
  · next hholding => exact hholding
  · cases h

theorem demandCreatable_anchor_eq_ok {u : Unit}
    (h : c.demandCreatable role ref .anchor = .ok u) : c.anchorData = none := by
  have hholding := holding_of_demandCreatable h
  simp only [Chain.holding] at hholding
  cases hdata : c.anchorData with
  | none => rfl
  | some data => simp [hdata] at hholding

theorem demandCreatable_record_eq_ok {index : UInt64} {u : Unit}
    (h : c.demandCreatable role ref (.record index) = .ok u) : c.recordData? index = none := by
  have hholding := holding_of_demandCreatable h
  simp only [Chain.holding] at hholding
  cases hdata : c.recordData? index with
  | none => rfl
  | some data => simp [hdata] at hholding

/-- The vault of an instruction is the vault of the anchor, and belongs to the vault authority. -/
theorem vault_of_demands {s : Anchor} {vault : TokenAccount} {authority : AccountRef} {u u' : Unit}
    (hvault : c.presentToken .stakeVault o = .ok (ref, vault))
    (hdemand : demandVault s ref vault authority = .ok u)
    (hauthority : demandAddress .vaultAuthority authority .vaultAuthority = .ok u') :
    vault.owner = Address.vaultAuthorityId ∧ c.tokens.account? s.stakeVault = some vault := by
  obtain ⟨-, -, hlisted⟩ := presentToken_eq_ok hvault
  simp only [demandVault, bind_eq_ok_iff, require_eq_ok_iff] at hdemand
  obtain ⟨_, -, _, haddress, _, howner, -⟩ := hdemand
  rw [demandAddress, require_eq_ok_iff] at hauthority
  exact ⟨Address.key.inj (howner.trans hauthority), haddress ▸ hlisted⟩

theorem demandUserAccount_eq_ok {s : Anchor} {account : TokenAccount} {user : AccountId} {u : Unit}
    (h : demandUserAccount s ref account user = .ok u) : account.owner = user := by
  simp only [demandUserAccount, bind_eq_ok_iff, require_eq_ok_iff] at h
  obtain ⟨_, -, _, howner, -⟩ := h
  exact howner

theorem tokensOf_of_demands {s : Anchor} {user : AccountId} {account vault : TokenAccount}
    {authority userRef : AccountRef} {o' : Option AccountRef} {u u' u'' : Unit}
    (haccount : c.presentToken .userTokenAccount o' = .ok (userRef, account))
    (huser : demandUserAccount s userRef account user = .ok u'')
    (hvault : c.presentToken .stakeVault o = .ok (ref, vault))
    (hdemand : demandVault s ref vault authority = .ok u)
    (hauthority : demandAddress .vaultAuthority authority .vaultAuthority = .ok u') :
    c.TokensOf s user account vault := by
  obtain ⟨kept, vaulted⟩ := vault_of_demands hvault hdemand hauthority
  exact ⟨demandUserAccount_eq_ok huser, (presentToken_eq_ok haccount).2.2, kept, vaulted⟩

end Checks

namespace Chain

variable {c : Chain} {r : Request} {s : Anchor} {mint : Mint} {account vault : TokenAccount}
  {signer : AccountId}

/-- The accounts with which the anchor can be created. -/
structure CreationAccounts (c : Chain) (r : Request) (mint : Mint) (vault : TokenAccount)
    (signer : AccountId) : Prop where
  vacant : c.anchorData = none
  signed : r.SignedAt 4 signer
  vaultAt : r.Lists 2 vault.address
  vaultListed : c.tokens.account? vault.address = some vault
  vaultOwner : vault.owner = signer ∨ vault.owner = Address.vaultAuthorityId
  mintAt : r.Lists 3 mint.address
  mintListed : c.mints.find? (·.address = mint.address) = some mint

structure DepositAccounts (c : Chain) (r : Request) (s : Anchor) (signer : AccountId)
    (account vault : TokenAccount) : Prop extends c.TokensOf s signer account vault where
  loaded : c.anchor? = some s
  signed : r.SignedAt 5 signer
  untaken : c.recordData? s.history.next = none

structure WithdrawalAccounts (c : Chain) (r : Request) (s : Anchor) (signer : AccountId)
    (account vault : TokenAccount) : Prop extends c.TokensOf s signer account vault where
  loaded : c.anchor? = some s
  signed : r.SignedAt 4 signer
  vaultAt : r.Lists 1 vault.address
  vaultListed : c.tokens.account? vault.address = some vault
  accountAt : r.Lists 3 account.address

theorem create_check_eq_ok
    (h : create.check c (AccountRef.merge r.accounts) = .ok (mint, vault, signer)) :
    c.CreationAccounts r mint vault signer := by
  simp only [create.check, bind_eq_ok_iff, require_eq_ok_iff, pure_eq_ok_iff, Prod.mk.injEq] at h
  obtain ⟨anchor, -, authority, -, ⟨vaultRef, vault⟩, hvault, mint, hmint, ⟨signerRef, signer⟩,
    hsigner, _, -, _, -, programData, -, _, hvacant, _, -, _, -, _, -, _, howner, _, -, _, -, rfl,
    rfl, rfl⟩ := h
  obtain ⟨mintAt, mintListed⟩ := presentMint_eq_ok hmint
  exact {
    vacant := demandCreatable_anchor_eq_ok hvacant
    signed := signedAt_of_presentSigner hsigner
    vaultAt := lists_of_presentToken hvault
    vaultListed := (presentToken_eq_ok hvault).2.2
    vaultOwner := howner
    mintAt
    mintListed }

theorem manage_check_eq_ok (h : manage.check c (AccountRef.merge r.accounts) = .ok (s, signer)) :
    c.anchor? = some s ∧ r.SignedAt 1 signer := by
  simp only [manage.check, bind_eq_ok_iff, pure_eq_ok_iff, Prod.mk.injEq] at h
  obtain ⟨⟨anchor, s⟩, hanchor, ⟨ref, signer⟩, hsigner, _, -, _, hown, _, -, rfl, rfl⟩ := h
  exact ⟨presentAnchor_eq_ok hanchor (demandOwnAnchor_eq_ok hown),
    signedAt_of_presentSigner hsigner⟩

theorem direct_check_eq_ok (h : direct.check c (AccountRef.merge r.accounts) = .ok (s, signer)) :
    c.anchor? = some s ∧ r.SignedAt 2 signer ∧ c.recordData? s.history.next = none := by
  simp only [direct.check, bind_eq_ok_iff, pure_eq_ok_iff, Prod.mk.injEq] at h
  obtain ⟨⟨anchor, s⟩, hanchor, ref, -, ⟨signerRef, signer⟩, hsigner, _, -, _, hvacant, _, hown, _,
    -, rfl, rfl⟩ := h
  exact ⟨presentAnchor_eq_ok hanchor (demandOwnAnchor_eq_ok hown),
    signedAt_of_presentSigner hsigner, demandCreatable_record_eq_ok hvacant⟩

theorem deposit_check_eq_ok
    (h : deposit.check c (AccountRef.merge r.accounts) = .ok (s, signer, account, vault)) :
    c.DepositAccounts r s signer account vault := by
  simp only [deposit.check, bind_eq_ok_iff, pure_eq_ok_iff, Prod.mk.injEq] at h
  obtain ⟨⟨anchor, s⟩, hanchor, ref, -, ⟨vaultRef, vault⟩, hvault, authority, -,
    ⟨userRef, account⟩, haccount, ⟨signerRef, signer⟩, hsigner, _, -, _, -, _, hvacant, _, hown, _,
    hdemand, _, hauthority, _, huser, _, -, rfl, rfl, rfl, rfl⟩ := h
  exact {
    toTokensOf := tokensOf_of_demands haccount huser hvault hdemand hauthority
    loaded := presentAnchor_eq_ok hanchor (demandOwnAnchor_eq_ok hown)
    signed := signedAt_of_presentSigner hsigner
    untaken := demandCreatable_record_eq_ok hvacant }

theorem withdraw_check_eq_ok
    (h : withdraw.check c (AccountRef.merge r.accounts) = .ok (s, signer, account, vault)) :
    c.WithdrawalAccounts r s signer account vault := by
  simp only [withdraw.check, bind_eq_ok_iff, pure_eq_ok_iff, Prod.mk.injEq] at h
  obtain ⟨⟨anchor, s⟩, hanchor, ⟨vaultRef, vault⟩, hvault, authority, -, ⟨userRef, account⟩,
    haccount, ⟨signerRef, signer⟩, hsigner, _, -, _, -, _, hown, _, hdemand, _, hauthority, _,
    huser, _, -, rfl, rfl, rfl, rfl⟩ := h
  exact {
    toTokensOf := tokensOf_of_demands haccount huser hvault hdemand hauthority
    loaded := presentAnchor_eq_ok hanchor (demandOwnAnchor_eq_ok hown)
    signed := signedAt_of_presentSigner hsigner
    vaultAt := lists_of_presentToken hvault
    vaultListed := (presentToken_eq_ok hvault).2.2
    accountAt := lists_of_presentToken haccount }

end Chain

end AppchainStaking
