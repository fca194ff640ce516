import AppchainStaking.Anchor.Basic
import AppchainStaking.Chain.Address
import AppchainStaking.Proofs.Chain.Tokens

/-!
# Settling an operation

Tokens follow an operation on the anchor: what it takes in comes from an account of the caller into
the vault, and what it pays out goes from the vault to the caller. As the caller is not the vault
authority, the two accounts differ. So the vault gains what is taken and loses what is paid, every
supply stays, and nobody else is debited.
-/

namespace AppchainStaking

/-- How the token accounts follow an operation of `caller` that takes in and pays out stake. -/
inductive Settlement (s : Anchor) (caller : AccountId) (book : TokenBook) :
    Amount → Amount → TokenBook → Prop
  | idle : Settlement s caller book 0 0 book
  | taken {account vault : TokenAccount} {amount : Amount} {book' : TokenBook}
      (owned : account.owner = caller)
      (listed : book.account? account.address = some account)
      (vaulted : book.account? s.stakeVault = some vault)
      (moved : book.Moved account vault amount book') :
      Settlement s caller book amount 0 book'
  | paid {account vault : TokenAccount} {amount : Amount} {book' : TokenBook}
      (owned : account.owner = caller)
      (listed : book.account? account.address = some account)
      (vaulted : book.account? s.stakeVault = some vault)
      (moved : book.Moved vault account amount book') :
      Settlement s caller book 0 amount book'

namespace Settlement

variable {s : Anchor} {caller a : AccountId} {book book' : TokenBook} {taken paid amount : Amount}
  {t account vault : TokenAccount}

theorem address_ne (hcaller : caller ≠ Address.vaultAuthorityId) (owned : account.owner = caller)
    (listed : book.account? account.address = some account)
    (kept : vault.owner = Address.vaultAuthorityId)
    (vaulted : book.account? vault.address = some vault) : account.address ≠ vault.address := by
  intro heq
  rw [heq, vaulted] at listed
  obtain rfl := Option.some.inj listed
  exact hcaller (owned.symm.trans kept)

theorem taken_of_transfer (hcaller : caller ≠ Address.vaultAuthorityId)
    (owned : account.owner = caller)
    (listed : book.account? account.address = some account)
    (kept : vault.owner = Address.vaultAuthorityId)
    (vaulted : book.account? s.stakeVault = some vault)
    (accepted : book.transfer account vault caller amount = .ok book') :
    Settlement s caller book amount 0 book' := by
  have hvault : book.account? vault.address = some vault :=
    (TokenBook.address_of_account? vaulted).symm ▸ vaulted
  have hne := address_ne hcaller owned listed kept hvault
  exact .taken owned listed vaulted (TokenBook.moved_of_transfer listed hvault hne accepted)

theorem paid_of_transfer (hcaller : caller ≠ Address.vaultAuthorityId)
    (owned : account.owner = caller)
    (listed : book.account? account.address = some account)
    (kept : vault.owner = Address.vaultAuthorityId)
    (vaulted : book.account? s.stakeVault = some vault)
    (accepted : book.transfer vault account Address.vaultAuthorityId amount = .ok book') :
    Settlement s caller book 0 amount book' := by
  have hvault : book.account? vault.address = some vault :=
    (TokenBook.address_of_account? vaulted).symm ▸ vaulted
  have hne := address_ne hcaller owned listed kept hvault
  exact .paid owned listed vaulted (TokenBook.moved_of_transfer hvault listed hne.symm accepted)

/-- The vault gains what is taken and loses what is paid, and keeps its owner. -/
theorem vault_eq (h : Settlement s caller book taken paid book')
    (hvault : book.account? s.stakeVault = some vault) :
    ∃ vault', book'.account? s.stakeVault = some vault' ∧ vault'.owner = vault.owner ∧
      vault'.amount.toNat + paid.toNat = vault.amount.toNat + taken.toNat := by
  rw [← TokenBook.address_of_account? hvault]
  cases h with
  | idle => exact ⟨vault, (TokenBook.address_of_account? hvault).symm ▸ hvault, rfl, rfl⟩
  | taken _ _ vaulted moved =>
      obtain rfl := Option.some.inj (hvault.symm.trans vaulted)
      exact ⟨_, moved.credited, rfl, moved.received⟩
  | paid _ _ vaulted moved =>
      obtain rfl := Option.some.inj (hvault.symm.trans vaulted)
      exact ⟨_, moved.debited, rfl, moved.spent⟩

theorem supply_eq (h : Settlement s caller book taken paid book') (mint : AccountId) :
    book'.supply mint = book.supply mint := by
  cases h with
  | idle => rfl
  | taken _ _ _ moved => exact moved.supply mint
  | paid _ _ _ moved => exact moved.supply mint

/-- Accounts stay, and only the vault and accounts of the caller are debited. -/
theorem exists_account? (h : Settlement s caller book taken paid book')
    (ht : book.account? a = some t) :
    ∃ t', book'.account? a = some t' ∧
      (t'.amount < t.amount → a = s.stakeVault ∨ t.owner = caller) := by
  cases h with
  | idle => exact ⟨t, ht, fun hlt => absurd hlt (UInt64.lt_irrefl _)⟩
  | @taken account vault _ _ owned listed vaulted moved =>
      have hvault := (TokenBook.address_of_account? vaulted).symm ▸ vaulted
      obtain ⟨t', ht', hsource⟩ := moved.exists_account? hvault ht
      refine ⟨t', ht', fun hlt => .inr ?_⟩
      rw [hsource hlt, listed] at ht
      rw [← Option.some.inj ht, owned]
  | @paid account vault _ _ owned listed vaulted moved =>
      obtain ⟨t', ht', hsource⟩ := moved.exists_account? listed ht
      refine ⟨t', ht', fun hlt => .inl ?_⟩
      rw [hsource hlt, TokenBook.address_of_account? vaulted]

end Settlement

end AppchainStaking
