import AppchainStaking.Proofs.Anchor.Conservation
import AppchainStaking.Proofs.Chain.Effect

/-!
# The vault is backed

From the creation of the anchor on, the vault holds what it held then and all that the anchor owes:
the deposits of validators and delegators and what is on its way out. Every instruction keeps this,
because tokens and stake move together.
-/

namespace AppchainStaking

/-- All deposits and all entries of the queue. -/
def Anchor.liabilities (s : Anchor) : Nat :=
  Amount.total (s.ledger.validators.map (·.deposit)) +
    Amount.total (s.ledger.delegations.map (·.deposit)) +
    Amount.total (s.unbonding.flatMap fun g => g.items.map (·.amount))

theorem Anchor.heldBy_all (s : Anchor) : s.heldBy (fun _ => true) = s.liabilities := by
  have hqueue : s.unbonding.pairs.map (fun p => share (fun _ => true) p.1 p.2.amount) =
      s.unbonding.flatMap fun g => g.items.map (·.amount) := by
    simp only [Grouped.pairs, List.map_flatMap, List.map_map]
    rfl
  rw [heldBy, Ledger.stakeOf, UnbondingQueue.pendingOf, hqueue]
  rfl

theorem Anchor.Effect.liabilities_add_paid {ε τ : Type} {s s' : Anchor} {o : Operation ε τ}
    {reply : Reply ε τ} (h : Effect s o reply s') :
    s'.liabilities + (reply.paid?.getD 0).toNat =
      s.liabilities + (if reply.record?.isSome then o.stake else 0).toNat := by
  have hheld := h.heldBy_add_paid fun _ => true
  rw [heldBy_all, heldBy_all] at hheld
  exact hheld

namespace Chain

def vault? (c : Chain) : Option TokenAccount :=
  c.anchor?.bind fun s => c.tokens.account? s.stakeVault

/-- The vault belongs to the vault authority and holds `reserve` and all that the anchor owes. -/
structure Backed (c : Chain) (s : Anchor) (vault : TokenAccount) (reserve : Nat) : Prop where
  loaded : c.anchor? = some s
  vaulted : c.vault? = some vault
  kept : vault.owner = Address.vaultAuthorityId
  covered : vault.amount.toNat = reserve + s.liabilities

/-- A chain that is reached from `c₀` by requests that the vault authority did not sign. -/
inductive Reaches (c₀ : Chain) : Chain → Prop
  | refl : Reaches c₀ c₀
  | step {c : Chain} {r : Request} (reached : Reaches c₀ c)
      (unsigned : ¬ r.SignedBy Address.vaultAuthorityId) : Reaches c₀ (c.step r)

variable {c c' c₀ : Chain} {r : Request} {s : Anchor} {vault : TokenAccount} {reserve : Nat}

theorem vault?_eq (h : c.anchor? = some s) : c.vault? = c.tokens.account? s.stakeVault := by
  rw [vault?, h]
  rfl

theorem anchor?_eq_none (h : c.anchorData = none) : c.anchor? = none := by
  rw [anchor?, h]
  rfl

theorem Effect.backed (h : Effect c r c') (hc : c.Backed s vault reserve) :
    ∃ s' vault', c'.Backed s' vault' reserve ∧ vault'.address = vault.address := by
  cases h with
  | asked => exact ⟨s, vault, hc, rfl⟩
  | created vacant => cases (anchor?_eq_none vacant).symm.trans hc.loaded
  | @performed _ s₁ s' o reply loaded signed effect settled saved =>
      obtain rfl : s = s₁ := Option.some.inj (hc.loaded.symm.trans loaded)
      have hvault := (vault?_eq loaded).symm.trans hc.vaulted
      obtain ⟨vault', hvault', howner, hamount⟩ := settled.vault_eq hvault
      have hstake := effect.liabilities_add_paid
      have hcovered := hc.covered
      refine ⟨s', vault', ⟨saved, ?_, howner.trans hc.kept, by omega⟩, ?_⟩
      · rw [vault?_eq saved, effect.stakeVault_eq, hvault']
      · rw [TokenBook.address_of_account? hvault', TokenBook.address_of_account? hvault]

/-- When an anchor appears, it is new: its vault is handed over, and nothing is owed yet. -/
theorem Effect.backed_of_vacant (h : Effect c r c') (vacant : c.anchorData = none)
    (hs : c'.anchor? = some s) : ∃ vault, c'.Backed s vault vault.amount.toNat := by
  cases h with
  | asked => cases (anchor?_eq_none vacant).symm.trans hs
  | performed loaded => cases (anchor?_eq_none vacant).symm.trans loaded
  | @created _ s₁ vault _ _ _ _ _ _ _ listed handed fresh saved =>
      obtain rfl : s = s₁ := Option.some.inj (hs.symm.trans saved)
      obtain ⟨hledger, -, hunbonding, -, -, -, -, hplace⟩ := Anchor.new_eq_ok fresh
      have hzero : s.liabilities = 0 := by
        rw [Anchor.liabilities, hledger, hunbonding]
        rfl
      have hvault : c'.tokens.account? vault.address =
          some (vault.ownedBy Address.vaultAuthorityId) := by
        rw [handed]
        exact TokenBook.account?_update_self (TokenAccount.address_ownedBy · _) listed
      refine ⟨vault.ownedBy Address.vaultAuthorityId, saved, ?_, rfl, ?_⟩
      · rw [vault?_eq saved, hplace, hvault]
      · rw [hzero]
        rfl

theorem Effect.supply_eq (h : Effect c r c') (mint : AccountId) :
    c'.tokens.supply mint = c.tokens.supply mint := by
  cases h with
  | asked => rfl
  | created _ listed handed =>
      have hsupply := TokenBook.supply_update
        (TokenAccount.mint_ownedBy · Address.vaultAuthorityId) listed mint
      rw [← handed] at hsupply
      exact Nat.add_right_cancel hsupply
  | performed _ _ _ settled => exact settled.supply_eq mint

/-- An instruction closes no token account, and debits only the vault and accounts of signers. -/
theorem Effect.exists_account? (h : Effect c r c') {a : AccountId} {t : TokenAccount}
    (ht : c.tokens.account? a = some t) :
    ∃ t', c'.tokens.account? a = some t' ∧
      (t'.amount < t.amount → c.vault?.map (·.address) = some a ∨ r.SignedBy t.owner) := by
  cases h with
  | asked => exact ⟨t, ht, fun hlt => absurd hlt (UInt64.lt_irrefl _)⟩
  | @created _ _ vault _ _ _ _ _ _ _ listed handed =>
      rw [handed]
      by_cases hvault : vault.address = a
      · subst hvault
        obtain rfl := Option.some.inj (listed.symm.trans ht)
        have hvault := TokenBook.account?_update_self
          (TokenAccount.address_ownedBy · Address.vaultAuthorityId) listed
        exact ⟨_, hvault, fun hlt => absurd hlt (UInt64.lt_irrefl _)⟩
      · have hother := TokenBook.account?_update_of_ne c.tokens
          (TokenAccount.address_ownedBy · Address.vaultAuthorityId) hvault
        exact ⟨t, hother.trans ht, fun hlt => absurd hlt (UInt64.lt_irrefl _)⟩
  | @performed _ s s' o reply loaded signed effect settled saved =>
      obtain ⟨t', ht', hdebited⟩ := settled.exists_account? ht
      refine ⟨t', ht', fun hlt => (hdebited hlt).imp (fun hplace => ?_) fun howner => ?_⟩
      · rw [vault?_eq loaded, ← hplace, ht, Option.map_some, TokenBook.address_of_account? ht]
      · exact howner ▸ signed

/-- Where there was no anchor there is none, or a backed vault. -/
theorem Effect.vacant_or_backed (h : Effect c r c') (vacant : c.anchorData = none) :
    c'.anchorData = none ∨ ∃ s vault reserve, c'.Backed s vault reserve := by
  cases h with
  | asked => exact .inl vacant
  | performed loaded => cases (anchor?_eq_none vacant).symm.trans loaded
  | @created _ s _ _ _ _ _ _ _ _ listed handed fresh saved =>
      have heffect : Effect c r c' := .created vacant listed handed fresh saved
      obtain ⟨vault, hbacked⟩ := heffect.backed_of_vacant vacant saved
      exact .inr ⟨s, vault, _, hbacked⟩

end Chain

end AppchainStaking
