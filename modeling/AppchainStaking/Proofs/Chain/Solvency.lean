import AppchainStaking.Proofs.Chain.Shortfall

/-!
# Solvency of the vault

Whatever requests reach the chain, as long as the vault authority signs none of them: no supply
changes, nobody is debited but the vault and the signers, and from the creation of the anchor on the
vault holds its first balance and all that is owed. So no withdrawal finds the vault short.
-/

namespace AppchainStaking

namespace Chain

variable {c c₀ c₁ : Chain} {r : Request} {receipt : Receipt}

/-- A chain that started without an anchor has none, or a backed vault. -/
theorem Reaches.vacant_or_backed (reached : Reaches c₀ c) (vacant : c₀.anchorData = none) :
    c.anchorData = none ∨ ∃ s vault reserve, c.Backed s vault reserve := by
  induction reached with
  | refl => exact .inl vacant
  | step _ unsigned ih =>
      rcases ih with hnone | ⟨s, vault, reserve, hbacked⟩
      · exact (step_effect unsigned).vacant_or_backed hnone
      · obtain ⟨s', vault', hbacked', -⟩ := (step_effect unsigned).backed hbacked
        exact .inr ⟨s', vault', reserve, hbacked'⟩

theorem Reaches.backed {s₁ : Anchor} {vault₁ : TokenAccount} {reserve : Nat}
    (reached : Reaches c₁ c) (h : c₁.Backed s₁ vault₁ reserve) :
    ∃ s vault, c.Backed s vault reserve ∧ vault.address = vault₁.address := by
  induction reached with
  | refl => exact ⟨s₁, vault₁, h, rfl⟩
  | step _ unsigned ih =>
      obtain ⟨s, vault, hbacked, haddress⟩ := ih
      obtain ⟨s', vault', hbacked', haddress'⟩ := (step_effect unsigned).backed hbacked
      exact ⟨s', vault', hbacked', haddress'.trans haddress⟩

theorem Reaches.supply_eq (reached : Reaches c₀ c) (mint : AccountId) :
    c.tokens.supply mint = c₀.tokens.supply mint := by
  induction reached with
  | refl => rfl
  | step _ unsigned ih => exact ((step_effect unsigned).supply_eq mint).trans ih

theorem vacant_of_create {id : String} {template : Template}
    (hdata : Instruction.ofData r.data = .ok (.create id template))
    (h : c.execute r = .ok (receipt, c₁)) : c.anchorData = none ∧ ∃ s, c₁.anchor? = some s := by
  obtain ⟨i, hi, hrun⟩ := execute_eq_ok_iff.1 h
  obtain rfl := Except.ok.inj (hi.symm.trans hdata)
  obtain ⟨s, mint, vault, signer, accounts, -, -, -, hsaved⟩ := create_eq_ok hrun
  exact ⟨accounts.vacant, s, hsaved.saved⟩

theorem ample_of_withdraw (hdata : Instruction.ofData r.data = .ok .withdraw)
    (hc : ∀ s, c.anchor? = some s → ∃ vault reserve, c.Backed s vault reserve) {f : Failure}
    (h : c.execute r = .error f) : f.fault.isShortfall = false := by
  have hrun : c.run (AccountRef.merge r.accounts) r.now .withdraw = .error f := by
    rw [execute, hdata] at h
    exact h
  cases hw : c.withdraw (AccountRef.merge r.accounts) with
  | error fault =>
      rw [run, hw] at hrun
      cases hrun
      exact ample_withdraw hc _ fault hw
  | ok outcome =>
      rw [run, hw] at hrun
      cases hrun

/-- On every chain that started without an anchor no supply has changed, a request debits only the
vault and accounts of its signers, and a withdrawal is never short. From the creation of the anchor
on the vault belongs to the vault authority and holds its first balance and all that is owed. -/
theorem vault_solvent (vacant : c₀.anchorData = none) (reached : Reaches c₀ c) :
    (∀ mint, c.tokens.supply mint = c₀.tokens.supply mint) ∧
      (∀ r : Request, ¬ r.SignedBy Address.vaultAuthorityId →
        ∀ a t, c.tokens.account? a = some t → ∃ t', (c.step r).tokens.account? a = some t' ∧
          (t'.amount < t.amount → c.vault?.map (·.address) = some a ∨ r.SignedBy t.owner)) ∧
      (∀ r : Request, ¬ r.SignedBy Address.vaultAuthorityId →
        Instruction.ofData r.data = .ok .withdraw → ∀ f, c.execute r = .error f →
          f.fault ≠ .token .insufficientFunds ∧
            ∀ role, f.fault ≠ .staking .amountOverflow role) ∧
      ∀ (r : Request) (id template receipt c₁), ¬ r.SignedBy Address.vaultAuthorityId →
        Instruction.ofData r.data = .ok (.create id template) →
        c.execute r = .ok (receipt, c₁) →
          ∃ vault₁, c₁.vault? = some vault₁ ∧ ∀ c₂, Reaches c₁ c₂ →
            ∃ s vault, c₂.Backed s vault vault₁.amount.toNat ∧
              vault.address = vault₁.address := by
  refine ⟨reached.supply_eq, fun r hr a t ht => (step_effect hr).exists_account? ht,
    fun r _ hdata f hf => ?_, fun r id template receipt c₁ hr hdata hcreate => ?_⟩
  · have hbacked : ∀ s, c.anchor? = some s → ∃ vault reserve, c.Backed s vault reserve := by
      intro s loaded
      rcases reached.vacant_or_backed vacant with hnone | ⟨s', vault, reserve, h⟩
      · cases (anchor?_eq_none hnone).symm.trans loaded
      · obtain rfl := Option.some.inj (h.loaded.symm.trans loaded)
        exact ⟨vault, reserve, h⟩
    have hample := ample_of_withdraw hdata hbacked hf
    constructor
    · intro heq
      rw [heq] at hample
      cases hample
    · intro role heq
      rw [heq] at hample
      cases hample
  · obtain ⟨hvacant, s, hs⟩ := vacant_of_create hdata hcreate
    obtain ⟨vault₁, hbacked⟩ := (effect_of_execute hr hcreate).backed_of_vacant hvacant hs
    exact ⟨vault₁, hbacked.vaulted, fun c₂ hreached => hreached.backed hbacked⟩

end Chain

namespace SampleChain

open SampleRun (account owner validator)

def vault : TokenAccount :=
  { address := account 5, mint := account 4, owner := owner, amount := 1000, frozen := false }

def purse : TokenAccount :=
  { address := account 6, mint := account 4, owner := validator, amount := 9000, frozen := false }

/-- The vault of the owner already holds a thousand tokens when the anchor is created. -/
def chain : Chain where
  wallets := [owner, validator]
  mints := [{ address := account 4, decimals := 6 }]
  tokens := [vault, purse]
  programData := [3, 0, 0, 0] ++ Wire.encode ((7 : UInt64), some owner)

def readable (a : Address) : AccountRef := { address := a, signer := false, writable := false }

def writable (a : Address) : AccountRef := { address := a, signer := false, writable := true }

def signing (a : AccountId) : AccountRef := { address := .key a, signer := true, writable := true }

def creation : Request where
  data := (Instruction.create "sample" .barnacleEvm).data
  accounts := [writable .anchor, readable .vaultAuthority, writable (.key vault.address),
    readable (.key vault.mint), signing owner, readable .tokenProgram, readable .systemProgram,
    readable .programData]
  now := 10

def registration : Request where
  data := (Instruction.deposit 6000
    "\x7b\"RegisterValidator\":[\"0x1111111111111111111111111111111111111111\",true]\x7d").data
  accounts := [writable .anchor, writable (.record 0), writable (.key vault.address),
    readable .vaultAuthority, writable (.key purse.address), signing validator,
    readable .tokenProgram, readable .systemProgram]
  now := 11

end SampleChain

theorem Chain.step_eq_of_ok {c c₁ : Chain} {r : Request} {receipt : Receipt}
    (h : c.execute r = .ok (receipt, c₁)) : c.step r = c₁ := by
  rw [step, h]

open SampleChain in
/-- The vault ends with its thousand tokens and the six thousand that the anchor owes. -/
theorem Chain.vault_solvent_sampleChain :
    chain.anchorData = none ∧
      ((chain.step creation).step registration).vault?.map (·.amount) = some 7000 ∧
      ∃ s v, ((chain.step creation).step registration).Backed s v 1000 ∧
        s.liabilities = 6000 := by
  have hfirst : (chain.step creation).vault?.map (·.amount) = some 1000 := by decide +kernel
  have hlast : ((chain.step creation).step registration).vault?.map (·.amount) = some 7000 := by
    decide +kernel
  have hdata : Instruction.ofData creation.data = .ok (.create "sample" .barnacleEvm) := by
    rfl
  have hsome : (chain.execute creation).toOption.isSome := by decide +kernel
  obtain ⟨⟨receipt, c₁⟩, hexecute⟩ := Option.isSome_iff_exists.1 hsome
  rw [toOption_eq_some_iff] at hexecute
  have hstep := step_eq_of_ok hexecute
  obtain ⟨-, -, -, hinitialized⟩ := vault_solvent (show chain.anchorData = none from rfl) .refl
  obtain ⟨vault₁, hvault₁, hlater⟩ :=
    hinitialized creation _ _ receipt c₁ (by decide) hdata hexecute
  rw [hstep, hvault₁] at hfirst
  have hreserve : vault₁.amount = 1000 := Option.some.inj hfirst
  obtain ⟨s, v, hbacked, -⟩ := hlater _ (.step .refl (r := registration) (by decide))
  rw [← hstep, hreserve] at hbacked
  refine ⟨rfl, hlast, s, v, hbacked, ?_⟩
  rw [hbacked.vaulted] at hlast
  have hamount : v.amount = 7000 := Option.some.inj hlast
  have hcovered : (7000 : Amount).toNat = (1000 : Amount).toNat + s.liabilities :=
    hamount ▸ hbacked.covered
  exact (Nat.add_left_cancel hcovered).symm

end AppchainStaking
