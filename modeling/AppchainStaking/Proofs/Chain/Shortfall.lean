import AppchainStaking.Proofs.Chain.Backing
import AppchainStaking.Proofs.Chain.Denial

/-!
# Withdrawals are never short

Two failures of a withdrawal would mean that the vault is short: that it lacks tokens, and that the
sum of what is due is out of range. No check of an instruction fails in these ways, and on a backed
vault the withdrawal itself does not either.
-/

namespace AppchainStaking

/-- The vault lacks tokens, or an amount is out of range. -/
def Fault.isShortfall : Fault → Bool
  | .token .insufficientFunds | .staking .amountOverflow _ => true
  | _ => false

def Ample {α : Type} (x : Except Fault α) : Prop :=
  ∀ f, x = .error f → f.isShortfall = false

theorem Fault.isShortfall_of_isDenial {f : Fault} (h : f.isDenial) : f.isShortfall = false := by
  cases f with
  | staking e role =>
      simp only [isDenial, List.mem_cons, List.not_mem_nil, or_false, decide_eq_true_eq] at h
      rcases h with rfl | rfl | rfl | rfl <;> rfl
  | access | invalidTokenData | accountInUse => rfl
  | token => cases h

section Attempts

variable {α β : Type} {x : Except Fault α}

theorem Ample.bind {g : α → Except Fault β} (hx : Ample x)
    (hg : ∀ a, x = .ok a → Ample (g a)) : Ample (x >>= g) :=
  FailsBy.bind hx hg

theorem Denies.ample (h : Denies x) : Ample x :=
  FailsBy.mono h fun _ => Fault.isShortfall_of_isDenial

theorem ample_saveAnchor {c : Chain} {s s' : Anchor} : Ample (c.saveAnchor s s') :=
  FailsBy.bind (failsBy_found rfl) fun _ _ => failsBy_ok _

end Attempts

theorem TokenBook.transfer_ne_insufficientFunds {book : TokenBook} {source target : TokenAccount}
    {authority : AccountId} {amount : Amount} (h : amount ≤ source.amount) :
    book.transfer source target authority amount ≠ .error .insufficientFunds := by
  intro herror
  simp only [transfer, bind_eq_error_iff, require_eq_error_iff, h, not_true, false_and,
    reduceCtorEq, and_false, false_or] at herror
  obtain ⟨_, -, _, -, _, -, _, -, herror⟩ := herror
  split at herror
  · cases herror
  · simp only [bind_eq_error_iff, require_eq_error_iff, reduceCtorEq, and_false, false_or] at herror
    obtain ⟨_, -, herror⟩ := herror
    cases herror

theorem Anchor.due_le_liabilities (s : Anchor) (a : AccountId) :
    s.unbonding.due a s.era ≤ s.liabilities := by
  have hdue := s.unbonding.due_le_pendingOf a s.era
  have hheld := s.heldBy_all
  unfold heldBy at hheld
  omega

namespace Anchor

variable {ε τ : Type} {s s' : Anchor} {a : AccountId} {transfer : Amount → Except ε τ}

theorem withdraw_eq_refused {e : StakingError} (hdue : s.unbonding.due a s.era < UInt64.size)
    (h : s.withdraw a transfer = (.refused e, s')) : e = .transfersPaused := by
  rw [withdraw_eq] at h
  split at h
  · next w hpayment =>
      cases h
      unfold payment at hpayment
      split at hpayment
      · cases hpayment
        rfl
      · rw [if_neg (Nat.not_le.2 hdue)] at hpayment
        split at hpayment <;> cases hpayment
  · next amount _ =>
      cases ht : transfer amount <;> rw [ht] at h <;> cases h

theorem withdraw_eq_rejected {amount : Amount} {reason : ε}
    (h : s.withdraw a transfer = (.rejected amount reason, s')) :
    s.unbonding.due a s.era = amount.toNat ∧ transfer amount = .error reason := by
  rw [withdraw_eq] at h
  split at h
  · next w hw =>
      cases h
      cases transferred?_eq_none hw
  · next amount' hpayment =>
      cases ht : transfer amount' with
      | error e =>
          rw [ht] at h
          cases h
          exact ⟨(payment_eq_ok_iff.1 hpayment).2.1, ht⟩
      | ok receipt =>
          rw [ht] at h
          cases h

end Anchor

namespace Chain

variable {c : Chain} {s : Anchor} {vault : TokenAccount} {reserve : Nat}

/-- A withdrawal from a backed vault has all it needs. -/
theorem ample_withdraw (hc : ∀ s, c.anchor? = some s → ∃ vault reserve, c.Backed s vault reserve)
    (r : Request) : Ample (c.withdraw (AccountRef.merge r.accounts)) := by
  -- Before the withdrawal only checks can fail, and none of them by a shortfall.
  refine denies_withdraw_check.ample.bind fun ⟨s, signer, account, vault⟩ hcheck => ?_
  have accounts := withdraw_check_eq_ok hcheck
  obtain ⟨vault', reserve, hbacked⟩ := hc s accounts.loaded
  obtain rfl : vault = vault' := by
    have hvaulted := hbacked.vaulted
    rw [vault?_eq accounts.loaded, accounts.vaulted] at hvaulted
    exact Option.some.inj hvaulted
  have hcovered : s.unbonding.due signer s.era ≤ vault.amount.toNat := by
    have hdue := s.due_le_liabilities signer
    have hamount := hbacked.covered
    omega
  dsimp only
  split
  · next e _ hw =>
      have hlt := Nat.lt_of_le_of_lt hcovered vault.amount.toNat_lt_size
      obtain rfl := Anchor.withdraw_eq_refused hlt hw
      exact failsBy_error rfl
  · next amount e _ hw =>
      obtain ⟨hdue, herror⟩ := Anchor.withdraw_eq_rejected hw
      have hle : amount ≤ vault.amount := UInt64.le_iff_toNat_le.2 (hdue ▸ hcovered)
      refine failsBy_error ?_
      cases e with
      | insufficientFunds => exact absurd herror (TokenBook.transfer_ne_insufficientFunds hle)
      | mintMismatch | ownerMismatch | overflow | frozen => rfl
  · exact ample_saveAnchor.bind fun _ _ => failsBy_ok _
  · exact ample_saveAnchor.bind fun _ _ => failsBy_ok _

end Chain

end AppchainStaking
