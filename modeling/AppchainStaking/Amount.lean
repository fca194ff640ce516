import AppchainStaking.Error

/-!
# Amounts of stake

Stake is counted in base units of the stake token, in 64 bits. Sums and differences that leave
that range are refused.
-/

namespace AppchainStaking

abbrev Amount := UInt64

namespace Amount

def add (a b : Amount) : Except StakingError Amount :=
  if a.toNat + b.toNat < UInt64.size then .ok (a + b) else .error .amountOverflow

def sub (a b : Amount) : Except StakingError Amount :=
  if b ≤ a then .ok (a - b) else .error .insufficientStake

theorem add_eq_ok_iff {a b c : Amount} :
    a.add b = .ok c ↔ a.toNat + b.toNat = c.toNat := by
  have hc := c.toNat_lt_size
  unfold add
  split
  · next h =>
      have hab : (a + b).toNat = a.toNat + b.toNat := by
        rw [UInt64.toNat_add]
        exact Nat.mod_eq_of_lt h
      rw [Except.ok.injEq, ← UInt64.toNat_inj, hab]
  · next h =>
      simp only [reduceCtorEq, false_iff]
      omega

theorem sub_eq_ok_iff {a b c : Amount} :
    a.sub b = .ok c ↔ c.toNat + b.toNat = a.toNat := by
  unfold sub
  split
  · next h =>
      have hba : b.toNat ≤ a.toNat := UInt64.le_iff_toNat_le.1 h
      rw [Except.ok.injEq, ← UInt64.toNat_inj, UInt64.toNat_sub_of_le a b h]
      omega
  · next h =>
      have hba : ¬b.toNat ≤ a.toNat := fun hle => h (UInt64.le_iff_toNat_le.2 hle)
      simp only [reduceCtorEq, false_iff]
      omega

def total : List Amount → Nat
  | [] => 0
  | a :: as => a.toNat + total as

/-- The sum of a list, refused as soon as a partial sum is out of range. -/
def sum (amounts : List Amount) : Except StakingError Amount :=
  amounts.foldlM add 0

end Amount

end AppchainStaking
