import AppchainStaking.Amount
import AppchainStaking.FirstMatch

/-!
# Exact totals

How the total of a list of amounts changes when a record is appended, and when the first match is
changed or removed. A sum computed with checks is the exact total, and it is refused only when the
total is out of range.
-/

namespace AppchainStaking.Amount

variable {α : Type}

@[simp] theorem total_nil : total [] = 0 := rfl

@[simp] theorem total_cons (a : Amount) (as : List Amount) :
    total (a :: as) = a.toNat + total as := rfl

@[simp] theorem total_append (as bs : List Amount) : total (as ++ bs) = total as + total bs := by
  induction as with
  | nil => simp
  | cons a as ih => simp [ih, Nat.add_assoc]

theorem total_perm {as bs : List Amount} (h : as.Perm bs) : total as = total bs := by
  induction h with
  | nil => rfl
  | cons a _ ih => rw [total_cons, total_cons, ih]
  | swap a b as => simp only [total_cons, Nat.add_left_comm]
  | trans _ _ ih ih' => exact ih.trans ih'

theorem total_eq_zero_iff {as : List Amount} : total as = 0 ↔ ∀ a ∈ as, a = 0 := by
  induction as with
  | nil => simp
  | cons a as ih =>
      have hzero : a.toNat = 0 ↔ a = 0 := UInt64.toNat_inj (b := 0)
      rw [total_cons, Nat.add_eq_zero_iff, hzero, ih, List.forall_mem_cons]

theorem total_map_updateFirst {p : α → Bool} {f : α → α} {x : α} {xs : List α} (g : α → Amount)
    (h : xs.find? p = some x) :
    total ((updateFirst p f xs).map g) + (g x).toNat =
      total (xs.map g) + (g (f x)).toNat := by
  induction xs with
  | nil => simp at h
  | cons y ys ih =>
      by_cases hy : p y
      · obtain rfl : y = x := by simpa [hy] using h
        simp only [updateFirst, hy, if_true, List.map_cons, total_cons]
        omega
      · have hys := ih (by simpa [hy] using h)
        simp only [updateFirst, hy, Bool.false_eq_true, if_false, List.map_cons, total_cons]
        omega

theorem total_map_eraseP {p : α → Bool} {x : α} {xs : List α} (g : α → Amount)
    (h : xs.find? p = some x) :
    total ((xs.eraseP p).map g) + (g x).toNat = total (xs.map g) := by
  induction xs with
  | nil => simp at h
  | cons y ys ih =>
      by_cases hy : p y
      · obtain rfl : y = x := by simpa [hy] using h
        rw [List.eraseP_cons_of_pos hy, List.map_cons, total_cons]
        omega
      · have hys := ih (by simpa [hy] using h)
        rw [List.eraseP_cons_of_neg hy, List.map_cons, List.map_cons, total_cons, total_cons]
        omega

theorem total_map_ite (p : α → Bool) (g : α → Amount) (xs : List α) :
    total (xs.map fun x => if p x then g x else 0) = total ((xs.filter p).map g) := by
  induction xs with
  | nil => rfl
  | cons x xs ih => by_cases hx : p x <;> simp [hx, ih]

/-- The checked sum is the exact total, whenever that is in range. -/
theorem sum_eq_ok_iff {as : List Amount} {d : Amount} : sum as = .ok d ↔ total as = d.toNat := by
  suffices h : ∀ a : Amount, as.foldlM add a = .ok d ↔ a.toNat + total as = d.toNat by
    simpa [sum] using h 0
  induction as with
  | nil => simp [UInt64.toNat_inj]
  | cons b bs ih =>
      intro a
      rw [List.foldlM_cons, bind_eq_ok_iff, total_cons]
      constructor
      · rintro ⟨c, hc, hd⟩
        have := add_eq_ok_iff.1 hc
        have := (ih c).1 hd
        omega
      · intro h
        have hd := d.toNat_lt_size
        have hc : (UInt64.ofNat (a.toNat + b.toNat)).toNat = a.toNat + b.toNat :=
          UInt64.toNat_ofNat_of_lt' (by omega)
        refine ⟨.ofNat (a.toNat + b.toNat), add_eq_ok_iff.2 hc.symm, (ih _).2 ?_⟩
        omega

theorem sum_of_total_lt {as : List Amount} (h : total as < UInt64.size) :
    sum as = .ok (.ofNat (total as)) :=
  sum_eq_ok_iff.2 (UInt64.toNat_ofNat_of_lt' h).symm

theorem sum_of_le_total {as : List Amount} (h : UInt64.size ≤ total as) :
    sum as = .error .amountOverflow := by
  suffices hs : ∀ a : Amount, UInt64.size ≤ a.toNat + total as →
      as.foldlM add a = .error .amountOverflow by
    simpa [sum] using hs 0 (by simpa using h)
  -- What is left is about sums from any start.
  clear h
  induction as with
  | nil =>
      intro a ha
      have := a.toNat_lt_size
      simp at ha
      omega
  | cons b bs ih =>
      intro a ha
      rw [total_cons] at ha
      rw [List.foldlM_cons]
      by_cases hc : a.toNat + b.toNat < UInt64.size
      · have hab : a.add b = .ok (.ofNat (a.toNat + b.toNat)) :=
          add_eq_ok_iff.2 (UInt64.toNat_ofNat_of_lt' hc).symm
        rw [hab]
        refine ih _ ?_
        rw [UInt64.toNat_ofNat_of_lt' hc]
        omega
      · simp [add, hc, bind, Except.bind]

end AppchainStaking.Amount
