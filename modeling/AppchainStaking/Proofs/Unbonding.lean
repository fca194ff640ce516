import AppchainStaking.Proofs.Grouped
import AppchainStaking.Proofs.Ledger.Stake
import AppchainStaking.Unbonding

/-!
# Stake on its way out

What a set of accounts has pending in the queue, and what is due to one account in an era, both as
exact totals. A withdrawal is determined by the exact amount due: it pays that amount or nothing,
and only a payment changes the queue.
-/

namespace AppchainStaking.UnbondingQueue

variable {ε τ : Type} {q : UnbondingQueue} {a : AccountId} {era : UInt64}

/-- What the accounts in `who` have in the queue, matured or not. -/
def pendingOf (q : UnbondingQueue) (who : AccountId → Bool) : Nat :=
  Amount.total (q.pairs.map fun p => share who p.1 p.2.amount)

def matured (q : UnbondingQueue) (a : AccountId) (era : UInt64) : List UnbondedEntry :=
  (q.of a).filter (·.isMature era)

/-- The exact total of the matured entries of an account. -/
def due (q : UnbondingQueue) (a : AccountId) (era : UInt64) : Nat :=
  Amount.total ((q.matured a era).map (·.amount))

theorem total_map_share (who : AccountId → Bool) (a : AccountId) (es : List UnbondedEntry) :
    Amount.total ((es.map (a, ·)).map fun p => share who p.1 p.2.amount) =
      if who a then Amount.total (es.map (·.amount)) else 0 := by
  induction es with
  | nil => simp
  | cons e es ih =>
      rw [List.map_cons, List.map_cons, List.map_cons, Amount.total_cons, Amount.total_cons,
        toNat_share, ih]
      split <;> rfl

theorem pendingOf_cons (g : Group UnbondedEntry) (q : UnbondingQueue) (who : AccountId → Bool) :
    pendingOf (g :: q) who =
      (if who g.account then Amount.total (g.items.map (·.amount)) else 0) + pendingOf q who := by
  rw [pendingOf, Grouped.pairs_cons, List.map_append, Amount.total_append, total_map_share]
  rfl

theorem pendingOf_push (q : UnbondingQueue) (a : AccountId) (e : UnbondedEntry)
    (who : AccountId → Bool) :
    pendingOf (q.push a e) who = pendingOf q who + (share who a e.amount).toNat := by
  have hperm := (q.pairs_push_perm a e).map fun p => share who p.1 p.2.amount
  rw [pendingOf, Amount.total_perm hperm, List.map_cons, Amount.total_cons, Nat.add_comm]
  rfl

/-- Dropping the matured entries of an account takes what is due to it out of the queue. -/
theorem pendingOf_drop (q : UnbondingQueue) (a : AccountId) (era : UInt64)
    (who : AccountId → Bool) :
    pendingOf (Grouped.drop (·.isMature era) q a) who + (if who a then q.due a era else 0) =
      pendingOf q who := by
  have hperm := (q.pairs_drop_perm (·.isMature era) a).map fun p => share who p.1 p.2.amount
  rw [pendingOf, pendingOf, ← Amount.total_perm hperm, List.map_append, Amount.total_append,
    total_map_share]
  rfl

theorem pendingOf_single (h : Grouped.Unique q) (a : AccountId) :
    pendingOf q (· = a) = Amount.total ((q.of a).map (·.amount)) := by
  induction q with
  | nil => rfl
  | cons g q ih =>
      obtain ⟨hg, hq⟩ := List.nodup_cons.1 h
      rw [pendingOf_cons, ih hq]
      by_cases hga : g.account = a
      · subst hga
        simp [Grouped.of, Grouped.of_eq_nil_of_notMem hg]
      · simp [Grouped.of, hga]

theorem due_le_pendingOf (q : UnbondingQueue) (a : AccountId) (era : UInt64) :
    q.due a era ≤ pendingOf q fun _ => true := by
  have h := pendingOf_drop q a era fun _ => true
  simp only [if_true] at h
  omega

/-- A withdrawal is determined by the exact amount that is due. -/
theorem withdrawM_eq {m : Type → Type} [Monad m] (q : UnbondingQueue) (a : AccountId)
    (era : UInt64) (transfer : Amount → m (Except ε τ)) :
    q.withdrawM a era transfer =
      if UInt64.size ≤ q.due a era then pure (.refused .amountOverflow, q)
      else if q.due a era = 0 then pure (.nothingDue, q)
      else do return q.settle a era (.ofNat (q.due a era)) (← transfer (.ofNat (q.due a era))) := by
  by_cases hlt : q.due a era < UInt64.size
  · have hsum : q.maturedAmount a era = .ok (.ofNat (q.due a era)) := Amount.sum_of_total_lt hlt
    -- The code tests the checked sum for zero, which it is exactly when nothing is due.
    have hzero : UInt64.ofNat (q.due a era) = 0 ↔ q.due a era = 0 := by
      rw [← UInt64.toNat_inj, UInt64.toNat_ofNat_of_lt' hlt]
      rfl
    simp only [withdrawM, hsum, Nat.not_le.2 hlt, if_false, hzero]
  · have hsum : q.maturedAmount a era = .error .amountOverflow :=
      Amount.sum_of_le_total (Nat.not_lt.1 hlt)
    simp only [withdrawM, hsum, Nat.not_lt.1 hlt, if_true]

end AppchainStaking.UnbondingQueue
