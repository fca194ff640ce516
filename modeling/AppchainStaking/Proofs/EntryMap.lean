import AppchainStaking.Proofs.Withdrawal
import Mathlib.Logic.Function.Basic

/-!
# The queue as a map

Whoever asks a queue for entries sees a map from accounts to lists of entries. How the queue stores
its accounts does not show, and nothing is stored for an account without entries.
-/

namespace AppchainStaking

abbrev EntryMap := AccountId → List UnbondedEntry

namespace EntryMap

variable {ε τ : Type}

def empty : EntryMap := fun _ => []

def due (m : EntryMap) (a : AccountId) (era : UInt64) : Nat :=
  Amount.total (((m a).filter (·.unlockEra ≤ era)).map (·.amount))

/-- There is something to pay, it is in range, and the transfer accepts it. -/
def Pays (m : EntryMap) (a : AccountId) (era : UInt64) (transfer : Amount → Except ε τ) : Prop :=
  0 < m.due a era ∧ m.due a era < UInt64.size ∧ (transfer (.ofNat (m.due a era))).isOk

instance (m : EntryMap) (a : AccountId) (era : UInt64) (transfer : Amount → Except ε τ) :
    Decidable (m.Pays a era transfer) :=
  inferInstanceAs (Decidable (_ ∧ _ ∧ _))

def handle (m : EntryMap) : QueueRequest ε τ → EntryMap
  | .push a e => Function.update m a (m a ++ [e])
  | .withdraw a era transfer =>
      if m.Pays a era transfer then Function.update m a ((m a).filter (¬·.unlockEra ≤ era)) else m

def run (m : EntryMap) : List (QueueRequest ε τ) → EntryMap
  | [] => m
  | r :: rs => (m.handle r).run rs

end EntryMap

namespace UnbondingQueue

variable {ε τ : Type} {q : UnbondingQueue} {a : AccountId} {era : UInt64}
  {transfer : Amount → Except ε τ}

/-- A withdrawal changes the queue just if the map pays. -/
theorem withdraw_snd_eq_ite (q : UnbondingQueue) (a : AccountId) (era : UInt64)
    (transfer : Amount → Except ε τ) :
    (q.withdraw a era transfer).2 =
      if EntryMap.Pays q.of a era transfer then Grouped.drop (·.isMature era) q a else q := by
  have hpays : EntryMap.Pays q.of a era transfer ↔
      0 < q.due a era ∧ q.due a era < UInt64.size ∧
        (transfer (.ofNat (q.due a era))).isOk := Iff.rfl
  rw [withdraw_eq]
  by_cases overflow : UInt64.size ≤ q.due a era
  · have unpaid : ¬EntryMap.Pays q.of a era transfer := fun h => Nat.not_le.2 h.2.1 overflow
    rw [if_pos overflow, if_neg unpaid]
  by_cases nothing : q.due a era = 0
  · have unpaid : ¬EntryMap.Pays q.of a era transfer := fun h => Nat.ne_of_gt h.1 nothing
    rw [if_neg overflow, if_pos nothing, if_neg unpaid]
  rw [if_neg overflow, if_neg nothing]
  cases htransfer : transfer (.ofNat (q.due a era)) with
  | error reason =>
      have unpaid : ¬EntryMap.Pays q.of a era transfer := by
        rw [hpays, htransfer]
        exact fun h => Bool.false_ne_true h.2.2
      rw [if_neg unpaid, settle]
  | ok receipt =>
      have paid : EntryMap.Pays q.of a era transfer := by
        rw [hpays, htransfer]
        exact ⟨Nat.pos_of_ne_zero nothing, Nat.not_le.1 overflow, rfl⟩
      rw [if_pos paid, settle]

theorem of_push (q : UnbondingQueue) (a : AccountId) (e : UnbondedEntry) :
    Grouped.of (q.push a e) = Function.update q.of a (q.of a ++ [e]) := by
  funext b
  by_cases h : b = a
  · subst h
    rw [Function.update_self, Grouped.of_push_self]
  · rw [Function.update_of_ne h, Grouped.of_push_of_ne _ _ (Ne.symm h)]

theorem of_drop (hq : Grouped.Unique q) (p : UnbondedEntry → Bool) (a : AccountId) :
    Grouped.of (Grouped.drop p q a) = Function.update q.of a ((q.of a).filter (!p ·)) := by
  funext b
  by_cases h : b = a
  · subst h
    rw [Function.update_self, Grouped.of_drop_self (hq.single _)]
  · rw [Function.update_of_ne h, Grouped.of_drop_of_ne _ _ (Ne.symm h)]

theorem filled_handle (hq : Grouped.Filled q) (r : QueueRequest ε τ) :
    Grouped.Filled (q.handle r) := by
  cases r with
  | push a e => exact hq.push a e
  | withdraw a era transfer =>
      rw [handle, withdraw_snd_eq_ite]
      split
      · exact hq.drop _ _
      · exact hq

/-- On a queue that holds no account twice a request acts as on its map. -/
theorem of_handle (hq : Grouped.Unique q) (r : QueueRequest ε τ) :
    Grouped.of (q.handle r) = EntryMap.handle q.of r := by
  cases r with
  | push a e => exact of_push q a e
  | withdraw a era transfer =>
      rw [handle, withdraw_snd_eq_ite, EntryMap.handle]
      split
      · rw [of_drop hq]
        simp only [UnbondedEntry.isMature, decide_not]
      · rfl

theorem filled_run (hq : Grouped.Filled q) (requests : List (QueueRequest ε τ)) :
    Grouped.Filled (q.run requests) := by
  induction requests generalizing q with
  | nil => exact hq
  | cons r rs ih => exact ih (filled_handle hq r)

theorem of_run (hq : Grouped.Unique q) (requests : List (QueueRequest ε τ)) :
    Grouped.of (q.run requests) = EntryMap.run q.of requests := by
  induction requests generalizing q with
  | nil => rfl
  | cons r rs ih =>
      rw [run, EntryMap.run, ih (unique_handle hq r), of_handle hq]

/-- Whatever is asked of a queue that starts empty, it holds no account twice and none without
entries, and it answers for every account as the map does of which the same is asked. -/
theorem implements_map {ε τ : Type} (requests : List (QueueRequest ε τ)) :
    let q : UnbondingQueue := run [] requests
    (q.map (·.account)).Nodup ∧ (∀ g ∈ q, g.items ≠ []) ∧
      ∀ a, q.of a = EntryMap.empty.run requests a := by
  intro q
  refine ⟨unique_run Grouped.unique_nil requests, filled_run Grouped.filled_nil requests, ?_⟩
  exact congrFun (of_run Grouped.unique_nil requests)

end UnbondingQueue

end AppchainStaking
