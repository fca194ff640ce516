import AppchainStaking.Proofs.Unbonding

/-!
# Withdrawals in any order

A withdrawal takes out just what it pays, and it looks at the entries of its own account only. So
an account that withdraws several times gets in all what it would get at the last time, and of two
accounts it does not matter which one withdraws first, even if their transfers fail.
-/

namespace AppchainStaking

inductive QueueRequest (ε τ : Type)
  | push (a : AccountId) (e : UnbondedEntry)
  | withdraw (a : AccountId) (era : UInt64) (transfer : Amount → Except ε τ)

namespace UnbondingQueue

variable {ε τ : Type} {q q' : UnbondingQueue} {a b : AccountId} {era last : UInt64}
  {transfer : Amount → Except ε τ}

def handle (q : UnbondingQueue) : QueueRequest ε τ → UnbondingQueue
  | .push a e => Grouped.push q a e
  | .withdraw a era transfer => (q.withdraw a era transfer).2

def run (q : UnbondingQueue) : List (QueueRequest ε τ) → UnbondingQueue
  | [] => q
  | r :: rs => (q.handle r).run rs

/-- Withdrawals of an account in one era after the other: how each ends, and the queue in the
end. -/
def withdrawals (q : UnbondingQueue) (a : AccountId) (transfer : Amount → Except ε τ) :
    List UInt64 → List (Withdrawal ε τ) × UnbondingQueue
  | [] => ([], q)
  | era :: eras =>
      let (w, q') := q.withdraw a era transfer
      let (ws, q'') := q'.withdrawals a transfer eras
      (w :: ws, q'')

def after (q : UnbondingQueue) (a : AccountId) (era : UInt64) : Withdrawal ε τ → UnbondingQueue
  | .paid _ _ => Grouped.drop (·.isMature era) q a
  | .refused _ | .nothingDue | .rejected _ _ => q

theorem withdraw_eq (q : UnbondingQueue) (a : AccountId) (era : UInt64)
    (transfer : Amount → Except ε τ) :
    q.withdraw a era transfer =
      if UInt64.size ≤ q.due a era then (.refused .amountOverflow, q)
      else if q.due a era = 0 then (.nothingDue, q)
      else q.settle a era (.ofNat (q.due a era)) (transfer (.ofNat (q.due a era))) := by
  rw [withdraw, withdrawM_eq]
  split
  · rfl
  split <;> rfl

theorem withdraw_snd (q : UnbondingQueue) (a : AccountId) (era : UInt64)
    (transfer : Amount → Except ε τ) :
    (q.withdraw a era transfer).2 = q.after a era (q.withdraw a era transfer).1 := by
  rw [withdraw_eq]
  split
  · rfl
  split
  · rfl
  · cases transfer (.ofNat (q.due a era)) <;> rfl

theorem unique_after (hq : Grouped.Unique q) (a : AccountId) (era : UInt64)
    (w : Withdrawal ε τ) : Grouped.Unique (q.after a era w) := by
  cases w with
  | paid => exact hq.drop _ _
  | refused | nothingDue | rejected => exact hq

theorem unique_handle (hq : Grouped.Unique q) (r : QueueRequest ε τ) :
    Grouped.Unique (q.handle r) := by
  cases r with
  | push a e => exact hq.push a e
  | withdraw a era transfer =>
      rw [handle, withdraw_snd]
      exact unique_after hq a era _

theorem unique_run (hq : Grouped.Unique q) (requests : List (QueueRequest ε τ)) :
    Grouped.Unique (q.run requests) := by
  induction requests generalizing q with
  | nil => exact hq
  | cons r rs ih => exact ih (unique_handle hq r)

/-- What is dropped in an era is all that is missing later. -/
theorem due_drop (hq : Grouped.Single q a) (h : era ≤ last) :
    due (Grouped.drop (·.isMature era) q a) a last + q.due a era = q.due a last := by
  have hearly : (q.matured a last).filter (·.isMature era) = q.matured a era := by
    rw [matured, matured, List.filter_filter]
    refine List.filter_congr fun e _ => ?_
    by_cases mature : e.unlockEra ≤ era
    · simp [UnbondedEntry.isMature, mature, UInt64.le_trans mature h]
    · simp [UnbondedEntry.isMature, mature]
  have hlate : (q.matured a last).filter (!·.isMature era) =
      matured (Grouped.drop (·.isMature era) q a) a last := by
    rw [matured, matured, Grouped.of_drop_self hq, List.filter_filter, List.filter_filter]
    exact List.filter_congr fun e _ => Bool.and_comm _ _
  have hperm := (List.filter_append_perm (·.isMature era) (q.matured a last)).map (·.amount)
  rw [hearly, hlate] at hperm
  rw [due, due, due, ← Amount.total_perm hperm, List.map_append, Amount.total_append,
    Nat.add_comm]

/-- A withdrawal whose transfer succeeds answers what is due, and takes just that out of what is
due at any later time. -/
theorem withdraw_accepted (hq : Grouped.Single q a) (fits : q.due a era < UInt64.size)
    (pay : Amount → τ) (embed : StakingError → ε) :
    ∃ w q', q.withdraw a era (fun x => .ok (pay x)) = (w, q') ∧
      w.result embed = .ok (.ofNat (q.due a era)) ∧ Grouped.Single q' a ∧
      ∀ last, era ≤ last → q'.due a last + q.due a era = q.due a last := by
  rw [withdraw_eq, if_neg (Nat.not_le.2 fits)]
  by_cases nothing : q.due a era = 0
  · rw [if_pos nothing]
    refine ⟨_, _, rfl, ?_, hq, fun last _ => ?_⟩
    · rw [nothing]
      rfl
    · rw [nothing, Nat.add_zero]
  · rw [if_neg nothing]
    exact ⟨_, _, rfl, rfl, hq.drop _, fun last h => due_drop hq h⟩

/-- Withdrawals up to an era answer together what is due in that era. -/
theorem results_withdrawals (hq : Grouped.Single q a) (fits : q.due a last < UInt64.size)
    {eras : List UInt64} (sorted : (eras ++ [last]).Pairwise (· ≤ ·)) (pay : Amount → τ)
    (embed : StakingError → ε) :
    ∃ amounts : List Amount,
      (q.withdrawals a (fun x => .ok (pay x)) (eras ++ [last])).1.map (·.result embed) =
          amounts.map .ok ∧
        Amount.total amounts = q.due a last := by
  induction eras generalizing q with
  | nil =>
      obtain ⟨w, q', hwithdraw, hresult, -, -⟩ := withdraw_accepted hq fits pay embed
      refine ⟨[.ofNat (q.due a last)], ?_, ?_⟩
      · rw [List.nil_append, withdrawals, hwithdraw]
        exact congrArg ([·]) hresult
      · rw [Amount.total_cons, UInt64.toNat_ofNat_of_lt' fits]
        rfl
  | cons era eras ih =>
      obtain ⟨hle, hrest⟩ := List.pairwise_cons.1 sorted
      have hera : era ≤ last := hle last (List.mem_append_right _ List.mem_cons_self)
      have hearly := due_drop hq hera
      have fitsEarly : q.due a era < UInt64.size := by omega
      obtain ⟨w, q', hwithdraw, hresult, hsingle, hdue⟩ :=
        withdraw_accepted hq fitsEarly pay embed
      have hlast := hdue last hera
      obtain ⟨amounts, hresults, htotal⟩ := ih hsingle (by omega) hrest
      refine ⟨.ofNat (q.due a era) :: amounts, ?_, ?_⟩
      · rw [List.cons_append, withdrawals, hwithdraw, List.map_cons, List.map_cons, hresult]
        exact congrArg (_ :: ·) hresults
      · rw [Amount.total_cons, UInt64.toNat_ofNat_of_lt' fitsEarly, htotal]
        omega

theorem due_of_result {pay : Amount → τ} {embed : StakingError → ε} {amount : Amount}
    (h : (q.withdraw a era fun x => .ok (pay x)).1.result embed = .ok amount) :
    q.due a era = amount.toNat := by
  rw [withdraw_eq] at h
  split at h
  · cases h
  next fits =>
    split at h
    · next nothing =>
        cases h
        exact nothing
    · cases h
      exact (UInt64.toNat_ofNat_of_lt' (Nat.not_le.1 fits)).symm

theorem withdraw_snd_of_result {embed : StakingError → ε} {amount : Amount}
    (h : (q.withdraw a era transfer).1.result embed = .ok amount) :
    (q.withdraw a era transfer).2 =
      if q.due a era = 0 then q else Grouped.drop (·.isMature era) q a := by
  rw [withdraw_eq] at h ⊢
  by_cases overflow : UInt64.size ≤ q.due a era
  · rw [if_pos overflow] at h
    cases h
  rw [if_neg overflow] at h ⊢
  by_cases nothing : q.due a era = 0
  · rw [if_pos nothing, if_pos nothing]
  · rw [if_neg nothing] at h ⊢
    rw [if_neg nothing]
    cases ht : transfer (.ofNat (q.due a era)) with
    | error reason =>
        rw [ht] at h
        cases h
    | ok receipt => rfl

theorem of_after_of_ne (h : a ≠ b) (w : Withdrawal ε τ) : (q.after a era w).of b = q.of b := by
  cases w with
  | paid => exact Grouped.of_drop_of_ne _ _ h
  | refused | nothingDue | rejected => rfl

theorem withdraw_fst_congr (h : q'.of a = q.of a) :
    (q'.withdraw a era transfer).1 = (q.withdraw a era transfer).1 := by
  have hdue : q'.due a era = q.due a era := by rw [due, due, matured, matured, h]
  rw [withdraw_eq, withdraw_eq, hdue]
  split
  · rfl
  split
  · rfl
  · cases transfer (.ofNat (q.due a era)) <;> rfl

theorem after_comm (h : a ≠ b) (era era' : UInt64) (w w' : Withdrawal ε τ) :
    (q.after a era w).after b era' w' = (q.after b era' w').after a era w := by
  cases w with
  | refused | nothingDue | rejected => rfl
  | paid =>
      cases w' with
      | refused | nothingDue | rejected => rfl
      | paid => exact Grouped.drop_comm _ _ q h

/-- Payouts do not depend on their times and their order. Additions and withdrawals never give an
account a second group. If a queue has at most one for an account and pays it in one withdrawal, it
pays exactly as much in withdrawals up to the same era. And on any queue the withdrawals of two
accounts end in the same way, with the same transfers, and leave the same queue, whichever comes
first. -/
theorem payouts_independent {ε τ : Type} :
    (∀ (requests : List (QueueRequest ε τ)) (a : AccountId), Grouped.Single (run [] requests) a) ∧
      (∀ (q : UnbondingQueue) (a : AccountId), Grouped.Single q a →
        ∀ (eras : List UInt64) (last : UInt64), (eras ++ [last]).Pairwise (· ≤ ·) →
          ∀ (pay : Amount → τ) (embed : StakingError → ε) (amount : Amount),
            (q.withdraw a last fun x => .ok (pay x)).1.result embed = .ok amount →
              ∃ amounts : List Amount,
                (q.withdrawals a (fun x => .ok (pay x)) (eras ++ [last])).1.map
                    (·.result embed) = amounts.map .ok ∧
                  Amount.total amounts = amount.toNat) ∧
      ∀ (q : UnbondingQueue) (a b : AccountId) (eraA eraB : UInt64)
        (transferA transferB : Amount → Except ε τ), a ≠ b →
          let first := q.withdraw a eraA transferA
          let second := first.2.withdraw b eraB transferB
          let first' := q.withdraw b eraB transferB
          let second' := first'.2.withdraw a eraA transferA
          first.1 = second'.1 ∧ second.1 = first'.1 ∧ second.2 = second'.2 := by
  refine ⟨fun requests a => (unique_run Grouped.unique_nil requests).single a, ?_, ?_⟩
  · intro q a hq eras last sorted pay embed amount hresult
    have hdue := due_of_result hresult
    rw [← hdue]
    refine results_withdrawals hq ?_ sorted pay embed
    rw [hdue]
    exact amount.toNat_lt_size
  · intro q a b eraA eraB transferA transferB hne first second first' second'
    have hsecond : second.1 = first'.1 := by
      refine withdraw_fst_congr ?_
      rw [withdraw_snd, of_after_of_ne hne]
    have hfirst : second'.1 = first.1 := by
      refine withdraw_fst_congr ?_
      rw [withdraw_snd, of_after_of_ne hne.symm]
    refine ⟨hfirst.symm, hsecond, ?_⟩
    calc second.2 = (q.after a eraA first.1).after b eraB first'.1 := by
          rw [← hsecond, ← withdraw_snd, ← withdraw_snd]
      _ = (q.after b eraB first'.1).after a eraA first.1 := after_comm hne ..
      _ = second'.2 := by rw [← hfirst, ← withdraw_snd, ← withdraw_snd]

def sampleQueue : UnbondingQueue :=
  [⟨⟨List.replicate 32 41, rfl⟩, [⟨100, 0, 3, 0⟩, ⟨50, 0, 5, 2⟩]⟩,
    ⟨⟨List.replicate 32 42, rfl⟩, [⟨70, 0, 4, 1⟩]⟩]

/-- In the eras four and five the first account gets a hundred and fifty, as in era five alone. -/
theorem payouts_independent_sampleQueue :
    let a : AccountId := ⟨List.replicate 32 41, rfl⟩
    let b : AccountId := ⟨List.replicate 32 42, rfl⟩
    let accept : Amount → Except Unit Unit := fun _ => .ok ()
    let embed : StakingError → Unit := fun _ => ()
    (Grouped.Single sampleQueue a ∧ [4, 5].Pairwise (· ≤ · : UInt64 → UInt64 → Prop) ∧
      (sampleQueue.withdraw a 5 accept).1.result embed = .ok 150 ∧
      ∃ amounts : List Amount,
        (sampleQueue.withdrawals a accept [4, 5]).1.map (·.result embed) = amounts.map .ok ∧
          Amount.total amounts = 150) ∧
      a ≠ b ∧ ((sampleQueue.withdraw a 5 accept).2.withdraw b 4 accept).2 =
        ((sampleQueue.withdraw b 4 accept).2.withdraw a 5 accept).2 := by
  intro a b accept embed
  have hsingle : (sampleQueue.map (·.account)).count a ≤ 1 := by decide +kernel
  have sorted : [4, 5].Pairwise (· ≤ · : UInt64 → UInt64 → Prop) := by decide
  have hresult : (sampleQueue.withdraw a 5 accept).1.result embed = .ok 150 := rfl
  have hne : a ≠ b := by decide +kernel
  obtain ⟨-, hstaged, hcomm⟩ := payouts_independent (ε := Unit) (τ := Unit)
  exact ⟨⟨hsingle, sorted, hresult,
    hstaged sampleQueue a hsingle [4] 5 sorted (fun _ => ()) embed 150 hresult⟩, hne,
    (hcomm sampleQueue a b 5 4 accept accept hne).2.2⟩

/-- A queue that is stored with two groups of one account. -/
def dividedQueue : UnbondingQueue :=
  [⟨⟨List.replicate 32 41, rfl⟩, [⟨10, 0, 0, 0⟩]⟩, ⟨⟨List.replicate 32 41, rfl⟩, [⟨20, 0, 0, 1⟩]⟩]

/-- On stored data of any form payouts do depend on their times. Of two groups of one account the
second is paid only after the first has gone: ten in era five alone, thirty in the eras four and
five. -/
theorem payouts_depend_on_times :
    ¬∀ (q : UnbondingQueue) (a : AccountId) (eras : List UInt64) (last : UInt64),
      (eras ++ [last]).Pairwise (· ≤ ·) →
        ∀ (pay : Amount → Unit) (embed : StakingError → Unit) (amount : Amount),
          (q.withdraw a last fun x => .ok (pay x)).1.result embed = .ok amount →
            ∃ amounts : List Amount,
              (q.withdrawals a (fun x => .ok (pay x)) (eras ++ [last])).1.map (·.result embed) =
                  amounts.map .ok ∧
                Amount.total amounts = amount.toNat := by
  intro h
  obtain ⟨amounts, hresults, htotal⟩ := h dividedQueue ⟨List.replicate 32 41, rfl⟩ [4] 5
    (by decide) (fun _ => ()) (fun _ => ()) 10 rfl
  have hamounts : [10, 20].map Except.ok = amounts.map (Except.ok (ε := Unit)) := hresults
  obtain rfl := List.map_injective_iff.2 (fun _ _ => Except.ok.inj) hamounts
  exact absurd htotal (by decide)

end UnbondingQueue

end AppchainStaking
