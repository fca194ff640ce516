import AppchainStaking.Proofs.Anchor.Conservation
import AppchainStaking.Proofs.History.Numbering
import Mathlib.Data.List.Nodup

/-!
# Payouts

A withdrawal asks its transfer at most once, for the exact sum of what is mature, and changes the
anchor only when the transfer succeeds. Over a run every entry that was queued is in the queue or
was paid out, so none is paid twice, to another account, or before its era.
-/

namespace AppchainStaking

variable {ε τ : Type}

namespace Call

/-- The entries that the call paid out: all that was mature to its caller, when its transfer
succeeded. -/
def payout (c : Call ε τ) : List UnbondedEntry :=
  if c.reply.paid?.isSome then c.before.unbonding.matured c.operation.caller c.before.era else []

/-- The call put an entry at the end of the queue of an account. -/
def Queues (c : Call ε τ) (a : AccountId) (e : UnbondedEntry) : Prop :=
  c.after.unbonding.of a = c.before.unbonding.of a ++ [e]

def releasedEntry (c : Call ε τ) : Option UnbondedEntry := c.record?.bind c.before.releasedEntry

theorem unlockEra_le_of_mem_payout (c : Call ε τ) {e : UnbondedEntry} (h : e ∈ c.payout) :
    e.unlockEra ≤ c.before.era := by
  unfold payout at h
  split at h
  · exact of_decide_eq_true (List.mem_filter.1 h).2
  · cases h

end Call

def payouts (calls : List (Call ε τ)) : List (AccountId × UnbondedEntry) :=
  calls.flatMap fun c => c.payout.map (c.operation.caller, ·)

def queued (calls : List (Call ε τ)) : List (AccountId × UnbondedEntry) :=
  calls.flatMap fun c => c.releasedEntry.toList.map (c.operation.caller, ·)

namespace Anchor

variable {s s' : Anchor} {a : AccountId} {o : Operation ε τ} {reply : Reply ε τ}

structure PaysRightly (ε τ : Type) (s : Anchor) (a : AccountId) : Prop where
  /-- The effects of a transfer happen once, for the amount that is asked for, or not at all. -/
  once {σ : Type} (transfer : Amount → StateM σ (Except ε τ)) (x : σ) :
    let outcome := s.withdraw a fun amount => ((transfer amount).run x).1
    (s.withdrawM a transfer).run x =
      (outcome, match outcome.1.transferred? with
        | none => x
        | some amount => ((transfer amount).run x).2)
  /-- What is asked for is the exact sum of all that is mature, and never while paused. -/
  exact (transfer : Amount → Except ε τ) {amount : Amount} :
    (s.withdraw a transfer).1.transferred? = some amount →
      s.transfersPaused = false ∧ 0 < amount.toNat ∧
        amount.toNat =
          Amount.total (((s.unbonding.of a).filter (·.unlockEra ≤ s.era)).map (·.amount))
  declined (transfer : Amount → Except ε τ) (embed : StakingError → ε) {amount : Amount}
    {reason : ε} :
    (s.withdraw a transfer).1.transferred? = some amount → transfer amount = .error reason →
      (s.withdraw a transfer).1.result embed = .error reason
  unpaid (transfer : Amount → Except ε τ) (embed : StakingError → ε) :
    (∀ amount, (s.withdraw a transfer).1.result embed = .ok amount → amount = 0) →
      (s.withdraw a transfer).2 = s
  settled (transfer : Amount → Except ε τ) (embed : StakingError → ε) {amount : Amount}
    {receipt : τ} :
    (s.withdraw a transfer).1.transferred? = some amount → transfer amount = .ok receipt →
      ∃ unbonding : UnbondingQueue,
        (s.withdraw a transfer).1.result embed = .ok amount ∧
        (s.withdraw a transfer).2 = { s with unbonding } ∧
        unbonding.of a = (s.unbonding.of a).filter (s.era < ·.unlockEra) ∧
        ∀ b ≠ a, unbonding.of b = s.unbonding.of b

theorem transferred?_settle (s : Anchor) (a : AccountId) (amount : Amount)
    (answer : Except ε τ) : (s.settle a amount answer).1.transferred? = some amount := by
  cases answer <;> rfl

theorem transferred?_withdraw (s : Anchor) (a : AccountId) (transfer : Amount → Except ε τ) :
    (s.withdraw a transfer).1.transferred? =
      (s.payment a : Except (Withdrawal ε τ) Amount).toOption := by
  rw [withdraw_eq]
  cases h : (s.payment a : Except (Withdrawal ε τ) Amount) with
  | error w => exact transferred?_eq_none h
  | ok amount => exact transferred?_settle ..

theorem withdraw_eq_settle {transfer : Amount → Except ε τ} {amount : Amount}
    (h : (s.withdraw a transfer).1.transferred? = some amount) :
    s.withdraw a transfer = s.settle a amount (transfer amount) := by
  rw [transferred?_withdraw, toOption_eq_some_iff] at h
  rw [withdraw_eq, h]

theorem withdraw_unpaid {transfer : Amount → Except ε τ} {embed : StakingError → ε}
    (h : ∀ amount, (s.withdraw a transfer).1.result embed = .ok amount → amount = 0) :
    (s.withdraw a transfer).2 = s := by
  rcases hw : s.withdraw a transfer with ⟨w, s'⟩
  rw [hw] at h
  refine eq_of_withdraw_unpaid hw fun amount receipt hpaid => ?_
  subst hpaid
  exact (withdraw_eq_paid hw).2.2.1 (h amount rfl)

theorem withdrawM_run {σ : Type} (transfer : Amount → StateM σ (Except ε τ)) (x : σ) :
    let outcome := s.withdraw a fun amount => ((transfer amount).run x).1
    (s.withdrawM a transfer).run x =
      (outcome, match outcome.1.transferred? with
        | none => x
        | some amount => ((transfer amount).run x).2) := by
  intro outcome
  have htransferred : outcome.1.transferred? =
      (s.payment a : Except (Withdrawal ε τ) Amount).toOption := transferred?_withdraw ..
  rw [htransferred, withdrawM_eq]
  simp only [outcome, withdraw_eq]
  cases s.payment a <;> rfl

theorem paysRightly (hs : Grouped.Unique s.unbonding) (a : AccountId) : PaysRightly ε τ s a where
  once := withdrawM_run
  exact transfer {amount} h := by
    rw [transferred?_withdraw, toOption_eq_some_iff, payment_eq_ok_iff] at h
    obtain ⟨running, due, positive⟩ := h
    refine ⟨running, Nat.pos_of_ne_zero fun hzero => positive (UInt64.toNat_inj.1 hzero), ?_⟩
    rw [← due]
    rfl
  declined transfer embed {amount reason} h hreason := by
    rw [withdraw_eq_settle h, hreason]
    rfl
  unpaid transfer embed := withdraw_unpaid
  settled transfer embed {amount receipt} h hreceipt := by
    rw [withdraw_eq_settle h, hreceipt]
    refine ⟨Grouped.drop (·.isMature s.era) s.unbonding a, rfl, rfl, ?_, fun b hb => ?_⟩
    · rw [Grouped.of_drop_self (hs.single _)]
      exact List.filter_congr fun e _ => by simp [UnbondedEntry.isMature, ← decide_not]
    · exact Grouped.of_drop_of_ne _ _ hb.symm

theorem index_of_releasedEntry {r : HistoryRecord} {e : UnbondedEntry}
    (h : s.releasedEntry r = some e) : e.historyIndex = r.index := by
  obtain ⟨_, _, rfl⟩ := Option.map_eq_some_iff.1 h
  rfl

/-- What an operation can do to the queue: put one entry of the caller at the end, drop what is
mature to the caller, or nothing. -/
inductive QueueChange (s : Anchor) (o : Operation ε τ) (reply : Reply ε τ) (s' : Anchor) : Prop
  | pushed {e : UnbondedEntry}
      (released : reply.record?.bind s.releasedEntry = some e)
      (unpaid : reply.paid? = none)
      (queue : s'.unbonding = s.unbonding.push o.caller e)
  | dropped {amount : Amount}
      (unreleased : reply.record?.bind s.releasedEntry = none)
      (paid : reply.paid? = some amount)
      (queue : s'.unbonding = Grouped.drop (·.isMature s.era) s.unbonding o.caller)
  | same
      (unreleased : reply.record?.bind s.releasedEntry = none)
      (unpaid : reply.paid? = none)
      (queue : s'.unbonding = s.unbonding)

theorem Effect.queueChange (h : Effect s o reply s') : QueueChange s o reply s' := by
  cases h with
  | @recorded o _ l f _ _ step _ =>
      have hactor : (s.nextRecord f o.now).fact.actor = o.caller := step.actor_eq
      have hqueue : (s.recorded l (s.nextRecord f o.now)).unbonding =
          s.queue (s.nextRecord f o.now) := rfl
      rw [queue, hactor] at hqueue
      cases hentry : s.releasedEntry (s.nextRecord f o.now) with
      | none =>
          rw [hentry] at hqueue
          exact .same hentry rfl hqueue
      | some e =>
          rw [hentry] at hqueue
          exact .pushed hentry rfl hqueue
  | profileSet => exact .same rfl rfl rfl
  | paid => exact .dropped rfl rfl rfl
  | commanded _ executed => exact .same rfl rfl (execute_frame executed).2.2.1
  | unchanged unrecorded unpaid => exact .same (by rw [unrecorded]; rfl) unpaid rfl

/-- An operation accounts for every entry: those left and those paid out were there or are new. -/
theorem Effect.pairs_perm (h : Effect s o reply s') :
    (s'.unbonding.pairs ++
        (if reply.paid?.isSome then s.unbonding.matured o.caller s.era else []).map
          (o.caller, ·)).Perm
      (s.unbonding.pairs ++ (reply.record?.bind s.releasedEntry).toList.map (o.caller, ·)) := by
  cases h.queueChange with
  | @pushed e released unpaid queue =>
      rw [released, unpaid, queue]
      have hpush := Grouped.pairs_push_perm s.unbonding o.caller e
      exact (List.Perm.of_eq (List.append_nil _)).trans <|
        hpush.trans (List.perm_append_singleton _ _).symm
  | dropped unreleased paid queue =>
      rw [unreleased, paid, queue]
      exact (Grouped.pairs_drop_perm _ _ _).trans (.of_eq (List.append_nil _).symm)
  | same unreleased unpaid queue =>
      rw [unreleased, unpaid, queue]
      exact .refl _

/-- The only change that puts an entry at the end of a queue is the record of its release. -/
theorem Effect.of_eq_concat_iff (h : Effect s o reply s') (hs : Grouped.Unique s.unbonding)
    {e : UnbondedEntry} :
    s'.unbonding.of a = s.unbonding.of a ++ [e] ↔
      o.caller = a ∧ reply.record?.bind s.releasedEntry = some e := by
  have hsame : ¬ s.unbonding.of a = s.unbonding.of a ++ [e] := by simp
  cases h.queueChange with
  | @pushed e' released _ queue =>
      rw [released, queue]
      by_cases ha : o.caller = a
      · subst ha
        simp
      · simp [Grouped.of_push_of_ne _ _ ha, ha]
  | dropped unreleased _ queue =>
      rw [unreleased, queue]
      refine iff_of_false (fun hof => ?_) (by simp)
      by_cases ha : o.caller = a
      · subst ha
        -- What was dropped from cannot be longer than it was.
        have hlength := congrArg List.length ((Grouped.of_drop_self (hs.single _) _).symm.trans hof)
        have hle := List.length_filter_le (fun e => !e.isMature s.era) (s.unbonding.of o.caller)
        rw [List.length_append, List.length_singleton] at hlength
        omega
      · exact hsame ((Grouped.of_drop_of_ne _ _ ha).symm.trans hof)
  | same unreleased _ queue =>
      rw [unreleased, queue]
      exact iff_of_false hsame (by simp)

/-- Over a run every entry that is left or was paid out was there before or was queued. -/
theorem pairs_run_perm (ops : List (Operation ε τ))
    (hroom : ∀ c ∈ s.trace ops, c.before.history.HasRoom) :
    ((s.run ops).unbonding.pairs ++ payouts (s.trace ops)).Perm
      (s.unbonding.pairs ++ queued (s.trace ops)) := by
  induction ops generalizing s with
  | nil => exact .refl _
  | cons o ops ih =>
      have room : s.history.HasRoom := hroom _ List.mem_cons_self
      have hstep : ((s.perform o).2.unbonding.pairs ++
          (Call.mk s o).payout.map (o.caller, ·)).Perm
          (s.unbonding.pairs ++ (Call.mk s o).releasedEntry.toList.map (o.caller, ·)) :=
        (perform_effect room o).pairs_perm
      have hrest := @ih (s.perform o).2 fun c hc => hroom c (List.mem_cons_of_mem _ hc)
      simp only [run, trace, payouts, queued, List.flatMap_cons]
      -- The parts of the two lists are interleaved differently, but each entry occurs as often.
      refine List.perm_iff_count.2 fun p => ?_
      have hp := hstep.count_eq p
      have hq := hrest.count_eq p
      simp only [List.count_append, payouts, queued] at hp hq ⊢
      omega

theorem index_queued_sublist (calls : List (Call ε τ)) :
    ((queued calls).map (·.2.historyIndex)).Sublist ((records calls).map (·.index)) := by
  induction calls with
  | nil => exact .slnil
  | cons c calls ih =>
      have hcall : (c.releasedEntry.toList.map (·.historyIndex)).Sublist
          (c.record?.toList.map (·.index)) := by
        cases hr : c.record? with
        | none => simp [Call.releasedEntry, hr]
        | some r =>
            cases he : c.before.releasedEntry r with
            | none => simp [Call.releasedEntry, hr, he]
            | some e => simp [Call.releasedEntry, hr, he, index_of_releasedEntry he]
      rw [records_cons, List.map_append]
      simp only [queued, List.flatMap_cons, List.map_append, List.map_map]
      exact hcall.append ih

theorem nodup_index_queued (ops : List (Operation ε τ))
    (hroom : ∀ c ∈ s.trace ops, c.before.history.HasRoom) :
    ((queued (s.trace ops)).map (·.2.historyIndex)).Nodup :=
  (nodup_index_run ops hroom).sublist (index_queued_sublist _)

/-- Out of an empty queue only what was queued is paid. -/
theorem mem_queued_of_mem_payout (hempty : s.unbonding = []) (ops : List (Operation ε τ))
    (hroom : ∀ c ∈ s.trace ops, c.before.history.HasRoom) {c : Call ε τ} (hc : c ∈ s.trace ops)
    {e : UnbondedEntry} (he : e ∈ c.payout) :
    (c.operation.caller, e) ∈ queued (s.trace ops) := by
  have hpaid : (c.operation.caller, e) ∈ payouts (s.trace ops) :=
    List.mem_flatMap.2 ⟨c, hc, List.mem_map.2 ⟨e, he, rfl⟩⟩
  have hperm := pairs_run_perm ops hroom
  rw [hempty] at hperm
  exact hperm.subset (List.mem_append_right _ hpaid)

theorem nodup_index_payouts (hempty : s.unbonding = []) (ops : List (Operation ε τ))
    (hroom : ∀ c ∈ s.trace ops, c.before.history.HasRoom) :
    ((payouts (s.trace ops)).map (·.2.historyIndex)).Nodup := by
  have hperm := (pairs_run_perm ops hroom).map (·.2.historyIndex)
  rw [hempty, List.map_append] at hperm
  exact (hperm.nodup_iff.2 (nodup_index_queued ops hroom)).sublist (List.sublist_append_right _ _)

/-- In a run from unique groups a call queues an entry exactly when its fact released it. -/
theorem queues_iff (hs : s.Unique) (ops : List (Operation ε τ))
    (hroom : ∀ c ∈ s.trace ops, c.before.history.HasRoom) {c : Call ε τ} (hc : c ∈ s.trace ops)
    {e : UnbondedEntry} : c.Queues a e ↔ c.operation.caller = a ∧ c.releasedEntry = some e :=
  (perform_effect (hroom c hc) c.operation).of_eq_concat_iff
    (before_invariant Effect.unique ops hroom hs c hc).unbonding

/-- After every run of a new anchor withdrawals treat every account rightly; and over the run no
entry is paid out twice, or before its era, or without having been queued for the account that is
paid, or to another account than it was queued for. -/
theorem payouts_exact {owner : AccountId} {id : String} {template : Template}
    {token : StakeToken} {vault : AccountId} {bump vaultBump : UInt8}
    (hnew : Anchor.new owner id template token vault bump vaultBump = .ok s)
    (ops : List (Operation ε τ)) (hroom : ∀ c ∈ s.trace ops, c.before.history.HasRoom) :
    (∀ a, PaysRightly ε τ (s.run ops) a) ∧
      ((payouts (s.trace ops)).map (·.2.historyIndex)).Nodup ∧
      (∀ c ∈ s.trace ops, ∀ e ∈ c.payout,
        e.unlockEra ≤ c.before.era ∧ ∃ c' ∈ s.trace ops, c'.Queues c.operation.caller e) ∧
      ∀ c' ∈ s.trace ops, ∀ a e, c'.Queues a e → ∀ c ∈ s.trace ops, ∀ e' ∈ c.payout,
        e'.historyIndex = e.historyIndex → e' = e ∧ c.operation.caller = a := by
  obtain ⟨-, -, hempty, -⟩ := new_eq_ok hnew
  have hunique := unique_of_new hnew
  refine ⟨fun a => paysRightly (run_invariant Effect.unique ops hroom hunique).unbonding a,
    nodup_index_payouts hempty ops hroom, fun c hc e he => ⟨c.unlockEra_le_of_mem_payout he, ?_⟩,
    fun c' hc' a e hqueues c hc e' he' hindex => ?_⟩
  · obtain ⟨c', hc', hmem⟩ := List.mem_flatMap.1 (mem_queued_of_mem_payout hempty ops hroom hc he)
    obtain ⟨e', he', heq⟩ := List.mem_map.1 hmem
    obtain ⟨hcaller, rfl⟩ := Prod.mk.inj heq
    exact ⟨c', hc', (queues_iff hunique ops hroom hc').2 ⟨hcaller, Option.mem_toList.1 he'⟩⟩
  · obtain ⟨rfl, hentry⟩ := (queues_iff hunique ops hroom hc').1 hqueues
    have hqueued : (c'.operation.caller, e) ∈ queued (s.trace ops) :=
      List.mem_flatMap.2 ⟨c', hc', List.mem_map.2 ⟨e, Option.mem_toList.2 hentry, rfl⟩⟩
    have hpaid := mem_queued_of_mem_payout hempty ops hroom hc he'
    have heq := List.inj_on_of_nodup_map (nodup_index_queued ops hroom) hpaid hqueued hindex
    exact (Prod.mk.inj heq).symm

open SampleRun in
/-- The repeated transfer pays the two entries of the validator, once. -/
theorem payouts_exact_sampleRun :
    (∀ c ∈ anchor.trace operations, c.before.history.HasRoom) ∧
      (payouts (anchor.trace operations)).map (·.2.historyIndex) = [3, 4] ∧
      ((payouts (anchor.trace operations)).map (·.2.historyIndex)).Nodup ∧
      PaysRightly Unit Unit (anchor.run operations) validator := by
  have hroom : ∀ c ∈ anchor.trace operations, c.before.history.HasRoom := by decide +kernel
  obtain ⟨hrightly, hnodup, -, -⟩ := payouts_exact new_eq_anchor operations hroom
  exact ⟨hroom, by decide +kernel, hnodup, hrightly validator⟩

end Anchor

end AppchainStaking
