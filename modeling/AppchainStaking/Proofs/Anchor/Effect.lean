import AppchainStaking.Proofs.Anchor.Operation
import AppchainStaking.Proofs.Unbonding

/-!
# What an operation can do

While the history has a number left, an operation has one of five effects on the anchor: it records
a fact together with the change that the fact describes, sets a profile, pays out what is due,
carries out a command, or changes nothing at all. Once the history is full, a staking action that
the ledger accepts fails and yet changes the ledger.
-/

namespace AppchainStaking

variable {ε τ : Type}

/-- There is a number left for the next fact. -/
def HistoryLog.HasRoom (log : HistoryLog) : Prop := log.next.toNat + 1 < UInt64.size

instance (log : HistoryLog) : Decidable log.HasRoom := by
  unfold HistoryLog.HasRoom
  infer_instance

def HistoryLog.extended (log : HistoryLog) (a : AccountId) : HistoryLog :=
  { log with next := log.next + 1, indexes := log.indexes.push a log.next }

theorem HistoryLog.append_eq_ok_iff {log log' : HistoryLog} {f : Fact} {now : Int64}
    {era : UInt64} {r : HistoryRecord} :
    log.append f now era = .ok (r, log') ↔
      log.HasRoom ∧ r = ⟨log.next, f, now, era⟩ ∧ log' = log.extended f.actor := by
  unfold append
  by_cases h : log.next.toNat + 1 < UInt64.size <;>
    simp [h, HasRoom, extended, eq_comm]

namespace Anchor

def nextRecord (s : Anchor) (f : Fact) (now : Int64) : HistoryRecord :=
  { index := s.history.next, fact := f, timestamp := now, era := s.era }

def recorded (s : Anchor) (l : Ledger) (r : HistoryRecord) : Anchor :=
  { s with ledger := l, history := s.history.extended r.fact.actor, unbonding := s.queue r }

/-- What an operation can do to an anchor, together with its reply. -/
inductive Effect (s : Anchor) : Operation ε τ → Reply ε τ → Anchor → Prop
  | recorded {o : Operation ε τ} {action : StakingAction} {l : Ledger} {f : Fact}
      (asked : o.action? = some action)
      (permitted : s.permit o.caller action = .ok ())
      (step : Ledger.Step s.rules o.caller s.ledger action l f)
      (room : s.history.HasRoom) :
      Effect s o (.staking (.ok (s.nextRecord f o.now))) (s.recorded l (s.nextRecord f o.now))
  | profileSet {caller : AccountId} {entries : List ProfileEntry} {profile : Profile}
      (same : profile = .ofEntries entries)
      (distinct : profile.entries.length = entries.length)
      (fits : profile.Fits)
      (known : (s.ledger.validator? caller).isSome) :
      Effect s (.setProfile caller entries) (.profile (.ok ()))
        { s with
          ledger := s.ledger.updateValidator caller ({ · with profile := profile.entries }) }
  | paid {caller : AccountId} {transfer : Amount → Except ε τ} {amount : Amount} {receipt : τ}
      (running : s.transfersPaused = false)
      (due : s.unbonding.due caller s.era = amount.toNat)
      (positive : amount ≠ 0)
      (accepted : transfer amount = .ok receipt) :
      Effect s (.withdraw caller transfer) (.withdrawal (.paid amount receipt))
        { s with unbonding := Grouped.drop (·.isMature s.era) s.unbonding caller }
  | commanded {authorizer : Authorizer} {caller : AccountId} {c : Command} {reply : CommandReply}
      {s' : Anchor}
      (authorized : authorizer caller c.capability)
      (executed : s.execute c = .ok (reply, s')) :
      Effect s (.command authorizer caller c) (.command (.ok reply)) s'
  | unchanged {o : Operation ε τ} {reply : Reply ε τ}
      (unrecorded : reply.record? = none)
      (unpaid : reply.paid? = none) :
      Effect s o reply s

/-- A staking action that the ledger accepts when the history has no number left for its fact. -/
inductive Unrecorded (s : Anchor) (o : Operation ε τ) : Reply ε τ → Anchor → Prop
  | intro {action : StakingAction} {l : Ledger} {f : Fact}
      (asked : o.action? = some action)
      (permitted : s.permit o.caller action = .ok ())
      (step : Ledger.Step s.rules o.caller s.ledger action l f)
      (full : ¬s.history.HasRoom) :
      Unrecorded s o (.staking (.error .indexOutOfRange)) { s with ledger := l }

variable {s s' : Anchor} {caller : AccountId} {now : Int64} {action : StakingAction}
  {l : Ledger} {f : Fact} {r : HistoryRecord}

theorem attempt_eq_ok_iff :
    s.attempt caller action = .ok (l, f) ↔
      s.permit caller action = .ok () ∧ Ledger.Step s.rules caller s.ledger action l f := by
  simp only [attempt, bind_eq_ok_iff, Ledger.act_eq_ok_iff]
  constructor
  · rintro ⟨_, permitted, step⟩
    exact ⟨permitted, step⟩
  · rintro ⟨permitted, step⟩
    exact ⟨(), permitted, step⟩

theorem act_of_attempt (h : s.attempt caller action = .ok (l, f)) :
    s.act caller now action =
      if s.history.HasRoom then (.ok (s.nextRecord f now), s.recorded l (s.nextRecord f now))
      else (.error .indexOutOfRange, { s with ledger := l }) := by
  simp only [act, h, record, HistoryLog.append]
  by_cases room : s.history.HasRoom
  · rw [if_pos room, if_pos (by exact room)]
    rfl
  · rw [if_neg room, if_neg (by exact room)]

theorem act_of_refused {e : StakingError} (h : s.attempt caller action = .error e) :
    s.act caller now action = (.error e, s) := by
  simp only [act, h]

theorem act_eq_ok_iff :
    s.act caller now action = (.ok r, s') ↔
      ∃ l f, s.permit caller action = .ok () ∧ Ledger.Step s.rules caller s.ledger action l f ∧
        s.history.HasRoom ∧ r = s.nextRecord f now ∧ s' = s.recorded l r := by
  cases h : s.attempt caller action with
  | error e =>
      rw [act_of_refused h]
      simp only [Prod.mk.injEq, reduceCtorEq, false_and, false_iff, not_exists]
      rintro l f ⟨permitted, step, -⟩
      rw [attempt_eq_ok_iff.2 ⟨permitted, step⟩] at h
      cases h
  | ok lf =>
      obtain ⟨l, f⟩ := lf
      obtain ⟨permitted, step⟩ := attempt_eq_ok_iff.1 h
      rw [act_of_attempt h]
      constructor
      · intro heq
        split at heq
        · next room =>
            cases heq
            exact ⟨l, f, permitted, step, room, rfl, rfl⟩
        · cases heq
      · rintro ⟨l', f', permitted', step', room, rfl, rfl⟩
        have h' := attempt_eq_ok_iff.2 ⟨permitted', step'⟩
        obtain ⟨rfl, rfl⟩ := Prod.mk.inj (Except.ok.inj (h.symm.trans h'))
        rw [if_pos room]

theorem act_of_step (permitted : s.permit caller action = .ok ())
    (step : Ledger.Step s.rules caller s.ledger action l f) (room : s.history.HasRoom)
    (now : Int64) :
    s.act caller now action = (.ok (s.nextRecord f now), s.recorded l (s.nextRecord f now)) :=
  act_eq_ok_iff.2 ⟨l, f, permitted, step, room, rfl, rfl⟩

theorem setProfile_eq_ok_iff {entries : List ProfileEntry} :
    s.setProfile caller entries = .ok s' ↔
      (Profile.ofEntries entries).entries.length = entries.length ∧
        (Profile.ofEntries entries).Fits ∧ (s.ledger.validator? caller).isSome ∧
        s' = { s with
          ledger := s.ledger.updateValidator caller
            ({ · with profile := (Profile.ofEntries entries).entries }) } := by
  simp only [setProfile, Ledger.setProfile, bind_eq_ok_iff, require_eq_ok_iff, pure_eq_ok_iff,
    Profile.checked_eq_ok_iff, Ledger.validator_eq_ok_iff, Option.isSome_iff_exists]
  constructor
  · rintro ⟨_, distinct, _, ⟨_, ⟨fits, rfl⟩, x, known, rfl⟩, rfl⟩
    exact ⟨distinct, fits, ⟨x, known⟩, rfl⟩
  · rintro ⟨distinct, fits, ⟨x, known⟩, rfl⟩
    exact ⟨(), distinct, _, ⟨_, ⟨fits, rfl⟩, x, known, rfl⟩, rfl⟩

/-- The amount that a withdrawal asks its transfer for, or how it ends without a transfer. -/
def payment (s : Anchor) (a : AccountId) : Except (Withdrawal ε τ) Amount :=
  if s.transfersPaused then .error (.refused .transfersPaused)
  else if UInt64.size ≤ s.unbonding.due a s.era then .error (.refused .amountOverflow)
  else if s.unbonding.due a s.era = 0 then .error .nothingDue
  else .ok (.ofNat (s.unbonding.due a s.era))

def settle (s : Anchor) (a : AccountId) (amount : Amount) (answer : Except ε τ) :
    Withdrawal ε τ × Anchor :=
  (s.unbonding.settle a s.era amount answer).map id fun unbonding => { s with unbonding }

/-- A withdrawal asks its transfer once, for the exact amount due, or does not ask it at all. -/
theorem withdrawM_eq {m : Type → Type} [Monad m] [LawfulMonad m] (s : Anchor) (a : AccountId)
    (transfer : Amount → m (Except ε τ)) :
    s.withdrawM a transfer =
      match (s.payment a : Except (Withdrawal ε τ) Amount) with
      | .error w => pure (w, s)
      | .ok amount => s.settle a amount <$> transfer amount := by
  unfold withdrawM payment
  rw [UnbondingQueue.withdrawM_eq]
  split
  · rfl
  split
  · exact pure_bind ..
  split
  · exact pure_bind ..
  · simp only [bind_assoc, pure_bind, map_eq_pure_bind]
    rfl

theorem withdraw_eq (s : Anchor) (a : AccountId) (transfer : Amount → Except ε τ) :
    s.withdraw a transfer =
      match s.payment a with
      | .error w => (w, s)
      | .ok amount => s.settle a amount (transfer amount) := by
  rw [withdraw, withdrawM_eq]
  split <;> rfl

theorem payment_eq_ok_iff {a : AccountId} {amount : Amount} :
    (s.payment a : Except (Withdrawal ε τ) Amount) = .ok amount ↔
      s.transfersPaused = false ∧ s.unbonding.due a s.era = amount.toNat ∧ amount ≠ 0 := by
  have hlt : amount.toNat < UInt64.size := amount.toNat_lt
  have hzero : amount = 0 ↔ amount.toNat = 0 := UInt64.toNat_inj.symm
  unfold payment
  split
  next paused => simp [paused]
  split
  next overflow =>
    refine iff_of_false (by simp) ?_
    rintro ⟨-, h, -⟩
    omega
  split
  next nothing =>
    refine iff_of_false (by simp) ?_
    rintro ⟨-, h, positive⟩
    exact positive (hzero.2 (h.symm.trans nothing))
  next running overflow nothing =>
    have hdue := UInt64.toNat_ofNat_of_lt' (Nat.not_le.1 overflow)
    rw [Except.ok.injEq, ← UInt64.toNat_inj, hdue]
    constructor
    · intro h
      exact ⟨by simpa using running, h, fun hz => nothing (h.trans (hzero.1 hz))⟩
    · rintro ⟨-, h, -⟩
      exact h

theorem transferred?_eq_none {a : AccountId} {w : Withdrawal ε τ}
    (h : s.payment a = .error w) : w.transferred? = none := by
  unfold payment at h
  split at h
  · cases h
    rfl
  split at h
  · cases h
    rfl
  split at h
  · cases h
    rfl
  · cases h

theorem command_eq_ok_iff {authorizer : Authorizer} {c : Command} {reply : CommandReply} :
    s.command authorizer caller c = .ok (reply, s') ↔
      authorizer caller c.capability ∧ s.execute c = .ok (reply, s') := by
  simp [command, Authorizer.demand]

/-- Commands leave the ledger, the history, the queue, the place of the vault and the template
alone. -/
theorem execute_frame {c : Command} {reply : CommandReply}
    (h : s.execute c = .ok (reply, s')) :
    s'.ledger = s.ledger ∧ s'.history = s.history ∧ s'.unbonding = s.unbonding ∧
      s'.stakeVault = s.stakeVault ∧ s'.template = s.template := by
  cases c <;>
    simp only [execute, bind_eq_ok_iff, pure_eq_ok_iff, Prod.mk.injEq] at h
  case changeSettings | changeWrappedToken | goBooting | goLive | goBroken =>
    obtain ⟨_, _, _, rfl⟩ := h
    exact ⟨rfl, rfl, rfl, rfl, rfl⟩
  case switchEra =>
    obtain ⟨_, _, _, rfl⟩ := h
    exact ⟨rfl, rfl, rfl, rfl, rfl⟩
  case setOwner | setPrice | pauseTransfers =>
    obtain ⟨_, rfl⟩ := h
    exact ⟨rfl, rfl, rfl, rfl, rfl⟩

theorem execute_switchEra {reply : CommandReply} (h : s.execute .switchEra = .ok (reply, s')) :
    s' = { s with era := s.era + 1 } ∧ (s.era + 1).toNat = s.era.toNat + 1 := by
  simp only [execute, bind_eq_ok_iff, require_eq_ok_iff, pure_eq_ok_iff, Prod.mk.injEq] at h
  obtain ⟨_, room, -, rfl⟩ := h
  refine ⟨rfl, ?_⟩
  rw [UInt64.toNat_add]
  exact Nat.mod_eq_of_lt room

/-- No command goes back to an earlier era. -/
theorem execute_era_le {c : Command} {reply : CommandReply} (h : s.execute c = .ok (reply, s')) :
    s.era ≤ s'.era := by
  cases c
  case switchEra =>
    obtain ⟨rfl, hnext⟩ := execute_switchEra h
    rw [UInt64.le_iff_toNat_le, hnext]
    exact Nat.le_succ _
  all_goals simp only [execute, bind_eq_ok_iff, pure_eq_ok_iff, Prod.mk.injEq] at h
  case changeSettings | changeWrappedToken | goBooting | goLive | goBroken =>
    obtain ⟨_, _, _, rfl⟩ := h
    exact UInt64.le_refl _
  case setOwner | setPrice | pauseTransfers =>
    obtain ⟨_, rfl⟩ := h
    exact UInt64.le_refl _

theorem Effect.era_le {o : Operation ε τ} {reply : Reply ε τ} (h : Effect s o reply s') :
    s.era ≤ s'.era := by
  cases h with
  | commanded _ executed => exact execute_era_le executed
  | recorded | profileSet | paid | unchanged => exact UInt64.le_refl _

/-- A record comes from a step of the ledger, and changes the anchor as that step is recorded. -/
theorem Effect.of_record {o : Operation ε τ} {reply : Reply ε τ} (h : Effect s o reply s')
    (hr : reply.record? = some r) :
    ∃ action l, o.action? = some action ∧
      Ledger.Step s.rules o.caller s.ledger action l r.fact ∧ r = s.nextRecord r.fact o.now ∧
        s' = s.recorded l r := by
  cases h with
  | recorded asked _ step =>
      cases hr
      exact ⟨_, _, asked, step, rfl, rfl⟩
  | profileSet | paid | commanded => cases hr
  | unchanged unrecorded => cases unrecorded.symm.trans hr

theorem Effect.history_of_unrecorded {o : Operation ε τ} {reply : Reply ε τ}
    (h : Effect s o reply s') (hr : reply.record? = none) : s'.history = s.history := by
  cases h with
  | recorded => cases hr
  | commanded _ executed => exact (execute_frame executed).2.1
  | profileSet | paid | unchanged => rfl

theorem Effect.stakeVault_eq {o : Operation ε τ} {reply : Reply ε τ} (h : Effect s o reply s') :
    s'.stakeVault = s.stakeVault := by
  cases h with
  | commanded _ executed => exact (execute_frame executed).2.2.2.1
  | recorded | profileSet | paid | unchanged => rfl

theorem withdraw_eq_paid {a : AccountId} {transfer : Amount → Except ε τ} {amount : Amount}
    {receipt : τ} (h : s.withdraw a transfer = (.paid amount receipt, s')) :
    s.transfersPaused = false ∧ s.unbonding.due a s.era = amount.toNat ∧ amount ≠ 0 ∧
      transfer amount = .ok receipt ∧
        s' = { s with unbonding := Grouped.drop (·.isMature s.era) s.unbonding a } := by
  rw [withdraw_eq] at h
  split at h
  · next w hw =>
      cases h
      cases transferred?_eq_none hw
  next amount' hamount =>
    cases ht : transfer amount' with
    | error reason =>
        rw [ht] at h
        cases h
    | ok receipt' =>
        rw [ht] at h
        cases h
        obtain ⟨running, due, positive⟩ := payment_eq_ok_iff.1 hamount
        exact ⟨running, due, positive, ht, rfl⟩

theorem eq_of_withdraw_unpaid {a : AccountId} {transfer : Amount → Except ε τ}
    {w : Withdrawal ε τ} (h : s.withdraw a transfer = (w, s'))
    (unpaid : ∀ amount receipt, w ≠ .paid amount receipt) : s' = s := by
  rw [withdraw_eq] at h
  split at h
  · exact (Prod.mk.inj h).2.symm
  next amount _ =>
    cases ht : transfer amount with
    | error reason =>
        rw [ht] at h
        exact (Prod.mk.inj h).2.symm
    | ok receipt =>
        rw [ht] at h
        exact absurd (Prod.mk.inj h).1.symm (unpaid _ _)

theorem Unrecorded.no_room {o : Operation ε τ} {reply : Reply ε τ}
    (h : Unrecorded s o reply s') : ¬s.history.HasRoom := by
  cases h with
  | intro _ _ _ full => exact full

theorem act_outcome {o : Operation ε τ} (asked : o.action? = some action) :
    Effect s o (.staking (s.act o.caller o.now action).1) (s.act o.caller o.now action).2 ∨
      Unrecorded s o (.staking (s.act o.caller o.now action).1)
        (s.act o.caller o.now action).2 := by
  cases h : s.attempt o.caller action with
  | error e =>
      rw [act_of_refused h]
      exact .inl (.unchanged rfl rfl)
  | ok lf =>
      obtain ⟨l, f⟩ := lf
      obtain ⟨permitted, step⟩ := attempt_eq_ok_iff.1 h
      rw [act_of_attempt h]
      by_cases room : s.history.HasRoom
      · rw [if_pos room]
        exact .inl (.recorded asked permitted step room)
      · rw [if_neg room]
        exact .inr (.intro asked permitted step room)

/-- Every operation has one of the effects, or is an action whose fact goes unrecorded. -/
theorem perform_outcome (s : Anchor) (o : Operation ε τ) :
    Effect s o (s.perform o).1 (s.perform o).2 ∨
      Unrecorded s o (s.perform o).1 (s.perform o).2 := by
  cases o with
  | act caller now action => exact act_outcome (o := .act caller now action) rfl
  | deposit sender now amount message =>
      cases h : StakingAction.ofMessage amount message with
      | error e =>
          simp only [perform, deposit, h]
          exact .inl (.unchanged rfl rfl)
      | ok action =>
          simp only [perform, deposit, h]
          exact act_outcome (o := .deposit sender now amount message) (toOption_eq_some_iff.2 h)
  | setProfile caller entries =>
      left
      cases h : s.setProfile caller entries with
      | error e =>
          simp only [perform, h]
          exact .unchanged rfl rfl
      | ok s' =>
          obtain ⟨distinct, fits, known, rfl⟩ := setProfile_eq_ok_iff.1 h
          simp only [perform, h]
          exact .profileSet rfl distinct fits known
  | withdraw caller transfer =>
      left
      rcases h : s.withdraw caller transfer with ⟨w, s'⟩
      simp only [perform, h]
      cases w with
      | paid amount receipt =>
          obtain ⟨running, due, positive, accepted, rfl⟩ := withdraw_eq_paid h
          exact .paid running due positive accepted
      | refused | nothingDue | rejected =>
          obtain rfl := eq_of_withdraw_unpaid h (by simp)
          exact .unchanged rfl rfl
  | command authorizer caller c =>
      left
      cases h : s.command authorizer caller c with
      | error e =>
          simp only [perform, h]
          exact .unchanged rfl rfl
      | ok rs =>
          obtain ⟨reply, s'⟩ := rs
          obtain ⟨authorized, executed⟩ := command_eq_ok_iff.1 h
          simp only [perform, h]
          exact .commanded authorized executed

/-- Every operation has one of the effects, as long as the history has a number left. -/
theorem perform_effect (room : s.history.HasRoom) (o : Operation ε τ) :
    Effect s o (s.perform o).1 (s.perform o).2 :=
  (perform_outcome s o).resolve_right fun h => h.no_room room

theorem before_invariant {P : Anchor → Prop}
    (hstep : ∀ {s s' : Anchor} {o : Operation ε τ} {reply : Reply ε τ},
      Effect s o reply s' → P s → P s')
    (ops : List (Operation ε τ)) (hroom : ∀ c ∈ s.trace ops, c.before.history.HasRoom)
    (hs : P s) : ∀ c ∈ s.trace ops, P c.before := by
  obtain ⟨hbetween, -⟩ := invariant_of_calls
    (fun c room hbefore => hstep (perform_effect room c.operation) hbefore) ops hroom hs
  exact fun c hc => (hbetween c hc).1

theorem run_invariant {P : Anchor → Prop}
    (hstep : ∀ {s s' : Anchor} {o : Operation ε τ} {reply : Reply ε τ},
      Effect s o reply s' → P s → P s')
    (ops : List (Operation ε τ)) (hroom : ∀ c ∈ s.trace ops, c.before.history.HasRoom)
    (hs : P s) : P (s.run ops) :=
  (invariant_of_calls (fun c room hbefore => hstep (perform_effect room c.operation) hbefore) ops
    hroom hs).2

end Anchor

theorem Call.effect {c : Call ε τ} (room : c.before.history.HasRoom) :
    Anchor.Effect c.before c.operation c.reply c.after :=
  Anchor.perform_effect room c.operation

end AppchainStaking
