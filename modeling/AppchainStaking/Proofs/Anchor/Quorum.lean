import AppchainStaking.Proofs.Anchor.Lifecycle

/-!
# The minimum set of validators

An appchain boots only with the minimum number of validators. While it boots none of them can leave,
and while it runs none can leave unless more than the minimum are there. So an appchain that boots
or runs has its minimum, as long as the settings that name it stay as they are.
-/

namespace AppchainStaking

variable {ε τ : Type}

/-- Only a validator that leaves makes the number of validators smaller, and by one at most. -/
theorem Ledger.Step.validatorCount_le {rules : LedgerRules} {caller : AccountId} {l l' : Ledger}
    {action : StakingAction} {f : Fact} (h : Ledger.Step rules caller l action l' f) :
    l.validatorCount ≤ l'.validatorCount ∨
      action = .unbondStake ∧ l.validatorCount ≤ l'.validatorCount + 1 := by
  cases h with
  | registerValidator =>
      left
      simp [validatorCount]
  | unbondStake =>
      refine .inr ⟨rfl, ?_⟩
      rw [validatorCount, validatorCount, List.length_eraseP]
      split <;> omega
  | increaseStake | decreaseStake | setDelegable =>
      exact .inl (Nat.le_of_eq (length_updateFirst ..).symm)
  | registerDelegator | increaseDelegation | decreaseDelegation | unbondDelegation =>
      exact .inl (Nat.le_refl _)

namespace Anchor

variable {s s' : Anchor} {caller : AccountId} {action : StakingAction} {l : Ledger} {f : Fact}

/-- An appchain that boots or runs has its minimum number of validators. -/
def Quorate (s : Anchor) : Prop :=
  s.phase = .booting ∨ s.phase = .active →
    s.settings.protocol.minimumValidatorCount.toNat ≤ s.ledger.validatorCount

/-- The next state has the minimum if it is in the same phase under the same settings and has no
fewer validators. -/
theorem Quorate.mono (h : s.Quorate) (phase : s'.phase = s.phase)
    (protocol : s'.settings.protocol = s.settings.protocol)
    (count : s.ledger.validatorCount ≤ s'.ledger.validatorCount) : s'.Quorate := by
  intro running
  rw [phase] at running
  rw [protocol]
  exact Nat.le_trans (h running) count

/-- A permitted action leaves the minimum behind. -/
theorem Quorate.step (h : s.Quorate) (permitted : s.permit caller action = .ok ())
    (step : Ledger.Step s.rules caller s.ledger action l f) :
    Quorate { s with ledger := l } := by
  rintro (booting | active)
  · exact absurd permitted (not_permit_of_booting booting)
  · have hminimum := h (.inr active)
    change s.settings.protocol.minimumValidatorCount.toNat ≤ l.validatorCount
    rcases step.validatorCount_le with hcount | ⟨hleaves, hcount⟩
    · exact Nat.le_trans hminimum hcount
    · have hquorum := (permits_of_permit permitted).quorum hleaves active
      omega

theorem Quorate.perform_of_ne_command (h : s.Quorate) {o : Operation ε τ}
    (hne : ∀ authorizer caller c, o ≠ .command authorizer caller c) :
    (s.perform o).2.Quorate := by
  have houtcome := perform_outcome s o
  generalize (s.perform o).1 = reply, (s.perform o).2 = s' at houtcome
  rcases houtcome with heffect | hunrecorded
  · cases heffect with
    | recorded _ permitted step => exact h.step permitted step
    | profileSet =>
        refine h.mono rfl rfl ?_
        exact Nat.le_of_eq (length_updateFirst _ _ _).symm
    | paid | unchanged => exact h
    | commanded => exact absurd rfl (hne _ _ _)
  · cases hunrecorded with
    | intro _ permitted step => exact h.step permitted step

theorem execute_protocol {c : Command} {reply : CommandReply} (h : s.execute c = .ok (reply, s'))
    (hne : ∀ changes, c ≠ .changeSettings (.protocol changes)) :
    s'.settings.protocol = s.settings.protocol := by
  cases c <;>
    simp only [execute, bind_eq_ok_iff, pure_eq_ok_iff, Prod.mk.injEq] at h
  case changeSettings batch =>
    obtain ⟨settings, happly, -, rfl⟩ := h
    cases batch with
    | protocol changes => exact absurd rfl (hne changes)
    | appchain changes =>
        obtain ⟨_, -, happly⟩ := bind_eq_ok_iff.1 happly
        cases happly
        rfl
    | appointments changes =>
        cases happly
        rfl
  case changeWrappedToken | goBooting | goLive | goBroken =>
    obtain ⟨_, _, _, rfl⟩ := h
    rfl
  case switchEra =>
    obtain ⟨_, _, _, rfl⟩ := h
    rfl
  case setOwner | setPrice | pauseTransfers =>
    obtain ⟨_, rfl⟩ := h
    rfl

theorem Admits.quorate {c : Command} {p : Phase} (admits : s.Admits c p) (h : s.Quorate) :
    Quorate { s with phase := p } := by
  cases admits with
  | goBooting _ validators => exact fun _ => validators
  | goLive booting => exact fun _ => h (.inl booting)
  | goBroken => rintro (hphase | hphase) <;> cases hphase

theorem Quorate.execute (h : s.Quorate) {c : Command} {reply : CommandReply}
    (executed : s.execute c = .ok (reply, s'))
    (hne : ∀ changes, c ≠ .changeSettings (.protocol changes)) : s'.Quorate := by
  rcases execute_phase executed with hphase | ⟨p, admits, -, rfl⟩
  · refine h.mono hphase (execute_protocol executed hne) ?_
    exact Nat.le_of_eq (by rw [(execute_frame executed).1])
  · exact admits.quorate h

end Anchor

namespace Call

variable {c : Call ε τ}

def changesProtocol (c : Call ε τ) : Bool :=
  match c.operation, c.reply with
  | .command _ _ (.changeSettings (.protocol _)), .command (.ok _) => true
  | _, _ => false

theorem quorate_after (h : c.before.Quorate) (fixed : c.changesProtocol = false) :
    c.after.Quorate := by
  obtain ⟨s, o⟩ := c
  cases o with
  | command authorizer caller command =>
      rcases s.perform_command (ε := ε) (τ := τ) authorizer caller command with
        ⟨e, hperform⟩ | ⟨reply, s', -, executed, hperform⟩
      · rw [after, hperform]
        exact h
      · have hreply := congrArg Prod.fst hperform
        rw [after, hperform]
        refine h.execute executed ?_
        rintro changes rfl
        rw [changesProtocol, Call.reply, hreply] at fixed
        cases fixed
  | act | deposit | setProfile | withdraw => exact h.perform_of_ne_command (by simp)

theorem Enters.quorate (h : c.Enters .booting) : c.after.Quorate := by
  obtain ⟨_, _, _, -, -, admits⟩ := h.asked
  cases admits with
  | goBooting _ validators =>
      rw [h.after]
      exact fun _ => validators

end Call

namespace Anchor

variable {s : Anchor}

theorem quorate_of_mem_trace (h : s.Quorate) {ops : List (Operation ε τ)}
    (fixed : ∀ d ∈ s.trace ops, d.changesProtocol = false) :
    ∀ d ∈ s.trace ops, d.after.Quorate := by
  obtain ⟨hbetween, -⟩ :=
    invariant_of_calls (fun c hfixed hbefore => Call.quorate_after hbefore hfixed) ops fixed h
  exact fun d hd => (hbetween d hd).2

/-- From the call that starts the booting on, and as long as no protocol setting is changed, an
appchain that boots or runs has its minimum number of validators. -/
theorem quorum_kept {s : Anchor} {ops : List (Operation ε τ)} {c : Call ε τ}
    {earlier later : List (Call ε τ)} (split : s.trace ops = earlier ++ c :: later)
    (boots : c.Enters .booting) (fixed : ∀ d ∈ later, d.changesProtocol = false) :
    ∀ d ∈ c :: later, d.after.phase = .booting ∨ d.after.phase = .active →
      d.after.settings.protocol.minimumValidatorCount.toNat ≤ d.after.ledger.validatorCount := by
  obtain ⟨ops', rfl⟩ := eq_trace_of_trace_eq_append split
  exact List.forall_mem_cons.2 ⟨boots.quorate, quorate_of_mem_trace boots.quorate fixed⟩

end Anchor

open SampleRun in
/-- Of the two validators of the launch one may leave while the appchain runs, and the other may not
before it breaks. -/
theorem Anchor.quorum_kept_launch :
    ∃ earlier c later, anchor.trace launch = earlier ++ c :: later ∧ c.Enters .booting ∧
      (∀ d ∈ later, d.changesProtocol = false) ∧
      (∀ d ∈ c :: later, d.after.phase = .booting ∨ d.after.phase = .active →
        d.after.settings.protocol.minimumValidatorCount.toNat ≤ d.after.ledger.validatorCount) ∧
      later.map (·.after.ledger.validatorCount) = [2, 2, 2, 2, 1, 1, 1, 1, 0] := by
  have split := trace_append anchor (launch.take 3) (launch.drop 3)
  have boots : (Call.mk (anchor.run (launch.take 3)) (governed .goBooting)).Enters .booting :=
    Call.enters_of_phase_ne (c := ⟨anchor.run (launch.take 3), governed .goBooting⟩)
      (by decide +kernel) (by decide +kernel)
  have fixed : ∀ d ∈ (anchor.run (launch.take 4)).trace (launch.drop 4),
      d.changesProtocol = false := by
    decide +kernel
  exact ⟨_, _, _, split, boots, fixed, quorum_kept split boots fixed, by decide +kernel⟩

end AppchainStaking
