import AppchainStaking.Proofs.Anchor.Privilege
import AppchainStaking.Proofs.Ledger.Exit

/-!
# The lifecycle gates stake

Three commands change the phase, and each leads further on. While the appchain boots no staking
action is permitted, so the stake that let it boot is the stake with which it starts to run. On a
broken appchain only exits are permitted, so from then on there is less and less stake.
-/

namespace AppchainStaking

variable {ε τ : Type}

def Phase.rank : Phase → Nat
  | staging => 0
  | booting => 1
  | active => 2
  | broken => 3

theorem Phase.rank_inj {p q : Phase} (h : p.rank = q.rank) : p = q := by
  cases p <;> cases q <;> first | rfl | cases h

theorem Phase.rank_le (p : Phase) : p.rank ≤ rank .broken := by
  cases p <;> decide

theorem Phase.allowsUnbonding_of_allowsStaking {p : Phase} (h : p.allowsStaking) :
    p.allowsUnbonding := by
  cases p with
  | staging | active => rfl
  | booting | broken => cases h

namespace Ledger

variable {l l' : Ledger}

def withoutProfiles (l : Ledger) : Ledger :=
  { l with validators := l.validators.map ({ · with profile := [] }) }

theorem withoutProfiles_updateValidator (l : Ledger) (v : AccountId)
    (profile : List ProfileEntry) :
    (l.updateValidator v ({ · with profile })).withoutProfiles = l.withoutProfiles := by
  have hvalidators := map_updateFirst (g := ({ · with profile := [] }))
    (p := (·.id = v)) (f := ({ · with profile })) (fun _ => rfl) l.validators
  exact congrArg ({ l with validators := · }) hvalidators

theorem totalStake_withoutProfiles (l : Ledger) : l.withoutProfiles.totalStake = l.totalStake := by
  simp only [totalStake, withoutProfiles, live, List.map_map]
  rfl

theorem validatorCount_withoutProfiles (l : Ledger) :
    l.withoutProfiles.validatorCount = l.validatorCount :=
  List.length_map _

theorem totalStake_eq_of_withoutProfiles (h : l'.withoutProfiles = l.withoutProfiles) :
    l'.totalStake = l.totalStake := by
  rw [← totalStake_withoutProfiles, h, totalStake_withoutProfiles]

theorem validatorCount_eq_of_withoutProfiles (h : l'.withoutProfiles = l.withoutProfiles) :
    l'.validatorCount = l.validatorCount := by
  rw [← validatorCount_withoutProfiles, h, validatorCount_withoutProfiles]

theorem Shrinks.of_withoutProfiles (h : l'.withoutProfiles = l.withoutProfiles) : l.Shrinks l' where
  totalStake := Nat.le_of_eq (totalStake_eq_of_withoutProfiles h)
  validatorCount := Nat.le_of_eq (validatorCount_eq_of_withoutProfiles h)
  delegatorCount := by
    have hdelegations : l'.delegations = l.delegations := (Ledger.mk.inj h).2
    have hlive : l'.live = l.live := by rw [live, live, hdelegations]
    exact Nat.le_of_eq (congrArg List.length hlive)

end Ledger

theorem StakingAction.isExit_of_ofMessage {amount : Amount} {message : String}
    {action : StakingAction} (h : ofMessage amount message = .ok action) :
    action.isExit = false := by
  obtain ⟨intent, -, h⟩ := bind_eq_ok_iff.1 h
  cases intent <;> simp only [Intent.action, bind_eq_ok_iff, pure_eq_ok_iff] at h
  case registerValidator | increaseStake =>
    cases h
    rfl
  case registerDelegator | increaseDelegation =>
    obtain ⟨_, -, rfl⟩ := h
    rfl

theorem Operation.eq_act_of_isExit {o : Operation ε τ} {action : StakingAction}
    (asked : o.action? = some action) (exit : action.isExit) :
    ∃ now, o = .act o.caller now action := by
  cases o with
  | act caller now =>
      cases asked
      exact ⟨now, rfl⟩
  | deposit sender now amount message =>
      rw [StakingAction.isExit_of_ofMessage (toOption_eq_some_iff.1 asked)] at exit
      cases exit
  | setProfile | withdraw | command => cases asked

namespace Anchor

variable {s s' s'' : Anchor} {caller : AccountId} {action : StakingAction}

structure Permits (s : Anchor) (action : StakingAction) : Prop where
  unbonding : s.phase.allowsUnbonding
  staking : action.isExit ∨ s.phase.allowsStaking
  /-- While the appchain runs, a validator leaves more than enough others behind. -/
  quorum : action = .unbondStake → s.phase = .active →
    s.settings.protocol.minimumValidatorCount.toNat < s.ledger.validatorCount

theorem permits_of_permit {u : Unit} (h : s.permit caller action = .ok u) : s.Permits action := by
  cases action with
  | unbondStake =>
      simp only [permit, bind_eq_ok_iff, Phase.demandUnbonding, require_eq_ok_iff] at h
      obtain ⟨_, unbonding, _, -, quorum⟩ := h
      exact ⟨unbonding, .inl rfl, fun _ => quorum⟩
  | unbondDelegation v =>
      simp only [permit, Phase.demandUnbonding, require_eq_ok_iff] at h
      exact ⟨h, .inl rfl, fun h => (by cases h)⟩
  | registerValidator | increaseStake | decreaseStake | setDelegable | registerDelegator
  | increaseDelegation | decreaseDelegation =>
      simp only [permit, Phase.demandStaking, require_eq_ok_iff] at h
      exact ⟨Phase.allowsUnbonding_of_allowsStaking h, .inr h, fun h => (by cases h)⟩

/-- An action would need a phase in which positions may be left. -/
theorem not_permit_of_booting (booting : s.phase = .booting) :
    s.permit caller action ≠ .ok () := by
  intro permitted
  have unbonding := (permits_of_permit permitted).unbonding
  rw [booting] at unbonding
  cases unbonding

theorem Unrecorded.not_booting {o : Operation ε τ} {reply : Reply ε τ}
    (h : Unrecorded s o reply s') : s.phase ≠ .booting := by
  cases h with
  | intro _ permitted => exact fun booting => not_permit_of_booting booting permitted

/-- What has to hold of an anchor for a command to bring it into a phase. -/
inductive Admits (s : Anchor) : Command → Phase → Prop
  | goBooting {value : Nat}
      (staging : s.phase = .staging)
      (validators : s.settings.protocol.minimumValidatorCount.toNat ≤ s.ledger.validatorCount)
      (valued : s.stakeToken.valueOf s.ledger.totalStake = .ok value)
      (worth : s.settings.protocol.minimumTotalStakePriceForBooting.toNat ≤ value) :
      Admits s .goBooting .booting
  | goLive (booting : s.phase = .booting) (configured : s.wrappedToken.isConfigured) :
      Admits s .goLive .active
  | goBroken (running : s.phase = .booting ∨ s.phase = .active) : Admits s .goBroken .broken

theorem Admits.capability_eq {c : Command} {p : Phase} (h : s.Admits c p) :
    c.capability = .governance := by
  cases h <;> rfl

theorem Admits.rank_lt {c : Command} {p : Phase} (h : s.Admits c p) :
    s.phase.rank < p.rank := by
  cases h with
  | goBooting staging =>
      rw [staging]
      decide
  | goLive booting =>
      rw [booting]
      decide
  | goBroken running =>
      rcases running with hphase | hphase <;> rw [hphase] <;> decide

/-- A command leaves the phase as it is, or does nothing but change it. -/
theorem execute_phase {c : Command} {reply : CommandReply} (h : s.execute c = .ok (reply, s')) :
    s'.phase = s.phase ∨ ∃ p, s.Admits c p ∧ reply = .phase p ∧ s' = { s with phase := p } := by
  cases c <;>
    simp only [execute, Phase.boot, Phase.goLive, Phase.goBroken, bind_eq_ok_iff, pure_eq_ok_iff,
      require_eq_ok_iff, Prod.mk.injEq] at h
  case goBooting =>
    obtain ⟨_, ⟨_, staging, _, validators, value, valued, _, worth, rfl⟩, rfl, rfl⟩ := h
    exact .inr ⟨_, .goBooting staging validators valued worth, rfl, rfl⟩
  case goLive =>
    obtain ⟨_, ⟨_, booting, _, configured, rfl⟩, rfl, rfl⟩ := h
    exact .inr ⟨_, .goLive booting configured, rfl, rfl⟩
  case goBroken =>
    obtain ⟨_, ⟨_, running, rfl⟩, rfl, rfl⟩ := h
    exact .inr ⟨_, .goBroken running, rfl, rfl⟩
  case changeSettings | changeWrappedToken | switchEra =>
    obtain ⟨_, _, _, rfl⟩ := h
    exact .inl rfl
  case setOwner | setPrice | pauseTransfers =>
    obtain ⟨_, rfl⟩ := h
    exact .inl rfl

theorem phase_perform_of_ne_command (s : Anchor) {o : Operation ε τ}
    (h : ∀ authorizer caller c, o ≠ .command authorizer caller c) :
    (s.perform o).2.phase = s.phase := by
  obtain ⟨ledger, history, unbonding, hperform⟩ := s.perform_of_ne_command h
  rw [hperform]

/-- Stake stood still between two states: the ledgers differ in profiles at most, nothing was
recorded, and no entry came into the queue. -/
structure StandsStill (s s' : Anchor) : Prop where
  ledger : s'.ledger.withoutProfiles = s.ledger.withoutProfiles
  history : s'.history = s.history
  unbonding : s'.unbonding.pairs.Sublist s.unbonding.pairs

theorem StandsStill.refl (s : Anchor) : s.StandsStill s := ⟨rfl, rfl, .refl _⟩

theorem StandsStill.trans (h : s.StandsStill s') (h' : s'.StandsStill s'') : s.StandsStill s'' :=
  ⟨h'.ledger.trans h.ledger, h'.history.trans h.history, h'.unbonding.trans h.unbonding⟩

theorem standsStill_of_execute {c : Command} {reply : CommandReply}
    (h : s.execute c = .ok (reply, s')) : s.StandsStill s' := by
  obtain ⟨hledger, hhistory, hunbonding, -⟩ := execute_frame h
  exact ⟨by rw [hledger], hhistory, hunbonding ▸ .refl _⟩

/-- While the appchain boots, an operation leaves stake as it stands. -/
theorem Effect.standsStill {o : Operation ε τ} {reply : Reply ε τ} (h : Effect s o reply s')
    (booting : s.phase = .booting) : s.StandsStill s' := by
  cases h with
  | recorded _ permitted => exact absurd permitted (not_permit_of_booting booting)
  | profileSet => exact ⟨Ledger.withoutProfiles_updateValidator _ _ _, rfl, .refl _⟩
  | paid => exact ⟨rfl, rfl, Grouped.pairs_drop_sublist _ _ _⟩
  | commanded _ executed => exact standsStill_of_execute executed
  | unchanged => exact .refl _

/-- What an operation on a broken anchor can do: nothing comes to count more, and only an exit
that is asked for directly succeeds and is recorded. -/
structure WindsUp (s : Anchor) (o : Operation ε τ) (reply : Reply ε τ) (s' : Anchor) : Prop where
  shrinks : s.ledger.Shrinks s'.ledger
  exits : ∀ r, reply.record? = some r →
    r.fact.isExit ∧ ∃ caller now action, o = .act caller now action ∧ action.isExit

/-- On a broken anchor what is permitted is an exit, and it was asked for directly. -/
theorem exit_of_broken {o : Operation ε τ} (broken : s.phase = .broken)
    (asked : o.action? = some action) (permitted : s.permit o.caller action = .ok ()) :
    action.isExit ∧ ∃ caller now, o = .act caller now action := by
  have exit : action.isExit := by
    rcases (permits_of_permit permitted).staking with exit | staking
    · exact exit
    · rw [broken] at staking
      cases staking
  exact ⟨exit, o.caller, Operation.eq_act_of_isExit asked exit⟩

theorem Effect.windsUp {o : Operation ε τ} {reply : Reply ε τ} (h : Effect s o reply s')
    (broken : s.phase = .broken) : WindsUp s o reply s' := by
  cases h with
  | recorded asked permitted step =>
      obtain ⟨exit, caller, now, rfl⟩ := exit_of_broken broken asked permitted
      refine ⟨step.shrinks exit, ?_⟩
      rintro r hr
      cases hr
      exact ⟨step.isExit_eq.trans exit, _, _, _, rfl, exit⟩
  | profileSet =>
      refine ⟨?_, fun r hr => (by cases hr)⟩
      exact .of_withoutProfiles (Ledger.withoutProfiles_updateValidator _ _ _)
  | paid => exact ⟨.refl _, fun r hr => (by cases hr)⟩
  | commanded _ executed =>
      refine ⟨?_, fun r hr => (by cases hr)⟩
      rw [(execute_frame executed).1]
      exact .refl _
  | unchanged unrecorded =>
      exact ⟨.refl _, fun r hr => (by cases unrecorded.symm.trans hr)⟩

/-- An exit that goes unrecorded takes its record off the ledger all the same. -/
theorem Unrecorded.windsUp {o : Operation ε τ} {reply : Reply ε τ} (h : Unrecorded s o reply s')
    (broken : s.phase = .broken) : WindsUp s o reply s' := by
  cases h with
  | intro asked permitted step =>
      have exit := (exit_of_broken broken asked permitted).1
      exact ⟨step.shrinks exit, fun r hr => (by cases hr)⟩

end Anchor

namespace Call

variable {c : Call ε τ}

/-- The call is a command that brings the appchain into phase `p`, and does nothing else. -/
structure Enters (c : Call ε τ) (p : Phase) : Prop where
  asked : ∃ authorizer caller command, c.operation = .command authorizer caller command ∧
    authorizer caller .governance ∧ c.before.Admits command p
  answered : c.reply = .command (.ok (.phase p))
  after : c.after = { c.before with phase := p }

theorem Enters.rank_lt {p : Phase} (h : c.Enters p) : c.before.phase.rank < p.rank := by
  obtain ⟨_, _, _, -, -, admits⟩ := h.asked
  exact admits.rank_lt

/-- The phase is as before, unless the call entered another one. -/
theorem phase_eq_or_enters (c : Call ε τ) :
    c.after.phase = c.before.phase ∨ ∃ p, c.Enters p := by
  obtain ⟨s, o⟩ := c
  cases o with
  | command authorizer caller command =>
      rcases s.perform_command (ε := ε) (τ := τ) authorizer caller command with
        ⟨e, hperform⟩ | ⟨reply, s', authorized, executed, hperform⟩
      · exact .inl (congrArg (·.2.phase) hperform)
      · rcases Anchor.execute_phase executed with hphase | ⟨p, admits, rfl, rfl⟩
        · exact .inl ((congrArg (·.2.phase) hperform).trans hphase)
        · rw [admits.capability_eq] at authorized
          exact .inr ⟨p, ⟨_, _, _, rfl, authorized, admits⟩, congrArg Prod.fst hperform,
            congrArg Prod.snd hperform⟩
  | act | deposit | setProfile | withdraw =>
      exact .inl (Anchor.phase_perform_of_ne_command s (by simp))

theorem enters_of_phase_ne {p : Phase} (hafter : c.after.phase = p) (hbefore : c.before.phase ≠ p) :
    c.Enters p := by
  rcases c.phase_eq_or_enters with hsame | ⟨q, henters⟩
  · exact absurd (hsame.symm.trans hafter) hbefore
  · have hphase : c.after.phase = q := by rw [henters.after]
    rwa [hphase.symm.trans hafter] at henters

theorem rank_le (c : Call ε τ) : c.before.phase.rank ≤ c.after.phase.rank := by
  rcases c.phase_eq_or_enters with hphase | ⟨p, henters⟩
  · exact Nat.le_of_eq (by rw [hphase])
  · rw [henters.after]
    exact Nat.le_of_lt henters.rank_lt

theorem standsStill_of_booting (booting : c.before.phase = .booting) :
    c.before.StandsStill c.after := by
  rcases Anchor.perform_outcome c.before c.operation with heffect | hunrecorded
  · exact heffect.standsStill booting
  · exact absurd booting hunrecorded.not_booting

theorem windsUp_of_broken (broken : c.before.phase = .broken) :
    Anchor.WindsUp c.before c.operation c.reply c.after := by
  rcases Anchor.perform_outcome c.before c.operation with heffect | hunrecorded
  · exact heffect.windsUp broken
  · exact hunrecorded.windsUp broken

end Call

namespace Anchor

variable {s : Anchor}

theorem run_append (s : Anchor) (first second : List (Operation ε τ)) :
    s.run (first ++ second) = (s.run first).run second := by
  induction first generalizing s with
  | nil => rfl
  | cons o first ih => exact ih _

theorem trace_append (s : Anchor) (first second : List (Operation ε τ)) :
    s.trace (first ++ second) = s.trace first ++ (s.run first).trace second := by
  induction first generalizing s with
  | nil => rfl
  | cons o first ih => exact congrArg (⟨s, o⟩ :: ·) (ih _)

/-- What follows a call in a run is a run from where the call led. -/
theorem eq_trace_of_trace_eq_append {ops : List (Operation ε τ)} {c : Call ε τ}
    {earlier later : List (Call ε τ)} (h : s.trace ops = earlier ++ c :: later) :
    ∃ ops', later = c.after.trace ops' := by
  induction earlier generalizing s ops with
  | nil =>
      cases ops with
      | nil => cases h
      | cons o ops =>
          obtain ⟨rfl, rfl⟩ := List.cons.inj h
          exact ⟨ops, rfl⟩
  | cons _ _ ih =>
      cases ops with
      | nil => cases h
      | cons o ops => exact ih (List.cons.inj h).2

/-- No phase comes back. -/
theorem rank_le_of_mem_trace (ops : List (Operation ε τ)) :
    ∀ d ∈ s.trace ops, s.phase.rank ≤ d.before.phase.rank := by
  induction ops generalizing s with
  | nil => simp [trace]
  | cons o ops ih =>
      rintro d (_ | ⟨_, hd⟩)
      · exact Nat.le_refl _
      · exact Nat.le_trans (Call.mk s o).rank_le (ih d hd)

/-- As long as the appchain boots, stake stands as it stood in the beginning. -/
theorem standsStill_of_mem_trace (booting : s.phase = .booting) (ops : List (Operation ε τ)) :
    ∀ d ∈ s.trace ops, d.before.phase = .booting → s.StandsStill d.after := by
  induction ops generalizing s with
  | nil => simp [trace]
  | cons o ops ih =>
      have hfirst : s.StandsStill (s.perform o).2 :=
        Call.standsStill_of_booting (c := ⟨s, o⟩) booting
      rintro d (_ | ⟨_, hd⟩) hbooting
      · exact hfirst
      · -- A call that left the phase would have led beyond it for good.
        have hstays : (s.perform o).2.phase = .booting := by
          have hbefore := (Call.mk s o).rank_le
          have hafter := rank_le_of_mem_trace ops d hd
          rw [hbooting] at hafter
          rw [booting] at hbefore
          exact Phase.rank_inj (Nat.le_antisymm hafter hbefore)
        exact hfirst.trans (ih hstays d hd hbooting)

theorem broken_of_mem_trace (broken : s.phase = .broken) (ops : List (Operation ε τ)) :
    ∀ d ∈ s.trace ops, d.before.phase = .broken := by
  intro d hd
  have hrank := rank_le_of_mem_trace ops d hd
  rw [broken] at hrank
  exact Phase.rank_inj (Nat.le_antisymm d.before.phase.rank_le hrank)

/-- The phase changes only by the three commands that lead further on. From the call that starts
the booting until that phase is left, stake stands still, so total stake and validator count are
those that admitted the booting. From the call that breaks the appchain on it stays broken, nothing
comes to count more, and only exits succeed and are recorded. -/
theorem lifecycle_gates_stake (s : Anchor) (ops : List (Operation ε τ)) :
    (∀ c ∈ s.trace ops, c.after.phase = c.before.phase ∨ ∃ p, c.Enters p) ∧
      (∀ earlier c later, s.trace ops = earlier ++ c :: later → c.Enters .booting →
        ∀ d ∈ later, d.before.phase = .booting →
          c.after.StandsStill d.after ∧
            d.after.ledger.totalStake = c.before.ledger.totalStake ∧
            d.after.ledger.validatorCount = c.before.ledger.validatorCount) ∧
      ∀ earlier c later, s.trace ops = earlier ++ c :: later → c.Enters .broken →
        ∀ d ∈ later, d.after.phase = .broken ∧
          WindsUp d.before d.operation d.reply d.after := by
  refine ⟨fun c _ => c.phase_eq_or_enters, ?_, ?_⟩
  · intro earlier c later hsplit henters d hd hbooting
    obtain ⟨ops', rfl⟩ := eq_trace_of_trace_eq_append hsplit
    have hbooted : c.after.phase = .booting := by rw [henters.after]
    have hledger : c.after.ledger = c.before.ledger := by rw [henters.after]
    have hstill := standsStill_of_mem_trace hbooted ops' d hd hbooting
    have htotal := Ledger.totalStake_eq_of_withoutProfiles hstill.ledger
    have hcount := Ledger.validatorCount_eq_of_withoutProfiles hstill.ledger
    rw [hledger] at htotal hcount
    exact ⟨hstill, htotal, hcount⟩
  · intro earlier c later hsplit henters d hd
    obtain ⟨ops', rfl⟩ := eq_trace_of_trace_eq_append hsplit
    have hbroke : c.after.phase = .broken := by rw [henters.after]
    have hbroken := broken_of_mem_trace hbroke ops' d hd
    have hafter := d.rank_le
    rw [hbroken] at hafter
    exact ⟨Phase.rank_inj (Nat.le_antisymm d.after.phase.rank_le hafter),
      Call.windsUp_of_broken hbroken⟩

end Anchor

namespace SampleRun

def second : AccountId := account 6

def governed (c : Command) : Operation Unit Unit :=
  .command anchor.roles.authorize owner c

def lenient : List ProtocolChange :=
  [.minimumValidatorCount 1, .minimumTotalStakePriceForBooting 0]

def wrappedToken : List WrappedTokenChange :=
  [.metadata { name := "Sample", symbol := "SMP", decimals := 9 }, .contract (account 7),
    .preminedBalance (account 8) 1]

/-- An appchain boots with two validators, goes live and breaks. -/
def launch : List (Operation Unit Unit) :=
  [governed (.changeSettings (.protocol lenient)),
    .act validator 10 (.registerValidator
      "0x1111111111111111111111111111111111111111111111111111111111111111" 6000 true .empty),
    .act second 11 (.registerValidator
      "0x2222222222222222222222222222222222222222222222222222222222222222" 6000 true .empty),
    governed .goBooting,
    .deposit validator 12 100 "\"IncreaseStake\"",
    governed .goLive,
    governed (.changeWrappedToken wrappedToken),
    governed .goLive,
    .act validator 13 .unbondStake,
    .act second 14 .unbondStake,
    governed .goBroken,
    .deposit second 15 100 "\"IncreaseStake\"",
    .act second 16 .unbondStake]

end SampleRun

open SampleRun in
/-- The launch goes live with the stake of its two validators, and an exit is all that succeeds once
it has broken. -/
theorem Anchor.lifecycle_gates_stake_launch :
    (∃ earlier c later, anchor.trace launch = earlier ++ c :: later ∧ c.Enters .booting ∧
      ∃ d ∈ later, d.before.phase = .booting ∧ d.after.phase = .active ∧
        c.after.StandsStill d.after ∧ d.after.ledger.totalStake = 12000) ∧
      ∃ earlier c later, anchor.trace launch = earlier ++ c :: later ∧ c.Enters .broken ∧
        (∀ d ∈ later, WindsUp d.before d.operation d.reply d.after) ∧
        later.map (·.after.ledger.totalStake) = [6000, 0] := by
  obtain ⟨-, hbooting, hbroken⟩ := lifecycle_gates_stake anchor launch
  constructor
  · have split := trace_append anchor (launch.take 3) (launch.drop 3)
    have boots : (Call.mk (anchor.run (launch.take 3)) (governed .goBooting)).Enters .booting :=
      Call.enters_of_phase_ne (c := ⟨anchor.run (launch.take 3), governed .goBooting⟩)
        (by decide +kernel) (by decide +kernel)
    have lives : ((anchor.run (launch.take 4)).trace (launch.drop 4)).any fun d =>
        d.before.phase = .booting ∧ d.after.phase = .active ∧
          d.after.ledger.totalStake = 12000 := by
      decide +kernel
    obtain ⟨d, hd, hlives⟩ := List.any_eq_true.1 lives
    obtain ⟨hbefore, hafter, htotal⟩ := of_decide_eq_true hlives
    obtain ⟨still, -⟩ := hbooting _ _ _ split boots d hd hbefore
    exact ⟨_, _, _, split, boots, d, hd, hbefore, hafter, still, htotal⟩
  · have split := trace_append anchor (launch.take 10) (launch.drop 10)
    have breaks : (Call.mk (anchor.run (launch.take 10)) (governed .goBroken)).Enters .broken :=
      Call.enters_of_phase_ne (c := ⟨anchor.run (launch.take 10), governed .goBroken⟩)
        (by decide +kernel) (by decide +kernel)
    exact ⟨_, _, _, split, breaks, fun d hd => (hbroken _ _ _ split breaks d hd).2,
      by decide +kernel⟩

end AppchainStaking
