import AppchainStaking.Proofs.Anchor.Effect
import AppchainStaking.Proofs.Ledger.InPlace

/-!
# Writing on the anchor

The operations as procedures on one anchor, with every part changed where it stands and in the
order in which the steps of an operation come. Each of them does what the operation is said to do,
also when it fails.
-/

namespace AppchainStaking

open Procedure

variable {ε τ : Type}

def ProtocolSettings.applyInPlace (c : ProtocolChange) :
    Procedure StakingError ProtocolSettings Unit := do
  let next := (← get).set c
  demand next.Valid .invalidValue
  modify fun _ => next

def AppchainSettings.applyInPlace (c : AppchainChange) :
    Procedure StakingError AppchainSettings Unit := do
  demand c.Fits .invalidValue
  modify (·.set c)

def WrappedToken.applyInPlace : WrappedTokenChange → Procedure StakingError WrappedToken Unit
  | .metadata value => do
      demand value.Fits .invalidValue
      modify ({ · with metadata := value })
  | .contract account => modify ({ · with contract := some account })
  | .preminedBalance beneficiary value => do
      modify ({ · with preminedBeneficiary := some beneficiary })
      modify ({ · with preminedBalance := value })
  | .price value => modify ({ · with price := value })

def Phase.bootInPlace (settings : ProtocolSettings) (token : StakeToken) (next : Projection) :
    Procedure StakingError Phase Unit := do
  demand ((← get) = staging) .invalidState
  demand (settings.minimumValidatorCount.toNat ≤ next.validatorCount) .preconditionNotMet
  let value ← check (token.valueOf next.totalStake)
  demand (settings.minimumTotalStakePriceForBooting.toNat ≤ value) .preconditionNotMet
  modify fun _ => booting

def Phase.goLiveInPlace (token : WrappedToken) : Procedure StakingError Phase Unit := do
  demand ((← get) = booting) .invalidState
  demand token.isConfigured .preconditionNotMet
  modify fun _ => active

def Phase.goBrokenInPlace : Procedure StakingError Phase Unit := do
  let p ← get
  demand (p = booting ∨ p = active) .invalidState
  modify fun _ => broken

theorem ProtocolSettings.exec_applyInPlace (c : ProtocolChange) (s : ProtocolSettings) :
    exec (applyInPlace c) s = update s (s.apply c) := by
  by_cases h : (s.set c).Valid <;> simp [applyInPlace, apply, require, update, h]

theorem AppchainSettings.exec_applyInPlace (c : AppchainChange) (s : AppchainSettings) :
    exec (applyInPlace c) s = update s (s.apply c) := by
  by_cases h : c.Fits <;> simp [applyInPlace, apply, require, update, h]

theorem WrappedToken.exec_applyInPlace (c : WrappedTokenChange) (t : WrappedToken) :
    exec (applyInPlace c) t = update t (t.apply c) := by
  cases c with
  | metadata value =>
      by_cases h : value.Fits <;> simp [applyInPlace, apply, require, update, h]
  | contract | preminedBalance | price => rfl

theorem Phase.exec_bootInPlace (settings : ProtocolSettings) (token : StakeToken)
    (next : Projection) (p : Phase) :
    exec (bootInPlace settings token next) p = update p (p.boot settings token next) := by
  simp [bootInPlace, boot]

theorem Phase.exec_goLiveInPlace (token : WrappedToken) (p : Phase) :
    exec (goLiveInPlace token) p = update p (p.goLive token) := by
  simp [goLiveInPlace, goLive]

theorem Phase.exec_goBrokenInPlace (p : Phase) :
    exec goBrokenInPlace p = update p p.goBroken := by
  simp [goBrokenInPlace, goBroken]

/-- A withdrawal ends in failure if it is refused or if its transfer fails. -/
def Withdrawal.outcome : Withdrawal ε τ → Except (Withdrawal ε τ) (Withdrawal ε τ)
  | refused reason => .error (refused reason)
  | nothingDue => .ok nothingDue
  | rejected amount reason => .error (rejected amount reason)
  | paid amount receipt => .ok (paid amount receipt)

def UnbondingQueue.withdrawInPlace (a : AccountId) (era : UInt64)
    (transfer : Amount → Except ε τ) :
    Procedure (Withdrawal ε τ) UnbondingQueue (Withdrawal ε τ) := do
  let amount ← check (((← get).maturedAmount a era).mapError .refused)
  if amount = 0 then return .nothingDue
  let receipt ← check ((transfer amount).mapError (.rejected amount))
  modify (Grouped.drop (·.isMature era) · a)
  return .paid amount receipt

theorem UnbondingQueue.exec_withdrawInPlace (a : AccountId) (era : UInt64)
    (transfer : Amount → Except ε τ) (q : UnbondingQueue) :
    exec (withdrawInPlace a era transfer) q =
      ((q.withdraw a era transfer).1.outcome, (q.withdraw a era transfer).2) := by
  rw [withdrawInPlace, exec_get_bind, exec_check_bind, withdraw, withdrawM]
  cases q.maturedAmount a era with
  | error e => rfl
  | ok amount =>
      have hdue : (Except.ok amount).mapError Withdrawal.refused =
          (.ok amount : Except (Withdrawal ε τ) Amount) := rfl
      simp only [hdue, proceed_ok]
      by_cases nothing : amount = 0
      · rw [if_pos nothing, if_pos nothing]
        rfl
      · rw [if_neg nothing, if_neg nothing, pure_bind, exec_check_bind]
        cases transfer amount with
        | error e => rfl
        | ok receipt => rfl

/-- Numbers a fact: the numbers move on, and then the number is filed under its account. -/
def HistoryLog.appendInPlace (fact : Fact) (now : Int64) (era : UInt64) :
    Procedure StakingError HistoryLog HistoryRecord := do
  let index := (← get).next
  demand (index.toNat + 1 < UInt64.size) .indexOutOfRange
  modify ({ · with next := index + 1 })
  modify fun log => { log with indexes := log.indexes.push fact.actor index }
  return { index, fact, timestamp := now, era }

theorem HistoryLog.exec_appendInPlace (fact : Fact) (now : Int64) (era : UInt64)
    (log : HistoryLog) :
    exec (appendInPlace fact now era) log =
      commit log ((log.append fact now era).map Prod.swap) := by
  by_cases room : log.next.toNat + 1 < UInt64.size
  · simp only [appendInPlace, append, exec_get_bind, exec_demand_bind, require, room, if_true,
      proceed_ok]
    rfl
  · simp only [appendInPlace, append, exec_get_bind, exec_demand_bind, require, room, if_false,
      proceed_error]
    rfl

namespace Anchor

def recordInPlace (fact : Fact) (now : Int64) : Procedure StakingError Anchor HistoryRecord := do
  let r ← on (·.history) (fun s history => { s with history })
    (HistoryLog.appendInPlace fact now (← get).era)
  modify fun s => { s with unbonding := s.queue r }
  return r

def actInPlace (caller : AccountId) (now : Int64) (action : StakingAction) :
    Procedure StakingError Anchor HistoryRecord := do
  let s ← get
  check (s.permit caller action)
  let fact ← on (·.ledger) (fun s ledger => { s with ledger })
    (Ledger.actInPlace s.rules caller action)
  recordInPlace fact now

def depositInPlace (sender : AccountId) (amount : Amount) (message : String) (now : Int64) :
    Procedure StakingError Anchor HistoryRecord := do
  let action ← check (StakingAction.ofMessage amount message)
  actInPlace sender now action

def setProfileInPlace (caller : AccountId) (entries : List ProfileEntry) :
    Procedure StakingError Anchor Unit := do
  let profile := Profile.ofEntries entries
  demand (profile.entries.length = entries.length) .invalidValue
  on (·.ledger) (fun s ledger => { s with ledger }) (Ledger.setProfileInPlace caller profile)

def withdrawInPlace (caller : AccountId) (transfer : Amount → Except ε τ) :
    Procedure (Withdrawal ε τ) Anchor (Withdrawal ε τ) := do
  let s ← get
  demand (s.transfersPaused = false) (.refused .transfersPaused)
  on (·.unbonding) (fun s unbonding => { s with unbonding })
    (UnbondingQueue.withdrawInPlace caller s.era transfer)

theorem exec_recordInPlace (fact : Fact) (now : Int64) (s : Anchor) :
    exec (recordInPlace fact now) s = s.record fact now := by
  rw [recordInPlace, exec_get_bind,
    exec_on_bind (HistoryLog.exec_appendInPlace fact now s.era s.history) rfl, record]
  cases s.history.append fact now s.era with
  | error e => rfl
  | ok x => rfl

theorem exec_actInPlace (caller : AccountId) (now : Int64) (action : StakingAction) (s : Anchor) :
    exec (actInPlace caller now action) s = s.act caller now action := by
  rw [actInPlace, exec_get_bind, exec_check_bind, act, attempt]
  cases s.permit caller action with
  | error e => rfl
  | ok u =>
      rw [proceed_ok, exec_on_bind (Ledger.exec_actInPlace action) rfl]
      cases s.ledger.act s.rules caller action with
      | error e => rfl
      | ok x => exact exec_recordInPlace ..

theorem exec_depositInPlace (sender : AccountId) (amount : Amount) (message : String)
    (now : Int64) (s : Anchor) :
    exec (depositInPlace sender amount message now) s = s.deposit sender amount message now := by
  rw [depositInPlace, exec_check_bind, deposit]
  cases StakingAction.ofMessage amount message with
  | error e => rw [proceed_error]
  | ok action => rw [proceed_ok, exec_actInPlace]

theorem exec_setProfileInPlace (caller : AccountId) (entries : List ProfileEntry) (s : Anchor) :
    exec (setProfileInPlace caller entries) s = update s (s.setProfile caller entries) := by
  rw [setProfileInPlace, exec_demand_bind, setProfile]
  cases require ((Profile.ofEntries entries).entries.length = entries.length)
      StakingError.invalidValue with
  | error e => rfl
  | ok u =>
      rw [proceed_ok, exec_on, Ledger.exec_setProfileInPlace]
      cases s.ledger.setProfile caller (Profile.ofEntries entries) with
      | error e => rfl
      | ok l => rfl

theorem exec_withdrawInPlace (caller : AccountId) (transfer : Amount → Except ε τ) (s : Anchor) :
    exec (withdrawInPlace caller transfer) s =
      ((s.withdraw caller transfer).1.outcome, (s.withdraw caller transfer).2) := by
  rw [withdrawInPlace, exec_get_bind, exec_demand_bind]
  by_cases running : s.transfersPaused = false
  · have hwithdraw : s.withdraw caller transfer =
        (s.unbonding.withdraw caller s.era transfer).map id fun unbonding =>
          { s with unbonding } := by
      rw [withdraw, withdrawM, if_neg (by simp [running])]
      rfl
    rw [require, if_pos running, proceed_ok, exec_on, UnbondingQueue.exec_withdrawInPlace,
      hwithdraw]
    rfl
  · have hwithdraw : s.withdraw caller transfer = (.refused .transfersPaused, s) := by
      rw [withdraw, withdrawM, if_pos (by simpa using running)]
      rfl
    rw [require, if_neg running, proceed_error, hwithdraw]
    rfl

/-- The effect of a command, whoever gives it. Batches of settings work on a copy, except that the
appointments, which nothing refuses, are made one by one. -/
def executeInPlace : Command → Procedure StakingError Anchor CommandReply
  | .changeSettings (.protocol changes) => do
      onCopy (·.settings.protocol) (fun s protocol => { s with settings.protocol := protocol })
        (forM changes ProtocolSettings.applyInPlace)
      return .done
  | .changeSettings (.appchain changes) => do
      onCopy (·.settings.appchain) (fun s appchain => { s with settings.appchain := appchain })
        (forM changes AppchainSettings.applyInPlace)
      return .done
  | .changeSettings (.appointments changes) => do
      on (·.settings.appointments)
        (fun s appointments => { s with settings.appointments := appointments })
        (forM changes fun c => modify (·.apply c))
      return .done
  | .changeWrappedToken changes => do
      onCopy (·.wrappedToken) (fun s wrappedToken => { s with wrappedToken })
        (forM changes WrappedToken.applyInPlace)
      return .done
  | .goBooting => do
      let s ← get
      on (·.phase) (fun s phase => { s with phase })
        (Phase.bootInPlace s.settings.protocol s.stakeToken s.projection)
      return .phase (← get).phase
  | .goLive => do
      on (·.phase) (fun s phase => { s with phase }) (Phase.goLiveInPlace (← get).wrappedToken)
      return .phase (← get).phase
  | .goBroken => do
      on (·.phase) (fun s phase => { s with phase }) Phase.goBrokenInPlace
      return .phase (← get).phase
  | .setOwner owner => do
      let former := (← get).owner
      modify ({ · with owner })
      return .formerOwner former
  | .setPrice price => do
      let former := (← get).stakeToken.price
      modify ({ · with stakeToken.price := price })
      return .formerPrice former
  | .switchEra => do
      demand ((← get).era.toNat + 1 < UInt64.size) .amountOverflow
      modify fun s => { s with era := s.era + 1 }
      return .era (← get).era
  | .pauseTransfers transfersPaused => do
      modify ({ · with transfersPaused })
      return .done

def commandInPlace (authorizer : Authorizer) (caller : AccountId) (c : Command) :
    Procedure StakingError Anchor CommandReply := do
  check (authorizer.demand caller c.capability)
  executeInPlace c

theorem exec_executeInPlace (c : Command) (s : Anchor) :
    exec (executeInPlace c) s = s.commit (s.execute c) := by
  cases c with
  | changeSettings batch =>
      cases batch with
      | protocol changes =>
          rw [executeInPlace, exec_onCopy_forM_bind ProtocolSettings.exec_applyInPlace]
          change _ = s.commit ((s.settings.protocol.applyAll changes >>= _) >>= _)
          rw [ProtocolSettings.applyAll]
          cases changes.foldlM ProtocolSettings.apply s.settings.protocol <;> rfl
      | appchain changes =>
          rw [executeInPlace, exec_onCopy_forM_bind AppchainSettings.exec_applyInPlace]
          change _ = s.commit ((s.settings.appchain.applyAll changes >>= _) >>= _)
          rw [AppchainSettings.applyAll]
          cases changes.foldlM AppchainSettings.apply s.settings.appchain <;> rfl
      | appointments changes =>
          rw [executeInPlace, exec_bind, exec_on,
            exec_forM_modify AppointmentSettings.apply changes]
          rfl
  | changeWrappedToken changes =>
      rw [executeInPlace, exec_onCopy_forM_bind WrappedToken.exec_applyInPlace]
      change _ = s.commit (s.wrappedToken.applyAll changes >>= _)
      rw [WrappedToken.applyAll]
      cases changes.foldlM WrappedToken.apply s.wrappedToken <;> rfl
  | goBooting =>
      rw [executeInPlace, exec_get_bind, exec_on_bind_of_update (Phase.exec_bootInPlace ..) rfl,
        execute]
      cases s.phase.boot s.settings.protocol s.stakeToken s.projection <;> rfl
  | goLive =>
      rw [executeInPlace, exec_get_bind, exec_on_bind_of_update (Phase.exec_goLiveInPlace ..) rfl,
        execute]
      cases s.phase.goLive s.wrappedToken <;> rfl
  | goBroken =>
      rw [executeInPlace, exec_on_bind_of_update (Phase.exec_goBrokenInPlace _) rfl, execute]
      cases s.phase.goBroken <;> rfl
  | switchEra =>
      rw [executeInPlace, exec_get_bind, exec_demand_bind, execute]
      cases require (s.era.toNat + 1 < UInt64.size) StakingError.amountOverflow <;> rfl
  | setOwner | setPrice | pauseTransfers => rfl

theorem exec_commandInPlace (authorizer : Authorizer) (caller : AccountId) (c : Command)
    (s : Anchor) :
    exec (commandInPlace authorizer caller c) s = s.commit (s.command authorizer caller c) := by
  rw [commandInPlace, exec_check_bind, exec_executeInPlace, command]
  cases authorizer.demand caller c.capability with
  | error e => rfl
  | ok u => rfl

def performInPlace (s : Anchor) : Operation ε τ → Reply ε τ × Anchor
  | .act caller now action => (exec (actInPlace caller now action) s).map .staking id
  | .deposit sender now amount message =>
      (exec (depositInPlace sender amount message now) s).map .staking id
  | .setProfile caller entries => (exec (setProfileInPlace caller entries) s).map .profile id
  | .withdraw caller transfer =>
      match exec (withdrawInPlace caller transfer) s with
      | (.ok w, s') | (.error w, s') => (.withdrawal w, s')
  | .command authorizer caller c => (exec (commandInPlace authorizer caller c) s).map .command id

theorem performInPlace_eq (s : Anchor) (o : Operation ε τ) : s.performInPlace o = s.perform o := by
  cases o with
  | act caller now action => rw [performInPlace, exec_actInPlace, perform]
  | deposit sender now amount message => rw [performInPlace, exec_depositInPlace, perform]
  | setProfile caller entries =>
      rw [performInPlace, exec_setProfileInPlace, perform]
      cases s.setProfile caller entries <;> rfl
  | withdraw caller transfer =>
      rw [performInPlace, exec_withdrawInPlace, perform]
      rcases s.withdraw caller transfer with ⟨w, s'⟩
      cases w <;> rfl
  | command authorizer caller c => rw [performInPlace, exec_commandInPlace, perform]

end Anchor

end AppchainStaking
