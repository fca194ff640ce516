import AppchainStaking.Proofs.Anchor.Effect

/-!
# Who can change how an anchor is governed

Staking changes the ledger, the history and the queue, and nothing else. A command asks for a
capability, and besides the owner only the two accounts that it appointed hold any: one may set the
price of the stake token and the other may advance the era. Neither can appoint anyone. So while the
owner gives no command, nobody gains a role, and nothing else of what governs the anchor changes.
-/

namespace AppchainStaking

variable {ε τ : Type}

/-- A foreign caller holds a capability only by its appointment. -/
theorem Roles.appointed_of_authorize {roles : Roles} {caller : AccountId}
    {capability : Capability} (h : roles.authorize caller capability)
    (foreign : caller ≠ roles.owner) :
    capability = .tokenPriceMaintenance ∧ roles.tokenPriceMaintainer = some caller ∨
      capability = .eraSwitching ∧ roles.relayer = some caller := by
  cases capability with
  | governance => simp [authorize, foreign] at h
  | tokenPriceMaintenance =>
      left
      simpa [authorize, foreign] using h
  | eraSwitching =>
      right
      simpa [authorize, foreign] using h

theorem Command.eq_setPrice {c : Command} (h : c.capability = .tokenPriceMaintenance) :
    ∃ price, c = .setPrice price := by
  cases c with
  | setPrice price => exact ⟨price, rfl⟩
  | _ => cases h

theorem Command.eq_switchEra {c : Command} (h : c.capability = .eraSwitching) :
    c = .switchEra := by
  cases c with
  | switchEra => rfl
  | _ => cases h

namespace Call

/-- A command is authorized by the roles of the anchor on which it is performed. -/
def ByRoles (c : Call ε τ) : Prop :=
  match c.operation with
  | .command authorizer _ _ => authorizer = c.before.roles.authorize
  | _ => True

def switchesEra (c : Call ε τ) : Bool :=
  match c.operation, c.reply with
  | .command _ _ .switchEra, .command (.ok _) => true
  | _, _ => false

end Call

/-- What changes only by commands of the governance capability, or never. -/
structure Regime where
  owner : AccountId
  settings : SettingsStore
  phase : Phase
  wrappedToken : WrappedToken
  transfersPaused : Bool
  appchainId : String
  template : Template
  mint : AccountId
  decimals : UInt8
  stakeVault : AccountId
  bump : UInt8
  vaultAuthorityBump : UInt8
  deriving DecidableEq

namespace Anchor

def regime (s : Anchor) : Regime :=
  { owner := s.owner
    settings := s.settings
    phase := s.phase
    wrappedToken := s.wrappedToken
    transfersPaused := s.transfersPaused
    appchainId := s.appchainId
    template := s.template
    mint := s.stakeToken.mint
    decimals := s.stakeToken.decimals
    stakeVault := s.stakeVault
    bump := s.bump
    vaultAuthorityBump := s.vaultAuthorityBump }

variable {s s' : Anchor} {o : Operation ε τ} {authorizer : Authorizer} {caller : AccountId}
  {c : Command} {reply : CommandReply}

theorem roles_eq_of_regime_eq (h : s'.regime = s.regime) : s'.roles = s.roles := by
  have howner : s'.owner = s.owner := congrArg Regime.owner h
  have hsettings : s'.settings = s.settings := congrArg Regime.settings h
  rw [roles, roles, howner, hsettings]

theorem perform_of_ne_command (s : Anchor)
    (h : ∀ authorizer caller c, o ≠ .command authorizer caller c) :
    ∃ ledger history unbonding, (s.perform o).2 = { s with ledger, history, unbonding } := by
  have houtcome := perform_outcome s o
  generalize (s.perform o).1 = reply, (s.perform o).2 = s' at houtcome
  rcases houtcome with heffect | hunrecorded
  · cases heffect with
    | recorded | profileSet | paid | unchanged => exact ⟨_, _, _, rfl⟩
    | commanded => exact absurd rfl (h _ _ _)
  · cases hunrecorded with
    | intro => exact ⟨_, _, _, rfl⟩

/-- A command either is refused and changes nothing, or it is authorized and takes effect. -/
theorem perform_command (s : Anchor) (authorizer : Authorizer) (caller : AccountId) (c : Command) :
    (∃ e, s.perform (.command authorizer caller c : Operation ε τ) = (.command (.error e), s)) ∨
      ∃ reply s', authorizer caller c.capability ∧ s.execute c = .ok (reply, s') ∧
        s.perform (.command authorizer caller c : Operation ε τ) = (.command (.ok reply), s') := by
  cases h : s.command authorizer caller c with
  | error e =>
      left
      refine ⟨e, ?_⟩
      simp only [perform, h]
      rfl
  | ok rs =>
      obtain ⟨reply, s'⟩ := rs
      obtain ⟨authorized, executed⟩ := command_eq_ok_iff.1 h
      right
      refine ⟨reply, s', authorized, executed, ?_⟩
      simp only [perform, h]
      rfl

end Anchor

/-- What a call may do that is not the owner's. -/
structure Call.Restrained (c : Call ε τ) (roles : Roles) : Prop where
  regime : c.after.regime = c.before.regime
  price : c.after.stakeToken.price ≠ c.before.stakeToken.price →
    roles.tokenPriceMaintainer = some c.operation.caller
  era : c.after.era.toNat = c.before.era.toNat + if c.switchesEra then 1 else 0
  relayed : c.switchesEra → roles.relayer = some c.operation.caller

theorem Call.restrained_of_same {c : Call ε τ} (roles : Roles)
    (hregime : c.after.regime = c.before.regime)
    (hprice : c.after.stakeToken.price = c.before.stakeToken.price)
    (hera : c.after.era = c.before.era) (hswitches : c.switchesEra = false) :
    c.Restrained roles := by
  refine ⟨hregime, fun changed => absurd hprice changed, ?_, fun switches => ?_⟩
  · rw [hera, hswitches]
    rfl
  · rw [hswitches] at switches
    cases switches

theorem Call.restrained_of_ne_command {c : Call ε τ} (roles : Roles)
    (h : ∀ authorizer caller command, c.operation ≠ .command authorizer caller command) :
    c.Restrained roles := by
  obtain ⟨ledger, history, unbonding, hperform⟩ := c.before.perform_of_ne_command h
  have hafter : c.after = { c.before with ledger, history, unbonding } := hperform
  refine restrained_of_same roles ?_ ?_ ?_ ?_
  · rw [hafter]
    rfl
  · rw [hafter]
  · rw [hafter]
  · unfold switchesEra
    split
    · next hop _ => exact absurd hop (h _ _ _)
    · rfl

theorem Call.restrained_of_priceSet {c : Call ε τ} {roles : Roles} {price : UInt64}
    (hafter : c.after = { c.before with stakeToken := { c.before.stakeToken with price } })
    (hswitches : c.switchesEra = false)
    (maintainer : roles.tokenPriceMaintainer = some c.operation.caller) : c.Restrained roles := by
  refine ⟨?_, fun _ => maintainer, ?_, fun switches => ?_⟩
  · rw [hafter]
    rfl
  · rw [hafter, hswitches]
    rfl
  · rw [hswitches] at switches
    cases switches

theorem Call.restrained_of_eraSwitched {c : Call ε τ} {roles : Roles}
    (hafter : c.after = { c.before with era := c.before.era + 1 })
    (hnext : (c.before.era + 1).toNat = c.before.era.toNat + 1) (hswitches : c.switchesEra)
    (relayer : roles.relayer = some c.operation.caller) : c.Restrained roles := by
  refine ⟨?_, fun changed => absurd ?_ changed, ?_, fun _ => relayer⟩
  · rw [hafter]
    rfl
  · rw [hafter]
  · rw [hafter, if_pos hswitches]
    exact hnext

/-- A command of a foreign caller is refused, or it is the one that the caller is appointed for. -/
theorem Call.restrained_of_command {c : Call ε τ} {command : Command}
    (hop : c.operation = .command c.before.roles.authorize c.operation.caller command)
    (foreign : c.operation.caller ≠ c.before.owner) : c.Restrained c.before.roles := by
  rcases c.before.perform_command (ε := ε) (τ := τ) c.before.roles.authorize c.operation.caller
    command with ⟨e, hperform⟩ | ⟨reply, s', authorized, executed, hperform⟩
  · rw [← hop] at hperform
    have hafter : c.after = c.before := congrArg Prod.snd hperform
    have hreply : c.reply = .command (.error e) := congrArg Prod.fst hperform
    exact restrained_of_same _ (by rw [hafter]) (by rw [hafter]) (by rw [hafter])
      (by simp [switchesEra, hreply])
  · rw [← hop] at hperform
    have hafter : c.after = s' := congrArg Prod.snd hperform
    have hreply : c.reply = .command (.ok reply) := congrArg Prod.fst hperform
    rcases Roles.appointed_of_authorize authorized foreign with
      ⟨hcapability, maintainer⟩ | ⟨hcapability, relayer⟩
    · obtain ⟨price, rfl⟩ := Command.eq_setPrice hcapability
      cases executed
      exact restrained_of_priceSet hafter (by rw [switchesEra, hop]) maintainer
    · obtain rfl := Command.eq_switchEra hcapability
      obtain ⟨rfl, hnext⟩ := Anchor.execute_switchEra executed
      exact restrained_of_eraSwitched hafter hnext (by rw [switchesEra, hop, hreply]) relayer

/-- A call that is not the owner's changes nothing of the regime, the price only if the caller is
appointed to maintain it, and the era only if the caller is appointed to switch it. -/
theorem Call.restrained {c : Call ε τ} (byRoles : c.ByRoles)
    (foreign : c.operation.caller ≠ c.before.owner) : c.Restrained c.before.roles := by
  obtain ⟨s, o⟩ := c
  cases o with
  | command authorizer caller command =>
      obtain rfl : authorizer = s.roles.authorize := byRoles
      exact restrained_of_command rfl foreign
  | act | deposit | setProfile | withdraw => exact restrained_of_ne_command _ (by simp)

namespace Anchor

variable {s : Anchor}

/-- Without calls of the owner the roles stay as they are, so the next call is again one by the
roles of the start. -/
theorem trace_restrained (ops : List (Operation ε τ)) (byRoles : ∀ c ∈ s.trace ops, c.ByRoles)
    (silent : ∀ o ∈ ops, o.caller ≠ s.owner) :
    ∀ c ∈ s.trace ops, c.Restrained s.roles := by
  induction ops generalizing s with
  | nil => simp [trace]
  | cons o ops ih =>
      have hstep : (Call.mk s o).Restrained s.roles :=
        Call.restrained (byRoles _ List.mem_cons_self) (silent o List.mem_cons_self)
      have howner : (s.perform o).2.owner = s.owner := congrArg Regime.owner hstep.regime
      have hrest := ih (fun c hc => byRoles c (List.mem_cons_of_mem _ hc)) fun o' ho' => by
        rw [howner]
        exact silent o' (List.mem_cons_of_mem _ ho')
      have hroles : (s.perform o).2.roles = s.roles := roles_eq_of_regime_eq hstep.regime
      rw [hroles] at hrest
      exact List.forall_mem_cons.2 ⟨hstep, hrest⟩

theorem regime_run {roles : Roles} (ops : List (Operation ε τ))
    (h : ∀ c ∈ s.trace ops, c.Restrained roles) : (s.run ops).regime = s.regime := by
  induction ops generalizing s with
  | nil => rfl
  | cons o ops ih =>
      obtain ⟨hstep, hrest⟩ := List.forall_mem_cons.1 h
      exact (ih hrest).trans hstep.regime

theorem era_run {roles : Roles} (ops : List (Operation ε τ))
    (h : ∀ c ∈ s.trace ops, c.Restrained roles) :
    (s.run ops).era.toNat = s.era.toNat + (s.trace ops).countP (·.switchesEra) := by
  induction ops generalizing s with
  | nil => rfl
  | cons o ops ih =>
      obtain ⟨hstep, hrest⟩ := List.forall_mem_cons.1 h
      have hera : (s.perform o).2.era.toNat =
          s.era.toNat + if (Call.mk s o).switchesEra then 1 else 0 := hstep.era
      rw [run, trace, List.countP_cons, ih hrest, hera]
      omega

/-- In a run without calls of the owner nobody gains a privilege: all that governs the anchor stays
as it is, the price changes only by the maintainer appointed at the start, and the era only by the
relayer appointed at the start, by one with each switch. -/
theorem privileges_fixed (s : Anchor) (ops : List (Operation ε τ))
    (byRoles : ∀ c ∈ s.trace ops, c.ByRoles) (silent : ∀ o ∈ ops, o.caller ≠ s.owner) :
    (s.run ops).regime = s.regime ∧
      (s.run ops).era.toNat = s.era.toNat + (s.trace ops).countP (·.switchesEra) ∧
      ∀ c ∈ s.trace ops,
        (c.after.stakeToken.price ≠ c.before.stakeToken.price →
          s.settings.appointments.tokenPriceMaintainer = some c.operation.caller) ∧
        (c.after.era ≠ c.before.era →
          s.settings.appointments.relayer = some c.operation.caller) ∧
        c.after.era.toNat = c.before.era.toNat + if c.switchesEra then 1 else 0 := by
  have hcalls := trace_restrained ops byRoles silent
  refine ⟨regime_run ops hcalls, era_run ops hcalls, fun c hc => ?_⟩
  obtain ⟨-, hprice, hera, hrelayed⟩ := hcalls c hc
  refine ⟨hprice, fun changed => hrelayed ?_, hera⟩
  cases hswitches : c.switchesEra with
  | true => rfl
  | false =>
      rw [hswitches] at hera
      exact absurd (UInt64.toNat_inj.1 hera) changed

end Anchor

namespace SampleRun

def maintainer : AccountId := account 6

def relayer : AccountId := account 7

def appointed : Anchor :=
  { anchor with
    settings.appointments := { tokenPriceMaintainer := some maintainer, relayer := some relayer } }

/-- The two appointed accounts do what they may do, and try what they may not. -/
def foreignOperations : List (Operation Unit Unit) :=
  [.command appointed.roles.authorize maintainer (.setPrice 7),
    .command appointed.roles.authorize maintainer .switchEra,
    .command appointed.roles.authorize relayer .switchEra,
    .command appointed.roles.authorize relayer (.setOwner relayer)]

end SampleRun

open SampleRun in
theorem Anchor.privileges_fixed_sampleRun :
    (∀ c ∈ appointed.trace foreignOperations, c.ByRoles) ∧
      (∀ o ∈ foreignOperations, o.caller ≠ appointed.owner) ∧
      (appointed.run foreignOperations).owner = appointed.owner ∧
      (appointed.run foreignOperations).stakeToken.price = 7 ∧
      (appointed.run foreignOperations).era.toNat = 1 := by
  have byRoles : ∀ c ∈ appointed.trace foreignOperations, c.ByRoles := by
    have hsame : ∀ c ∈ appointed.trace foreignOperations, c.before.roles = appointed.roles := by
      decide +kernel
    intro c hc
    have hroles := congrArg Roles.authorize (hsame c hc).symm
    simp only [foreignOperations, Anchor.trace, List.mem_cons, List.not_mem_nil, or_false] at hc
    rcases hc with rfl | rfl | rfl | rfl <;> exact hroles
  have silent : ∀ o ∈ foreignOperations, o.caller ≠ appointed.owner := by decide +kernel
  obtain ⟨hregime, hera, -⟩ := privileges_fixed appointed foreignOperations byRoles silent
  have hcount : (appointed.trace foreignOperations).countP (·.switchesEra) = 1 := by
    decide +kernel
  rw [hcount] at hera
  exact ⟨byRoles, silent, congrArg Regime.owner hregime, by decide +kernel, hera⟩

end AppchainStaking
