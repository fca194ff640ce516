import AppchainStaking.Proofs.Anchor.Privilege
import AppchainStaking.Proofs.Settings.Bounds

/-!
# The configuration of an anchor is always valid

Only two commands touch what is configured, and both take a batch of changes that is refused as a
whole if one of them leads out of the bounds. The identifier of the appchain is checked once and
never changes. So whatever is asked of an anchor, and by whom, its settings, the metadata of its
wrapped token and its identifier are within their bounds.
-/

namespace AppchainStaking

variable {ε τ : Type}

theorem utf8ByteSize_pos_of_not_blank {text : String} (h : isBlankText text = false) :
    0 < text.utf8ByteSize := by
  refine Nat.pos_of_ne_zero fun hzero => ?_
  rw [String.utf8ByteSize_eq_zero_iff.1 hzero] at h
  cases h

namespace Anchor

variable {s s' : Anchor} {id : String}

/-- Everything that is configured is within its bounds, and the appchain is known as `id`. -/
structure Configured (s : Anchor) (id : String) : Prop where
  settings : s.settings.Valid
  wrappedToken : s.wrappedToken.metadata.Fits
  appchainId : s.appchainId = id

theorem configured_of_new {owner : AccountId} {template : Template} {token : StakeToken}
    {vault : AccountId} {bump vaultBump : UInt8}
    (h : Anchor.new owner id template token vault bump vaultBump = .ok s) :
    s.Configured id ∧ isBlankText id = false ∧ id.utf8ByteSize ≤ maximumAppchainIdSize := by
  simp only [Anchor.new, bind_eq_ok_iff, require_eq_ok_iff, pure_eq_ok_iff] at h
  obtain ⟨_, hid, rfl⟩ := h
  exact ⟨⟨SettingsStore.valid_default, WrappedToken.fits_default, rfl⟩, hid⟩

theorem Configured.execute {c : Command} {reply : CommandReply}
    (h : s.execute c = .ok (reply, s')) (hs : s.Configured id) : s'.Configured id := by
  cases c <;>
    simp only [Anchor.execute, bind_eq_ok_iff, pure_eq_ok_iff, Prod.mk.injEq] at h
  case changeSettings batch =>
    obtain ⟨settings, happly, -, rfl⟩ := h
    exact { hs with settings := hs.settings.apply happly }
  case changeWrappedToken changes =>
    obtain ⟨wrappedToken, happly, -, rfl⟩ := h
    exact { hs with wrappedToken := WrappedToken.fits_of_applyAll happly hs.wrappedToken }
  case goBooting | goLive | goBroken | switchEra =>
    obtain ⟨_, _, _, rfl⟩ := h
    exact { hs with }
  case setOwner | setPrice | pauseTransfers =>
    obtain ⟨_, rfl⟩ := h
    exact { hs with }

theorem Configured.perform (hs : s.Configured id) (o : Operation ε τ) :
    (s.perform o).2.Configured id := by
  by_cases hcommand : ∃ authorizer caller c, o = .command authorizer caller c
  · obtain ⟨authorizer, caller, c, rfl⟩ := hcommand
    rcases s.perform_command (ε := ε) (τ := τ) authorizer caller c with
      ⟨e, hperform⟩ | ⟨reply, s', -, executed, hperform⟩
    · rw [hperform]
      exact hs
    · rw [hperform]
      exact hs.execute executed
  · obtain ⟨_, _, _, hperform⟩ := s.perform_of_ne_command fun authorizer caller c h =>
      hcommand ⟨authorizer, caller, c, h⟩
    rw [hperform]
    exact { hs with }

theorem Configured.run (hs : s.Configured id) (ops : List (Operation ε τ)) :
    (s.run ops).Configured id := by
  have hstep : ∀ c : Call ε τ, True → c.before.Configured id → c.after.Configured id :=
    fun c _ hbefore => hbefore.perform c.operation
  exact (invariant_of_calls (P := (·.Configured id)) hstep ops (fun _ _ => trivial) hs).2

/-- After every run of a new anchor all that is configured is within its bounds, and the appchain
has the identifier that it was given. -/
theorem configuration_valid {owner : AccountId} {template : Template} {token : StakeToken}
    {vault : AccountId} {bump vaultBump : UInt8}
    (hnew : Anchor.new owner id template token vault bump vaultBump = .ok s)
    (ops : List (Operation ε τ)) :
    let protocol := (s.run ops).settings.protocol
    let appchain := (s.run ops).settings.appchain
    let metadata := (s.run ops).wrappedToken.metadata
    protocol.minimumValidatorCount ≤ protocol.maximumValidatorCount ∧
      (∀ percent ∈ [protocol.maximumValidatorStakePercent, protocol.maximumBridgedTokensPercent,
        protocol.maximumWrappedTokenPercent, protocol.delegationFeePercent], percent ≤ 100) ∧
      (∀ text ∈ [appchain.chainSpec, appchain.rawChainSpec, appchain.bootNodes,
        appchain.rpcEndpoint, appchain.subqlEndpoint], text.utf8ByteSize ≤ 1024) ∧
      metadata.name.utf8ByteSize ≤ 64 ∧ metadata.symbol.utf8ByteSize ≤ 16 ∧
      (s.run ops).appchainId = id ∧
      1 ≤ id.utf8ByteSize ∧ id.utf8ByteSize ≤ 64 ∧ ∃ c ∈ id.toList, isBlank c = false := by
  intro protocol appchain metadata
  obtain ⟨hs, hblank, hsize⟩ := configured_of_new hnew
  have hrun := hs.run ops
  obtain ⟨counts, validatorStake, bridgedTokens, wrappedToken, delegationFee⟩ :=
    hrun.settings.protocol
  obtain ⟨hname, hsymbol⟩ := hrun.wrappedToken
  refine ⟨counts, ?_, hrun.settings.appchain, hname, hsymbol, hrun.appchainId,
    utf8ByteSize_pos_of_not_blank hblank, hsize, ?_⟩
  · simp only [List.forall_mem_cons, List.not_mem_nil, false_imp_iff, implies_true, and_true]
    exact ⟨validatorStake, bridgedTokens, wrappedToken, delegationFee⟩
  · have hsome := List.all_eq_false.1 hblank
    simpa using hsome

end Anchor

namespace SampleRun

/-- The bounds on the number of validators are raised in the one order that works, and lowered in
the order that does not. Then a share is above the whole, and a symbol one byte too long. -/
def reconfigurations : List (Operation Unit Unit) :=
  [.command anchor.roles.authorize owner
      (.changeSettings (.protocol [.maximumValidatorCount 90, .minimumValidatorCount 80])),
    .command anchor.roles.authorize owner
      (.changeSettings (.protocol [.maximumValidatorCount 60, .minimumValidatorCount 4])),
    .command anchor.roles.authorize owner
      (.changeSettings (.protocol [.validatorUnlockPeriod 1, .delegationFeePercent 101])),
    .command anchor.roles.authorize owner
      (.changeWrappedToken [.price 3, .metadata ⟨"", .ofList (List.replicate 17 'x'), 0⟩])]

end SampleRun

open SampleRun in
theorem Anchor.configuration_valid_reconfigured :
    let protocol := (anchor.run reconfigurations).settings.protocol
    Anchor.new SampleRun.owner "sample" .barnacle token vault 253 254 = .ok anchor ∧
      protocol.minimumValidatorCount = 80 ∧ protocol.maximumValidatorCount = 90 ∧
      protocol.minimumValidatorCount ≤ protocol.maximumValidatorCount ∧
      protocol.validatorUnlockPeriod = 21 ∧
      (anchor.run reconfigurations).wrappedToken.price = 0 ∧
      (anchor.run reconfigurations).wrappedToken.metadata.symbol.utf8ByteSize ≤ 16 ∧
      (anchor.run reconfigurations).appchainId = "sample" := by
  intro protocol
  obtain ⟨counts, -, -, -, hsymbol, hid, -⟩ := configuration_valid new_eq_anchor reconfigurations
  exact ⟨new_eq_anchor, by decide +kernel, by decide +kernel, counts, by decide +kernel,
    by decide +kernel, hsymbol, hid⟩

end AppchainStaking
