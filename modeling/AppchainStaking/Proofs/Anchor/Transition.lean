import AppchainStaking.Proofs.Anchor.Batch

/-!
# From any protocol settings to any others

The owner can lead the protocol settings from one valid value to any other in a single batch that
sets each field once. On the way every field has the value it started with or the one it is to have,
so nothing but the two validator counts can get out of order. The new maximum is set first if the
old minimum allows it; if not, it is below the old minimum, and the new minimum can be set first.
-/

namespace AppchainStaking

def ProtocolChange.field : ProtocolChange → ProtocolField
  | minimumValidatorDeposit _ => .minimumValidatorDeposit
  | maximumValidatorStakePercent _ => .maximumValidatorStakePercent
  | minimumDelegatorDeposit _ => .minimumDelegatorDeposit
  | minimumTotalStakePriceForBooting _ => .minimumTotalStakePriceForBooting
  | maximumBridgedTokensPercent _ => .maximumBridgedTokensPercent
  | maximumWrappedTokenPercent _ => .maximumWrappedTokenPercent
  | minimumValidatorCount _ => .minimumValidatorCount
  | maximumValidatorCount _ => .maximumValidatorCount
  | maximumValidatorsPerDelegator _ => .maximumValidatorsPerDelegator
  | validatorUnlockPeriod _ => .validatorUnlockPeriod
  | delegatorUnlockPeriod _ => .delegatorUnlockPeriod
  | maximumUnwithdrawnRewardEras _ => .maximumUnwithdrawnRewardEras
  | maximumValidMessageEras _ => .maximumValidMessageEras
  | delegationFeePercent _ => .delegationFeePercent
  | maximumUnprofitableEras _ => .maximumUnprofitableEras

theorem ProtocolChange.isSome_assigned?_iff (c : ProtocolChange) (f : ProtocolField) :
    (c.assigned? f).isSome ↔ f = c.field := by
  cases c <;> cases f <;> simp [assigned?, field]

namespace ProtocolSettings

variable {s t u : ProtocolSettings} {done : List ProtocolField}

def assignment (t : ProtocolSettings) : ProtocolField → ProtocolChange
  | .minimumValidatorDeposit => .minimumValidatorDeposit t.minimumValidatorDeposit
  | .maximumValidatorStakePercent => .maximumValidatorStakePercent t.maximumValidatorStakePercent
  | .minimumDelegatorDeposit => .minimumDelegatorDeposit t.minimumDelegatorDeposit
  | .minimumTotalStakePriceForBooting =>
      .minimumTotalStakePriceForBooting t.minimumTotalStakePriceForBooting
  | .maximumBridgedTokensPercent => .maximumBridgedTokensPercent t.maximumBridgedTokensPercent
  | .maximumWrappedTokenPercent => .maximumWrappedTokenPercent t.maximumWrappedTokenPercent
  | .minimumValidatorCount => .minimumValidatorCount t.minimumValidatorCount
  | .maximumValidatorCount => .maximumValidatorCount t.maximumValidatorCount
  | .maximumValidatorsPerDelegator =>
      .maximumValidatorsPerDelegator t.maximumValidatorsPerDelegator
  | .validatorUnlockPeriod => .validatorUnlockPeriod t.validatorUnlockPeriod
  | .delegatorUnlockPeriod => .delegatorUnlockPeriod t.delegatorUnlockPeriod
  | .maximumUnwithdrawnRewardEras => .maximumUnwithdrawnRewardEras t.maximumUnwithdrawnRewardEras
  | .maximumValidMessageEras => .maximumValidMessageEras t.maximumValidMessageEras
  | .delegationFeePercent => .delegationFeePercent t.delegationFeePercent
  | .maximumUnprofitableEras => .maximumUnprofitableEras t.maximumUnprofitableEras

def otherFields : List ProtocolField :=
  [.minimumValidatorDeposit, .maximumValidatorStakePercent, .minimumDelegatorDeposit,
    .minimumTotalStakePriceForBooting, .maximumBridgedTokensPercent, .maximumWrappedTokenPercent,
    .maximumValidatorsPerDelegator, .validatorUnlockPeriod, .delegatorUnlockPeriod,
    .maximumUnwithdrawnRewardEras, .maximumValidMessageEras, .delegationFeePercent,
    .maximumUnprofitableEras]

/-- All fields, in an order in which they can be set from `s` to `t`. -/
def route (s t : ProtocolSettings) : List ProtocolField :=
  if s.minimumValidatorCount ≤ t.maximumValidatorCount then
    .maximumValidatorCount :: .minimumValidatorCount :: otherFields
  else .minimumValidatorCount :: .maximumValidatorCount :: otherFields

/-- The settings on the way from `s` to `t`, when some fields are set. -/
def midway (s t : ProtocolSettings) (done : List ProtocolField) : ProtocolSettings :=
  (done.map t.assignment).foldl set s

theorem field_assignment (t : ProtocolSettings) (f : ProtocolField) :
    (t.assignment f).field = f := by
  cases f <;> rfl

theorem nodup_route (s t : ProtocolSettings) : (route s t).Nodup := by
  unfold route
  split <;> decide

theorem mem_route (s t : ProtocolSettings) (f : ProtocolField) : f ∈ route s t := by
  unfold route
  split <;> cases f <;> decide

theorem value_set_assignment (s t : ProtocolSettings) (f g : ProtocolField) :
    (s.set (t.assignment f)).value g = if g = f then t.value g else s.value g := by
  cases f <;> cases g <;> rfl

theorem value_midway (s t : ProtocolSettings) (done : List ProtocolField) (f : ProtocolField) :
    (midway s t done).value f = if f ∈ done then t.value f else s.value f := by
  induction done generalizing s with
  | nil => rfl
  | cons g done ih =>
      have hstep := ih (s.set (t.assignment g))
      rw [value_set_assignment] at hstep
      change (midway (s.set (t.assignment g)) t done).value f = _
      rw [hstep]
      by_cases hdone : f ∈ done
      · rw [if_pos hdone, if_pos (List.mem_cons_of_mem g hdone)]
      · by_cases hfirst : f = g <;> simp [hdone, hfirst]

theorem value_midway_cases (s t : ProtocolSettings) (done : List ProtocolField)
    (f : ProtocolField) :
    (midway s t done).value f = s.value f ∨ (midway s t done).value f = t.value f := by
  rw [value_midway]
  split
  · exact .inr rfl
  · exact .inl rfl

theorem midway_route (s t : ProtocolSettings) : midway s t (route s t) = t :=
  ext_of_value fun f => by rw [value_midway, if_pos (mem_route s t f)]

/-- The second of two fields is set only after the first one. -/
theorem head_mem {f g : ProtocolField} {fields : List ProtocolField}
    (h : done <+: f :: g :: fields) (hg : g ∈ done) : f ∈ done := by
  rcases List.prefix_cons_iff.1 h with rfl | ⟨rest, rfl, -⟩
  · cases hg
  · exact List.mem_cons_self

/-- All along the way the counts are in order. -/
theorem counts_midway (hs : s.Valid) (ht : t.Valid) (h : done <+: route s t) :
    (midway s t done).minimumValidatorCount ≤ (midway s t done).maximumValidatorCount := by
  have hminimum : (midway s t done).minimumValidatorCount =
      if .minimumValidatorCount ∈ done then t.minimumValidatorCount else s.minimumValidatorCount :=
    value_midway s t done .minimumValidatorCount
  have hmaximum : (midway s t done).maximumValidatorCount =
      if .maximumValidatorCount ∈ done then t.maximumValidatorCount else s.maximumValidatorCount :=
    value_midway s t done .maximumValidatorCount
  rw [hminimum, hmaximum]
  by_cases hfits : s.minimumValidatorCount ≤ t.maximumValidatorCount
  · rw [route, if_pos hfits] at h
    by_cases hmin : .minimumValidatorCount ∈ done
    · rw [if_pos hmin, if_pos (head_mem h hmin)]
      exact ht.counts
    · rw [if_neg hmin]
      split
      · exact hfits
      · exact hs.counts
  · rw [route, if_neg hfits] at h
    by_cases hmax : .maximumValidatorCount ∈ done
    · rw [if_pos hmax, if_pos (head_mem h hmax)]
      exact ht.counts
    · rw [if_neg hmax]
      split
      · have hbelow : t.maximumValidatorCount ≤ s.minimumValidatorCount :=
          UInt64.le_of_lt (UInt64.not_le.1 hfits)
        exact UInt64.le_trans ht.counts (UInt64.le_trans hbelow hs.counts)
      · exact hs.counts

theorem valid_midway (hs : s.Valid) (ht : t.Valid) (h : done <+: route s t) :
    (midway s t done).Valid := by
  have hpercent {a b c : UInt16} (hab : a = b ∨ a = c) (hb : b ≤ 100) (hc : c ≤ 100) :
      a ≤ 100 := by
    rcases hab with rfl | rfl <;> assumption
  exact {
    counts := counts_midway hs ht h
    validatorStake := hpercent (value_midway_cases s t done .maximumValidatorStakePercent)
      hs.validatorStake ht.validatorStake
    bridgedTokens := hpercent (value_midway_cases s t done .maximumBridgedTokensPercent)
      hs.bridgedTokens ht.bridgedTokens
    wrappedToken := hpercent (value_midway_cases s t done .maximumWrappedTokenPercent)
      hs.wrappedToken ht.wrappedToken
    delegationFee := hpercent (value_midway_cases s t done .delegationFeePercent)
      hs.delegationFee ht.delegationFee }

theorem staysValid_route (hs : s.Valid) (ht : t.Valid) :
    AppchainStaking.protocolGroup.StaysValid s ((route s t).map t.assignment) := by
  intro earlier hearlier
  obtain ⟨done, hdone, rfl⟩ := List.prefix_map_iff.1 hearlier
  exact valid_midway hs ht hdone

theorem applyAll_route (hs : s.Valid) (ht : t.Valid) :
    s.applyAll ((route s t).map t.assignment) = .ok t :=
  (SettingsGroup.foldlM_apply_eq_ok_iff (G := AppchainStaking.protocolGroup) hs).2
    ⟨staysValid_route hs ht, (midway_route s t).symm⟩

end ProtocolSettings

namespace Anchor

open ProtocolSettings

/-- For valid protocol settings `s` and `t` there is a batch that addresses no field twice and that
leads every anchor whose settings are `s`, at the owner's command, exactly to `t`. -/
theorem every_configuration_reached (s t : ProtocolSettings) (hs : s.Valid) (ht : t.Valid) :
    ∃ changes : List ProtocolChange,
      (∀ c ∈ changes, ∀ f, (c.assigned? f).isSome ↔ f = c.field) ∧
      (changes.map (·.field)).Nodup ∧
      (∀ (store : SettingsStore) (roles : Roles), store.protocol = s →
        store.change roles.authorize roles.owner (.protocol changes) =
          .ok { store with protocol := t }) ∧
      ∀ anchor : Anchor, anchor.settings.protocol = s →
        protocolGroup.change anchor.roles.authorize anchor.owner anchor changes =
          (.ok .done, { anchor with settings.protocol := t }) := by
  have hall := applyAll_route hs ht
  refine ⟨(route s t).map t.assignment, fun c _ => c.isSome_assigned?_iff, ?_, ?_, ?_⟩
  · have hfields : ((route s t).map t.assignment).map (·.field) = route s t := by
      rw [List.map_map]
      exact List.map_id'' (field_assignment t) _
    rw [hfields]
    exact nodup_route s t
  · rintro store roles rfl
    have authorized : roles.authorize roles.owner .governance = true := by
      simp [Roles.authorize]
    rw [SettingsStore.change, Authorizer.demand, require, if_pos authorized]
    change (store.protocol.applyAll _ >>= _) = _
    rw [hall]
    rfl
  · rintro anchor rfl
    have authorized : anchor.roles.authorize anchor.owner .governance = true := by
      simp [Roles.authorize, roles]
    have hfold : ((route anchor.settings.protocol t).map t.assignment).foldlM protocolGroup.apply
        (protocolGroup.part anchor) = .ok t := hall
    rw [AnchorGroup.change_eq authorized, hfold]
    rfl

end Anchor

namespace SampleRun

/-- The least number of validators is above the most there may be by default. -/
def widened : ProtocolSettings :=
  { minimumValidatorCount := 80, maximumValidatorCount := 90, delegationFeePercent := 100 }

end SampleRun

open SampleRun in
/-- From the default settings to the wider ones and back. -/
theorem Anchor.every_configuration_reached_widened :
    let wide : Anchor := { anchor with settings.protocol := widened }
    anchor.settings.protocol.Valid ∧ widened.Valid ∧
      ∃ there back : List ProtocolChange,
        (there.map (·.field)).Nodup ∧ (back.map (·.field)).Nodup ∧
        protocolGroup.change anchor.roles.authorize SampleRun.owner anchor there =
          (.ok .done, wide) ∧
        protocolGroup.change wide.roles.authorize SampleRun.owner wide back =
          (.ok .done, anchor) := by
  intro wide
  have hs : anchor.settings.protocol.Valid := ProtocolSettings.valid_default
  have ht : widened.Valid := by decide
  obtain ⟨there, -, hthere, -, thither⟩ :=
    every_configuration_reached anchor.settings.protocol widened hs ht
  obtain ⟨back, -, hback, -, hither⟩ :=
    every_configuration_reached widened anchor.settings.protocol ht hs
  exact ⟨hs, ht, there, back, hthere, hback, thither anchor rfl, hither wide rfl⟩

end AppchainStaking
