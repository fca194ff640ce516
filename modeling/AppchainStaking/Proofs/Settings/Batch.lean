import AppchainStaking.Proofs.Settings.Bounds

/-!
# Batches of changes

What is configured comes in groups, and a change assigns values to fields of one group. A batch that
starts from a valid value succeeds exactly if it never leads to one that is not valid. Then every
field holds what was assigned to it last, and the order of changes to different fields does not
matter.
-/

namespace AppchainStaking

section

variable {ε α : Type} {p : Prop} [Decidable p] {a b : α} {e e' : ε}

theorem ite_ok_eq_ok_iff : (if p then .ok a else .error e) = (.ok b : Except ε α) ↔ p ∧ b = a := by
  by_cases h : p <;> simp [h, eq_comm]

theorem eq_of_ite_ok_eq_error (h : (if p then .ok a else .error e) = (.error e' : Except ε α)) :
    e' = e := by
  split at h
  · cases h
  · exact (Except.error.inj h).symm

end

/-- A group `σ` of fields, changed by `κ`. -/
structure SettingsGroup (σ κ : Type) where
  Field : Type
  Value : Field → Type
  value (s : σ) (f : Field) : Value f
  /-- The value that a change assigns to a field. -/
  assigned? (c : κ) (f : Field) : Option (Value f)
  set : σ → κ → σ
  Valid : σ → Prop
  apply : σ → κ → Except StakingError σ
  ext {s s' : σ} : (∀ f, value s f = value s' f) → s = s'
  value_set (s : σ) (c : κ) (f : Field) : value (set s c) f = (assigned? c f).getD (value s f)
  /-- From a valid value a change is accepted if the next value is valid. -/
  apply_eq_ok_iff {s s' : σ} {c : κ} :
    Valid s → (apply s c = .ok s' ↔ Valid (set s c) ∧ s' = set s c)
  eq_of_apply_eq_error {s : σ} {c : κ} {e : StakingError} :
    apply s c = .error e → e = .invalidValue

namespace SettingsGroup

variable {σ κ : Type} (G : SettingsGroup σ κ) {s s' : σ} {c d : κ} {changes : List κ}

def last? (changes : List κ) (f : G.Field) : Option (G.Value f) :=
  (changes.filterMap (G.assigned? · f)).getLast?

/-- Every prefix of a batch leads to a valid value. -/
def StaysValid (s : σ) (changes : List κ) : Prop :=
  ∀ earlier, earlier <+: changes → G.Valid (earlier.foldl G.set s)

/-- No field gets a value from both changes. -/
def Apart (c d : κ) : Prop := ∀ f, G.assigned? c f = none ∨ G.assigned? d f = none

variable {G}

theorem StaysValid.start (h : G.StaysValid s changes) : G.Valid s := h [] List.nil_prefix

theorem StaysValid.valid (h : G.StaysValid s changes) : G.Valid (changes.foldl G.set s) :=
  h changes (List.prefix_refl changes)

theorem staysValid_nil : G.StaysValid s [] ↔ G.Valid s := by
  simp [StaysValid]

theorem staysValid_cons :
    G.StaysValid s (c :: changes) ↔ G.Valid s ∧ G.StaysValid (G.set s c) changes := by
  constructor
  · intro h
    exact ⟨h.start, fun earlier hearlier =>
      h (c :: earlier) (List.cons_prefix_cons.2 ⟨rfl, hearlier⟩)⟩
  · rintro ⟨hs, h⟩ earlier hearlier
    rcases List.prefix_cons_iff.1 hearlier with rfl | ⟨earlier', rfl, hearlier'⟩
    · exact hs
    · exact h earlier' hearlier'

theorem staysValid_append {first second : List κ} :
    G.StaysValid s (first ++ second) ↔
      G.StaysValid s first ∧ G.StaysValid (first.foldl G.set s) second := by
  induction first generalizing s with
  | nil =>
      rw [List.nil_append, staysValid_nil, List.foldl_nil]
      exact ⟨fun h => ⟨h.start, h⟩, fun h => h.2⟩
  | cons c first ih =>
      rw [List.cons_append, staysValid_cons, staysValid_cons, ih, List.foldl_cons, and_assoc]

/-- A batch succeeds exactly if it stays valid, and then all its changes are made. -/
theorem foldlM_apply_eq_ok_iff (hs : G.Valid s) :
    changes.foldlM G.apply s = .ok s' ↔ G.StaysValid s changes ∧ s' = changes.foldl G.set s := by
  induction changes generalizing s with
  | nil =>
      rw [List.foldlM_nil, pure_eq_ok_iff, staysValid_nil, eq_comm]
      exact (and_iff_right hs).symm
  | cons c changes ih =>
      rw [List.foldlM_cons, bind_eq_ok_iff, staysValid_cons, List.foldl_cons]
      constructor
      · rintro ⟨s₁, hc, hrest⟩
        obtain ⟨valid, rfl⟩ := (G.apply_eq_ok_iff hs).1 hc
        obtain ⟨hstays, rfl⟩ := (ih valid).1 hrest
        exact ⟨⟨hs, hstays⟩, rfl⟩
      · rintro ⟨⟨-, hstays⟩, rfl⟩
        exact ⟨_, (G.apply_eq_ok_iff hs).2 ⟨hstays.start, rfl⟩, (ih hstays.start).2 ⟨hstays, rfl⟩⟩

theorem eq_of_foldlM_apply_eq_error {e : StakingError}
    (h : changes.foldlM G.apply s = .error e) : e = .invalidValue := by
  induction changes generalizing s with
  | nil => cases h
  | cons c changes ih =>
      rw [List.foldlM_cons, bind_eq_error_iff] at h
      rcases h with hc | ⟨s₁, -, hrest⟩
      · exact G.eq_of_apply_eq_error hc
      · exact ih hrest

/-- The last value that a batch assigns to a field is what the field holds in the end. -/
theorem value_foldl_set (s : σ) (changes : List κ) (f : G.Field) :
    G.value (changes.foldl G.set s) f = (G.last? changes f).getD (G.value s f) := by
  induction changes generalizing s with
  | nil => rfl
  | cons c changes ih =>
      rw [List.foldl_cons, ih, G.value_set, last?, last?]
      cases hc : G.assigned? c f with
      | none => rw [List.filterMap_cons_none hc, Option.getD_none]
      | some v =>
          rw [List.filterMap_cons_some hc, List.getLast?_cons]
          cases (changes.filterMap (G.assigned? · f)).getLast? <;> rfl

theorem set_comm (h : G.Apart c d) (s : σ) : G.set (G.set s c) d = G.set (G.set s d) c := by
  refine G.ext fun f => ?_
  rw [G.value_set, G.value_set, G.value_set, G.value_set]
  rcases h f with hc | hd
  · rw [hc]
    rfl
  · rw [hd]
    rfl

theorem foldl_set_swap (h : G.Apart c d) (s : σ) (earlier later : List κ) :
    (earlier ++ c :: d :: later).foldl G.set s = (earlier ++ d :: c :: later).foldl G.set s := by
  rw [List.foldl_append, List.foldl_append, List.foldl_cons, List.foldl_cons, List.foldl_cons,
    List.foldl_cons, set_comm h]

/-- Where each change is judged by itself, so is a batch. -/
theorem staysValid_iff_forall {Fits : κ → Prop}
    (hfits : ∀ {s c}, G.Valid s → (G.Valid (G.set s c) ↔ Fits c)) (hs : G.Valid s) :
    G.StaysValid s changes ↔ ∀ c ∈ changes, Fits c := by
  induction changes generalizing s with
  | nil => simp [staysValid_nil, hs]
  | cons c changes ih =>
      rw [staysValid_cons, List.forall_mem_cons, ← hfits hs]
      constructor
      · rintro ⟨-, h⟩
        exact ⟨h.start, (ih h.start).1 h⟩
      · rintro ⟨hc, h⟩
        exact ⟨hs, (ih hc).2 h⟩

end SettingsGroup

inductive ProtocolField
  | minimumValidatorDeposit
  | maximumValidatorStakePercent
  | minimumDelegatorDeposit
  | minimumTotalStakePriceForBooting
  | maximumBridgedTokensPercent
  | maximumWrappedTokenPercent
  | minimumValidatorCount
  | maximumValidatorCount
  | maximumValidatorsPerDelegator
  | validatorUnlockPeriod
  | delegatorUnlockPeriod
  | maximumUnwithdrawnRewardEras
  | maximumValidMessageEras
  | delegationFeePercent
  | maximumUnprofitableEras
  deriving DecidableEq

abbrev ProtocolField.Value : ProtocolField → Type
  | maximumValidatorStakePercent | maximumBridgedTokensPercent | maximumWrappedTokenPercent
  | delegationFeePercent | maximumUnprofitableEras => UInt16
  | minimumValidatorDeposit | minimumDelegatorDeposit | minimumTotalStakePriceForBooting
  | minimumValidatorCount | maximumValidatorCount | maximumValidatorsPerDelegator
  | validatorUnlockPeriod | delegatorUnlockPeriod | maximumUnwithdrawnRewardEras
  | maximumValidMessageEras => UInt64

def ProtocolSettings.value (s : ProtocolSettings) : (f : ProtocolField) → f.Value
  | .minimumValidatorDeposit => s.minimumValidatorDeposit
  | .maximumValidatorStakePercent => s.maximumValidatorStakePercent
  | .minimumDelegatorDeposit => s.minimumDelegatorDeposit
  | .minimumTotalStakePriceForBooting => s.minimumTotalStakePriceForBooting
  | .maximumBridgedTokensPercent => s.maximumBridgedTokensPercent
  | .maximumWrappedTokenPercent => s.maximumWrappedTokenPercent
  | .minimumValidatorCount => s.minimumValidatorCount
  | .maximumValidatorCount => s.maximumValidatorCount
  | .maximumValidatorsPerDelegator => s.maximumValidatorsPerDelegator
  | .validatorUnlockPeriod => s.validatorUnlockPeriod
  | .delegatorUnlockPeriod => s.delegatorUnlockPeriod
  | .maximumUnwithdrawnRewardEras => s.maximumUnwithdrawnRewardEras
  | .maximumValidMessageEras => s.maximumValidMessageEras
  | .delegationFeePercent => s.delegationFeePercent
  | .maximumUnprofitableEras => s.maximumUnprofitableEras

def ProtocolChange.assigned? : ProtocolChange → (f : ProtocolField) → Option f.Value
  | minimumValidatorDeposit v, .minimumValidatorDeposit => some v
  | maximumValidatorStakePercent v, .maximumValidatorStakePercent => some v
  | minimumDelegatorDeposit v, .minimumDelegatorDeposit => some v
  | minimumTotalStakePriceForBooting v, .minimumTotalStakePriceForBooting => some v
  | maximumBridgedTokensPercent v, .maximumBridgedTokensPercent => some v
  | maximumWrappedTokenPercent v, .maximumWrappedTokenPercent => some v
  | minimumValidatorCount v, .minimumValidatorCount => some v
  | maximumValidatorCount v, .maximumValidatorCount => some v
  | maximumValidatorsPerDelegator v, .maximumValidatorsPerDelegator => some v
  | validatorUnlockPeriod v, .validatorUnlockPeriod => some v
  | delegatorUnlockPeriod v, .delegatorUnlockPeriod => some v
  | maximumUnwithdrawnRewardEras v, .maximumUnwithdrawnRewardEras => some v
  | maximumValidMessageEras v, .maximumValidMessageEras => some v
  | delegationFeePercent v, .delegationFeePercent => some v
  | maximumUnprofitableEras v, .maximumUnprofitableEras => some v
  | _, _ => none

theorem ProtocolSettings.value_set (s : ProtocolSettings) (c : ProtocolChange) (f : ProtocolField) :
    (s.set c).value f = (c.assigned? f).getD (s.value f) := by
  cases c <;> cases f <;> rfl

theorem ProtocolSettings.ext_of_value {s s' : ProtocolSettings} (h : ∀ f, s.value f = s'.value f) :
    s = s' := by
  cases s
  cases s'
  rw [mk.injEq]
  exact ⟨h .minimumValidatorDeposit, h .maximumValidatorStakePercent, h .minimumDelegatorDeposit,
    h .minimumTotalStakePriceForBooting, h .maximumBridgedTokensPercent,
    h .maximumWrappedTokenPercent, h .minimumValidatorCount, h .maximumValidatorCount,
    h .maximumValidatorsPerDelegator, h .validatorUnlockPeriod, h .delegatorUnlockPeriod,
    h .maximumUnwithdrawnRewardEras, h .maximumValidMessageEras, h .delegationFeePercent,
    h .maximumUnprofitableEras⟩

def protocolGroup : SettingsGroup ProtocolSettings ProtocolChange where
  Field := ProtocolField
  Value := ProtocolField.Value
  value := ProtocolSettings.value
  assigned? := ProtocolChange.assigned?
  set := ProtocolSettings.set
  Valid := ProtocolSettings.Valid
  apply := ProtocolSettings.apply
  ext := ProtocolSettings.ext_of_value
  value_set := ProtocolSettings.value_set
  apply_eq_ok_iff := fun _ => ite_ok_eq_ok_iff
  eq_of_apply_eq_error := eq_of_ite_ok_eq_error

inductive AppchainField
  | chainSpec
  | rawChainSpec
  | bootNodes
  | rpcEndpoint
  | subqlEndpoint
  | eraReward
  deriving DecidableEq

abbrev AppchainField.Value : AppchainField → Type
  | chainSpec | rawChainSpec | bootNodes | rpcEndpoint | subqlEndpoint => String
  | eraReward => UInt64

def AppchainChange.assigned? : AppchainChange → (f : AppchainField) → Option f.Value
  | chainSpec v, .chainSpec => some v
  | rawChainSpec v, .rawChainSpec => some v
  | bootNodes v, .bootNodes => some v
  | rpcEndpoint v, .rpcEndpoint => some v
  | subqlEndpoint v, .subqlEndpoint => some v
  | eraReward v, .eraReward => some v
  | _, _ => none

namespace AppchainSettings

variable {s s' : AppchainSettings} {c : AppchainChange}

def value (s : AppchainSettings) : (f : AppchainField) → f.Value
  | .chainSpec => s.chainSpec
  | .rawChainSpec => s.rawChainSpec
  | .bootNodes => s.bootNodes
  | .rpcEndpoint => s.rpcEndpoint
  | .subqlEndpoint => s.subqlEndpoint
  | .eraReward => s.eraReward

theorem value_set (s : AppchainSettings) (c : AppchainChange) (f : AppchainField) :
    (s.set c).value f = (c.assigned? f).getD (s.value f) := by
  cases c <;> cases f <;> rfl

theorem ext_of_value (h : ∀ f, s.value f = s'.value f) : s = s' := by
  cases s
  cases s'
  rw [mk.injEq]
  exact ⟨h .chainSpec, h .rawChainSpec, h .bootNodes, h .rpcEndpoint, h .subqlEndpoint,
    h .eraReward⟩

theorem mem_texts_of_text? {text : String} (h : text ∈ c.text?) : text ∈ (s.set c).texts := by
  cases c <;> cases h <;> simp [set, texts]

/-- From within the limits a change leads out of them only by its own text. -/
theorem valid_set_iff (hs : s.Valid) : (s.set c).Valid ↔ c.Fits := by
  constructor
  · exact fun h text htext => h text (mem_texts_of_text? htext)
  · exact fun h text htext => (mem_texts_set htext).elim (hs text) (h text)

end AppchainSettings

def appchainGroup : SettingsGroup AppchainSettings AppchainChange where
  Field := AppchainField
  Value := AppchainField.Value
  value := AppchainSettings.value
  assigned? := AppchainChange.assigned?
  set := AppchainSettings.set
  Valid := AppchainSettings.Valid
  apply := AppchainSettings.apply
  ext := AppchainSettings.ext_of_value
  value_set := AppchainSettings.value_set
  apply_eq_ok_iff := fun hs => by
    rw [AppchainSettings.valid_set_iff hs]
    exact ite_ok_eq_ok_iff
  eq_of_apply_eq_error := eq_of_ite_ok_eq_error

inductive AppointmentField
  | tokenPriceMaintainer
  | relayer
  deriving DecidableEq

def AppointmentChange.assigned? : AppointmentChange → AppointmentField → Option (Option AccountId)
  | tokenPriceMaintainer account, .tokenPriceMaintainer => some account
  | relayer account, .relayer => some account
  | _, _ => none

namespace AppointmentSettings

def value (s : AppointmentSettings) : AppointmentField → Option AccountId
  | .tokenPriceMaintainer => s.tokenPriceMaintainer
  | .relayer => s.relayer

theorem value_apply (s : AppointmentSettings) (c : AppointmentChange) (f : AppointmentField) :
    (s.apply c).value f = (c.assigned? f).getD (s.value f) := by
  cases c <;> cases f <;> rfl

theorem ext_of_value {s s' : AppointmentSettings} (h : ∀ f, s.value f = s'.value f) : s = s' := by
  cases s
  cases s'
  rw [mk.injEq]
  exact ⟨h .tokenPriceMaintainer, h .relayer⟩

end AppointmentSettings

def appointmentGroup : SettingsGroup AppointmentSettings AppointmentChange where
  Field := AppointmentField
  Value _ := Option AccountId
  value := AppointmentSettings.value
  assigned? := AppointmentChange.assigned?
  set := AppointmentSettings.apply
  Valid _ := True
  apply s c := .ok (s.apply c)
  ext := AppointmentSettings.ext_of_value
  value_set := AppointmentSettings.value_apply
  apply_eq_ok_iff := fun _ => by simp [eq_comm]
  eq_of_apply_eq_error := fun h => (by cases h)

inductive WrappedTokenField
  | metadata
  | contract
  | preminedBeneficiary
  | preminedBalance
  | price
  deriving DecidableEq

abbrev WrappedTokenField.Value : WrappedTokenField → Type
  | metadata => TokenMetadata
  | contract | preminedBeneficiary => Option AccountId
  | preminedBalance | price => UInt64

namespace WrappedTokenChange

/-- The premined balance is assigned together with its beneficiary. -/
def assigned? : WrappedTokenChange → (f : WrappedTokenField) → Option f.Value
  | metadata value, .metadata => some value
  | contract account, .contract => some (some account)
  | preminedBalance beneficiary _, .preminedBeneficiary => some (some beneficiary)
  | preminedBalance _ value, .preminedBalance => some value
  | price value, .price => some value
  | _, _ => none

def Fits : WrappedTokenChange → Prop
  | metadata value => value.Fits
  | contract _ | preminedBalance _ _ | price _ => True

instance : (c : WrappedTokenChange) → Decidable c.Fits
  | metadata value => inferInstanceAs (Decidable value.Fits)
  | contract _ | preminedBalance _ _ | price _ => isTrue trivial

end WrappedTokenChange

namespace WrappedToken

variable {t t' : WrappedToken} {c : WrappedTokenChange}

def value (t : WrappedToken) : (f : WrappedTokenField) → f.Value
  | .metadata => t.metadata
  | .contract => t.contract
  | .preminedBeneficiary => t.preminedBeneficiary
  | .preminedBalance => t.preminedBalance
  | .price => t.price

def set (t : WrappedToken) : WrappedTokenChange → WrappedToken
  | .metadata value => { t with metadata := value }
  | .contract account => { t with contract := some account }
  | .preminedBalance beneficiary value =>
      { t with preminedBeneficiary := some beneficiary, preminedBalance := value }
  | .price value => { t with price := value }

theorem apply_eq (t : WrappedToken) (c : WrappedTokenChange) :
    t.apply c = if c.Fits then .ok (t.set c) else .error .invalidValue := by
  cases c with
  | metadata => rfl
  | contract | preminedBalance | price => exact (if_pos trivial).symm

theorem value_set (t : WrappedToken) (c : WrappedTokenChange) (f : WrappedTokenField) :
    (t.set c).value f = (c.assigned? f).getD (t.value f) := by
  cases c <;> cases f <;> rfl

theorem ext_of_value (h : ∀ f, t.value f = t'.value f) : t = t' := by
  cases t
  cases t'
  rw [mk.injEq]
  exact ⟨h .metadata, h .contract, h .preminedBeneficiary, h .preminedBalance, h .price⟩

theorem fits_set_iff (ht : t.metadata.Fits) : (t.set c).metadata.Fits ↔ c.Fits := by
  cases c with
  | metadata => rfl
  | contract | preminedBalance | price => exact iff_of_true ht trivial

end WrappedToken

def wrappedTokenGroup : SettingsGroup WrappedToken WrappedTokenChange where
  Field := WrappedTokenField
  Value := WrappedTokenField.Value
  value := WrappedToken.value
  assigned? := WrappedTokenChange.assigned?
  set := WrappedToken.set
  Valid t := t.metadata.Fits
  apply := WrappedToken.apply
  ext := WrappedToken.ext_of_value
  value_set := WrappedToken.value_set
  apply_eq_ok_iff := fun ht => by
    rw [WrappedToken.apply_eq, WrappedToken.fits_set_iff ht]
    exact ite_ok_eq_ok_iff
  eq_of_apply_eq_error := fun h => by
    rw [WrappedToken.apply_eq] at h
    exact eq_of_ite_ok_eq_error h

end AppchainStaking
