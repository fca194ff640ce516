import AppchainStaking.Proofs.Anchor.Operation

/-!
# When an appchain may boot

The owner lets a staging appchain boot when enough validators are there and their stake is worth
enough. The worth is computed in 128 bits and rounded down. In unbounded integers this compares two
products, as long as the scale of the token and the gross value of the stake are in range.
-/

namespace AppchainStaking

namespace StakeToken

variable {t : StakeToken}

theorem valueBound_eq : valueBound = Nat.pow 2 128 := by decide +kernel

theorem scale_pos (t : StakeToken) : 0 < t.scale := Nat.pow_pos (by decide)

theorem scale_lt_valueBound_iff : t.scale < valueBound ↔ t.decimals.toNat ≤ 38 := by
  constructor
  · intro h
    have hbound : valueBound ≤ Nat.pow 10 39 := by decide +kernel
    have hlt : Nat.pow 10 t.decimals.toNat < Nat.pow 10 39 := Nat.lt_of_lt_of_le h hbound
    exact Nat.le_of_lt_succ ((Nat.pow_lt_pow_iff_right (by decide)).1 hlt)
  · intro h
    have hbound : Nat.pow 10 38 < valueBound := by decide +kernel
    exact Nat.lt_of_le_of_lt (Nat.pow_le_pow_right (by decide) h) hbound

theorem valueOf_eq (t : StakeToken) (amount : Nat) :
    t.valueOf amount = do
      require (t.decimals.toNat ≤ 38 ∧ amount * t.price.toNat < Nat.pow 2 128) .amountOverflow
      return amount * t.price.toNat / t.scale := by
  simp only [← valueBound_eq, ← scale_lt_valueBound_iff, valueOf]
  by_cases hscale : t.scale < valueBound
  · by_cases hgross : amount * t.price.toNat < valueBound
    · simp only [require, hscale, hgross]
      rfl
    · simp only [require, hscale, hgross]
      rfl
  · simp only [require, hscale]
    rfl

end StakeToken

/-- Booting without a quotient. -/
theorem Phase.boot_eq (p : Phase) (settings : ProtocolSettings) (t : StakeToken)
    (next : Projection) :
    p.boot settings t next = do
      require (p = staging) .invalidState
      require (settings.minimumValidatorCount.toNat ≤ next.validatorCount) .preconditionNotMet
      require (t.decimals.toNat ≤ 38 ∧ next.totalStake * t.price.toNat < Nat.pow 2 128)
        .amountOverflow
      require (settings.minimumTotalStakePriceForBooting.toNat * t.scale ≤
        next.totalStake * t.price.toNat) .preconditionNotMet
      return booting := by
  rw [boot, StakeToken.valueOf_eq]
  simp only [bind_assoc, pure_bind, Nat.le_div_iff_mul_le t.scale_pos]

namespace Anchor

variable {s s' : Anchor} {caller : AccountId} {reply : CommandReply}

/-- What lets a caller boot the appchain, in unbounded integers. -/
structure MayBoot (s : Anchor) (caller : AccountId) : Prop where
  owner : caller = s.owner
  staging : s.phase = .staging
  validators : s.settings.protocol.minimumValidatorCount.toNat ≤ s.ledger.validatorCount
  decimals : s.stakeToken.decimals.toNat ≤ 38
  gross : s.ledger.totalStake * s.stakeToken.price.toNat < Nat.pow 2 128
  worth : s.settings.protocol.minimumTotalStakePriceForBooting.toNat *
    Nat.pow 10 s.stakeToken.decimals.toNat ≤ s.ledger.totalStake * s.stakeToken.price.toNat

theorem authorize_governance : s.roles.authorize caller .governance ↔ caller = s.owner := by
  rw [Roles.authorize, Bool.or_false]
  exact decide_eq_true_iff

theorem command_goBooting (s : Anchor) (caller : AccountId) :
    s.command s.roles.authorize caller .goBooting = do
      require (s.roles.authorize caller .governance) .unauthorized
      require (s.phase = .staging) .invalidState
      require (s.settings.protocol.minimumValidatorCount.toNat ≤ s.ledger.validatorCount)
        .preconditionNotMet
      require (s.stakeToken.decimals.toNat ≤ 38 ∧
        s.ledger.totalStake * s.stakeToken.price.toNat < Nat.pow 2 128) .amountOverflow
      require (s.settings.protocol.minimumTotalStakePriceForBooting.toNat * s.stakeToken.scale ≤
        s.ledger.totalStake * s.stakeToken.price.toNat) .preconditionNotMet
      return (.phase .booting, { s with phase := .booting }) := by
  simp only [command, Authorizer.demand, execute, Phase.boot_eq, bind_assoc, pure_bind]
  rfl

theorem boot_eq_ok_iff :
    s.command s.roles.authorize caller .goBooting = .ok (reply, s') ↔
      s.MayBoot caller ∧ reply = .phase .booting ∧ s' = { s with phase := .booting } := by
  simp only [command_goBooting, bind_eq_ok_iff, require_eq_ok_iff, pure_eq_ok_iff,
    authorize_governance, Prod.mk.injEq]
  constructor
  · rintro ⟨_, owner, _, staging, _, validators, _, ⟨decimals, gross⟩, _, worth, rfl, rfl⟩
    exact ⟨⟨owner, staging, validators, decimals, gross, worth⟩, rfl, rfl⟩
  · rintro ⟨⟨owner, staging, validators, decimals, gross, worth⟩, rfl, rfl⟩
    exact ⟨(), owner, (), staging, (), validators, (), ⟨decimals, gross⟩, (), worth, rfl, rfl⟩

/-- Why booting fails for the owner of a staging appchain. -/
theorem boot_eq_error {e : StakingError}
    (h : s.command s.roles.authorize caller .goBooting = .error e) :
    e = .unauthorized ∨ e = .invalidState ∨
      (e = .amountOverflow ∧ ¬(s.stakeToken.decimals.toNat ≤ 38 ∧
        s.ledger.totalStake * s.stakeToken.price.toNat < Nat.pow 2 128)) ∨
      (e = .preconditionNotMet ∧
        ¬(s.settings.protocol.minimumValidatorCount.toNat ≤ s.ledger.validatorCount ∧
          s.settings.protocol.minimumTotalStakePriceForBooting.toNat * s.stakeToken.scale ≤
            s.ledger.totalStake * s.stakeToken.price.toNat)) := by
  simp only [command_goBooting, bind_eq_error_iff, require_eq_error_iff] at h
  rcases h with ⟨-, rfl⟩ | ⟨_, -, ⟨-, rfl⟩ | ⟨_, -, ⟨few, rfl⟩ | ⟨_, -, ⟨range, rfl⟩ |
    ⟨_, -, ⟨poor, rfl⟩ | ⟨_, -, h⟩⟩⟩⟩⟩
  · exact .inl rfl
  · exact .inr (.inl rfl)
  · exact .inr (.inr (.inr ⟨rfl, fun met => few met.1⟩))
  · exact .inr (.inr (.inl ⟨rfl, range⟩))
  · exact .inr (.inr (.inr ⟨rfl, fun met => poor met.2⟩))
  · cases h

/-- What a change of price and stake leaves of the conditions that can be missed. -/
theorem MayBoot.raised (h : s.MayBoot caller) {price : UInt64} {ledger : Ledger}
    (hprice : s.stakeToken.price ≤ price) (hstake : s.ledger.totalStake ≤ ledger.totalStake)
    (hcount : s.ledger.validatorCount ≤ ledger.validatorCount) :
    let s' := { s with stakeToken.price := price, ledger }
    s'.command s'.roles.authorize caller .goBooting ≠ .error .preconditionNotMet := by
  intro s' hmissing
  have hgross : s.ledger.totalStake * s.stakeToken.price.toNat ≤
      ledger.totalStake * price.toNat :=
    Nat.mul_le_mul hstake (UInt64.le_iff_toNat_le.1 hprice)
  have hmet : s'.settings.protocol.minimumValidatorCount.toNat ≤ s'.ledger.validatorCount ∧
      s'.settings.protocol.minimumTotalStakePriceForBooting.toNat * s'.stakeToken.scale ≤
        s'.ledger.totalStake * s'.stakeToken.price.toNat :=
    ⟨Nat.le_trans h.validators hcount, Nat.le_trans h.worth hgross⟩
  rcases boot_eq_error hmissing with h | h | ⟨h, -⟩ | ⟨-, hunmet⟩
  · cases h
  · cases h
  · cases h
  · exact hunmet hmet

theorem gross_lt {stake : Nat} (hstake : stake < Nat.pow 2 64) (price : UInt64) :
    stake * price.toNat < Nat.pow 2 128 := by
  calc stake * price.toNat < Nat.pow 2 64 * Nat.pow 2 64 :=
        Nat.mul_lt_mul_of_lt_of_le hstake (Nat.le_of_lt price.toNat_lt_size) (by decide)
    _ = Nat.pow 2 128 := by decide

/-- An appchain boots exactly by its criterion, and then nothing but its phase changes. A stake that
fits in 64 bits never overflows with up to 38 decimals. A higher price and more stake never miss
what was met before. -/
theorem booting_exact (s : Anchor) (caller : AccountId) :
    let outcome := s.command s.roles.authorize caller .goBooting
    ((∃ answer, outcome = .ok answer) ↔ s.MayBoot caller) ∧
      (∀ reply s', outcome = .ok (reply, s') →
        reply = .phase .booting ∧ s' = { s with phase := .booting }) ∧
      (s.ledger.totalStake < Nat.pow 2 64 → s.stakeToken.decimals.toNat ≤ 38 →
        outcome ≠ .error .amountOverflow) ∧
      ∀ price ledger, (∃ answer, outcome = .ok answer) → s.stakeToken.price ≤ price →
        s.ledger.totalStake ≤ ledger.totalStake →
        s.ledger.validatorCount ≤ ledger.validatorCount →
          let raised := { s with stakeToken.price := price, ledger }
          raised.command raised.roles.authorize caller .goBooting ≠ .error .preconditionNotMet := by
  intro outcome
  have hboots : (∃ answer, outcome = .ok answer) ↔ s.MayBoot caller := by
    constructor
    · rintro ⟨⟨reply, s'⟩, h⟩
      exact (boot_eq_ok_iff.1 h).1
    · intro h
      exact ⟨_, boot_eq_ok_iff.2 ⟨h, rfl, rfl⟩⟩
  refine ⟨hboots, fun reply s' h => (boot_eq_ok_iff.1 h).2, fun hstake decimals h => ?_,
    fun price ledger hok => (hboots.1 hok).raised⟩
  rcases boot_eq_error h with h | h | ⟨-, hrange⟩ | ⟨h, -⟩
  · cases h
  · cases h
  · exact hrange ⟨decimals, gross_lt hstake _⟩
  · cases h

end Anchor

namespace SampleRun

/-- One validator has the stake that is worth just what booting takes. -/
def ready (deposit : Amount) : Anchor :=
  { anchor with
    stakeToken.price := 500
    settings.protocol := { minimumValidatorCount := 1, minimumTotalStakePriceForBooting := 3 }
    ledger.validators := [{
      id := validator, appchainId := "", deposit, delegable := true, profile := []
      registeredEra := 0 }] }

end SampleRun

open SampleRun in
/-- With one unit less the worth would be rounded down to two. -/
theorem Anchor.booting_exact_ready :
    let s := ready 6000
    let richer := { s with stakeToken.price := 501, ledger := (ready 6001).ledger }
    s.MayBoot SampleRun.owner ∧ ¬(ready 5999).MayBoot SampleRun.owner ∧
      s.ledger.totalStake < Nat.pow 2 64 ∧ s.stakeToken.decimals.toNat ≤ 38 ∧
      s.command s.roles.authorize SampleRun.owner .goBooting ≠ .error .amountOverflow ∧
      s.stakeToken.price ≤ 501 ∧ s.ledger.totalStake ≤ (ready 6001).ledger.totalStake ∧
      s.ledger.validatorCount ≤ (ready 6001).ledger.validatorCount ∧
      (∃ answer, s.command s.roles.authorize SampleRun.owner .goBooting = .ok answer) ∧
      richer.command richer.roles.authorize SampleRun.owner .goBooting ≠
        .error .preconditionNotMet := by
  intro s richer
  have hmay : s.MayBoot SampleRun.owner := by
    constructor <;> decide
  have hpoor : ¬(ready 5999).MayBoot SampleRun.owner := fun h => absurd h.worth (by decide)
  have hstake : s.ledger.totalStake < Nat.pow 2 64 := by decide
  have decimals : s.stakeToken.decimals.toNat ≤ 38 := by decide
  have hprice : s.stakeToken.price ≤ 501 := by decide
  have hmore : s.ledger.totalStake ≤ (ready 6001).ledger.totalStake := by decide
  have hcount : s.ledger.validatorCount ≤ (ready 6001).ledger.validatorCount := by decide
  obtain ⟨hboots, -, hfits, hraised⟩ := booting_exact s SampleRun.owner
  have hok := hboots.2 hmay
  exact ⟨hmay, hpoor, hstake, decimals, hfits hstake decimals, hprice, hmore, hcount, hok,
    hraised 501 (ready 6001).ledger hok hprice hmore hcount⟩

end AppchainStaking
