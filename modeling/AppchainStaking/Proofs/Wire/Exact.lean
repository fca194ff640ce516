import AppchainStaking.Proofs.Anchor.Space
import AppchainStaking.Proofs.Wire.Canonical

/-!
# Values and their forms

For every type that is stored or sent, decoding is the inverse of encoding: a value whose texts and
lists are short enough to have a form is read back from it, and bytes that are read as a value are
its form. What is kept in an account is read back whatever the account holds behind it.
-/

namespace AppchainStaking

namespace Wire

variable {α : Type}

/-- The texts and lists in the value are shorter than `2 ^ 32`, texts in bytes. -/
def Bounded [Wire α] [Measured α] (a : α) : Prop := ∀ n ∈ lengths a, n < UInt32.size

/-- Encoding is a bijection from the values in range to the bytes that are decoded. -/
structure Exact (α : Type) [Wire α] (InRange : α → Prop) : Prop where
  decode_encode : ∀ a, InRange a → decodeAll (encode a) = .ok a
  encode_decode : ∀ (bytes : Bytes) (a : α), decodeAll bytes = .ok a →
    InRange a ∧ encode a = bytes

theorem decodeAll_eq_ok_iff [Wire α] [LawfulWire α] [CanonicalWire α] {bytes : Bytes} {a : α} :
    decodeAll bytes = .ok a ↔ fits a = true ∧ bytes = encode a := by
  unfold decodeAll
  rw [bind_eq_ok_iff]
  constructor
  · rintro ⟨⟨b, rest⟩, hdecode, hend⟩
    dsimp only at hend
    split at hend
    · next hrest =>
        cases hend
        obtain ⟨hfits, rfl⟩ := CanonicalWire.of_decode hdecode
        exact ⟨hfits, by rw [hrest, List.append_nil]⟩
    · cases hend
  · rintro ⟨hfits, rfl⟩
    have hdecode := LawfulWire.decode_encode hfits []
    rw [List.append_nil] at hdecode
    exact ⟨(a, []), hdecode, if_pos rfl⟩

/-- A lawful and canonical form is exact for the values that have it. -/
theorem exact_of_fits_iff [Wire α] [LawfulWire α] [CanonicalWire α] {InRange : α → Prop}
    (h : ∀ a, fits a = true ↔ InRange a) : Exact α InRange where
  decode_encode a ha := decodeAll_eq_ok_iff.2 ⟨(h a).2 ha, rfl⟩
  encode_decode bytes a hdecode := by
    obtain ⟨hfits, rfl⟩ := decodeAll_eq_ok_iff.1 hdecode
    exact ⟨(h a).1 hfits, rfl⟩

theorem exact_bounded [Wire α] [LawfulWire α] [CanonicalWire α] [Measured α] :
    Exact α Bounded :=
  exact_of_fits_iff fits_iff

end Wire

open Wire

instance : Measured Int64 := .ofFits fun n => fits_uint64 n.toUInt64

theorem IndexRange.fits_eq (r : IndexRange) : fits r = true := by
  obtain ⟨start, last⟩ := r
  have hlast : fits last = true := by
    cases last with
    | none => rfl
    | some n => exact fits_uint64 n
  exact Bool.and_eq_true_iff.2 ⟨fits_uint64 start, hlast⟩

instance : Measured IndexRange := .ofFits IndexRange.fits_eq

instance : Measured Fact where
  lengths
    | .validatorRegistered _ id _ _ => lengths id
    | _ => []
  fits_iff f := by
    cases f with
    | validatorRegistered v id amount delegable => exact fits_iff id
    | stakeIncreased | stakeDecreased | validatorUnbonded | delegationEnabled | delegationDisabled
    | delegatorRegistered | delegationIncreased | delegationDecreased | delegatorUnbonded =>
        exact iff_of_true rfl (by simp)

instance : Measured HistoryRecord := .via

instance : Measured ProtocolChange := .ofFits fun _ => rfl

instance : Measured AppchainChange where
  lengths
    | .chainSpec v | .rawChainSpec v | .bootNodes v | .rpcEndpoint v | .subqlEndpoint v => lengths v
    | .eraReward _ => []
  fits_iff c := by
    cases c with
    | chainSpec v | rawChainSpec v | bootNodes v | rpcEndpoint v | subqlEndpoint v =>
        exact fits_iff v
    | eraReward => exact iff_of_true rfl (by simp)

instance : Measured AppointmentChange := .ofFits fun _ => rfl

instance : Measured WrappedTokenChange where
  lengths
    | .metadata m => lengths m
    | _ => []
  fits_iff c := by
    cases c with
    | metadata m => exact fits_iff m
    | contract | preminedBalance | price => exact iff_of_true rfl (by simp)

theorem Wire.fits_field_iff {width n : Nat} :
    fits (α := Field width) n = true ↔ n < Nat.pow 256 width :=
  decide_eq_true_iff

/-- In a view the totals and counts are natural numbers, which have a form as numbers of sixteen and
of eight bytes. -/
structure ValidatorOverview.InRange (v : ValidatorOverview) : Prop where
  appchainId : v.appchainId.utf8ByteSize < UInt32.size
  totalStake : v.totalStake < Nat.pow 256 16
  delegatorCount : v.delegatorCount < UInt64.size

theorem ValidatorOverview.fits_iff (v : ValidatorOverview) : fits v = true ↔ v.InRange := by
  change (fits v.id && (fits v.appchainId && (fits v.deposit &&
    (fits (α := Field 16) v.totalStake &&
      (fits (α := Field 8) v.delegatorCount && fits v.delegable))))) = true ↔ _
  simp only [Bool.and_eq_true, fits_field_iff]
  constructor
  · rintro ⟨-, hid, -, htotal, hcount, -⟩
    exact ⟨of_decide_eq_true hid, htotal, hcount⟩
  · rintro ⟨hid, htotal, hcount⟩
    exact ⟨rfl, decide_eq_true hid, fits_uint64 _, htotal, hcount, rfl⟩

structure Anchor.Status.InRange (s : Anchor.Status) : Prop where
  totalStake : s.totalStake < Nat.pow 256 16
  validatorCount : s.validatorCount < UInt64.size
  delegatorCount : s.delegatorCount < UInt64.size

theorem Anchor.Status.fits_iff (s : Anchor.Status) : fits s = true ↔ s.InRange := by
  change (fits (α := Field 16) s.totalStake && (fits (α := Field 8) s.validatorCount &&
    (fits (α := Field 8) s.delegatorCount && (fits s.historyRange && (fits s.era &&
      fits s.transfersPaused))))) = true ↔ _
  simp only [Bool.and_eq_true, fits_field_iff]
  constructor
  · rintro ⟨htotal, hvalidators, hdelegators, -⟩
    exact ⟨htotal, hvalidators, hdelegators⟩
  · rintro ⟨htotal, hvalidators, hdelegators⟩
    exact ⟨htotal, hvalidators, hdelegators, s.historyRange.fits_eq, fits_uint64 _, rfl⟩

/-- The forms of what is kept in accounts, of settings and their changes, of views, and of what
events tell are exact. -/
structure FormsExact : Prop where
  template : Exact Template Bounded
  phase : Exact Phase Bounded
  profileEntry : Exact ProfileEntry Bounded
  validator : Exact Validator Bounded
  delegation : Exact Delegation Bounded
  validatorOverview : Exact ValidatorOverview ValidatorOverview.InRange
  ledger : Exact Ledger Bounded
  stakeToken : Exact StakeToken Bounded
  tokenMetadata : Exact TokenMetadata Bounded
  wrappedToken : Exact WrappedToken Bounded
  wrappedTokenChange : Exact WrappedTokenChange Bounded
  protocolSettings : Exact ProtocolSettings Bounded
  protocolChange : Exact ProtocolChange Bounded
  appchainSettings : Exact AppchainSettings Bounded
  appchainChange : Exact AppchainChange Bounded
  appointmentSettings : Exact AppointmentSettings Bounded
  appointmentChange : Exact AppointmentChange Bounded
  settingsStore : Exact SettingsStore Bounded
  unbondedEntry : Exact UnbondedEntry Bounded
  unbondedEntries : Exact (Group UnbondedEntry) Bounded
  unbondingQueue : Exact UnbondingQueue Bounded
  fact : Exact Fact Bounded
  historyRecord : Exact HistoryRecord Bounded
  indexRange : Exact IndexRange Bounded
  historyIndexes : Exact (Group UInt64) Bounded
  historyLog : Exact HistoryLog Bounded
  anchor : Exact Anchor Bounded
  status : Exact Anchor.Status Anchor.Status.InRange
  factRecorded : Exact (UInt64 × AccountId × Fact × UInt64 × Int64) Bounded
  profileUpdated : Exact (AccountId × UInt64) Bounded
  stakeWithdrawn : Exact (AccountId × Amount × AccountId × AccountId) Bounded
  protocolSettingsChanged : Exact (AccountId × List ProtocolChange) Bounded
  appchainSettingsChanged : Exact (AccountId × List AppchainChange) Bounded
  appointmentsChanged : Exact (AccountId × List AppointmentChange) Bounded
  wrappedTokenChanged : Exact (AccountId × List WrappedTokenChange) Bounded
  phaseChanged : Exact (AccountId × Phase × Phase) Bounded
  eraSwitched : Exact (AccountId × UInt64) Bounded
  ownerChanged : Exact (AccountId × AccountId) Bounded
  priceUpdated : Exact (AccountId × UInt64 × UInt64 × AccountId) Bounded
  transfersPaused : Exact (AccountId × Bool) Bounded
  /-- An account is larger than its content, and what is behind the content does not matter. -/
  storedAnchor : ∀ s : Anchor, Bounded s → ∀ rest, Stored.load (Stored.bytes s ++ rest) = .ok s
  storedRecord : ∀ r : HistoryRecord, Bounded r → ∀ rest,
    Stored.load (Stored.bytes r ++ rest) = .ok r

/-- Decoding is the inverse of encoding, and refuses all that encoding does not write. -/
theorem forms_exact : FormsExact where
  template := exact_bounded
  phase := exact_bounded
  profileEntry := exact_bounded
  validator := exact_bounded
  delegation := exact_bounded
  validatorOverview := exact_of_fits_iff ValidatorOverview.fits_iff
  ledger := exact_bounded
  stakeToken := exact_bounded
  tokenMetadata := exact_bounded
  wrappedToken := exact_bounded
  wrappedTokenChange := exact_bounded
  protocolSettings := exact_bounded
  protocolChange := exact_bounded
  appchainSettings := exact_bounded
  appchainChange := exact_bounded
  appointmentSettings := exact_bounded
  appointmentChange := exact_bounded
  settingsStore := exact_bounded
  unbondedEntry := exact_bounded
  unbondedEntries := exact_bounded
  unbondingQueue := exact_bounded
  fact := exact_bounded
  historyRecord := exact_bounded
  indexRange := exact_bounded
  historyIndexes := exact_bounded
  historyLog := exact_bounded
  anchor := exact_bounded
  status := exact_of_fits_iff Anchor.Status.fits_iff
  factRecorded := exact_bounded
  profileUpdated := exact_bounded
  stakeWithdrawn := exact_bounded
  protocolSettingsChanged := exact_bounded
  appchainSettingsChanged := exact_bounded
  appointmentsChanged := exact_bounded
  wrappedTokenChanged := exact_bounded
  phaseChanged := exact_bounded
  eraSwitched := exact_bounded
  ownerChanged := exact_bounded
  priceUpdated := exact_bounded
  transfersPaused := exact_bounded
  storedAnchor s h rest := Stored.load_bytes_append ((fits_iff s).2 h) rest
  storedRecord r h rest := Stored.load_bytes_append ((fits_iff r).2 h) rest

/-- There are no two ways to write a flag. -/
example : (decodeAll [2] : Except WireError Bool) = .error (.badBool 2) := rfl

end AppchainStaking
