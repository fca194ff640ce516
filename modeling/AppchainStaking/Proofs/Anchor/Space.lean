import AppchainStaking.Proofs.Anchor.Effect
import AppchainStaking.Proofs.Ledger.WellFormed
import AppchainStaking.Proofs.Settings.Bounds
import AppchainStaking.Proofs.Wire.Growth

/-!
# The space that an anchor takes

Texts, profiles and identifiers are limited in length, so an operation lets an anchor grow by no
more than the room that is kept for it: at most by a registration with a full profile, or by five
texts of the settings. A fresh anchor fits its first allocation, and every record fits its own.
-/

namespace AppchainStaking

open Wire

variable {ε τ : Type}

instance : Measured Template := .ofFits fun _ => rfl

@[simp] theorem Template.size_eq (t : Template) : size t = 1 := by
  cases t <;> rfl

instance : Measured Phase := .ofFits fun _ => rfl

@[simp] theorem Phase.size_eq (p : Phase) : size p = 1 := by
  cases p <;> rfl

instance : Measured StakeToken := .via

@[simp] theorem StakeToken.size_eq (t : StakeToken) : size t = 41 := by
  change size (t.mint, t.decimals, t.price) = 41
  simp

instance : Measured TokenMetadata := .via

instance : Measured WrappedToken := .via

instance : Measured ProtocolSettings := .via

instance : FixedSize ProtocolSettings := .via

instance : Measured AppchainSettings := .via

instance : Measured AppointmentSettings := .via

instance : Measured SettingsStore := .via

instance : Measured ProfileEntry := .via

instance : Measured Validator := .via

instance : Measured Delegation := .via

instance : FixedSize Delegation := .via

instance : Measured Ledger := .via

instance {α : Type} [Wire α] [Measured α] : Measured (Group α) := .via

instance : Measured HistoryLog := .via

instance : Measured UnbondedEntry := .via

instance : FixedSize UnbondedEntry := .via

instance : Measured Anchor := .via

instance : FixedSize Template := ⟨fun _ _ => by simp, fun _ => rfl⟩

instance : FixedSize Phase := ⟨fun _ _ => by simp, fun _ => rfl⟩

instance : FixedSize StakeToken := ⟨fun _ _ => by simp, fun _ => rfl⟩

/-- A text was left as it was, or one within a limit was put in its place. -/
def Revised (limit : Nat) (text text' : String) : Prop :=
  text' = text ∨ text'.utf8ByteSize ≤ limit

theorem Revised.grows {limit : Nat} {text text' : String} (h : Revised limit text text')
    (hlimit : limit ≤ shortLength) : Grows limit text text' := by
  rcases h with heq | hle
  · exact .of_eq heq
  · refine .of_short ?_ fun n hn => ?_
    · rw [size_string, size_string]
      omega
    · rw [List.mem_singleton.1 hn]
      exact Nat.le_trans hle hlimit

structure AppchainSettings.Revises (s s' : AppchainSettings) : Prop where
  chainSpec : Revised maximumTextSize s.chainSpec s'.chainSpec
  rawChainSpec : Revised maximumTextSize s.rawChainSpec s'.rawChainSpec
  bootNodes : Revised maximumTextSize s.bootNodes s'.bootNodes
  rpcEndpoint : Revised maximumTextSize s.rpcEndpoint s'.rpcEndpoint
  subqlEndpoint : Revised maximumTextSize s.subqlEndpoint s'.subqlEndpoint

namespace AppchainSettings

variable {s₀ s s' : AppchainSettings}

theorem Revises.apply {change : AppchainChange} (h : s.apply change = .ok s')
    (hs : s₀.Revises s) : s₀.Revises s' := by
  unfold AppchainSettings.apply at h
  split at h
  · next fits =>
      cases h
      cases change with
      | chainSpec => exact { hs with chainSpec := .inr (fits _ rfl) }
      | rawChainSpec => exact { hs with rawChainSpec := .inr (fits _ rfl) }
      | bootNodes => exact { hs with bootNodes := .inr (fits _ rfl) }
      | rpcEndpoint => exact { hs with rpcEndpoint := .inr (fits _ rfl) }
      | subqlEndpoint => exact { hs with subqlEndpoint := .inr (fits _ rfl) }
      | eraReward => exact { hs with }
  · cases h

theorem Revises.grows (h : s.Revises s') : Grows (5 * maximumTextSize) s s' := by
  have hlimit : maximumTextSize ≤ shortLength := Nat.le_refl _
  have hfields := (h.chainSpec.grows hlimit).pair <| (h.rawChainSpec.grows hlimit).pair <|
    (h.bootNodes.grows hlimit).pair <| (h.rpcEndpoint.grows hlimit).pair <|
    (h.subqlEndpoint.grows hlimit).pair <| Grows.fixed s.eraReward s'.eraReward
  exact .via hfields (by decide)

theorem grows_of_applyAll {changes : List AppchainChange} (h : s.applyAll changes = .ok s') :
    Grows (5 * maximumTextSize) s s' :=
  (foldlM_invariant (P := s.Revises) Revises.apply h
    ⟨.inl rfl, .inl rfl, .inl rfl, .inl rfl, .inl rfl⟩).grows

end AppchainSettings

theorem Wire.Grows.account (a a' : Option AccountId) : Grows 32 a a' := by
  refine .of_short ?_ fun n hn => ?_
  · cases a <;> cases a' <;> simp
  · cases a' <;> cases hn

theorem AppointmentSettings.grows (s s' : AppointmentSettings) : Grows 64 s s' :=
  .via ((Grows.account _ _).pair (.account _ _)) (Nat.le_refl _)

theorem SettingsStore.grows_of_apply {s s' : SettingsStore} {batch : SettingsBatch}
    (h : s.apply batch = .ok s') : Grows (5 * AppchainSettings.maximumTextSize) s s' := by
  have hsame (a : AppchainSettings) : Grows 0 a a := .of_eq rfl
  cases batch with
  | protocol changes =>
      obtain ⟨protocol, -, h⟩ := bind_eq_ok_iff.1 h
      cases h
      exact .via ((Grows.fixed _ _).pair ((hsame _).pair (AppointmentSettings.grows _ _)))
        (by decide)
  | appchain changes =>
      obtain ⟨appchain, happly, h⟩ := bind_eq_ok_iff.1 h
      cases h
      have hgrows := AppchainSettings.grows_of_applyAll happly
      exact .via ((Grows.fixed _ _).pair (hgrows.pair (Grows.of_eq (k := 0) rfl))) (by decide)
  | appointments changes =>
      cases h
      exact .via ((Grows.fixed _ _).pair ((hsame _).pair (AppointmentSettings.grows _ _)))
        (by decide)

namespace WrappedToken

variable {t₀ t t' : WrappedToken}

def Revises (t t' : WrappedToken) : Prop :=
  t'.metadata = t.metadata ∨ t'.metadata.Fits

theorem Revises.apply {change : WrappedTokenChange} (h : t.apply change = .ok t')
    (ht : t₀.Revises t) : t₀.Revises t' := by
  cases change with
  | metadata value =>
      by_cases fits : value.Fits
      · cases (if_pos fits).symm.trans h
        exact .inr fits
      · cases (if_neg fits).symm.trans h
  | contract | preminedBalance | price =>
      cases h
      exact ht

theorem Revises.grows (h : t.Revises t') : Grows 144 t t' := by
  have hname : Revised TokenMetadata.maximumNameSize t.metadata.name t'.metadata.name :=
    h.imp (congrArg TokenMetadata.name) And.left
  have hsymbol : Revised TokenMetadata.maximumSymbolSize t.metadata.symbol t'.metadata.symbol :=
    h.imp (congrArg TokenMetadata.symbol) And.right
  have hmetadata : Grows 80 t.metadata t'.metadata :=
    .via ((hname.grows (by decide)).pair <| (hsymbol.grows (by decide)).pair <| .fixed _ _)
      (by decide)
  exact .via (hmetadata.pair <| (Grows.account _ _).pair <| (Grows.account _ _).pair <|
    (Grows.fixed _ _).pair <| .fixed _ _) (by decide)

theorem grows_of_applyAll {changes : List WrappedTokenChange} (h : t.applyAll changes = .ok t') :
    Grows 144 t t' :=
  (foldlM_invariant (P := t.Revises) Revises.apply h (.inl rfl)).grows

end WrappedToken

namespace Grouped

variable {α : Type} [Wire α] [Measured α]

theorem grows_push (gs : Grouped α) (a : AccountId) {x : α} (hx : Short x) :
    Grows (36 + size x) gs (gs.push a x) := by
  rcases push_cases gs a x with hnew | ⟨before, g, after, rfl, hpush⟩
  · rw [hnew]
    have hsize : size (Group.mk a [x]) = 36 + size x := by
      change size (a, [x]) = _
      rw [size_pair, size_accountId, size_cons, size_nil]
      omega
    have hshort : Short (Group.mk a [x]) := by
      intro n hn
      change n ∈ 1 :: [x].flatMap lengths at hn
      rw [List.flatMap_singleton] at hn
      rcases List.mem_cons.1 hn with rfl | hn
      · decide
      · exact hx n hn
    exact hsize ▸ .concat hshort
  · rw [hpush]
    have hitems : Grows (size x) g.items (g.items ++ [x]) := .concat hx
    exact .replace (.via ((Grows.fixed _ _).pair hitems) (by omega))

theorem grows_drop (p : α → Bool) (gs : Grouped α) (a : AccountId) :
    Grows 0 gs (drop p gs a) := by
  rcases drop_cases p gs a with hsame | ⟨before, g, after, rfl, hdrop | hdrop⟩
  · exact .of_eq hsame
  · rw [hdrop]
    exact .sublist ((List.sublist_cons_self g after).append_left before)
  · rw [hdrop]
    exact .replace (.via ((Grows.fixed _ _).pair (.sublist List.filter_sublist)) (Nat.le_refl _))

end Grouped

theorem HistoryLog.grows_extended (log : HistoryLog) (a : AccountId) :
    Grows 44 log (log.extended a) := by
  have hindexes : Grows 44 log.indexes (log.indexes.push a log.next) :=
    Grouped.grows_push log.indexes a fun n hn => nomatch hn
  exact .via ((Grows.fixed _ _).pair ((Grows.fixed _ _).pair hindexes)) (by decide)

theorem Anchor.grows_queue (s : Anchor) (r : HistoryRecord) :
    Grows 68 s.unbonding (s.queue r) := by
  unfold queue
  split
  · exact .of_eq rfl
  · next e _ => exact Grouped.grows_push s.unbonding r.fact.actor fun n hn => nomatch hn

/-- Sixteen entries of the greatest length and the number of entries. -/
theorem Profile.size_entries_le {p : Profile} (h : p.Fits) : size p.entries ≤ 4740 := by
  obtain ⟨hcount, hsizes⟩ := h
  have hentry : ∀ e ∈ p.entries, size e ≤ 296 := by
    intro e he
    obtain ⟨hkey, hvalue⟩ := hsizes e he
    change size (e.key, e.value) ≤ 296
    rw [size_pair, size_string, size_string]
    unfold maximumKeySize at hkey
    unfold maximumValueSize at hvalue
    omega
  have hentries := size_list_le hentry
  unfold maximumEntries at hcount
  omega

theorem Profile.short_entries {p : Profile} (h : p.Fits) : Short p.entries := by
  obtain ⟨hcount, hsizes⟩ := h
  intro n hn
  rcases List.mem_cons.1 hn with rfl | hn
  · exact Nat.le_trans hcount (by decide)
  · obtain ⟨e, he, hn⟩ := List.mem_flatMap.1 hn
    obtain ⟨hkey, hvalue⟩ := hsizes e he
    rcases List.mem_append.1 hn with hn | hn
    · rw [List.mem_singleton.1 hn]
      exact Nat.le_trans hkey (by decide)
    · rw [List.mem_singleton.1 hn]
      exact Nat.le_trans hvalue (by decide)

theorem utf8ByteSize_ofList {cs : List Char} (h : ∀ c ∈ cs, c.utf8Size = 1) :
    (String.ofList cs).utf8ByteSize = cs.length := by
  induction cs with
  | nil => rfl
  | cons c cs ih =>
      obtain ⟨hc, hcs⟩ := List.forall_mem_cons.1 h
      rw [String.ofList_cons, String.utf8ByteSize_append, String.utf8ByteSize_singleton, hc, ih hcs,
        List.length_cons, Nat.add_comm]

/-- An identity on the appchain has one byte for each of its characters. -/
theorem Template.utf8ByteSize_le {t : Template} {id : String} (h : t.IsNormal id) :
    id.utf8ByteSize ≤ 66 := by
  obtain ⟨digits, rfl, hlength, hdigits⟩ := h
  have hall : hexDigits.all (·.utf8Size = 1) := rfl
  have hdigit : ∀ d ∈ hexDigits, d.utf8Size = 1 := by simpa using hall
  have hchars : ∀ c ∈ '0' :: 'x' :: digits, c.utf8Size = 1 :=
    List.forall_mem_cons.2 ⟨rfl, List.forall_mem_cons.2 ⟨rfl, fun d hd => hdigit d (hdigits d hd)⟩⟩
  have hcount : t.digitCount ≤ 64 := by cases t <;> decide
  rw [utf8ByteSize_ofList hchars, List.length_cons, List.length_cons, hlength]
  omega

namespace Ledger

variable {rules : LedgerRules} {caller : AccountId} {l l' : Ledger} {f : Fact}
  {action : StakingAction}

theorem grows_updateValidator {k : Nat} (l : Ledger) (v : AccountId) {g : Validator → Validator}
    (hg : ∀ x, Grows k x (g x)) : Grows k l (l.updateValidator v g) :=
  .via ((Grows.updateFirst hg).pair (Grows.of_eq (k := 0) rfl)) (Nat.le_refl _)

theorem grows_updateDelegation (l : Ledger) (d v : AccountId) (g : Delegation → Delegation) :
    Grows 0 l (l.updateDelegation d v g) :=
  .via ((Grows.of_eq (k := 0) rfl).pair (Grows.updateFirst fun x => Grows.fixed x (g x)))
    (Nat.le_refl _)

theorem grows_setProfile (l : Ledger) (v : AccountId) {p : Profile} (fits : p.Fits) :
    Grows 4736 l (l.updateValidator v ({ · with profile := p.entries })) := by
  refine grows_updateValidator l v fun x => ?_
  have hprofile : Grows 4736 x.profile p.entries := by
    refine .of_short ?_ (Profile.short_entries fits)
    have hold := size_list_le_of_sublist (List.nil_sublist x.profile)
    have hnew := Profile.size_entries_le fits
    rw [size_nil] at hold
    omega
  have hsame (text : String) : Grows 0 text text := .of_eq rfl
  exact .via ((Grows.fixed _ _).pair <| (hsame _).pair <| (Grows.fixed _ _).pair <|
    (Grows.fixed _ _).pair <| hprofile.pair <| .fixed _ _) (by decide)

theorem grows_validator {x x' : Validator} (hid : x'.appchainId = x.appchainId)
    (hprofile : x'.profile = x.profile) : Grows 0 x x' :=
  .via ((Grows.fixed _ _).pair <| (Grows.of_eq (k := 0) hid).pair <| (Grows.fixed _ _).pair <|
    (Grows.fixed _ _).pair <| (Grows.of_eq (k := 0) hprofile).pair <| .fixed _ _) (Nat.le_refl _)

theorem grows_register (l : Ledger) {x : Validator} {p : Profile}
    (hid : x.appchainId.utf8ByteSize ≤ 66) (fits : p.Fits) (hprofile : x.profile = p.entries) :
    Grows 4859 l { l with validators := l.validators ++ [x] } := by
  have hsize : size x ≤ 4859 := by
    have hentries := Profile.size_entries_le fits
    rw [← hprofile] at hentries
    change size (x.id, x.appchainId, x.deposit, x.delegable, x.profile, x.registeredEra) ≤ 4859
    simp only [size_pair, size_accountId, size_string, size_uint64, size_bool]
    omega
  have hshort : Short x := by
    have hentries := Profile.short_entries fits
    rw [← hprofile] at hentries
    intro n hn
    change n ∈ x.appchainId.utf8ByteSize :: (lengths x.profile ++ []) at hn
    rw [List.append_nil] at hn
    rcases List.mem_cons.1 hn with rfl | hn
    · exact Nat.le_trans hid (by decide)
    · exact hentries n hn
  exact .via (((Grows.concat hshort).mono hsize).pair (Grows.of_eq (k := 0) rfl)) (Nat.le_refl _)

theorem Step.grows (h : Step rules caller l action l' f) : Grows 4859 l l' := by
  cases h with
  | registerValidator _ _ normal _ _ fits =>
      exact grows_register l (Template.utf8ByteSize_le (Template.isNormal_of_normalize normal)) fits
        rfl
  | increaseStake | decreaseStake | setDelegable =>
      refine Grows.mono (j := 0) ?_ (Nat.zero_le _)
      exact grows_updateValidator l caller fun x => grows_validator rfl rfl
  | unbondStake =>
      have hfrozen : Grows 0 l.delegations (l.delegations.map fun x =>
          if x.validator = caller then { x with frozen := true } else x) :=
        .map fun x => ⟨FixedSize.size_eq _ _, rfl⟩
      exact .via ((Grows.sublist List.eraseP_sublist).pair hfrozen) (by decide)
  | registerDelegator =>
      have hnew (x : Delegation) : Grows (size x) l.delegations (l.delegations ++ [x]) :=
        .concat fun n hn => nomatch hn
      have hsize (x : Delegation) : size x = 73 := by
        change size (x.delegator, x.validator, x.deposit, x.frozen) = 73
        simp
      exact .via ((Grows.of_eq (k := 0) rfl).pair (hnew _)) (by rw [hsize]; decide)
  | increaseDelegation | decreaseDelegation =>
      exact (grows_updateDelegation l _ _ _).mono (Nat.zero_le _)
  | unbondDelegation =>
      exact .via ((Grows.of_eq (k := 0) rfl).pair (.sublist List.eraseP_sublist)) (by decide)

end Ledger

namespace Anchor

variable {s s' : Anchor}

/-- An anchor grows with its parts; the others are of fixed size. -/
theorem grows_of_parts {i j k l m n : Nat} (hid : s'.appchainId = s.appchainId)
    (hwrapped : Grows i s.wrappedToken s'.wrappedToken) (hsettings : Grows j s.settings s'.settings)
    (hledger : Grows k s.ledger s'.ledger) (hhistory : Grows l s.history s'.history)
    (hunbonding : Grows m s.unbonding s'.unbonding) (hsum : i + j + k + l + m ≤ n) :
    Grows n s s' := by
  refine .via ((Grows.fixed _ _).pair <| (Grows.of_eq (k := 0) hid).pair <|
    (Grows.fixed _ _).pair <| (Grows.fixed _ _).pair <| (Grows.fixed _ _).pair <|
    (Grows.fixed _ _).pair <| (Grows.fixed _ _).pair <| hwrapped.pair <| hsettings.pair <|
    hledger.pair <| hhistory.pair <| hunbonding.pair <| (Grows.fixed _ _).pair <|
    (Grows.fixed _ _).pair <| .fixed _ _) ?_
  omega

theorem grows_of_same {n : Nat} (hid : s'.appchainId = s.appchainId)
    (hwrapped : s'.wrappedToken = s.wrappedToken) (hsettings : s'.settings = s.settings)
    (hledger : s'.ledger = s.ledger) (hhistory : s'.history = s.history)
    (hunbonding : s'.unbonding = s.unbonding) : Grows n s s' :=
  grows_of_parts hid (.of_eq (k := 0) hwrapped) (.of_eq (k := 0) hsettings)
    (.of_eq (k := 0) hledger) (.of_eq (k := 0) hhistory) (.of_eq (k := 0) hunbonding)
    (Nat.zero_le _)

theorem grows_of_execute {c : Command} {reply : CommandReply}
    (h : s.execute c = .ok (reply, s')) : Grows 5120 s s' := by
  cases c <;>
    simp only [execute, bind_eq_ok_iff, pure_eq_ok_iff, Prod.mk.injEq] at h
  case changeSettings =>
    obtain ⟨_, happly, _, rfl⟩ := h
    exact grows_of_parts rfl (.of_eq (k := 0) rfl) (SettingsStore.grows_of_apply happly)
      (.of_eq (k := 0) rfl) (.of_eq (k := 0) rfl) (.of_eq (k := 0) rfl) (by decide)
  case changeWrappedToken =>
    obtain ⟨_, happly, _, rfl⟩ := h
    exact grows_of_parts rfl (WrappedToken.grows_of_applyAll happly) (.of_eq (k := 0) rfl)
      (.of_eq (k := 0) rfl) (.of_eq (k := 0) rfl) (.of_eq (k := 0) rfl) (by decide)
  case goBooting | goLive | goBroken =>
    obtain ⟨_, _, _, rfl⟩ := h
    exact grows_of_same rfl rfl rfl rfl rfl rfl
  case switchEra =>
    obtain ⟨_, _, _, rfl⟩ := h
    exact grows_of_same rfl rfl rfl rfl rfl rfl
  case setOwner | setPrice | pauseTransfers =>
    obtain ⟨_, rfl⟩ := h
    exact grows_of_same rfl rfl rfl rfl rfl rfl

theorem Effect.grows {o : Operation ε τ} {reply : Reply ε τ} (h : Effect s o reply s') :
    Grows growthRoom s s' := by
  cases h with
  | recorded _ _ step =>
      exact grows_of_parts rfl (.of_eq (k := 0) rfl) (.of_eq (k := 0) rfl) step.grows
        (HistoryLog.grows_extended _ _) (s.grows_queue _) (by decide)
  | profileSet same _ fits =>
      exact grows_of_parts rfl (.of_eq (k := 0) rfl) (.of_eq (k := 0) rfl)
        (Ledger.grows_setProfile _ _ fits) (.of_eq (k := 0) rfl) (.of_eq (k := 0) rfl) (by decide)
  | paid =>
      exact grows_of_parts rfl (.of_eq (k := 0) rfl) (.of_eq (k := 0) rfl) (.of_eq (k := 0) rfl)
        (.of_eq (k := 0) rfl) (Grouped.grows_drop _ _ _) (by decide)
  | commanded _ executed => exact (grows_of_execute executed).mono (by decide)
  | unchanged => exact .of_eq rfl

theorem Unrecorded.grows {o : Operation ε τ} {reply : Reply ε τ} (h : Unrecorded s o reply s') :
    Grows growthRoom s s' := by
  cases h with
  | intro _ _ step =>
      exact grows_of_parts rfl (.of_eq (k := 0) rfl) (.of_eq (k := 0) rfl) step.grows
        (.of_eq (k := 0) rfl) (.of_eq (k := 0) rfl) (by decide)

theorem perform_grows (s : Anchor) (o : Operation ε τ) : Grows growthRoom s (s.perform o).2 :=
  (perform_outcome s o).elim Effect.grows Unrecorded.grows

/-- What an operation makes of an anchor fits the space that was required before. -/
theorem fitsIn_requiredSpace (hs : Extensible s) (h : Grows growthRoom s s') :
    Stored.FitsIn s' s.requiredSpace where
  fits := h.fits hs
  space := by
    have hsize : size s' ≤ (encode s).length + growthRoom := h.size
    rw [Stored.length_bytes, requiredSpace, if_pos hs.fits]
    omega

theorem fitsIn_initialSpace {owner vault : AccountId} {id : String} {template : Template}
    {token : StakeToken} {bump vaultBump : UInt8}
    (h : Anchor.new owner id template token vault bump vaultBump = .ok s) :
    Stored.FitsIn s initialSpace := by
  simp only [Anchor.new, bind_eq_ok_iff, require_eq_ok_iff, pure_eq_ok_iff] at h
  obtain ⟨_, ⟨-, hid⟩, rfl⟩ := h
  unfold maximumAppchainIdSize at hid
  refine ⟨(fits_iff _).2 fun n hn => ?_, ?_⟩
  · change n ∈ id.utf8ByteSize :: [0, 0, 0, 0, 0, 0, 0, 0, 0, 0, 0] at hn
    rcases List.mem_cons.1 hn with rfl | hn
    · exact Nat.lt_of_le_of_lt hid (by decide)
    · rw [List.eq_of_mem_replicate (n := 11) hn]
      decide
  · have hwrapped : size ({} : WrappedToken) = 27 := rfl
    have hsettings : size ({} : SettingsStore) = 120 := rfl
    have hledger : size ({} : Ledger) = 8 := rfl
    have hhistory : size ({} : HistoryLog) = 20 := rfl
    have hunbonding : size ([] : UnbondingQueue) = 4 := rfl
    have hsize : size (owner, id, template, Phase.staging, (0 : UInt64), token, vault,
        ({} : WrappedToken), ({} : SettingsStore), ({} : Ledger), ({} : HistoryLog),
        ([] : UnbondingQueue), false, bump, vaultBump) = 301 + id.utf8ByteSize := by
      simp only [size_pair, size_accountId, size_string, Template.size_eq, Phase.size_eq,
        size_uint64, StakeToken.size_eq, hwrapped, hsettings, hledger, hhistory, hunbonding,
        size_bool, size_uint8]
      omega
    rw [Stored.length_bytes]
    refine Nat.le_trans (Nat.le_of_eq (congrArg (Stored.markSize + ·) hsize)) ?_
    unfold initialSpace Stored.markSize
    omega

end Anchor

theorem Fact.size_le {f : Fact}
    (h : ∀ v id amount delegable, f = .validatorRegistered v id amount delegable →
      id.utf8ByteSize ≤ 66) : size f ≤ HistoryRecord.maximumFactSize := by
  unfold HistoryRecord.maximumFactSize
  cases f with
  | validatorRegistered v id amount delegable =>
      have hid := h v id amount delegable rfl
      change (encode (v, id, amount, delegable)).length + 1 ≤ _
      have hsize : (encode (v, id, amount, delegable)).length =
          32 + (4 + id.utf8ByteSize + (8 + 1)) := by
        change size (v, id, amount, delegable) = _
        simp
      omega
  | stakeIncreased v amount | stakeDecreased v amount | validatorUnbonded v amount =>
      change size (v, amount) + 1 ≤ _
      simp
  | delegationEnabled v | delegationDisabled v =>
      change size v + 1 ≤ _
      simp
  | delegatorRegistered d v amount | delegationIncreased d v amount
  | delegationDecreased d v amount | delegatorUnbonded d v amount =>
      change size (d, v, amount) + 1 ≤ _
      simp

theorem Fact.fits {f : Fact}
    (h : ∀ v id amount delegable, f = .validatorRegistered v id amount delegable →
      id.utf8ByteSize ≤ 66) : fits f = true := by
  cases f with
  | validatorRegistered v id amount delegable =>
      have hid := h v id amount delegable rfl
      exact decide_eq_true (Nat.lt_of_le_of_lt hid (by decide))
  | _ => rfl

/-- The identity in a fact is in the spelling of the template. -/
theorem Ledger.Step.utf8ByteSize_le {rules : LedgerRules} {caller v : AccountId} {l l' : Ledger}
    {action : StakingAction} {id : String} {amount : Amount} {delegable : Bool}
    (h : Ledger.Step rules caller l action l' (.validatorRegistered v id amount delegable)) :
    id.utf8ByteSize ≤ 66 := by
  generalize hf : Fact.validatorRegistered v id amount delegable = f at h
  cases h with
  | registerValidator _ _ normal =>
      cases hf
      exact Template.utf8ByteSize_le (Template.isNormal_of_normalize normal)
  | setDelegable =>
      split at hf <;> cases hf
  | _ => cases hf

theorem HistoryRecord.fitsIn_space {r : HistoryRecord}
    (h : ∀ v id amount delegable, r.fact = .validatorRegistered v id amount delegable →
      id.utf8ByteSize ≤ 66) : Stored.FitsIn r HistoryRecord.space where
  fits := by
    change (fits r.index && (fits r.fact && (fits r.timestamp && fits r.era))) = true
    have htime : fits r.timestamp = true := fits_uint64 _
    rw [fits_uint64, Fact.fits h, htime, fits_uint64]
    rfl
  space := by
    have hfact := Fact.size_le h
    have hsize : size r = 8 + (size r.fact + (8 + 8)) := by
      change size (r.index, r.fact, r.timestamp, r.era) = _
      simp only [size_pair, size_uint64, size_int64]
    rw [Stored.length_bytes, hsize]
    unfold HistoryRecord.space
    omega

/-- The record of every operation fits the account of a record. -/
theorem Anchor.fitsIn_of_record {s : Anchor} {o : Operation ε τ} {r : HistoryRecord}
    (h : (s.perform o).1.record? = some r) : Stored.FitsIn r HistoryRecord.space := by
  have houtcome := perform_outcome s o
  generalize (s.perform o).1 = reply, (s.perform o).2 = s' at houtcome h
  rcases houtcome with heffect | hunrecorded
  · obtain ⟨action, l, -, step, -, -⟩ := heffect.of_record h
    exact HistoryRecord.fitsIn_space fun v id amount delegable hfact =>
      Ledger.Step.utf8ByteSize_le (hfact ▸ step)
  · cases hunrecorded with
    | intro => cases h

end AppchainStaking
