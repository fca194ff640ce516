import AppchainStaking.Settings.Store
import AppchainStaking.Token

/-!
# Settings stay within their bounds

A batch is carried out change by change, and each change is refused unless what it puts in place is
within its bounds. So a batch that succeeds on a value within its bounds ends in such a value, no
matter how many changes it holds and in which order they come.
-/

namespace AppchainStaking

theorem foldlM_invariant {α β ε : Type} {f : β → α → Except ε β} {P : β → Prop}
    (hstep : ∀ {b a b'}, f b a = .ok b' → P b → P b') {as : List α} {b b' : β}
    (h : as.foldlM f b = .ok b') (hb : P b) : P b' := by
  induction as generalizing b with
  | nil =>
      cases h
      exact hb
  | cons a as ih =>
      rw [List.foldlM_cons, bind_eq_ok_iff] at h
      obtain ⟨b₁, ha, has⟩ := h
      exact ih has (hstep ha hb)

namespace ProtocolSettings

variable {s s' : ProtocolSettings}

theorem valid_default : Valid {} := by decide

theorem valid_of_apply {change : ProtocolChange} (h : s.apply change = .ok s') : s'.Valid := by
  unfold apply at h
  split at h
  · next valid =>
      cases h
      exact valid
  · cases h

theorem Valid.applyAll {changes : List ProtocolChange} (h : s.applyAll changes = .ok s')
    (hs : s.Valid) : s'.Valid :=
  foldlM_invariant (fun happly _ => valid_of_apply happly) h hs

end ProtocolSettings

namespace AppchainSettings

variable {s s' : AppchainSettings}

def texts (s : AppchainSettings) : List String :=
  [s.chainSpec, s.rawChainSpec, s.bootNodes, s.rpcEndpoint, s.subqlEndpoint]

def Valid (s : AppchainSettings) : Prop :=
  ∀ text ∈ s.texts, text.utf8ByteSize ≤ maximumTextSize

theorem valid_default : Valid {} := by
  have hempty : ∀ text ∈ texts {}, text = "" := by simp [texts]
  intro text htext
  rw [hempty text htext]
  decide

theorem mem_texts_set {change : AppchainChange} {text : String}
    (h : text ∈ (s.set change).texts) : text ∈ s.texts ∨ text ∈ change.text? := by
  cases change <;>
    simp only [set, texts, AppchainChange.text?, List.mem_cons, List.not_mem_nil, or_false,
      reduceCtorEq, Option.mem_def] at h ⊢ <;>
    grind

theorem Valid.apply {change : AppchainChange} (h : s.apply change = .ok s') (hs : s.Valid) :
    s'.Valid := by
  unfold AppchainSettings.apply at h
  split at h
  · next fits =>
      cases h
      intro text htext
      exact (mem_texts_set htext).elim (hs text) (fits text)
  · cases h

theorem Valid.applyAll {changes : List AppchainChange} (h : s.applyAll changes = .ok s')
    (hs : s.Valid) : s'.Valid :=
  foldlM_invariant Valid.apply h hs

end AppchainSettings

namespace WrappedToken

variable {t t' : WrappedToken}

theorem fits_default : ({} : WrappedToken).metadata.Fits := by decide

theorem fits_of_apply {change : WrappedTokenChange} (h : t.apply change = .ok t')
    (ht : t.metadata.Fits) : t'.metadata.Fits := by
  cases change with
  | metadata value =>
      by_cases fits : value.Fits
      · cases (if_pos fits).symm.trans h
        exact fits
      · cases (if_neg fits).symm.trans h
  | contract | preminedBalance | price =>
      cases h
      exact ht

theorem fits_of_applyAll {changes : List WrappedTokenChange} (h : t.applyAll changes = .ok t')
    (ht : t.metadata.Fits) : t'.metadata.Fits :=
  foldlM_invariant (P := (·.metadata.Fits)) fits_of_apply h ht

end WrappedToken

namespace SettingsStore

structure Valid (s : SettingsStore) : Prop where
  protocol : s.protocol.Valid
  appchain : s.appchain.Valid

theorem valid_default : Valid {} :=
  ⟨ProtocolSettings.valid_default, AppchainSettings.valid_default⟩

theorem Valid.apply {s s' : SettingsStore} {batch : SettingsBatch} (h : s.apply batch = .ok s')
    (hs : s.Valid) : s'.Valid := by
  cases batch with
  | protocol changes =>
      obtain ⟨protocol, happly, h⟩ := bind_eq_ok_iff.1 h
      cases h
      exact { hs with protocol := hs.protocol.applyAll happly }
  | appchain changes =>
      obtain ⟨appchain, happly, h⟩ := bind_eq_ok_iff.1 h
      cases h
      exact { hs with appchain := hs.appchain.applyAll happly }
  | appointments changes =>
      cases h
      exact ⟨hs.protocol, hs.appchain⟩

end SettingsStore

end AppchainStaking
