import AppchainStaking.Proofs.Ledger.Bound
import AppchainStaking.Proofs.Text.Hex
import AppchainStaking.Proofs.Text.Utf8Order

/-!
# Well-formed ledgers

What every ledger that grew from the empty one satisfies. Besides the uniqueness of its records:
identities on the appchain are in the one spelling of the template and do not repeat, a delegation
that counts is bound to a validator that is there, and profiles are within their limits and in the
order of the bytes of their keys.
-/

namespace AppchainStaking

def Template.digitCount : Template → Nat
  | barnacle => 64
  | barnacleEvm => 40

/-- The one spelling of an identity: `0x` and lower case hexadecimal digits. -/
def Template.IsNormal (t : Template) (id : String) : Prop :=
  ∃ digits : List Char, id = .ofList ('0' :: 'x' :: digits) ∧ digits.length = t.digitCount ∧
    ∀ d ∈ digits, d ∈ hexDigits

structure Profile.Stored (entries : List ProfileEntry) : Prop where
  count : entries.length ≤ 16
  sorted : entries.Pairwise fun a b => a.key.toUTF8.data.toList < b.key.toUTF8.data.toList
  sizes : ∀ e ∈ entries, e.key.utf8ByteSize ≤ 32 ∧ e.value.utf8ByteSize ≤ 256

structure Ledger.WellFormed (t : Template) (l : Ledger) : Prop where
  /-- Neither two validators share an account, nor two delegations the pair of their accounts. -/
  unique : l.Unique
  appchainIds : (l.validators.map (·.appchainId)).Nodup
  normal : ∀ v ∈ l.validators, t.IsNormal v.appchainId
  bound : ∀ x ∈ l.delegations, x.frozen = false → x.validator ∈ l.validators.map (·.id)
  profiles : ∀ v ∈ l.validators, Profile.Stored v.profile

theorem Template.digitCount_eq (t : Template) : t.digitCount = 2 * t.idSize := by
  cases t <;> rfl

theorem ofList_toList_toHex (bytes : List UInt8) :
    String.ofList ('0' :: 'x' :: (toHex bytes).toList) = "0x" ++ toHex bytes :=
  String.toList_inj.1 (by rw [String.toList_ofList, String.toList_append]; rfl)

theorem Template.isNormal_of_normalize {t : Template} {raw id : String}
    (h : t.normalize raw = .ok id) : t.IsNormal id := by
  obtain ⟨bytes, hbytes, hsize, rfl⟩ := normalize_eq_ok_iff.1 h
  obtain ⟨hex, hlength⟩ := bytesOfHexDigits?_eq_some hbytes
  refine ⟨(toHex bytes).toList, (ofList_toList_toHex bytes).symm, ?_⟩
  rw [toList_toHex_of_bytesOfHexDigits? hbytes, List.length_map, hlength, hsize, t.digitCount_eq]
  refine ⟨rfl, fun d hd => ?_⟩
  obtain ⟨c, hc, rfl⟩ := List.mem_map.1 hd
  exact toLower_mem_hexDigits (hex c hc)

theorem Profile.stored {p : Profile} (fits : p.Fits) : Stored p.entries :=
  ⟨fits.1, p.sorted.imp Utf8.bytes_lt, fits.2⟩

namespace Ledger

variable {rules : LedgerRules} {caller : AccountId} {l l' : Ledger} {f : Fact}
  {action : StakingAction} {t : Template}

theorem wellFormed_empty : ({} : Ledger).WellFormed t :=
  ⟨unique_empty, .nil, by simp, by simp, by simp⟩

/-- A change to a validator that leaves its identities alone, and its profile well formed. -/
theorem WellFormed.updateValidator (h : l.WellFormed t) (v : AccountId)
    {g : Validator → Validator} (hid : ∀ x, (g x).id = x.id)
    (happchain : ∀ x, (g x).appchainId = x.appchainId)
    (hprofile : ∀ x, Profile.Stored x.profile → Profile.Stored (g x).profile) :
    (l.updateValidator v g).WellFormed t := by
  refine ⟨h.unique.updateValidator v hid, ?_, ?_, IsBound.updateValidator h.bound v hid, ?_⟩
  · rw [Ledger.updateValidator, map_updateFirst happchain]
    exact h.appchainIds
  · exact forall_mem_updateFirst h.normal fun x hx => (happchain x).symm ▸ hx
  · exact forall_mem_updateFirst h.profiles hprofile

theorem WellFormed.registered (h : l.WellFormed t) {v : Validator}
    (hunique : { l with validators := l.validators ++ [v] }.Unique)
    (hbound : { l with validators := l.validators ++ [v] }.IsBound)
    (distinct : ∀ x ∈ l.validators, x.appchainId ≠ v.appchainId)
    (normal : t.IsNormal v.appchainId) (stored : Profile.Stored v.profile) :
    { l with validators := l.validators ++ [v] }.WellFormed t := by
  refine ⟨hunique, ?_, ?_, hbound, ?_⟩
  · rw [List.map_append, List.nodup_append]
    refine ⟨h.appchainIds, by simp, ?_⟩
    intro a ha b hb
    obtain ⟨x, hx, rfl⟩ := List.mem_map.1 ha
    obtain rfl : b = v.appchainId := by simpa using hb
    exact distinct x hx
  · exact List.forall_mem_append.2 ⟨h.normal, by simpa using normal⟩
  · exact List.forall_mem_append.2 ⟨h.profiles, by simpa using stored⟩

theorem Step.wellFormed (h : Step rules caller l action l' f) (same : rules.template = t)
    (hl : l.WellFormed t) : l'.WellFormed t := by
  have hunique : l'.Unique := h.unique hl.unique
  have hbound : l'.IsBound := h.isBound hl.bound
  cases h with
  | registerValidator _ _ normal distinct _ fits =>
      rw [same] at normal
      exact hl.registered hunique hbound distinct (Template.isNormal_of_normalize normal)
        (Profile.stored fits)
  | increaseStake | decreaseStake | setDelegable =>
      exact hl.updateValidator _ (fun _ => rfl) (fun _ => rfl) fun _ hx => hx
  | unbondStake =>
      exact ⟨hunique, hl.appchainIds.sublist (List.eraseP_sublist.map _),
        fun v hv => hl.normal v (List.mem_of_mem_eraseP hv), hbound,
        fun v hv => hl.profiles v (List.mem_of_mem_eraseP hv)⟩
  | registerDelegator | increaseDelegation | decreaseDelegation | unbondDelegation =>
      exact ⟨hunique, hl.appchainIds, hl.normal, hbound, hl.profiles⟩

theorem Change.wellFormed (h : Change t l l') (hl : l.WellFormed t) : l'.WellFormed t := by
  cases h with
  | acted same step => exact step.wellFormed same hl
  | profileSet fits =>
      exact hl.updateValidator _ (fun _ => rfl) (fun _ => rfl) fun _ _ => Profile.stored fits
  | unchanged => exact hl

theorem WellFormed.run (h : l.WellFormed t) (ops : List LedgerOperation) :
    (l.run t ops).WellFormed t :=
  run_invariant Change.wellFormed ops h

/-- Whatever is asked of an empty ledger, and whatever fails, it stays well formed. -/
theorem always_wellFormed (t : Template) (ops : List LedgerOperation) :
    (({} : Ledger).run t ops).WellFormed t :=
  wellFormed_empty.run ops

/-- A validator that comes back finds the delegations of its first time still frozen. -/
example :
    let v : AccountId := ⟨List.replicate 32 1, rfl⟩
    let d : AccountId := ⟨List.replicate 32 2, rfl⟩
    let register : LedgerOperation := .act {} 0 v (.registerValidator
      "0x1111111111111111111111111111111111111111111111111111111111111111" 5000 true .empty)
    let l := ({} : Ledger).run .barnacle
      [register, .act {} 1 d (.registerDelegator v 500), .act {} 2 v .unbondStake, register]
    l.validatorCount = 1 ∧ l.delegations.map (·.frozen) = [true] := by
  decide +kernel

end Ledger

end AppchainStaking
