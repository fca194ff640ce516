import AppchainStaking.Chain.Access
import AppchainStaking.Proofs.Wire.Canonical

/-!
# Who passes as upgrade authority

The data of the program's code names its upgrade authority in one layout: the variant number three,
the eight bytes of a slot, and an optional key; whatever follows is not looked at. The check accepts
the key that is named there and tells apart why it refuses any other.
-/

namespace AppchainStaking

open Wire

/-- The data has the variant number of the program's code, a slot, and then `authority`. -/
def RecordsAuthority (data authority : Bytes) : Prop :=
  ∃ slot rest : Bytes, slot.length = 8 ∧ data = [3, 0, 0, 0] ++ slot ++ authority ++ rest

variable {data : Bytes} {slot : UInt64} {authority : Option AccountId}

namespace LoaderRecord

theorem reader_programData (slot : UInt64) (authority : Option AccountId) (rest : Bytes) :
    reader ([3, 0, 0, 0] ++ encode (slot, authority) ++ rest) =
      .ok (programData slot authority, rest) := by
  have hfits : fits (slot, authority) = true := by
    rw [fits_pair, fits_uint64]
    cases authority <;> rfl
  have htag : (decode : Reader UInt32) ([3, 0, 0, 0] ++ encode (slot, authority) ++ rest) =
      .ok (3, encode (slot, authority) ++ rest) := decode_size (n := 3) (by decide) _
  exact (bind_eq_of_ok htag).trans (content_encode hfits _ rest)

theorem of_reader_programData {rest : Bytes}
    (h : reader data = .ok (programData slot authority, rest)) :
    data = [3, 0, 0, 0] ++ encode (slot, authority) ++ rest := by
  obtain ⟨tag, mid, htag, hrecord⟩ := reader_bind_eq_ok h
  obtain ⟨-, rfl⟩ := of_decode_size htag
  split at hrecord
  · cases (reader_pure_eq_ok hrecord).1
  · obtain ⟨_, hmade, -⟩ := of_content hrecord
    cases hmade
  · obtain ⟨_, hmade, -⟩ := of_content hrecord
    cases hmade
  · obtain ⟨_, hmade, -, rfl⟩ := of_content hrecord
    cases hmade
    rfl
  · cases hrecord

theorem ofData?_eq_programData_iff :
    ofData? data = some (programData slot authority) ↔
      ∃ rest, data = [3, 0, 0, 0] ++ encode (slot, authority) ++ rest := by
  constructor
  · intro h
    unfold ofData? at h
    split at h
    · next rest hread =>
        cases h
        exact ⟨rest, of_reader_programData hread⟩
    · cases h
  · rintro ⟨rest, rfl⟩
    rw [ofData?, reader_programData]

end LoaderRecord

/-- Any eight bytes are a slot. -/
theorem recordsAuthority_encode_iff :
    RecordsAuthority data (encode authority) ↔
      ∃ slot, LoaderRecord.ofData? data = some (.programData slot authority) := by
  simp only [LoaderRecord.ofData?_eq_programData_iff]
  constructor
  · rintro ⟨slot, rest, hlength, rfl⟩
    have hlt : ofBytes slot < UInt64.size := by
      have := ofBytes_lt slot
      rwa [hlength] at this
    have hslot : encode (UInt64.ofNat (ofBytes slot)) = slot := by
      change toBytes 8 (UInt64.ofNat (ofBytes slot)).toNat = slot
      rw [UInt64.toNat_ofNat_of_lt' hlt, ← hlength]
      exact toBytes_ofBytes slot
    refine ⟨UInt64.ofNat (ofBytes slot), rest, ?_⟩
    change _ = [3, 0, 0, 0] ++ (encode (UInt64.ofNat (ofBytes slot)) ++ encode authority) ++ rest
    rw [hslot]
    simp only [List.append_assoc]
  · rintro ⟨slot, rest, rfl⟩
    refine ⟨encode slot, rest, length_toBytes 8 slot.toNat, ?_⟩
    change [3, 0, 0, 0] ++ (encode slot ++ encode authority) ++ rest = _
    simp only [List.append_assoc]

variable {signer : AccountId}

theorem demandUpgradeAuthority_eq_ok_iff :
    demandUpgradeAuthority data signer = .ok () ↔ RecordsAuthority data (1 :: signer.bytes) := by
  change _ ↔ RecordsAuthority data (encode (some signer))
  rw [recordsAuthority_encode_iff, demandUpgradeAuthority]
  split
  · next slot authority hrecord =>
      rw [hrecord, require_eq_ok_iff]
      simp [eq_comm]
  · next slot hrecord =>
      rw [hrecord]
      simp
  · next hother _ =>
      constructor
      · intro h
        cases h
      · rintro ⟨slot, hrecord⟩
        exact absurd hrecord (hother slot signer)

theorem demandUpgradeAuthority_eq_noUpgradeAuthority_iff :
    demandUpgradeAuthority data signer = .error .noUpgradeAuthority ↔
      RecordsAuthority data [0] := by
  change _ ↔ RecordsAuthority data (encode (none : Option AccountId))
  rw [recordsAuthority_encode_iff, demandUpgradeAuthority]
  split
  · next slot authority hrecord =>
      rw [hrecord, require_eq_error_iff]
      simp
  · next slot hrecord =>
      rw [hrecord]
      simp
  · next _ hother =>
      constructor
      · intro h
        cases h
      · rintro ⟨slot, hrecord⟩
        exact absurd hrecord (hother slot)

theorem demandUpgradeAuthority_eq_invalidUpgradeAuthority_iff :
    demandUpgradeAuthority data signer = .error .invalidUpgradeAuthority ↔
      ∃ key : AccountId, key ≠ signer ∧ RecordsAuthority data (1 :: key.bytes) := by
  change _ ↔ ∃ key : AccountId, key ≠ signer ∧ RecordsAuthority data (encode (some key))
  simp only [recordsAuthority_encode_iff]
  unfold demandUpgradeAuthority
  split
  · next slot authority hrecord =>
      rw [hrecord, require_eq_error_iff]
      simp [eq_comm]
  · next slot hrecord =>
      rw [hrecord]
      simp
  · next hother _ =>
      constructor
      · intro h
        cases h
      · rintro ⟨key, -, slot, hrecord⟩
        exact absurd hrecord (hother slot key)

/-- Data of any other layout is refused as such. -/
theorem demandUpgradeAuthority_eq_invalidProgramData_iff :
    demandUpgradeAuthority data signer = .error .invalidProgramData ↔
      ¬ RecordsAuthority data [0] ∧
        ∀ key : AccountId, ¬ RecordsAuthority data (1 :: key.bytes) := by
  change _ ↔ ¬ RecordsAuthority data (encode (none : Option AccountId)) ∧
    ∀ key : AccountId, ¬ RecordsAuthority data (encode (some key))
  simp only [recordsAuthority_encode_iff]
  unfold demandUpgradeAuthority
  split
  · next slot authority hrecord =>
      rw [hrecord, require_eq_error_iff]
      simp
  · next slot hrecord =>
      rw [hrecord]
      simp
  · next hsome hnone =>
      refine iff_of_true rfl ⟨?_, fun key => ?_⟩
      · rintro ⟨slot, hrecord⟩
        exact hnone slot hrecord
      · rintro ⟨slot, hrecord⟩
        exact hsome slot key hrecord

end AppchainStaking
