import AppchainStaking.Proofs.Wire.RoundTrip

/-!
# One form for each value

A binary form is canonical when every value that is decoded fits its fields and was read off its
own encoding. So no two byte strings stand for one value: tags, flags and texts that are not as
encoding writes them are refused. Records, alternatives, options and lists of canonical forms are
canonical.
-/

namespace AppchainStaking

open Wire

/-- Decoding accepts only what encoding writes. -/
class CanonicalWire (α : Type) [Wire α] : Prop where
  of_decode {a : α} {bytes rest : Bytes} (h : (decode : Reader α) bytes = .ok (a, rest)) :
    fits a = true ∧ bytes = encode a ++ rest

namespace Wire

variable {α β γ : Type} {bytes rest : Bytes}

theorem reader_bind_eq_ok {x : Reader α} {f : α → Reader β} {b : β}
    (h : (x >>= f) bytes = .ok (b, rest)) :
    ∃ a mid, x bytes = .ok (a, mid) ∧ f a mid = .ok (b, rest) := by
  change (x bytes >>= fun p => f p.1 p.2) = .ok (b, rest) at h
  obtain ⟨⟨a, mid⟩, ha, hb⟩ := bind_eq_ok_iff.1 h
  exact ⟨a, mid, ha, hb⟩

theorem reader_pure_eq_ok {a b : α} (h : (pure a : Reader α) bytes = .ok (b, rest)) :
    a = b ∧ bytes = rest :=
  Prod.mk.inj (Except.ok.inj h)

theorem of_take {n : Nat} {head : Bytes} (h : take n bytes = .ok (head, rest)) :
    head.length = n ∧ bytes = head ++ rest := by
  unfold take at h
  dsimp only at h
  split at h
  · next hlength =>
      cases h
      exact ⟨hlength, (List.take_append_drop n bytes).symm⟩
  · cases h

theorem ofBytes_cons (b : UInt8) (bytes : Bytes) :
    ofBytes (b :: bytes) = b.toNat + 256 * ofBytes bytes := rfl

theorem ofBytes_lt (bytes : Bytes) : ofBytes bytes < Nat.pow 256 bytes.length := by
  induction bytes with
  | nil => exact Nat.one_pos
  | cons b bytes ih =>
      have hbyte := b.toNat_lt
      have hpow : Nat.pow 256 (b :: bytes).length = Nat.pow 256 bytes.length * 256 := rfl
      rw [ofBytes_cons, hpow]
      omega

theorem toBytes_ofBytes (bytes : Bytes) : toBytes bytes.length (ofBytes bytes) = bytes := by
  induction bytes with
  | nil => rfl
  | cons b bytes ih =>
      have hbyte := b.toNat_lt
      have hlow : (b.toNat + 256 * ofBytes bytes) % 256 = b.toNat := by omega
      have hhigh : (b.toNat + 256 * ofBytes bytes) / 256 = ofBytes bytes := by omega
      rw [List.length_cons, toBytes, ofBytes_cons, hlow, hhigh, ih, UInt8.ofNat_toNat]

instance (width : Nat) : CanonicalWire (Field width) where
  of_decode {n bytes rest} h := by
    obtain ⟨head, mid, htake, hpure⟩ := reader_bind_eq_ok h
    obtain ⟨hlength, rfl⟩ := of_take htake
    obtain ⟨rfl, rfl⟩ := reader_pure_eq_ok hpure
    have hlt := ofBytes_lt head
    have hback := toBytes_ofBytes head
    rw [hlength] at hlt hback
    exact ⟨decide_eq_true hlt, congrArg (· ++ mid) hback.symm⟩

/-- A form that goes through another one is canonical when nothing is lost on the way there. -/
theorem canonical_via [Wire β] [CanonicalWire β] {make : β → α} {back : α → β}
    (h : ∀ b, fits b = true → back (make b) = b) : @CanonicalWire α (via make back) :=
  @CanonicalWire.mk α (via make back) fun {a bytes rest} hdecode => by
    obtain ⟨b, mid, hb, hpure⟩ := reader_bind_eq_ok hdecode
    obtain ⟨hfits, rfl⟩ := CanonicalWire.of_decode hb
    obtain ⟨rfl, rfl⟩ := reader_pure_eq_ok hpure
    have hback := h b hfits
    change fits (back (make b)) = true ∧ encode b ++ mid = encode (back (make b)) ++ mid
    rw [hback]
    exact ⟨hfits, rfl⟩

instance : CanonicalWire UInt8 :=
  canonical_via fun _ h => UInt8.toNat_ofNat_of_lt' (lt_of_fits h)

instance : CanonicalWire UInt16 :=
  canonical_via fun _ h => UInt16.toNat_ofNat_of_lt' (lt_of_fits h)

instance : CanonicalWire UInt32 :=
  canonical_via fun _ h => UInt32.toNat_ofNat_of_lt' (lt_of_fits h)

instance : CanonicalWire UInt64 :=
  canonical_via fun _ h => UInt64.toNat_ofNat_of_lt' (lt_of_fits h)

instance : CanonicalWire Int64 := canonical_via fun _ _ => rfl

theorem of_decode_tag {tag : UInt8} (h : (decode : Reader UInt8) bytes = .ok (tag, rest)) :
    bytes = tag :: rest := by
  obtain ⟨-, hbytes⟩ := CanonicalWire.of_decode h
  have hencode : encode tag = [tag] := by
    change toBytes 1 tag.toNat = [tag]
    rw [toBytes, toBytes, Nat.mod_eq_of_lt tag.toNat_lt, UInt8.ofNat_toNat]
  rw [hbytes, hencode]
  rfl

theorem of_tagged {f : UInt8 → Reader α} {a : α} (h : (decode >>= f) bytes = .ok (a, rest)) :
    ∃ tag mid, bytes = tag :: mid ∧ f tag mid = .ok (a, rest) := by
  obtain ⟨tag, mid, htag, hmade⟩ := reader_bind_eq_ok h
  exact ⟨tag, mid, of_decode_tag htag, hmade⟩

theorem of_decode_size {n : UInt32} (h : (decode : Reader UInt32) bytes = .ok (n, rest)) :
    n.toNat < UInt32.size ∧ bytes = toBytes 4 n.toNat ++ rest :=
  ⟨n.toNat_lt, (CanonicalWire.of_decode h).2⟩

instance : CanonicalWire Bool where
  of_decode {b bytes rest} h := by
    obtain ⟨byte, mid, rfl, hflag⟩ := of_tagged h
    split at hflag
    · next hzero =>
        obtain ⟨rfl, rfl⟩ := reader_pure_eq_ok hflag
        exact ⟨rfl, by rw [hzero]; rfl⟩
    split at hflag
    · next hone =>
        obtain ⟨rfl, rfl⟩ := reader_pure_eq_ok hflag
        exact ⟨rfl, by rw [hone]; rfl⟩
    · cases hflag

instance : CanonicalWire AccountId where
  of_decode {a bytes rest} h := by
    obtain ⟨head, mid, htake, hmade⟩ := reader_bind_eq_ok h
    obtain ⟨-, rfl⟩ := of_take htake
    cases hhead : AccountId.ofBytes? head with
    | none =>
        rw [hhead] at hmade
        cases hmade
    | some b =>
        rw [hhead] at hmade
        obtain ⟨rfl, rfl⟩ := reader_pure_eq_ok hmade
        exact ⟨rfl, by rw [← AccountId.bytes_of_ofBytes? hhead]; rfl⟩

/-- A text is read from its own UTF-8 form only. -/
theorem toUTF8_of_fromUTF8? {bytes : ByteArray} {s : String}
    (h : String.fromUTF8? bytes = some s) : s.toUTF8 = bytes := by
  unfold String.fromUTF8? at h
  split at h
  · cases h
    rfl
  · cases h

instance : CanonicalWire String where
  of_decode {s bytes rest} h := by
    obtain ⟨n, mid, hsize, htext⟩ := reader_bind_eq_ok h
    obtain ⟨hlt, rfl⟩ := of_decode_size hsize
    obtain ⟨head, mid', htake, hmade⟩ := reader_bind_eq_ok htext
    obtain ⟨hlength, rfl⟩ := of_take htake
    cases hhead : String.fromUTF8? ⟨head.toArray⟩ with
    | none =>
        rw [hhead] at hmade
        cases hmade
    | some t =>
        rw [hhead] at hmade
        obtain ⟨rfl, rfl⟩ := reader_pure_eq_ok hmade
        have hutf8 := toUTF8_of_fromUTF8? hhead
        have hbytes : t.toUTF8.data.toList = head := by rw [hutf8]
        have hcount : t.utf8ByteSize = n.toNat := by
          rw [← hlength, ← hbytes]
          rfl
        refine ⟨decide_eq_true (hcount ▸ hlt), ?_⟩
        change toBytes 4 n.toNat ++ (head ++ mid') =
          toBytes 4 t.utf8ByteSize ++ t.toUTF8.data.toList ++ mid'
        rw [hcount, hbytes, List.append_assoc]

variable [Wire α] [Wire β] [CanonicalWire α] [CanonicalWire β]

instance : CanonicalWire (α × β) where
  of_decode {p bytes rest} h := by
    obtain ⟨a, mid, ha, hsecond⟩ := reader_bind_eq_ok h
    obtain ⟨b, mid', hb, hmade⟩ := reader_bind_eq_ok hsecond
    obtain ⟨hfits, rfl⟩ := CanonicalWire.of_decode ha
    obtain ⟨hfits', rfl⟩ := CanonicalWire.of_decode hb
    obtain ⟨rfl, rfl⟩ := reader_pure_eq_ok hmade
    exact ⟨Bool.and_eq_true_iff.2 ⟨hfits, hfits'⟩, (List.append_assoc _ _ _).symm⟩

instance : CanonicalWire (Option α) where
  of_decode {x bytes rest} h := by
    obtain ⟨byte, mid, rfl, hcontent⟩ := of_tagged h
    split at hcontent
    · next hzero =>
        obtain ⟨rfl, rfl⟩ := reader_pure_eq_ok hcontent
        exact ⟨rfl, by rw [hzero]; rfl⟩
    split at hcontent
    · next hone =>
        obtain ⟨a, mid', ha, hmade⟩ := reader_bind_eq_ok hcontent
        obtain ⟨hfits, rfl⟩ := CanonicalWire.of_decode ha
        obtain ⟨rfl, rfl⟩ := reader_pure_eq_ok hmade
        exact ⟨hfits, by rw [hone]; rfl⟩
    · cases hcontent

theorem of_decodeMany {n : Nat} {as : List α}
    (h : (decodeMany n : Reader (List α)) bytes = .ok (as, rest)) :
    as.length = n ∧ as.all fits = true ∧ bytes = as.flatMap encode ++ rest := by
  induction n generalizing as bytes rest with
  | zero =>
      obtain ⟨rfl, rfl⟩ := reader_pure_eq_ok h
      exact ⟨rfl, rfl, rfl⟩
  | succ n ih =>
      obtain ⟨a, mid, ha, hmany⟩ := reader_bind_eq_ok h
      obtain ⟨as', mid', has, hmade⟩ := reader_bind_eq_ok hmany
      obtain ⟨hfits, rfl⟩ := CanonicalWire.of_decode ha
      obtain ⟨rfl, hall, rfl⟩ := ih has
      obtain ⟨rfl, rfl⟩ := reader_pure_eq_ok hmade
      refine ⟨rfl, Bool.and_eq_true_iff.2 ⟨hfits, hall⟩, ?_⟩
      rw [List.flatMap_cons, List.append_assoc]

instance : CanonicalWire (List α) where
  of_decode {as bytes rest} h := by
    obtain ⟨n, mid, hsize, hmany⟩ := reader_bind_eq_ok h
    obtain ⟨hlt, rfl⟩ := of_decode_size hsize
    obtain ⟨hlength, hall, rfl⟩ := of_decodeMany hmany
    rw [← hlength] at hlt
    refine ⟨Bool.and_eq_true_iff.2 ⟨decide_eq_true hlt, hall⟩, ?_⟩
    change _ = toBytes 4 as.length ++ as.flatMap encode ++ rest
    rw [hlength, List.append_assoc]

theorem of_content {make : α → γ} {c : γ}
    (h : (content make : Reader γ) bytes = .ok (c, rest)) :
    ∃ a, c = make a ∧ fits a = true ∧ bytes = encode a ++ rest := by
  obtain ⟨a, mid, ha, hmade⟩ := reader_bind_eq_ok h
  obtain ⟨hfits, rfl⟩ := CanonicalWire.of_decode ha
  obtain ⟨rfl, rfl⟩ := reader_pure_eq_ok hmade
  exact ⟨a, rfl, hfits, rfl⟩

end Wire

instance : CanonicalWire Template where
  of_decode {t bytes rest} h := by
    obtain ⟨tag, mid, rfl, hmade⟩ := of_tagged h
    split at hmade
    case h_3 => cases hmade
    all_goals
      obtain ⟨rfl, rfl⟩ := reader_pure_eq_ok hmade
      exact ⟨rfl, rfl⟩

instance : CanonicalWire Phase where
  of_decode {p bytes rest} h := by
    obtain ⟨tag, mid, rfl, hmade⟩ := of_tagged h
    split at hmade
    case h_5 => cases hmade
    all_goals
      obtain ⟨rfl, rfl⟩ := reader_pure_eq_ok hmade
      exact ⟨rfl, rfl⟩

instance : CanonicalWire Fact where
  of_decode {f bytes rest} h := by
    obtain ⟨tag, mid, rfl, hmade⟩ := of_tagged h
    split at hmade
    case h_11 => cases hmade
    case h_1 =>
      obtain ⟨⟨v, id, amount, delegable⟩, rfl, hfits, rfl⟩ := of_content hmade
      have hid : fits id = true := by simpa using hfits
      exact ⟨hid, rfl⟩
    -- The other facts hold neither texts nor lists.
    all_goals
      obtain ⟨_, rfl, -, rfl⟩ := of_content hmade
      exact ⟨rfl, rfl⟩

instance : CanonicalWire ProtocolChange where
  of_decode {c bytes rest} h := by
    obtain ⟨tag, mid, rfl, hmade⟩ := of_tagged h
    split at hmade
    case h_16 => cases hmade
    all_goals
      obtain ⟨_, rfl, -, rfl⟩ := of_content hmade
      exact ⟨rfl, rfl⟩

instance : CanonicalWire AppchainChange where
  of_decode {c bytes rest} h := by
    obtain ⟨tag, mid, rfl, hmade⟩ := of_tagged h
    split at hmade
    case h_7 => cases hmade
    case h_6 =>
      obtain ⟨_, rfl, -, rfl⟩ := of_content hmade
      exact ⟨rfl, rfl⟩
    all_goals
      obtain ⟨_, rfl, hfits, rfl⟩ := of_content hmade
      exact ⟨hfits, rfl⟩

instance : CanonicalWire AppointmentChange where
  of_decode {c bytes rest} h := by
    obtain ⟨tag, mid, rfl, hmade⟩ := of_tagged h
    split at hmade
    case h_3 => cases hmade
    all_goals
      obtain ⟨_, rfl, -, rfl⟩ := of_content hmade
      exact ⟨rfl, rfl⟩

instance : CanonicalWire StakeToken := canonical_via fun _ _ => rfl

instance : CanonicalWire TokenMetadata := canonical_via fun _ _ => rfl

instance : CanonicalWire WrappedToken := canonical_via fun _ _ => rfl

instance : CanonicalWire WrappedTokenChange where
  of_decode {c bytes rest} h := by
    obtain ⟨tag, mid, rfl, hmade⟩ := of_tagged h
    split at hmade
    case h_5 => cases hmade
    case h_1 =>
      obtain ⟨_, rfl, hfits, rfl⟩ := of_content hmade
      exact ⟨hfits, rfl⟩
    all_goals
      obtain ⟨_, rfl, -, rfl⟩ := of_content hmade
      exact ⟨rfl, rfl⟩

instance : CanonicalWire ProtocolSettings := canonical_via fun _ _ => rfl

instance : CanonicalWire AppchainSettings := canonical_via fun _ _ => rfl

instance : CanonicalWire AppointmentSettings := canonical_via fun _ _ => rfl

instance : CanonicalWire SettingsStore := canonical_via fun _ _ => rfl

instance : CanonicalWire ProfileEntry := canonical_via fun _ _ => rfl

instance : CanonicalWire Validator := canonical_via fun _ _ => rfl

instance : CanonicalWire Delegation := canonical_via fun _ _ => rfl

instance : CanonicalWire ValidatorOverview :=
  canonical_via (β := ValidatorOverview.Fields) fun _ _ => rfl

instance : CanonicalWire Ledger := canonical_via fun _ _ => rfl

instance : CanonicalWire HistoryRecord := canonical_via fun _ _ => rfl

instance : CanonicalWire IndexRange := canonical_via fun _ _ => rfl

instance {α : Type} [Wire α] [CanonicalWire α] : CanonicalWire (Group α) :=
  canonical_via fun _ _ => rfl

instance : CanonicalWire HistoryLog := canonical_via fun _ _ => rfl

instance : CanonicalWire UnbondedEntry := canonical_via fun _ _ => rfl

instance : CanonicalWire Anchor := canonical_via fun _ _ => rfl

instance : CanonicalWire Anchor.Status :=
  canonical_via (β := Anchor.Status.Fields) fun _ _ => rfl

end AppchainStaking
