import AppchainStaking.Wire.Account

/-!
# Reading back what was written

A binary form is lawful when decoding reads back the value that encoding wrote, whatever bytes
follow, for every value whose numbers and lengths fit their fields. Records, alternatives, options
and lists of lawful forms are lawful, and so are the forms of the anchor and of history records:
what was stored is loaded as it was.
-/

namespace AppchainStaking

open Wire

/-- Decoding reads back what encoding wrote. -/
class LawfulWire (α : Type) [Wire α] : Prop where
  decode_encode {a : α} (h : fits a = true) (rest : Bytes) :
    (decode : Reader α) (encode a ++ rest) = .ok (a, rest)

namespace Wire

variable {α β : Type}

theorem bind_eq_of_ok {x : Reader α} {f : α → Reader β} {bytes rest : Bytes} {a : α}
    (h : x bytes = .ok (a, rest)) : (x >>= f) bytes = f a rest := by
  change (x bytes >>= fun p => f p.1 p.2) = f a rest
  rw [h]
  rfl

theorem length_toBytes (width n : Nat) : (toBytes width n).length = width := by
  induction width generalizing n with
  | zero => rfl
  | succ width ih => rw [toBytes, List.length_cons, ih]

theorem ofBytes_toBytes {width n : Nat} (h : n < Nat.pow 256 width) :
    ofBytes (toBytes width n) = n := by
  induction width generalizing n with
  | zero =>
      have hzero : n = 0 := Nat.lt_one_iff.1 h
      rw [hzero]
      rfl
  | succ width ih =>
      have hpow : Nat.pow 256 (width + 1) = Nat.pow 256 width * 256 := rfl
      have hdiv : n / 256 < Nat.pow 256 width := Nat.div_lt_of_lt_mul (by omega)
      have hbyte : (UInt8.ofNat (n % 256)).toNat = n % 256 :=
        UInt8.toNat_ofNat_of_lt' (Nat.mod_lt n (by decide))
      have hrest : ofBytes (toBytes width (n / 256)) = n / 256 := ih hdiv
      change (UInt8.ofNat (n % 256)).toNat + 256 * ofBytes (toBytes width (n / 256)) = n
      rw [hbyte, hrest]
      omega

theorem take_append {n : Nat} {bytes : Bytes} (h : bytes.length = n) (rest : Bytes) :
    take n (bytes ++ rest) = .ok (bytes, rest) := by
  unfold take
  rw [List.take_left' h, List.drop_left' h, if_pos h]

theorem lt_of_fits {width n : Nat} (h : fits (α := Field width) n = true) :
    n < Nat.pow 256 width :=
  of_decide_eq_true h

instance (width : Nat) : LawfulWire (Field width) where
  decode_encode {n} h rest := by
    refine (bind_eq_of_ok (take_append (length_toBytes width n) rest)).trans ?_
    rw [ofBytes_toBytes (lt_of_fits h)]
    rfl

@[simp] theorem fits_uint64 (n : UInt64) : fits n = true := decide_eq_true n.toNat_lt_size

@[simp] theorem fits_uint16 (n : UInt16) : fits n = true := decide_eq_true n.toNat_lt

@[simp] theorem fits_bool (b : Bool) : fits b = true := rfl

@[simp] theorem fits_accountId (a : AccountId) : fits a = true := rfl

@[simp] theorem fits_pair [Wire α] [Wire β] (a : α) (b : β) :
    fits (a, b) = (fits a && fits b) := rfl

/-- A form that goes through another one is lawful when the way back is. -/
theorem lawful_via [Wire β] [LawfulWire β] {make : β → α} {back : α → β}
    (h : ∀ a, make (back a) = a) : @LawfulWire α (via make back) :=
  @LawfulWire.mk α (via make back) fun {a} hfits rest => by
    have hback := LawfulWire.decode_encode (α := β) hfits rest
    exact (bind_eq_of_ok hback).trans (by rw [h]; rfl)

instance : LawfulWire UInt8 := lawful_via fun _ => UInt8.ofNat_toNat

instance : LawfulWire UInt16 := lawful_via fun _ => UInt16.ofNat_toNat

instance : LawfulWire UInt32 := lawful_via fun _ => UInt32.ofNat_toNat

instance : LawfulWire UInt64 := lawful_via fun _ => UInt64.ofNat_toNat

instance : LawfulWire Int64 := lawful_via fun _ => rfl

instance : LawfulWire Bool where
  decode_encode {b} _ rest := by
    cases b <;> rfl

instance : LawfulWire AccountId where
  decode_encode {a} _ rest := by
    refine (bind_eq_of_ok (take_append a.length_bytes rest)).trans ?_
    rw [AccountId.ofBytes?_bytes]
    rfl

theorem decode_tag (tag : UInt8) (rest : Bytes) :
    (decode : Reader UInt8) (tag :: rest) = .ok (tag, rest) := by
  have hbytes : toBytes 1 tag.toNat = [tag] := by
    rw [toBytes, toBytes, Nat.mod_eq_of_lt tag.toNat_lt, UInt8.ofNat_toNat]
  have hdecode := LawfulWire.decode_encode (a := tag) (decide_eq_true tag.toNat_lt) rest
  change decode (toBytes 1 tag.toNat ++ rest) = _ at hdecode
  rwa [hbytes] at hdecode

theorem decode_size {n : Nat} (h : n < UInt32.size) (rest : Bytes) :
    (decode : Reader UInt32) (toBytes 4 n ++ rest) = .ok (UInt32.ofNat n, rest) := by
  have hn : (UInt32.ofNat n).toNat = n := UInt32.toNat_ofNat_of_lt' h
  have hfits : fits (UInt32.ofNat n) = true := by
    refine decide_eq_true ?_
    rw [hn]
    exact h
  have hdecode := LawfulWire.decode_encode hfits rest
  change decode (toBytes 4 (UInt32.ofNat n).toNat ++ rest) = _ at hdecode
  rwa [hn] at hdecode

instance : LawfulWire String where
  decode_encode {s} h rest := by
    have hlt : s.utf8ByteSize < UInt32.size := of_decide_eq_true h
    have hsize : (UInt32.ofNat s.utf8ByteSize).toNat = s.utf8ByteSize :=
      UInt32.toNat_ofNat_of_lt' hlt
    have hlength : s.toUTF8.data.toList.length = s.utf8ByteSize := rfl
    change decode (toBytes 4 s.utf8ByteSize ++ s.toUTF8.data.toList ++ rest) = _
    rw [List.append_assoc]
    refine (bind_eq_of_ok (decode_size hlt _)).trans ?_
    refine (bind_eq_of_ok (hsize ▸ take_append hlength rest)).trans ?_
    have htext : String.fromUTF8? ⟨s.toUTF8.data.toList.toArray⟩ = some s := by
      rw [Array.toArray_toList]
      exact dif_pos s.isValidUTF8
    rw [htext]
    rfl

variable [Wire α] [Wire β] [LawfulWire α] [LawfulWire β]

instance : LawfulWire (α × β) where
  decode_encode {p} h rest := by
    obtain ⟨ha, hb⟩ := Bool.and_eq_true_iff.1 h
    change decode (encode p.1 ++ encode p.2 ++ rest) = _
    rw [List.append_assoc]
    refine (bind_eq_of_ok (LawfulWire.decode_encode ha _)).trans ?_
    exact bind_eq_of_ok (LawfulWire.decode_encode hb rest)

instance : LawfulWire (Option α) where
  decode_encode {x} h rest := by
    cases x with
    | none => rfl
    | some a =>
        refine (bind_eq_of_ok (decode_tag 1 (encode a ++ rest))).trans ?_
        rw [if_neg (by decide), if_pos rfl]
        exact bind_eq_of_ok (LawfulWire.decode_encode (a := a) h rest)

theorem decodeMany_append {as : List α} (h : as.all fits) (rest : Bytes) :
    (decodeMany as.length : Reader (List α)) (as.flatMap encode ++ rest) = .ok (as, rest) := by
  induction as with
  | nil => rfl
  | cons a as ih =>
      obtain ⟨ha, has⟩ := Bool.and_eq_true_iff.1 h
      rw [List.flatMap_cons, List.append_assoc]
      refine (bind_eq_of_ok (LawfulWire.decode_encode ha _)).trans ?_
      exact bind_eq_of_ok (ih has)

instance : LawfulWire (List α) where
  decode_encode {as} h rest := by
    obtain ⟨hlength, has⟩ := Bool.and_eq_true_iff.1 h
    have hlt : as.length < UInt32.size := of_decide_eq_true hlength
    have hsize : (UInt32.ofNat as.length).toNat = as.length := UInt32.toNat_ofNat_of_lt' hlt
    change decode (toBytes 4 as.length ++ as.flatMap encode ++ rest) = _
    rw [List.append_assoc]
    refine (bind_eq_of_ok (decode_size hlt _)).trans ?_
    rw [hsize]
    exact decodeMany_append has rest

theorem content_encode {γ : Type} {a : α} (h : fits a = true) (make : α → γ) (rest : Bytes) :
    (content make : Reader γ) (encode a ++ rest) = .ok (make a, rest) :=
  bind_eq_of_ok (LawfulWire.decode_encode h rest)

end Wire

instance : LawfulWire Template where
  decode_encode {t} _ rest := by
    cases t <;> rfl

instance : LawfulWire Phase where
  decode_encode {p} _ rest := by
    cases p <;> rfl

instance : LawfulWire StakeToken := lawful_via fun _ => rfl

instance : LawfulWire TokenMetadata := lawful_via fun _ => rfl

instance : LawfulWire WrappedToken := lawful_via fun _ => rfl

instance : LawfulWire WrappedTokenChange where
  decode_encode {c} h rest := by
    cases c with
    | metadata m =>
        refine (bind_eq_of_ok (decode_tag _ _)).trans ?_
        exact content_encode (a := m) h _ rest
    | contract a =>
        refine (bind_eq_of_ok (decode_tag _ _)).trans ?_
        exact content_encode (a := a) rfl _ rest
    | preminedBalance a v =>
        refine (bind_eq_of_ok (decode_tag _ _)).trans ?_
        exact content_encode (a := (a, v)) (by simp) _ rest
    | price v =>
        refine (bind_eq_of_ok (decode_tag _ _)).trans ?_
        exact content_encode (fits_uint64 v) _ rest

instance : LawfulWire ProtocolSettings := lawful_via fun _ => rfl

instance : LawfulWire ProtocolChange where
  decode_encode {c} _ rest := by
    cases c with
    | minimumValidatorDeposit v | minimumDelegatorDeposit v | minimumTotalStakePriceForBooting v
    | minimumValidatorCount v | maximumValidatorCount v | maximumValidatorsPerDelegator v
    | validatorUnlockPeriod v | delegatorUnlockPeriod v | maximumUnwithdrawnRewardEras v
    | maximumValidMessageEras v =>
        refine (bind_eq_of_ok (decode_tag _ _)).trans ?_
        exact content_encode (fits_uint64 v) _ rest
    | maximumValidatorStakePercent v | maximumBridgedTokensPercent v | maximumWrappedTokenPercent v
    | delegationFeePercent v | maximumUnprofitableEras v =>
        refine (bind_eq_of_ok (decode_tag _ _)).trans ?_
        exact content_encode (fits_uint16 v) _ rest

instance : LawfulWire AppchainSettings := lawful_via fun _ => rfl

instance : LawfulWire AppchainChange where
  decode_encode {c} h rest := by
    cases c with
    | chainSpec v | rawChainSpec v | bootNodes v | rpcEndpoint v | subqlEndpoint v =>
        refine (bind_eq_of_ok (decode_tag _ _)).trans ?_
        exact content_encode (a := v) h _ rest
    | eraReward v =>
        refine (bind_eq_of_ok (decode_tag _ _)).trans ?_
        exact content_encode (fits_uint64 v) _ rest

instance : LawfulWire AppointmentSettings := lawful_via fun _ => rfl

instance : LawfulWire AppointmentChange where
  decode_encode {c} _ rest := by
    cases c with
    | tokenPriceMaintainer a | relayer a =>
        refine (bind_eq_of_ok (decode_tag _ _)).trans ?_
        exact content_encode (a := a) (by cases a <;> rfl) _ rest

instance : LawfulWire SettingsStore := lawful_via fun _ => rfl

instance : LawfulWire ProfileEntry := lawful_via fun _ => rfl

instance : LawfulWire Validator := lawful_via fun _ => rfl

instance : LawfulWire Delegation := lawful_via fun _ => rfl

instance : LawfulWire ValidatorOverview :=
  lawful_via (β := ValidatorOverview.Fields) fun _ => rfl

instance : LawfulWire Ledger := lawful_via fun _ => rfl

instance {α : Type} [Wire α] [LawfulWire α] : LawfulWire (Group α) := lawful_via fun _ => rfl

instance : LawfulWire Fact where
  decode_encode {f} h rest := by
    cases f with
    | validatorRegistered v id amount delegable =>
        have hid : fits id = true := h
        refine (bind_eq_of_ok (decode_tag _ _)).trans ?_
        exact content_encode (a := (v, id, amount, delegable)) (by simp [hid]) _ rest
    | stakeIncreased v amount | stakeDecreased v amount | validatorUnbonded v amount =>
        refine (bind_eq_of_ok (decode_tag _ _)).trans ?_
        exact content_encode (a := (v, amount)) (by simp) _ rest
    | delegationEnabled v | delegationDisabled v =>
        refine (bind_eq_of_ok (decode_tag _ _)).trans ?_
        exact content_encode (a := v) rfl _ rest
    | delegatorRegistered d v amount | delegationIncreased d v amount
    | delegationDecreased d v amount | delegatorUnbonded d v amount =>
        refine (bind_eq_of_ok (decode_tag _ _)).trans ?_
        exact content_encode (a := (d, v, amount)) (by simp) _ rest

instance : LawfulWire HistoryRecord := lawful_via fun _ => rfl

instance : LawfulWire IndexRange := lawful_via fun _ => rfl

instance : LawfulWire HistoryLog := lawful_via fun _ => rfl

instance : LawfulWire UnbondedEntry := lawful_via fun _ => rfl

instance : LawfulWire Anchor := lawful_via fun _ => rfl

instance : LawfulWire Anchor.Status := lawful_via (β := Anchor.Status.Fields) fun _ => rfl

class LawfulStored (α : Type) [Stored α] : Prop extends LawfulWire α where
  length_mark : (Stored.mark α).length = Stored.markSize

instance : LawfulStored Anchor where
  length_mark := rfl

instance : LawfulStored HistoryRecord where
  length_mark := rfl

namespace Stored

variable {α : Type} [Stored α] [LawfulStored α]

theorem load_bytes_append {a : α} (h : Wire.fits a = true) (rest : Bytes) :
    load (bytes a ++ rest) = .ok a := by
  have hmark := LawfulStored.length_mark (α := α)
  have hhead : (bytes a ++ rest).take markSize = mark α := by
    rw [bytes, List.append_assoc, List.take_left' hmark]
  have htail : (bytes a ++ rest).drop markSize = Wire.encode a ++ rest := by
    rw [bytes, List.append_assoc, List.drop_left' hmark]
  unfold load
  dsimp only
  rw [hhead, htail, hmark, if_neg (Nat.lt_irrefl _), if_neg (fun hne => hne rfl),
    LawfulWire.decode_encode h]

theorem load_of_store? {a : α} {data data' : Bytes} (h : store? a data = some data') :
    load data' = .ok a := by
  by_cases hfits : Wire.fits a ∧ (bytes a).length ≤ data.length
  · obtain rfl : bytes a ++ data.drop (bytes a).length = data' :=
      Option.some.inj ((if_pos hfits).symm.trans h)
    exact load_bytes_append hfits.1 _
  · cases (if_neg hfits).symm.trans h

end Stored

end AppchainStaking
