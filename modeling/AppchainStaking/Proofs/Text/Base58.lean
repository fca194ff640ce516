import AppchainStaking.Identity
import Mathlib.Data.List.TakeWhile
import Mathlib.Data.Nat.Digits.Lemmas

/-!
# Base58 forms and byte strings correspond

Digits in one base, of which leading zeros are set apart, are turned into digits in another base and
back without loss. So every byte string has one Base58 form, and a text that is decoded is the form
of what it denotes: an account is named by a single text.
-/

namespace AppchainStaking.Base58

variable {base base' : Nat} {ds : List Nat}

theorem digits_eq (h : 1 < base) (n : Nat) (tail : List Nat) :
    digits base h n tail = (Nat.digits base n).reverse ++ tail := by
  induction n using Nat.strongRecOn generalizing tail with
  | ind n ih =>
      rw [digits]
      split
      · next hzero =>
          rw [hzero, Nat.digits_zero]
          rfl
      · next hpos =>
          have hn := Nat.pos_of_ne_zero hpos
          rw [ih _ (Nat.div_lt_self hn h), Nat.digits_def' h hn, List.reverse_cons,
            List.append_assoc]
          rfl

theorem ofDigits_eq (base : Nat) (ds : List Nat) :
    ofDigits base ds = Nat.ofDigits base ds.reverse := by
  rw [Nat.ofDigits_eq_foldr, List.foldr_reverse]
  simp only [ofDigits, Nat.cast_id, Nat.add_comm, Nat.mul_comm]

theorem ofDigits_replicate_append (k : Nat) (ds : List Nat) :
    ofDigits base (List.replicate k 0 ++ ds) = ofDigits base ds := by
  rw [ofDigits_eq, ofDigits_eq, List.reverse_append, List.reverse_replicate,
    Nat.ofDigits_append_replicate_zero]

theorem ofDigits_digits (h : 1 < base) (n : Nat) : ofDigits base (digits base h n []) = n := by
  rw [digits_eq, List.append_nil, ofDigits_eq, List.reverse_reverse, Nat.ofDigits_digits]

theorem digits_lt (h : 1 < base) {n d : Nat} (hd : d ∈ digits base h n []) : d < base := by
  rw [digits_eq, List.append_nil, List.mem_reverse] at hd
  exact Nat.digits_lt_base h hd

def zeros (ds : List Nat) : Nat := (ds.takeWhile (· = 0)).length

theorem zeros_digits (h : 1 < base) (n k : Nat) :
    zeros (List.replicate k 0 ++ digits base h n []) = k := by
  have hnone : (digits base h n []).takeWhile (· = 0) = [] := by
    rw [List.takeWhile_eq_nil_iff]
    intro hlength
    have hn : n ≠ 0 := by
      rintro rfl
      rw [digits_eq, Nat.digits_zero] at hlength
      exact Nat.lt_irrefl _ hlength
    have hlast := Nat.getLast_digit_ne_zero base hn
    simpa [digits_eq, List.getElem_reverse, List.getLast_eq_getElem] using hlast
  rw [zeros, List.takeWhile_append_of_pos (by simp), hnone, List.append_nil,
    List.length_replicate]

theorem replicate_zeros_append (ds : List Nat) :
    List.replicate (zeros ds) 0 ++ ds.dropWhile (· = 0) = ds := by
  have hzeros : ds.takeWhile (· = 0) = List.replicate (zeros ds) 0 := by
    refine List.eq_replicate_of_mem fun d hd => ?_
    simpa using List.mem_takeWhile_imp hd
  rw [← hzeros, List.takeWhile_append_dropWhile]

/-- Digits are those of their number, behind the leading zeros. -/
theorem replicate_zeros_append_digits (h : 1 < base) (hds : ∀ d ∈ ds, d < base) :
    List.replicate (zeros ds) 0 ++ digits base h (ofDigits base ds) [] = ds := by
  have hsplit := replicate_zeros_append ds
  have hvalue : ofDigits base ds = Nat.ofDigits base (ds.dropWhile (· = 0)).reverse := by
    rw [← ofDigits_eq, ← ofDigits_replicate_append (zeros ds) (ds.dropWhile _), hsplit]
  have hback : Nat.digits base (ofDigits base ds) = (ds.dropWhile (· = 0)).reverse := by
    rw [hvalue]
    refine Nat.digits_ofDigits base h _ (fun d hd => hds d ?_) fun hne => ?_
    · exact (List.dropWhile_suffix _).subset (List.mem_reverse.1 hd)
    · rw [List.getLast_reverse]
      exact of_decide_eq_false (List.head_dropWhile_not (· = 0) (List.reverse_ne_nil_iff.1 hne))
  rw [digits_eq, List.append_nil, hback, List.reverse_reverse, hsplit]

/-- Digits in another base; each leading zero stays one. -/
def convert (base base' : Nat) (h : 1 < base') (ds : List Nat) : List Nat :=
  List.replicate (zeros ds) 0 ++ digits base' h (ofDigits base ds) []

theorem convert_convert (h : 1 < base) (h' : 1 < base') (hds : ∀ d ∈ ds, d < base) :
    convert base' base h (convert base base' h' ds) = ds := by
  have hvalue : ofDigits base' (convert base base' h' ds) = ofDigits base ds := by
    rw [convert, ofDigits_replicate_append, ofDigits_digits]
  rw [convert, hvalue, convert, zeros_digits]
  exact replicate_zeros_append_digits h hds

theorem convert_lt (h : 1 < base') {d : Nat} (hd : d ∈ convert base base' h ds) : d < base' := by
  rcases List.mem_append.1 hd with hzero | hdigit
  · rw [List.eq_of_mem_replicate hzero]
    exact Nat.zero_lt_of_lt h
  · exact digits_lt h hdigit

theorem digit?_getD {d : Nat} (h : d < 58) : digit? (alphabet.getD d '1') = some d := by
  have hall : ∀ d < 58, digit? (alphabet.getD d '1') = some d := by decide
  exact hall d h

theorem of_digit? {c : Char} {d : Nat} (h : digit? c = some d) :
    d < 58 ∧ alphabet.getD d '1' = c := by
  obtain ⟨hlt, hget, -⟩ := List.idxOf?_eq_some_iff.1 h
  rw [List.getD_eq_getElem?_getD, List.getElem?_eq_getElem hlt, hget]
  exact ⟨hlt, rfl⟩

theorem mapM_digit?_map {ds : List Nat} (h : ∀ d ∈ ds, d < 58) :
    (ds.map fun d => alphabet.getD d '1').mapM digit? = some ds := by
  induction ds with
  | nil => rfl
  | cons d ds ih =>
      obtain ⟨hd, hds⟩ := List.forall_mem_cons.1 h
      rw [List.map_cons, List.mapM_cons, digit?_getD hd, ih hds]
      rfl

theorem of_mapM_digit? {cs : List Char} {ds : List Nat} (h : cs.mapM digit? = some ds) :
    (∀ d ∈ ds, d < 58) ∧ (ds.map fun d => alphabet.getD d '1') = cs := by
  induction cs generalizing ds with
  | nil =>
      cases h
      exact ⟨by simp, rfl⟩
  | cons c cs ih =>
      rw [List.mapM_cons] at h
      obtain ⟨d, hd, ds', hds, rfl⟩ : ∃ d, digit? c = some d ∧ ∃ ds', cs.mapM digit? = some ds' ∧
          d :: ds' = ds := by
        simpa [Option.bind_eq_some_iff] using h
      obtain ⟨hlt, hc⟩ := of_digit? hd
      obtain ⟨hall, hcs⟩ := ih hds
      exact ⟨List.forall_mem_cons.2 ⟨hlt, hall⟩, by rw [List.map_cons, hc, hcs]⟩

theorem encode_eq (bytes : Bytes) :
    encode bytes = .ofList ((convert 256 58 (by decide) (bytes.map UInt8.toNat)).map
      fun d => alphabet.getD d '1') := by
  have hzeros : zeros (bytes.map UInt8.toNat) = (bytes.takeWhile (· = 0)).length := by
    rw [zeros, List.takeWhile_map, List.length_map]
    congr 2
    funext b
    simp [← UInt8.toNat_inj]
  rw [encode, convert, hzeros, List.map_append, List.map_replicate]
  rfl

theorem decode?_eq (s : String) :
    decode? s = (s.toList.mapM digit?).map fun ds =>
      (convert 58 256 (by decide) ds).map UInt8.ofNat := by
  rw [decode?]
  cases s.toList.mapM digit? with
  | none => rfl
  | some ds =>
      rw [Option.map_some, convert, List.map_append, List.map_replicate]
      rfl

theorem toNat_lt_of_mem {bytes : Bytes} {d : Nat} (h : d ∈ bytes.map UInt8.toNat) : d < 256 := by
  obtain ⟨b, -, rfl⟩ := List.mem_map.1 h
  exact b.toNat_lt

/-- A text is decoded exactly if it is the form of some bytes, and then to these. -/
theorem decode?_eq_some_iff {s : String} {bytes : Bytes} :
    decode? s = some bytes ↔ s = encode bytes := by
  rw [decode?_eq, encode_eq, Option.map_eq_some_iff]
  constructor
  · rintro ⟨ds, hds, rfl⟩
    obtain ⟨hlt, hcs⟩ := of_mapM_digit? hds
    have hbytes : ((convert 58 256 (by decide) ds).map UInt8.ofNat).map UInt8.toNat =
        convert 58 256 (by decide) ds := by
      rw [List.map_map]
      refine (List.map_congr_left fun d hd => ?_).trans (List.map_id _)
      exact UInt8.toNat_ofNat_of_lt' (convert_lt (by decide) hd)
    rw [hbytes, convert_convert (by decide) (by decide) hlt, hcs, String.ofList_toList]
  · rintro rfl
    refine ⟨convert 256 58 (by decide) (bytes.map UInt8.toNat), ?_, ?_⟩
    · rw [String.toList_ofList]
      exact mapM_digit?_map fun d hd => convert_lt (by decide) hd
    · rw [convert_convert (by decide) (by decide) fun d hd => toNat_lt_of_mem hd, List.map_map]
      refine (List.map_congr_left fun b _ => ?_).trans (List.map_id _)
      exact UInt8.ofNat_toNat

end AppchainStaking.Base58

namespace AppchainStaking.AccountId

/-- An account is named by its Base58 form and by no other text. -/
theorem ofBase58?_eq_some_iff {s : String} {a : AccountId} :
    ofBase58? s = some a ↔ s = a.toBase58 := by
  rw [ofBase58?, toBase58, Option.bind_eq_bind, Option.bind_eq_some_iff]
  constructor
  · rintro ⟨bytes, hbytes, ha⟩
    rw [bytes_of_ofBytes? ha]
    exact Base58.decode?_eq_some_iff.1 hbytes
  · intro h
    exact ⟨a.bytes, Base58.decode?_eq_some_iff.2 h, ofBytes?_bytes a⟩

theorem ofBase58?_eq_none_iff {s : String} : ofBase58? s = none ↔ ∀ a, s ≠ toBase58 a := by
  rw [Option.eq_none_iff_forall_ne_some]
  exact forall_congr' fun a => not_congr ofBase58?_eq_some_iff

end AppchainStaking.AccountId
