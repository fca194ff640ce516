import AppchainStaking.Text.Bytes

/-!
# Hexadecimal digits and the bytes they stand for

An even number of digits of either case stands for bytes, and nothing else does. Writing these bytes
gives the same digits in lower case, so two texts of digits stand for the same bytes exactly if they
differ in nothing but the case.
-/

namespace AppchainStaking

variable {c : Char} {cs : List Char} {n : Nat} {bytes : List UInt8}

theorem toNat_lt_of_isHexDigit (h : isHexDigit c) : c.toNat < 103 := by
  unfold isHexDigit hexValue? at h
  split at h
  · next hc =>
      have hle : c.toNat ≤ 57 := hc.2
      omega
  split at h
  · next hc =>
      have hle : c.toNat ≤ 102 := hc.2
      omega
  split at h
  · next hc =>
      have hle : c.toNat ≤ 70 := hc.2
      omega
  · cases h

/-- What all small characters have, every digit has. -/
theorem forall_isHexDigit {P : Char → Prop}
    (hsmall : ∀ n < 103, isHexDigit (.ofNat n) → P (.ofNat n)) (h : isHexDigit c) : P c := by
  have hc := hsmall c.toNat (toNat_lt_of_isHexDigit h)
  rw [Char.ofNat_toNat] at hc
  exact hc h

theorem isHexDigit_iff : isHexDigit c ↔ c ∈ "0123456789abcdefABCDEF".toList := by
  constructor
  · exact forall_isHexDigit (by decide +kernel)
  · have hall : "0123456789abcdefABCDEF".toList.all isHexDigit := by decide
    exact List.all_eq_true.1 hall c

/-- A digit and its value determine each other up to case. -/
theorem hexValue?_cases (h : isHexDigit c) :
    ∃ n < 16, hexValue? c = some n ∧ c.toLower = hexDigit n :=
  forall_isHexDigit (P := fun c => ∃ n < 16, hexValue? c = some n ∧ c.toLower = hexDigit n)
    (by decide +kernel) h

theorem hexValue?_hexDigit (h : n < 16) : hexValue? (hexDigit n) = some n := by
  have hall : ∀ n < 16, hexValue? (hexDigit n) = some n := by decide
  exact hall n h

theorem toLower_mem_hexDigits (h : isHexDigit c) : c.toLower ∈ hexDigits :=
  forall_isHexDigit (P := (·.toLower ∈ hexDigits)) (by decide +kernel) h

theorem isHexDigit_of_mem_hexDigits (h : c ∈ hexDigits) : isHexDigit c ∧ c.toLower = c := by
  have hall : hexDigits.all fun c => isHexDigit c ∧ c.toLower = c := by decide
  exact of_decide_eq_true (List.all_eq_true.1 hall c h)

theorem toList_toHex_cons (b : UInt8) (bytes : List UInt8) :
    (toHex (b :: bytes)).toList =
      hexDigit (b.toNat / 16) :: hexDigit (b.toNat % 16) :: (toHex bytes).toList := by
  simp [toHex]

theorem bytesOfHexDigits?_toHex (bytes : List UInt8) :
    bytesOfHexDigits? (toHex bytes).toList = some bytes := by
  induction bytes with
  | nil => rfl
  | cons b bytes ih =>
      have hsize : b.toNat < 256 := b.toNat_lt
      have hvalue : 16 * (b.toNat / 16) + b.toNat % 16 = b.toNat := Nat.div_add_mod ..
      rw [toList_toHex_cons, bytesOfHexDigits?, hexValue?_hexDigit (by omega),
        hexValue?_hexDigit (by omega), ih]
      simp only [Option.bind_eq_bind, Option.bind_some, hvalue, UInt8.ofNat_toNat]
      rfl

theorem toHex_injective {bytes' : List UInt8} (h : (toHex bytes).toList = (toHex bytes').toList) :
    bytes = bytes' := by
  have hbytes := congrArg bytesOfHexDigits? h
  rw [bytesOfHexDigits?_toHex, bytesOfHexDigits?_toHex] at hbytes
  exact Option.some.inj hbytes

/-- Digits in pairs stand for bytes, which are written with the same digits in lower case. -/
theorem exists_bytesOfHexDigits? (hex : ∀ c ∈ cs, isHexDigit c) (hlength : cs.length = 2 * n) :
    ∃ bytes, bytesOfHexDigits? cs = some bytes ∧ bytes.length = n ∧
      (toHex bytes).toList = cs.map Char.toLower := by
  induction cs using bytesOfHexDigits?.induct generalizing n with
  | case1 =>
      rw [List.length_nil] at hlength
      exact ⟨[], rfl, by rw [List.length_nil]; omega, rfl⟩
  | case2 c => rw [List.length_singleton] at hlength; omega
  | case3 high low rest ih =>
      obtain ⟨hhigh, hlow, hrest⟩ := by simpa only [List.forall_mem_cons] using hex
      obtain ⟨h, hh, hhighValue, hhighLower⟩ := hexValue?_cases hhigh
      obtain ⟨l, hl, hlowValue, hlowLower⟩ := hexValue?_cases hlow
      simp only [List.length_cons] at hlength
      obtain ⟨bytes, hbytes, hcount, hwritten⟩ := ih hrest (n := n - 1) (by omega)
      have hbyte : (UInt8.ofNat (16 * h + l)).toNat = 16 * h + l :=
        UInt8.toNat_ofNat_of_lt' (by simp only [UInt8.size]; omega)
      have hhighPart : (16 * h + l) / 16 = h := by omega
      have hlowPart : (16 * h + l) % 16 = l := by omega
      refine ⟨.ofNat (16 * h + l) :: bytes, ?_, ?_, ?_⟩
      · rw [bytesOfHexDigits?, hhighValue, hlowValue, hbytes]
        rfl
      · rw [List.length_cons]
        omega
      · rw [toList_toHex_cons, hbyte, hhighPart, hlowPart, hwritten, List.map_cons, List.map_cons,
          hhighLower, hlowLower]

theorem bytesOfHexDigits?_eq_some (h : bytesOfHexDigits? cs = some bytes) :
    (∀ c ∈ cs, isHexDigit c) ∧ cs.length = 2 * bytes.length := by
  induction cs using bytesOfHexDigits?.induct generalizing bytes with
  | case1 =>
      cases h
      exact ⟨List.forall_mem_nil _, rfl⟩
  | case2 c => cases h
  | case3 high low rest ih =>
      simp only [bytesOfHexDigits?, Option.bind_eq_bind, Option.bind_eq_some_iff] at h
      obtain ⟨x, hhigh, y, hlow, bytes, hbytes, hcons⟩ := h
      cases hcons
      obtain ⟨hex, hlength⟩ := ih hbytes
      refine ⟨?_, by simp only [List.length_cons, hlength]; omega⟩
      simp only [List.forall_mem_cons]
      exact ⟨by rw [isHexDigit, hhigh]; rfl, by rw [isHexDigit, hlow]; rfl, hex⟩

theorem bytesOfHexDigits?_eq_none (hc : c ∈ cs) (h : isHexDigit c = false) :
    bytesOfHexDigits? cs = none := by
  cases hbytes : bytesOfHexDigits? cs with
  | none => rfl
  | some bytes =>
      have hdigit := (bytesOfHexDigits?_eq_some hbytes).1 c hc
      rw [h] at hdigit
      cases hdigit

theorem toList_toHex_of_bytesOfHexDigits? (h : bytesOfHexDigits? cs = some bytes) :
    (toHex bytes).toList = cs.map Char.toLower := by
  obtain ⟨hex, hlength⟩ := bytesOfHexDigits?_eq_some h
  obtain ⟨bytes', hbytes', -, hwritten⟩ := exists_bytesOfHexDigits? hex hlength
  rw [h] at hbytes'
  cases hbytes'
  exact hwritten

theorem toLower_eq_self (h : 128 ≤ c.toNat) : c.toLower = c := by
  refine dif_neg ?_
  intro hupper
  have hle : c.toNat ≤ 90 := hupper.2
  omega

theorem forall_toLower {P : Char → Char → Prop}
    (hsmall : ∀ n < 128, P (.ofNat n) (Char.ofNat n).toLower) (hself : ∀ c, P c c) (c : Char) :
    P c c.toLower := by
  by_cases h : c.toNat < 128
  · have hc := hsmall c.toNat h
    rwa [Char.ofNat_toNat] at hc
  · rw [toLower_eq_self (by omega)]
    exact hself c

theorem hexValue?_toLower (c : Char) : hexValue? c.toLower = hexValue? c :=
  forall_toLower (P := fun c lower => hexValue? lower = hexValue? c) (by decide +kernel)
    (fun _ => rfl) c

theorem bytesOfHexDigits?_map_toLower (cs : List Char) :
    bytesOfHexDigits? (cs.map Char.toLower) = bytesOfHexDigits? cs := by
  induction cs using bytesOfHexDigits?.induct with
  | case1 => rfl
  | case2 c => rfl
  | case3 high low rest ih =>
      simp only [List.map_cons, bytesOfHexDigits?, hexValue?_toLower, ih]

end AppchainStaking
