import AppchainStaking.Proofs.Ledger.WellFormed
import AppchainStaking.Proofs.Text.Unicode

/-!
# Spellings of an identity

An identity on the appchain may be spelled with white space around it, with or without a mark, and
in digits of either case. Each spelling is read as the same normal text, which depends on nothing
but the bytes, and every other text is refused: in lower case it keeps a character that is no digit,
or its digits are too many or too few. A validator therefore keeps its identity to itself in
whatever spelling another account asks for it.
-/

namespace AppchainStaking

variable {c : Char} {cs : List Char} {t : Template} {raw raw' id : String}
  {bytes bytes' : List UInt8}

namespace Template

def marks : List (List Char) := [[], ['0', 'x'], ['0', 'X']]

/-- A way of reading `raw` as an identity of the template. -/
structure Spelling (t : Template) (raw : String) where
  before : List Char
  mark : List Char
  digits : List Char
  after : List Char
  text : raw.toList = before ++ (mark ++ digits) ++ after
  blankBefore : ∀ c ∈ before, isBlank c
  blankAfter : ∀ c ∈ after, isBlank c
  optionalMark : mark ∈ marks
  hex : ∀ d ∈ digits, d ∈ "0123456789abcdefABCDEF".toList
  count : digits.length = t.digitCount

def Spelling.normal (s : t.Spelling raw) : String :=
  .ofList ('0' :: 'x' :: s.digits.map Char.toLower)

def Denotes (t : Template) (raw : String) (bytes : List UInt8) : Prop :=
  ∃ s : t.Spelling raw, bytesOfHexDigits? s.digits = some bytes

theorem of_mem_mark {mark : List Char} (hmark : mark ∈ marks) (hc : c ∈ mark) :
    ¬isBlank c ∧ c.toNat < 128 := by
  have hall : marks.all fun mark => mark.all fun c => ¬isBlank c ∧ c.toNat < 128 := by decide
  exact of_decide_eq_true (List.all_eq_true.1 (List.all_eq_true.1 hall mark hmark) c hc)

theorem withoutMark_eq_self (hex : ∀ c ∈ cs, isHexDigit c) : withoutMark cs = cs := by
  unfold withoutMark
  split
  · exact absurd (hex 'x' (by simp)) (by decide)
  · rfl

theorem withoutMark_lower {mark : List Char} (hmark : mark ∈ marks)
    (hex : ∀ c ∈ cs, isHexDigit c) :
    withoutMark ((mark ++ cs).map Char.toLower) = cs.map Char.toLower := by
  simp only [marks, List.mem_cons, List.not_mem_nil, or_false] at hmark
  obtain rfl | rfl | rfl := hmark
  · refine withoutMark_eq_self fun d hd => ?_
    obtain ⟨c, hc, rfl⟩ := List.mem_map.1 hd
    rw [isHexDigit, hexValue?_toLower]
    exact hex c hc
  · rfl
  · rfl

/-- What has no mark in lower case is a mark of either case and the rest. -/
theorem exists_mark (cs : List Char) :
    ∃ mark ∈ marks, ∃ digits, cs = mark ++ digits ∧
      withoutMark (cs.map Char.toLower) = digits.map Char.toLower := by
  have hzero : ∀ c : Char, c.toLower = '0' → c = '0' :=
    forall_toLower (P := fun c lower => lower = '0' → c = '0') (by decide +kernel) fun _ h => h
  have hmark : ∀ c : Char, c.toLower = 'x' → c = 'x' ∨ c = 'X' :=
    forall_toLower (P := fun c lower => lower = 'x' → c = 'x' ∨ c = 'X') (by decide +kernel)
      fun _ => Or.inl
  unfold withoutMark
  split
  · next digits hlower =>
      obtain ⟨z, rest, rfl, hz, hrest⟩ := List.map_eq_cons_iff.1 hlower
      obtain ⟨x, rest, rfl, hx, hdigits⟩ := List.map_eq_cons_iff.1 hrest
      obtain rfl := hzero z hz
      obtain rfl | rfl := hmark x hx
      · exact ⟨['0', 'x'], by decide, rest, rfl, hdigits.symm⟩
      · exact ⟨['0', 'X'], by decide, rest, rfl, hdigits.symm⟩
  · exact ⟨[], by decide, cs, rfl, rfl⟩

/-- A character that is neither a digit nor in a mark cannot be decoded. -/
theorem bytesOfHexDigits?_withoutMark (hc : c ∈ cs) (hdigit : isHexDigit c = false)
    (hmark : c ≠ 'x') : bytesOfHexDigits? (withoutMark cs) = none := by
  refine bytesOfHexDigits?_eq_none (c := c) ?_ hdigit
  unfold withoutMark
  split
  · obtain rfl | rfl | h := by simpa only [List.mem_cons] using hc
    · cases hdigit
    · exact absurd rfl hmark
    · exact h
  · exact hc

/-- Text that is decoded after it was put in lower case is ASCII. -/
theorem ascii_of_decoded (h : bytesOfHexDigits? (withoutMark (toLowercase cs)) = some bytes) :
    ∀ c ∈ cs, c.toNat < 128 := by
  intro c hc
  by_contra hforeign
  obtain ⟨d, hd, hshape⟩ := exists_mem_lowerFrom [] hc (Nat.not_lt.1 hforeign)
  have hplain : isHexDigit d = false ∧ d ≠ 'x' := by
    obtain hlarge | rfl | rfl := hshape
    · refine ⟨Bool.eq_false_iff.2 fun hdigit => ?_, ?_⟩
      · exact absurd (toNat_lt_of_isHexDigit hdigit) (by omega)
      · rintro rfl
        exact absurd hlarge (by decide)
    · decide
    · decide
  rw [toLowercase, bytesOfHexDigits?_withoutMark hd hplain.1 hplain.2] at h
  cases h

namespace Spelling

variable (s : t.Spelling raw)

theorem isHexDigit_of_mem : ∀ d ∈ s.digits, isHexDigit d :=
  fun d hd => isHexDigit_iff.2 (s.hex d hd)

theorem trimBlank_eq : trimBlank raw.toList = s.mark ++ s.digits := by
  rw [s.text]
  refine trimBlank_append s.blankBefore ?_ s.blankAfter
  intro c hc
  obtain hc | hc := List.mem_append.1 hc
  · exact (of_mem_mark s.optionalMark hc).1
  · exact not_isBlank_of_isHexDigit (s.isHexDigit_of_mem c hc)

theorem withoutMark_eq :
    withoutMark (toLowercase (trimBlank raw.toList)) = s.digits.map Char.toLower := by
  rw [s.trimBlank_eq, toLowercase, lowerFrom_eq_map, withoutMark_lower s.optionalMark
    s.isHexDigit_of_mem]
  intro c hc
  obtain hc | hc := List.mem_append.1 hc
  · exact (of_mem_mark s.optionalMark hc).2
  · exact Nat.lt_trans (toNat_lt_of_isHexDigit (s.isHexDigit_of_mem c hc)) (by decide)

theorem exists_bytes :
    ∃ bytes, bytesOfHexDigits? s.digits = some bytes ∧ bytes.length = t.idSize := by
  obtain ⟨bytes, hbytes, hlength, -⟩ :=
    exists_bytesOfHexDigits? s.isHexDigit_of_mem (s.count.trans t.digitCount_eq)
  exact ⟨bytes, hbytes, hlength⟩

theorem normalize_eq : t.normalize raw = .ok s.normal := by
  obtain ⟨bytes, hbytes, hsize⟩ := s.exists_bytes
  refine normalize_eq_ok_iff.2 ⟨bytes, ?_, hsize, ?_⟩
  · rw [s.withoutMark_eq, bytesOfHexDigits?_map_toLower, hbytes]
  · rw [← ofList_toList_toHex, toList_toHex_of_bytesOfHexDigits? hbytes]
    rfl

end Spelling

theorem exists_spelling (h : t.normalize raw = .ok id) : ∃ s : t.Spelling raw, id = s.normal := by
  obtain ⟨bytes, hdecoded, hsize, rfl⟩ := normalize_eq_ok_iff.1 h
  obtain ⟨before, after, htext, hbefore, hafter⟩ := exists_trimBlank raw.toList
  obtain ⟨mark, hmark, digits, hcore, hdigits⟩ := exists_mark (trimBlank raw.toList)
  rw [toLowercase, lowerFrom_eq_map [] (ascii_of_decoded hdecoded), hdigits,
    bytesOfHexDigits?_map_toLower] at hdecoded
  obtain ⟨hex, hlength⟩ := bytesOfHexDigits?_eq_some hdecoded
  refine ⟨⟨before, mark, digits, after, hcore ▸ htext, hbefore, hafter, hmark,
    fun d hd => isHexDigit_iff.1 (hex d hd), by rw [hlength, hsize, t.digitCount_eq]⟩, ?_⟩
  rw [Spelling.normal, ← ofList_toList_toHex, toList_toHex_of_bytesOfHexDigits? hdecoded]

theorem normalize_eq_error (h : ¬Nonempty (t.Spelling raw)) :
    t.normalize raw = .error .invalidAppchainAccount := by
  cases hresult : t.normalize raw with
  | ok id =>
      obtain ⟨s, -⟩ := exists_spelling hresult
      exact absurd ⟨s⟩ h
  | error e =>
      simp only [normalize, bind_eq_error_iff, found_eq_error_iff, require_eq_error_iff] at hresult
      obtain ⟨-, rfl⟩ | ⟨bytes, -, ⟨-, rfl⟩ | ⟨u, -, hdone⟩⟩ := hresult
      · rfl
      · rfl
      · cases hdone

theorem IsNormal.normalize_eq (h : t.IsNormal id) : t.normalize id = .ok id := by
  obtain ⟨digits, rfl, hlength, hlower⟩ := h
  have hdigits : ∀ d ∈ digits, isHexDigit d ∧ d.toLower = d :=
    fun d hd => isHexDigit_of_mem_hexDigits (hlower d hd)
  let s : t.Spelling (.ofList ('0' :: 'x' :: digits)) :=
    { before := [], mark := ['0', 'x'], digits, after := []
      text := by rw [String.toList_ofList]; simp
      blankBefore := by simp
      blankAfter := by simp
      optionalMark := by decide
      hex := fun d hd => isHexDigit_iff.1 (hdigits d hd).1
      count := hlength }
  have hself : digits.map Char.toLower = digits :=
    (List.map_congr_left fun d hd => (hdigits d hd).2).trans (List.map_id digits)
  rw [s.normalize_eq, Spelling.normal, hself]

theorem normalize_eq_normalize_iff (h : t.Denotes raw bytes) (h' : t.Denotes raw' bytes') :
    t.normalize raw = t.normalize raw' ↔ bytes = bytes' := by
  obtain ⟨s, hs⟩ := h
  obtain ⟨s', hs'⟩ := h'
  rw [s.normalize_eq, s'.normalize_eq, Spelling.normal, Spelling.normal,
    ← toList_toHex_of_bytesOfHexDigits? hs, ← toList_toHex_of_bytesOfHexDigits? hs']
  constructor
  · intro h
    have htexts := String.ofList_injective (Except.ok.inj h)
    exact toHex_injective (List.cons.inj (List.cons.inj htexts).2).2
  · rintro rfl
    rfl

/-- Texts with the same normal text spell the same bytes. -/
theorem denotes_of_normalize (h : t.normalize raw = .ok id) (h' : t.normalize raw' = .ok id) :
    ∃ bytes, t.Denotes raw bytes ∧ t.Denotes raw' bytes := by
  obtain ⟨s, rfl⟩ := exists_spelling h
  obtain ⟨s', -⟩ := exists_spelling h'
  obtain ⟨bytes, hbytes, -⟩ := s.exists_bytes
  obtain ⟨bytes', hbytes', -⟩ := s'.exists_bytes
  obtain rfl := (normalize_eq_normalize_iff ⟨s, hbytes⟩ ⟨s', hbytes'⟩).1 (h.trans h'.symm)
  exact ⟨bytes, ⟨s, hbytes⟩, ⟨s', hbytes'⟩⟩

end Template

/-- An identity that a validator has is refused to whoever asks for it. -/
theorem Ledger.registerValidator_eq_duplicate {l : Ledger} {settings : ProtocolSettings}
    {r : Registration} {era : UInt64} {v : Validator} (hv : v ∈ l.validators)
    (same : t.normalize r.appchainId = .ok v.appchainId)
    (enough : settings.minimumValidatorDeposit ≤ r.amount) :
    l.registerValidator settings t r era = .error .duplicateValidator := by
  have htaken : ¬∀ x ∈ l.validators, x.appchainId ≠ v.appchainId := fun h => h v hv rfl
  rw [registerValidator, bind_eq_error_iff]
  refine .inr ⟨(), require_eq_ok_iff.2 enough, bind_eq_error_iff.2 ?_⟩
  by_cases new : l.validator? r.validator = none
  · exact .inr ⟨(), require_eq_ok_iff.2 new, bind_eq_error_iff.2 (.inr ⟨_, same,
      bind_eq_error_iff.2 (.inl (require_eq_error_iff.2 ⟨htaken, rfl⟩))⟩)⟩
  · exact .inl (require_eq_error_iff.2 ⟨new, rfl⟩)

/-- A text is normalized exactly if it spells an identity, and otherwise refused as invalid. The
normal text tells nothing but the bytes, so an identity that a validator has cannot be registered
again in any spelling. -/
theorem Template.normalize_exact_and_canonical (t : Template) (raw : String) :
    (∀ id, t.normalize raw = .ok id ↔ ∃ s : t.Spelling raw, id = s.normal) ∧
      (¬Nonempty (t.Spelling raw) → t.normalize raw = .error .invalidAppchainAccount) ∧
      (∀ id, t.normalize raw = .ok id → t.normalize id = .ok id ∧
        ∃ bytes, t.Denotes raw bytes ∧ t.Denotes id bytes) ∧
      (∀ raw' bytes bytes', t.Denotes raw bytes → t.Denotes raw' bytes' →
        (t.normalize raw = t.normalize raw' ↔ bytes = bytes')) ∧
      ∀ (ops : List LedgerOperation) (v : Validator),
        v ∈ (({} : Ledger).run t ops).validators →
          (∃ bytes, t.Denotes v.appchainId bytes) ∧
          ∀ (bytes : List UInt8) (settings : ProtocolSettings) (r : Registration) (era : UInt64),
            t.Denotes v.appchainId bytes → t.Denotes raw bytes → r.appchainId = raw →
              settings.minimumValidatorDeposit ≤ r.amount →
                (({} : Ledger).run t ops).registerValidator settings t r era =
                  .error .duplicateValidator := by
  refine ⟨fun id => ⟨exists_spelling, ?_⟩, normalize_eq_error, fun id h => ?_,
    fun raw' bytes bytes' => normalize_eq_normalize_iff, fun ops v hv => ?_⟩
  · rintro ⟨s, rfl⟩
    exact s.normalize_eq
  · have hself := (isNormal_of_normalize h).normalize_eq
    exact ⟨hself, denotes_of_normalize h hself⟩
  · have hself := ((Ledger.always_wellFormed t ops).normal v hv).normalize_eq
    refine ⟨(denotes_of_normalize hself hself).imp fun _ h => h.1, ?_⟩
    rintro bytes settings r era hbound hraw rfl enough
    refine Ledger.registerValidator_eq_duplicate hv ?_ enough
    rw [(normalize_eq_normalize_iff hraw hbound).2 rfl, hself]

namespace SampleIdentity

def holder : AccountId := ⟨List.replicate 32 61, rfl⟩

def rival : AccountId := ⟨List.replicate 32 62, rfl⟩

def kept : String := "0xabcdef00abcdef00abcdef00abcdef00abcdef00"

def shouted : String := "\u3000 0XABCDEF00ABCDEF00abcdef00abcdef00abcdef00\n"

def spelling : Template.barnacleEvm.Spelling shouted where
  before := ['\u3000', ' ']
  mark := ['0', 'X']
  digits := "ABCDEF00ABCDEF00abcdef00abcdef00abcdef00".toList
  after := ['\n']
  text := by decide
  blankBefore := List.all_eq_true.1 (by decide)
  blankAfter := List.all_eq_true.1 (by decide)
  optionalMark := by decide
  hex d hd := isHexDigit_iff.1 (List.all_eq_true.1 (by decide) d hd)
  count := by decide

def operations : List LedgerOperation :=
  [.act {} 0 holder (.registerValidator kept 5000 true .empty)]

end SampleIdentity

open SampleIdentity in
theorem Template.normalize_exact_and_canonical_shouted :
    barnacleEvm.normalize shouted = .ok kept ∧ barnacleEvm.normalize kept = .ok kept ∧
      (({} : Ledger).run .barnacleEvm operations).registerValidator {} .barnacleEvm
        ⟨rival, shouted, 9000, false, .empty⟩ 3 = .error .duplicateValidator := by
  obtain ⟨hexact, -, hself, -, htaken⟩ := normalize_exact_and_canonical barnacleEvm shouted
  have haccepted : barnacleEvm.normalize shouted = .ok kept :=
    (hexact kept).2 ⟨spelling, by decide⟩
  obtain ⟨hkept, bytes, hshouted, hbytes⟩ := hself kept haccepted
  obtain ⟨v, hv, hid⟩ : ∃ v ∈ (({} : Ledger).run .barnacleEvm operations).validators,
      v.appchainId = kept := by
    decide +kernel
  refine ⟨haccepted, hkept, ?_⟩
  exact (htaken operations v hv).2 bytes {} ⟨rival, shouted, 9000, false, .empty⟩ 3 (hid ▸ hbytes)
    hshouted rfl (by decide)

end AppchainStaking
