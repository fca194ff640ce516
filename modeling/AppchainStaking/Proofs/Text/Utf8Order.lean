/-!
# The order of texts in UTF-8

UTF-8 writes a character as a leading byte and some continuation bytes. The leading byte tells how
many there are, and grows with their number. So the bytes of two texts stand in the order in which
their code points do.
-/

namespace AppchainStaking.Utf8

def continuations (v : Nat) : Nat :=
  if v ≤ 0x7F then 0 else if v ≤ 0x7FF then 1 else if v ≤ 0xFFFF then 2 else 3

/-- The bits of a code point above its last `k` bytes, each of which takes six. -/
def upper : Nat → Nat → Nat
  | 0, v => v
  | k + 1, v => upper k (v / 64)

def tail : Nat → Nat → List UInt8
  | 0, _ => []
  | k + 1, v => tail k (v / 64) ++ [.ofNat (v % 64 + 128)]

/-- The leading byte of a code point: its upper bits behind the mark of their number. -/
def lead (v : Nat) : Nat :=
  if v ≤ 0x7F then v
  else if v ≤ 0x7FF then upper 1 v + 192
  else if v ≤ 0xFFFF then upper 2 v + 224
  else upper 3 v + 240

theorem codePoint_lt (c : Char) : c.val.toNat < 0x110000 := by
  rcases c.valid with h | h <;> omega

theorem utf8EncodeChar_eq (c : Char) :
    String.utf8EncodeChar c =
      .ofNat (lead c.val.toNat) :: tail (continuations c.val.toNat) c.val.toNat := by
  have hvalid := codePoint_lt c
  have hmiddle : c.val.toNat / 4096 = c.val.toNat / 64 / 64 := by
    rw [Nat.div_div_eq_div_mul]
  simp only [String.utf8EncodeChar, lead, continuations, upper]
  split
  · rfl
  split
  · have hlead : c.val.toNat / 64 % 32 = c.val.toNat / 64 := by omega
    rw [hlead]
    rfl
  split
  · have hlead : c.val.toNat / 4096 % 16 = c.val.toNat / 64 / 64 := by omega
    rw [hlead]
    rfl
  · have hlead : c.val.toNat / 262144 % 8 = c.val.toNat / 64 / 64 / 64 := by omega
    rw [hlead, hmiddle]
    rfl

/-- The four lengths of a code point. -/
theorem lead_cases (v : Nat) :
    (v ≤ 0x7F ∧ lead v = v ∧ continuations v = 0) ∨
      (0x7F < v ∧ v ≤ 0x7FF ∧ lead v = v / 64 + 192 ∧ continuations v = 1) ∨
      (0x7FF < v ∧ v ≤ 0xFFFF ∧ lead v = v / 64 / 64 + 224 ∧ continuations v = 2) ∨
      (0xFFFF < v ∧ lead v = v / 64 / 64 / 64 + 240 ∧ continuations v = 3) := by
  simp only [lead, continuations, upper]
  split
  · omega
  split
  · omega
  split <;> omega

theorem lead_lt_size {v : Nat} (h : v < 0x110000) : lead v < 256 := by
  have hcases := lead_cases v
  omega

/-- Leading bytes grow with the code point. Code points of the same leading byte are of one length
and have the same upper bits. -/
theorem lead_lt_or_eq {v w : Nat} (h : v < w) :
    lead v < lead w ∨
      lead v = lead w ∧ continuations v = continuations w ∧
        upper (continuations v) v = upper (continuations v) w := by
  have hcases := lead_cases w
  rcases lead_cases v with ⟨_, hlead, hcount⟩ | ⟨_, _, hlead, hcount⟩ | ⟨_, _, hlead, hcount⟩ |
      ⟨_, hlead, hcount⟩ <;>
    rw [hlead, hcount] <;>
    simp only [upper] <;>
    omega

/-- Under the same upper bits the last bytes decide. -/
theorem tail_append_lt {k v w : Nat} (h : v < w) (hsame : upper k v = upper k w)
    (xs ys : List UInt8) : tail k v ++ xs < tail k w ++ ys := by
  -- By the number of bytes: either those before the last one decide, or the last one does.
  induction k generalizing v w xs ys with
  | zero =>
      simp only [upper] at hsame
      omega
  | succ k ih =>
      simp only [tail, List.append_assoc]
      rcases Nat.lt_or_ge (v / 64) (w / 64) with hlt | hge
      · exact ih hlt hsame _ _
      · have heq : v / 64 = w / 64 := by omega
        rw [heq]
        refine List.append_left_lt (List.cons_lt_cons_iff.2 (.inl ?_))
        have hv : v % 64 + 128 < 256 := by omega
        have hw : w % 64 + 128 < 256 := by omega
        exact (UInt8.ofNat_lt_iff_lt hv hw).2 (by omega)

theorem utf8EncodeChar_append_lt {c d : Char} (h : c < d) (xs ys : List UInt8) :
    String.utf8EncodeChar c ++ xs < String.utf8EncodeChar d ++ ys := by
  have hlt : c.val.toNat < d.val.toNat := h
  rw [utf8EncodeChar_eq, utf8EncodeChar_eq, List.cons_append, List.cons_append,
    List.cons_lt_cons_iff]
  rcases lead_lt_or_eq hlt with hlead | ⟨hlead, hcount, hsame⟩
  · left
    have hc := lead_lt_size (codePoint_lt c)
    have hd := lead_lt_size (codePoint_lt d)
    exact (UInt8.ofNat_lt_iff_lt hc hd).2 hlead
  · right
    rw [hlead, ← hcount]
    exact ⟨rfl, tail_append_lt hlt hsame xs ys⟩

theorem flatMap_utf8EncodeChar_lt {cs ds : List Char} (h : cs < ds) :
    cs.flatMap String.utf8EncodeChar < ds.flatMap String.utf8EncodeChar := by
  induction h with
  | @nil d ds =>
      rw [List.flatMap_cons, utf8EncodeChar_eq]
      exact List.nil_lt_cons _ _
  | rel h => exact utf8EncodeChar_append_lt h _ _
  | cons _ ih => exact List.append_left_lt ih

/-- The bytes of texts stand in the order of the texts. -/
theorem bytes_lt {s t : String} (h : s < t) : s.toUTF8.data.toList < t.toUTF8.data.toList := by
  have hbytes : ∀ s : String, s.toUTF8.data.toList = s.toList.flatMap String.utf8EncodeChar := by
    intro s
    rw [String.toUTF8, ← String.utf8Encode_toList, List.utf8Encode, List.toList_data_toByteArray]
  rw [hbytes, hbytes]
  exact flatMap_utf8EncodeChar_lt (String.lt_iff.1 h)

end AppchainStaking.Utf8
