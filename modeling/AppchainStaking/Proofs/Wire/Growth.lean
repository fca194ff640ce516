import AppchainStaking.Proofs.Wire.RoundTrip

/-!
# How a binary form grows

The size of a binary form is the sum of the sizes of its parts, and a value has a binary form when
the lengths of all its texts and lists fit their fields. A change lets a value grow by at most `k`
when its form takes at most `k` bytes more, and no length in it becomes more than one longer unless
it is short.
-/

namespace AppchainStaking

namespace Wire

def size {α : Type} [Wire α] (a : α) : Nat := (encode a).length

/-- A type with the lengths of all texts, in bytes, and of all lists in a value. Only they can keep
a value from having a binary form. -/
class Measured (α : Type) [Wire α] where
  lengths : α → List Nat
  fits_iff (a : α) : fits a = true ↔ ∀ n ∈ lengths a, n < UInt32.size

variable {α β : Type}

export Measured (lengths fits_iff)

@[reducible] def Measured.ofFits [Wire α] (h : ∀ a : α, fits a = true) : Measured α where
  lengths _ := []
  fits_iff a := by simp [h a]

@[reducible] def Measured.via [Wire β] [Measured β] {make : β → α} {back : α → β} :
    @Measured α (Wire.via make back) :=
  @Measured.mk α (Wire.via make back) (fun a => lengths (back a)) fun a => fits_iff (back a)

instance : Measured UInt8 := .ofFits fun n => decide_eq_true n.toNat_lt_size

instance : Measured UInt16 := .ofFits fun n => decide_eq_true n.toNat_lt_size

instance : Measured UInt64 := .ofFits fits_uint64

instance : Measured Bool := .ofFits fits_bool

instance : Measured AccountId := .ofFits fits_accountId

instance : Measured String where
  lengths s := [s.utf8ByteSize]
  fits_iff s := by
    rw [List.forall_mem_singleton]
    exact decide_eq_true_iff

@[simp] theorem size_uint8 (n : UInt8) : size n = 1 := length_toBytes 1 n.toNat

@[simp] theorem size_uint16 (n : UInt16) : size n = 2 := length_toBytes 2 n.toNat

@[simp] theorem size_uint64 (n : UInt64) : size n = 8 := length_toBytes 8 n.toNat

@[simp] theorem size_int64 (n : Int64) : size n = 8 := length_toBytes 8 n.toUInt64.toNat

@[simp] theorem size_bool (b : Bool) : size b = 1 := rfl

@[simp] theorem size_accountId (a : AccountId) : size a = 32 := a.length_bytes

@[simp] theorem size_string (s : String) : size s = 4 + s.utf8ByteSize := by
  have hlength : s.toUTF8.data.toList.length = s.utf8ByteSize := rfl
  change (toBytes 4 s.utf8ByteSize ++ s.toUTF8.data.toList).length = _
  rw [List.length_append, length_toBytes, hlength]

class FixedSize (α : Type) [Wire α] [Measured α] : Prop where
  size_eq (a a' : α) : size a' = size a
  lengths_eq (a : α) : lengths a = []

instance : FixedSize UInt8 := ⟨fun _ _ => by simp, fun _ => rfl⟩

instance : FixedSize UInt16 := ⟨fun _ _ => by simp, fun _ => rfl⟩

instance : FixedSize UInt64 := ⟨fun _ _ => by simp, fun _ => rfl⟩

instance : FixedSize Bool := ⟨fun _ _ => by simp, fun _ => rfl⟩

instance : FixedSize AccountId := ⟨fun _ _ => by simp, fun _ => rfl⟩

theorem FixedSize.via [Wire β] [Measured β] [FixedSize β] {make : β → α} {back : α → β} :
    @FixedSize α (Wire.via make back) .via :=
  @FixedSize.mk α (Wire.via make back) .via (fun a a' => FixedSize.size_eq (back a) (back a'))
    fun a => FixedSize.lengths_eq (back a)

section Parts

variable [Wire α] [Wire β]

@[simp] theorem size_pair (a : α) (b : β) : size (a, b) = size a + size b :=
  List.length_append

@[simp] theorem size_none : size (none : Option α) = 1 := rfl

@[simp] theorem size_some (a : α) : size (some a) = 1 + size a :=
  Nat.add_comm _ _

@[simp] theorem size_nil : size ([] : List α) = 4 := rfl

@[simp] theorem size_cons (a : α) (as : List α) : size (a :: as) = size a + size as := by
  have hsize (as : List α) : size as = 4 + (as.flatMap encode).length := by
    change (toBytes 4 as.length ++ as.flatMap encode).length = _
    rw [List.length_append, length_toBytes]
  rw [hsize, hsize, List.flatMap_cons, List.length_append]
  exact Nat.add_left_comm _ _ _

theorem size_append (as as' : List α) : size (as ++ as') + 4 = size as + size as' := by
  induction as with
  | nil => exact Nat.add_comm _ _
  | cons a as ih =>
      rw [List.cons_append, size_cons, size_cons]
      omega

theorem size_list_le_of_sublist {as as' : List α} (h : as'.Sublist as) : size as' ≤ size as := by
  induction h with
  | slnil => exact Nat.le_refl _
  | cons a _ ih => exact Nat.le_trans ih (by simp)
  | cons_cons a _ ih => simpa using ih

theorem size_list_le {as : List α} {n : Nat} (h : ∀ a ∈ as, size a ≤ n) :
    size as ≤ 4 + as.length * n := by
  induction as with
  | nil => exact Nat.le_add_right _ _
  | cons a as ih =>
      obtain ⟨ha, has⟩ := List.forall_mem_cons.1 h
      rw [size_cons, List.length_cons, Nat.succ_mul]
      have hrest := ih has
      omega

variable [Measured α] [Measured β]

instance : Measured (α × β) where
  lengths p := lengths p.1 ++ lengths p.2
  fits_iff p := by
    rw [List.forall_mem_append, ← fits_iff, ← fits_iff]
    exact Bool.and_eq_true_iff

instance : Measured (Option α) where
  lengths x := x.toList.flatMap lengths
  fits_iff x := by
    cases x with
    | none => exact iff_of_true rfl (by simp)
    | some a =>
        rw [Option.toList_some, List.flatMap_singleton]
        exact fits_iff a

instance : Measured (List α) where
  lengths as := as.length :: as.flatMap lengths
  fits_iff as := by
    have hall : as.all fits = true ↔ ∀ n ∈ as.flatMap lengths, n < UInt32.size := by
      simp only [List.all_eq_true, List.mem_flatMap, fits_iff]
      constructor
      · rintro h n ⟨a, ha, hn⟩
        exact h a ha n hn
      · exact fun h a ha n hn => h n ⟨a, ha, hn⟩
    rw [List.forall_mem_cons, ← hall]
    exact Bool.and_eq_true_iff.trans (and_congr_left' decide_eq_true_iff)

instance [FixedSize α] [FixedSize β] : FixedSize (α × β) where
  size_eq p p' := by
    rw [size_pair, size_pair, FixedSize.size_eq p.1 p'.1, FixedSize.size_eq p.2 p'.2]
  lengths_eq p := by
    change lengths p.1 ++ lengths p.2 = []
    rw [FixedSize.lengths_eq, FixedSize.lengths_eq]
    rfl

end Parts

def shortLength : Nat := 1024

def Short [Wire α] [Measured α] (a : α) : Prop := ∀ n ∈ lengths a, n ≤ shortLength

/-- A change from `a` to `a'` takes at most `k` more bytes, and no length becomes more than one
longer unless it is short. -/
structure Grows [Wire α] [Measured α] (k : Nat) (a a' : α) : Prop where
  size : size a' ≤ size a + k
  lengths : ∀ n ∈ lengths a', n ≤ shortLength ∨ ∃ m ∈ lengths a, n ≤ m + 1

namespace Grows

variable {j k : Nat} {a a' : α} {b b' : β} {as as' : List α}

theorem via [Wire β] [Measured β] {make : β → α} {back : α → β}
    (h : Grows j (back a) (back a')) (hjk : j ≤ k) : @Grows α (Wire.via make back) .via k a a' :=
  @Grows.mk α (Wire.via make back) .via k a a' (Nat.le_trans h.size (Nat.add_le_add_left hjk _))
    h.lengths

variable [Wire α] [Measured α] [Wire β] [Measured β]

theorem mono (h : Grows j a a') (hjk : j ≤ k) : Grows k a a' :=
  ⟨Nat.le_trans h.size (Nat.add_le_add_left hjk _), h.lengths⟩

theorem of_eq (h : a' = a) : Grows k a a' := by
  subst h
  exact ⟨Nat.le_add_right _ _, fun n hn => .inr ⟨n, hn, Nat.le_succ n⟩⟩

theorem fixed [FixedSize α] (a a' : α) : Grows 0 a a' where
  size := Nat.le_of_eq (FixedSize.size_eq a a')
  lengths n hn := by
    rw [FixedSize.lengths_eq] at hn
    cases hn

theorem of_short (hsize : Wire.size a' ≤ Wire.size a + k) (hshort : Short a') : Grows k a a' :=
  ⟨hsize, fun n hn => .inl (hshort n hn)⟩

theorem pair (ha : Grows j a a') (hb : Grows k b b') : Grows (j + k) (a, b) (a', b') where
  size := by
    have hj := ha.size
    have hk := hb.size
    rw [size_pair, size_pair]
    omega
  lengths n hn := by
    rcases List.mem_append.1 hn with hn | hn
    · exact (ha.lengths n hn).imp_right fun ⟨m, hm, h⟩ => ⟨m, List.mem_append_left _ hm, h⟩
    · exact (hb.lengths n hn).imp_right fun ⟨m, hm, h⟩ => ⟨m, List.mem_append_right _ hm, h⟩

theorem list (hsize : Wire.size as' ≤ Wire.size as + k) (hlength : as'.length ≤ as.length + 1)
    (hmem : ∀ a' ∈ as', Short a' ∨ ∃ a ∈ as, Grows k a a') : Grows k as as' where
  size := hsize
  lengths n hn := by
    rcases List.mem_cons.1 hn with rfl | hn
    · exact .inr ⟨as.length, List.mem_cons_self, hlength⟩
    · obtain ⟨a', ha', hn⟩ := List.mem_flatMap.1 hn
      rcases hmem a' ha' with hshort | ⟨a, ha, hgrows⟩
      · exact .inl (hshort n hn)
      · refine (hgrows.lengths n hn).imp_right ?_
        rintro ⟨m, hm, hnm⟩
        exact ⟨m, List.mem_cons_of_mem _ (List.mem_flatMap.2 ⟨a, ha, hm⟩), hnm⟩

theorem concat (h : Short a) : Grows (Wire.size a) as (as ++ [a]) := by
  have hsize := size_append as [a]
  rw [size_cons, size_nil] at hsize
  refine list (by omega) (by simp) fun x hx => ?_
  rcases List.mem_append.1 hx with hx | hx
  · exact .inr ⟨x, hx, of_eq rfl⟩
  · rw [List.mem_singleton.1 hx]
    exact .inl h

theorem sublist (h : as'.Sublist as) : Grows 0 as as' := by
  exact list (size_list_le_of_sublist h) (Nat.le_succ_of_le h.length_le) fun x hx =>
    .inr ⟨x, h.subset hx, of_eq rfl⟩

theorem replace {before after : List α} (h : Grows k a a') :
    Grows k (before ++ a :: after) (before ++ a' :: after) := by
  have hsize := h.size
  refine list ?_ (by simp) fun x hx => .inr ?_
  · have hold := size_append before (a :: after)
    have hnew := size_append before (a' :: after)
    rw [size_cons] at hold hnew
    omega
  · rcases List.mem_append.1 hx with hx | hx
    · exact ⟨x, List.mem_append_left _ hx, of_eq rfl⟩
    rcases List.mem_cons.1 hx with rfl | hx
    · exact ⟨a, by simp, h⟩
    · exact ⟨x, by simp [hx], of_eq rfl⟩

theorem updateFirst {p : α → Bool} {f : α → α} (h : ∀ x, Grows k x (f x)) :
    Grows k as (updateFirst p f as) := by
  rcases updateFirst_cases p f as with hsame | ⟨before, x, after, rfl, hupdate⟩
  · exact of_eq hsame
  · rw [hupdate]
    exact replace (h x)

theorem map {f : α → α}
    (h : ∀ x, Wire.size (f x) = Wire.size x ∧ Measured.lengths (f x) = Measured.lengths x) :
    Grows 0 as (as.map f) := by
  refine list (Nat.le_of_eq ?_) (by simp) fun x hx => ?_
  · induction as with
    | nil => rfl
    | cons a as ih =>
        rw [List.map_cons, size_cons, size_cons, (h a).1, ih]
        rfl
  · obtain ⟨y, hy, rfl⟩ := List.mem_map.1 hx
    refine .inr ⟨y, hy, Nat.le_of_eq (h y).1, fun n hn => .inr ⟨n, ?_, Nat.le_succ n⟩⟩
    rwa [(h y).2] at hn

end Grows

/-- Every length in the value could be one longer, and the value would still have a form. -/
def Extensible [Wire α] [Measured α] (a : α) : Prop := ∀ n ∈ lengths a, n < UInt32.size - 1

instance [Wire α] [Measured α] (a : α) : Decidable (Extensible a) := by
  unfold Extensible
  infer_instance

theorem Extensible.fits [Wire α] [Measured α] {a : α} (h : Extensible a) : fits a = true :=
  (fits_iff a).2 fun n hn => Nat.lt_of_lt_of_le (h n hn) (Nat.sub_le _ _)

theorem Grows.fits [Wire α] [Measured α] {k : Nat} {a a' : α} (h : Grows k a a')
    (hextensible : Extensible a) : fits a' = true := by
  have hshort : shortLength < UInt32.size := by decide
  refine (fits_iff a').2 fun n hn => ?_
  rcases h.lengths n hn with hle | ⟨m, hm, hle⟩
  · omega
  · have hlt := hextensible m hm
    omega

end Wire

namespace Stored

variable {α : Type} [Stored α]

structure FitsIn (a : α) (space : Nat) : Prop where
  fits : Wire.fits a = true
  space : (bytes a).length ≤ space

theorem length_bytes [LawfulStored α] (a : α) : (bytes a).length = markSize + Wire.size a := by
  rw [bytes, List.length_append, LawfulStored.length_mark]
  rfl

theorem FitsIn.store? {a : α} {data : Bytes} (h : FitsIn a data.length) :
    ∃ data', Stored.store? a data = some data' :=
  ⟨_, if_pos ⟨h.fits, h.space⟩⟩

end Stored

end AppchainStaking
