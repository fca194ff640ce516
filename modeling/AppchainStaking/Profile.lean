import AppchainStaking.Error

/-!
# Validator profiles

A profile is a map from keys to values, listed in increasing order of its keys. Keys are compared
by code points, which is the order of their UTF-8 bytes.
-/

namespace AppchainStaking

structure ProfileEntry where
  key : String
  value : String
  deriving DecidableEq

structure Profile where
  entries : List ProfileEntry
  sorted : entries.Pairwise fun a b => a.key < b.key

namespace Profile

/-- Puts an entry in its place; an entry of the same key is replaced. -/
def insertEntry (e : ProfileEntry) : List ProfileEntry → List ProfileEntry
  | [] => [e]
  | x :: xs =>
      if e.key < x.key then e :: x :: xs
      else if e.key = x.key then e :: xs
      else x :: insertEntry e xs

theorem mem_insertEntry {e y : ProfileEntry} {xs : List ProfileEntry}
    (h : y ∈ insertEntry e xs) : y = e ∨ y ∈ xs := by
  induction xs with
  | nil => simpa [insertEntry] using h
  | cons x xs ih =>
      unfold insertEntry at h
      split at h
      · simpa using h
      · split at h
        · rcases List.mem_cons.1 h with rfl | h
          · exact .inl rfl
          · exact .inr (List.mem_cons_of_mem _ h)
        · rcases List.mem_cons.1 h with rfl | h
          · exact .inr List.mem_cons_self
          · exact (ih h).imp_right (List.mem_cons_of_mem _)

theorem pairwise_insertEntry (e : ProfileEntry) {xs : List ProfileEntry}
    (h : xs.Pairwise fun a b => a.key < b.key) :
    (insertEntry e xs).Pairwise fun a b => a.key < b.key := by
  induction xs with
  | nil => simp [insertEntry]
  | cons x xs ih =>
      obtain ⟨hx, hxs⟩ := List.pairwise_cons.1 h
      unfold insertEntry
      split
      · next hlt =>
          refine List.pairwise_cons.2 ⟨fun y hy => ?_, h⟩
          rcases List.mem_cons.1 hy with rfl | hy
          · exact hlt
          · exact String.lt_trans hlt (hx y hy)
      · next hle =>
          split
          · next heq => exact List.pairwise_cons.2 ⟨fun y hy => heq ▸ hx y hy, hxs⟩
          · next hne =>
              refine List.pairwise_cons.2 ⟨fun y hy => ?_, ih hxs⟩
              rcases mem_insertEntry hy with rfl | hy
              · exact Std.lt_of_le_of_ne (String.not_lt.1 hle) (Ne.symm hne)
              · exact hx y hy

def empty : Profile := ⟨[], .nil⟩

def insert (p : Profile) (e : ProfileEntry) : Profile :=
  ⟨insertEntry e p.entries, pairwise_insertEntry e p.sorted⟩

/-- The map that a list of entries stands for; of a repeated key the last value counts. -/
def ofEntries (entries : List ProfileEntry) : Profile :=
  entries.foldl insert empty

def maximumEntries : Nat := 16

def maximumKeySize : Nat := 32

def maximumValueSize : Nat := 256

def Fits (p : Profile) : Prop :=
  p.entries.length ≤ maximumEntries ∧
    ∀ e ∈ p.entries, e.key.utf8ByteSize ≤ maximumKeySize ∧ e.value.utf8ByteSize ≤ maximumValueSize

instance (p : Profile) : Decidable p.Fits := by
  unfold Fits
  infer_instance

def checked (p : Profile) : Except StakingError (List ProfileEntry) :=
  if p.Fits then .ok p.entries else .error .invalidValue

end Profile

end AppchainStaking
