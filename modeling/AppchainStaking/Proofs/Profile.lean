import AppchainStaking.Profile
import Mathlib.Data.List.Perm.Subperm

/-!
# A profile does not depend on the order of its entries

Entries with different keys, put into their places one after the other, make the same profile in
whatever order they come. A repeated key shows in the size of the profile.
-/

namespace AppchainStaking.Profile

variable {e : ProfileEntry} {xs es es' : List ProfileEntry}

theorem insertEntry_perm (h : ∀ x ∈ xs, e.key ≠ x.key) : (insertEntry e xs).Perm (e :: xs) := by
  induction xs with
  | nil => exact .refl _
  | cons x xs ih =>
      obtain ⟨hx, hxs⟩ := List.forall_mem_cons.1 h
      unfold insertEntry
      rw [if_neg hx]
      split
      · exact .refl _
      · exact ((ih hxs).cons x).trans (.swap e x xs)

/-- Entries with new keys are added to those that are there. -/
theorem entries_foldl_insert_perm (p : Profile) (es : List ProfileEntry)
    (h : ((p.entries ++ es).map (·.key)).Nodup) :
    (es.foldl insert p).entries.Perm (p.entries ++ es) := by
  induction es generalizing p with
  | nil => rw [List.foldl_nil, List.append_nil]
  | cons e es ih =>
      have hmiddle : (p.entries ++ e :: es).Perm (e :: p.entries ++ es) := List.perm_middle
      have hnodup : ((e :: p.entries ++ es).map (·.key)).Nodup :=
        (hmiddle.map ProfileEntry.key).nodup_iff.1 h
      have hnew : ∀ x ∈ p.entries, e.key ≠ x.key := by
        intro x hx heq
        refine (List.nodup_cons.1 hnodup).1 ?_
        exact List.mem_map.2 ⟨x, List.mem_append_left es hx, heq.symm⟩
      have hinsert : ((p.insert e).entries ++ es).Perm (e :: p.entries ++ es) :=
        (insertEntry_perm hnew).append_right es
      have hrest := ih (p.insert e) ((hinsert.map ProfileEntry.key).nodup_iff.2 hnodup)
      exact (hrest.trans hinsert).trans hmiddle.symm

theorem nodup_keys (p : Profile) : (p.entries.map (·.key)).Nodup := by
  rw [List.Nodup, List.pairwise_map]
  refine p.sorted.imp fun {a b} hlt heq => ?_
  rw [heq] at hlt
  exact String.lt_irrefl _ hlt

/-- The entries of a profile, in any order, make the profile. -/
theorem ofEntries_of_perm {p : Profile} (h : es.Perm p.entries) : ofEntries es = p := by
  have hnodup : (es.map (·.key)).Nodup := (h.map ProfileEntry.key).nodup_iff.2 p.nodup_keys
  have hperm : (ofEntries es).entries.Perm p.entries :=
    (entries_foldl_insert_perm empty es hnodup).trans h
  have heq : (ofEntries es).entries = p.entries := by
    refine hperm.eq_of_pairwise (fun a b _ _ hab hba => ?_) (ofEntries es).sorted p.sorted
    exact absurd (String.lt_trans hab hba) (String.lt_irrefl _)
  cases p
  cases hp : ofEntries es
  rw [hp] at heq
  cases heq
  rfl

theorem mem_of_mem_foldl_insert {p : Profile} (h : e ∈ (es.foldl insert p).entries) :
    e ∈ p.entries ∨ e ∈ es := by
  induction es generalizing p with
  | nil => exact .inl h
  | cons x es ih =>
      rcases ih h with hinserted | hrest
      · rcases mem_insertEntry hinserted with rfl | hp
        · exact .inr List.mem_cons_self
        · exact .inl hp
      · exact .inr (List.mem_cons_of_mem x hrest)

theorem ofEntries_perm (h : (es.map (·.key)).Nodup) : (ofEntries es).entries.Perm es :=
  entries_foldl_insert_perm empty es h

/-- No entry is lost exactly if no key is repeated. -/
theorem length_ofEntries_eq_iff :
    (ofEntries es).entries.length = es.length ↔ (es.map (·.key)).Nodup := by
  constructor
  · intro hlength
    have hkeys := (ofEntries es).nodup_keys
    have hsubset : (ofEntries es).entries.map (·.key) ⊆ es.map (·.key) := by
      refine List.map_subset _ fun x hx => ?_
      exact (mem_of_mem_foldl_insert hx).resolve_left List.not_mem_nil
    have hperm : ((ofEntries es).entries.map (·.key)).Perm (es.map (·.key)) := by
      refine (hkeys.subperm hsubset).perm_of_length_le (Nat.le_of_eq ?_)
      rw [List.length_map, List.length_map, hlength]
    exact hperm.nodup_iff.1 hkeys
  · exact fun h => (ofEntries_perm h).length_eq

theorem ofEntries_congr (hperm : es.Perm es') (h : (es.map (·.key)).Nodup) :
    ofEntries es = ofEntries es' := by
  have h' : (es'.map (·.key)).Nodup := (hperm.map ProfileEntry.key).nodup_iff.1 h
  exact ofEntries_of_perm (hperm.trans (ofEntries_perm h').symm)

end AppchainStaking.Profile
