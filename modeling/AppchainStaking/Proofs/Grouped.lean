import AppchainStaking.Grouped
import Mathlib.Data.List.Nodup

/-!
# Groups are unique

An account has at most one group, and adding and dropping items keeps it so. On such a list
dropping leaves an account exactly its items that were not dropped, in their order. On every list
adding puts in one item, and dropping takes out just the items dropped.
-/

namespace AppchainStaking.Grouped

variable {α : Type} {gs : Grouped α} {a : AccountId}

def Unique (gs : Grouped α) : Prop := (gs.map (·.account)).Nodup

theorem unique_nil : Unique ([] : Grouped α) := .nil

theorem of_eq_nil_of_notMem (h : a ∉ gs.map (·.account)) : gs.of a = [] := by
  induction gs with
  | nil => rfl
  | cons g gs ih =>
      obtain ⟨hg, hgs⟩ := not_or.1 (mt List.mem_cons.2 h)
      simp [of, Ne.symm hg, ih hgs]

theorem mem_accounts_push {b : AccountId} {x : α} (h : b ∈ (gs.push a x).map (·.account)) :
    b = a ∨ b ∈ gs.map (·.account) := by
  induction gs with
  | nil => simpa [push] using h
  | cons g gs ih =>
      by_cases hg : g.account = a
      · subst hg
        simp only [push, if_true] at h
        exact .inr h
      · simp only [push, hg, if_false, List.map_cons, List.mem_cons] at h
        rcases h with rfl | h
        · exact .inr List.mem_cons_self
        · exact (ih h).imp_right (List.mem_cons_of_mem _)

theorem Unique.push (h : gs.Unique) (a : AccountId) (x : α) : (gs.push a x).Unique := by
  induction gs with
  | nil => simp [Grouped.push, Unique]
  | cons g gs ih =>
      obtain ⟨hg, hgs⟩ := List.nodup_cons.1 h
      by_cases hga : g.account = a
      · subst hga
        simp only [Grouped.push, if_true]
        exact h
      · simp only [Grouped.push, hga, if_false]
        refine List.nodup_cons.2 ⟨fun hmem => ?_, ih hgs⟩
        exact (mem_accounts_push hmem).elim hga hg

theorem accounts_drop_sublist (p : α → Bool) (gs : Grouped α) (a : AccountId) :
    ((drop p gs a).map (·.account)).Sublist (gs.map (·.account)) := by
  induction gs with
  | nil => exact .slnil
  | cons g gs ih =>
      by_cases hg : g.account = a
      · subst hg
        simp only [drop, if_true]
        split
        · exact .cons _ (.refl _)
        · exact .refl _
      · simp only [drop, hg, if_false]
        exact ih.cons_cons _

theorem Unique.drop (h : gs.Unique) (p : α → Bool) (a : AccountId) : (Grouped.drop p gs a).Unique :=
  h.sublist (accounts_drop_sublist p gs a)

def Single (gs : Grouped α) (a : AccountId) : Prop := (gs.map (·.account)).count a ≤ 1

theorem Unique.single (h : gs.Unique) (a : AccountId) : gs.Single a :=
  List.nodup_iff_count_le_one.1 h a

theorem Single.drop (h : gs.Single a) (p : α → Bool) : (Grouped.drop p gs a).Single a :=
  Nat.le_trans ((accounts_drop_sublist p gs a).count_le a) h

theorem of_drop_self (h : gs.Single a) (p : α → Bool) :
    (drop p gs a).of a = (gs.of a).filter (!p ·) := by
  induction gs with
  | nil => rfl
  | cons g gs ih =>
      rw [Single, List.map_cons] at h
      by_cases hga : g.account = a
      · subst hga
        rw [List.count_cons_self] at h
        have hg : g.account ∉ gs.map (·.account) := List.count_eq_zero.1 (by omega)
        simp only [drop, of, if_true]
        split
        · next hnil => rw [hnil, of_eq_nil_of_notMem hg]
        · next => simp [of]
      · rw [List.count_cons_of_ne hga] at h
        simp only [drop, of, hga, if_false]
        exact ih h

def Filled (gs : Grouped α) : Prop := ∀ g ∈ gs, g.items ≠ []

theorem filled_nil : Filled ([] : Grouped α) := List.forall_mem_nil _

theorem Filled.push (h : gs.Filled) (a : AccountId) (x : α) : (gs.push a x).Filled := by
  induction gs with
  | nil => exact List.forall_mem_singleton.2 (List.cons_ne_nil x [])
  | cons g gs ih =>
      obtain ⟨hg, hgs⟩ := List.forall_mem_cons.1 h
      by_cases hga : g.account = a
      · rw [Grouped.push, if_pos hga]
        have hitems := List.append_ne_nil_of_right_ne_nil g.items (List.cons_ne_nil x [])
        exact List.forall_mem_cons.2 ⟨hitems, hgs⟩
      · rw [Grouped.push, if_neg hga]
        exact List.forall_mem_cons.2 ⟨hg, ih hgs⟩

theorem Filled.drop (h : gs.Filled) (p : α → Bool) (a : AccountId) :
    (Grouped.drop p gs a).Filled := by
  induction gs with
  | nil => exact filled_nil
  | cons g gs ih =>
      obtain ⟨hg, hgs⟩ := List.forall_mem_cons.1 h
      by_cases hga : g.account = a
      · rw [Grouped.drop, if_pos hga]
        split
        · exact hgs
        · next kept => exact List.forall_mem_cons.2 ⟨kept, hgs⟩
      · rw [Grouped.drop, if_neg hga]
        exact List.forall_mem_cons.2 ⟨hg, ih hgs⟩

/-- An item is added in a group of its own at the end, or in one of the groups. -/
theorem push_cases (gs : Grouped α) (a : AccountId) (x : α) :
    gs.push a x = gs ++ [⟨a, [x]⟩] ∨
      ∃ before g after, gs = before ++ g :: after ∧
        gs.push a x = before ++ { g with items := g.items ++ [x] } :: after := by
  induction gs with
  | nil => exact .inl rfl
  | cons g gs ih =>
      by_cases hg : g.account = a
      · exact .inr ⟨[], g, gs, rfl, by rw [push, if_pos hg]; rfl⟩
      · rw [push, if_neg hg]
        rcases ih with hnew | ⟨before, g', after, hgs, hpush⟩
        · exact .inl (by rw [hnew]; rfl)
        · exact .inr ⟨g :: before, g', after, by rw [hgs]; rfl, by rw [hpush]; rfl⟩

/-- Items are dropped from one of the groups, which itself goes if nothing is left of it. -/
theorem drop_cases (p : α → Bool) (gs : Grouped α) (a : AccountId) :
    drop p gs a = gs ∨
      ∃ before g after, gs = before ++ g :: after ∧
        (drop p gs a = before ++ after ∨
          drop p gs a = before ++ { g with items := g.items.filter (!p ·) } :: after) := by
  induction gs with
  | nil => exact .inl rfl
  | cons g gs ih =>
      by_cases hg : g.account = a
      · refine .inr ⟨[], g, gs, rfl, ?_⟩
        rw [drop, if_pos hg]
        split
        · exact .inl rfl
        · exact .inr rfl
      · rw [drop, if_neg hg]
        rcases ih with hsame | ⟨before, g', after, hgs, hdrop⟩
        · exact .inl (by rw [hsame])
        · refine .inr ⟨g :: before, g', after, by rw [hgs]; rfl, ?_⟩
          exact hdrop.imp (by intro h; rw [h]; rfl) (by intro h; rw [h]; rfl)

/-- It does not matter which of two accounts is dropped from first. -/
theorem drop_comm (p q : α → Bool) (gs : Grouped α) {a b : AccountId} (h : a ≠ b) :
    drop q (drop p gs a) b = drop p (drop q gs b) a := by
  induction gs with
  | nil => rfl
  | cons g gs ih =>
      by_cases ha : g.account = a
      · subst ha
        simp only [drop, h, if_true, if_false]
        split
        · rfl
        · simp only [drop, h, if_false]
      · by_cases hb : g.account = b
        · subst hb
          simp only [drop, ha, if_true, if_false]
          split
          · rfl
          · simp only [drop, ha, if_false]
        · simp only [drop, ha, hb, if_false, ih]

def pairs (gs : Grouped α) : List (AccountId × α) :=
  gs.flatMap fun g => g.items.map (g.account, ·)

theorem pairs_cons (g : Group α) (gs : Grouped α) :
    pairs (g :: gs) = g.items.map (g.account, ·) ++ gs.pairs := by
  rfl

theorem mem_pairs_of_mem {x : α} (h : x ∈ gs.of a) : (a, x) ∈ gs.pairs := by
  induction gs with
  | nil => cases h
  | cons g gs ih =>
      rw [pairs_cons, List.mem_append]
      by_cases hg : g.account = a
      · subst hg
        rw [of, if_pos rfl] at h
        exact .inl (List.mem_map_of_mem h)
      · rw [of, if_neg hg] at h
        exact .inr (ih h)

theorem pairs_push_perm (gs : Grouped α) (a : AccountId) (x : α) :
    (gs.push a x).pairs.Perm ((a, x) :: gs.pairs) := by
  induction gs with
  | nil => exact .refl _
  | cons g gs ih =>
      by_cases hg : g.account = a
      · subst hg
        simp only [push, if_true, pairs_cons, List.map_append, List.append_assoc]
        exact List.perm_middle
      · simp only [push, hg, if_false, pairs_cons]
        exact (ih.append_left _).trans List.perm_middle

/-- What is dropped and what is left are together what was there. -/
theorem pairs_drop_perm (p : α → Bool) (gs : Grouped α) (a : AccountId) :
    ((drop p gs a).pairs ++ ((gs.of a).filter p).map (a, ·)).Perm gs.pairs := by
  induction gs with
  | nil => exact .refl _
  | cons g gs ih =>
      by_cases hg : g.account = a
      · subst hg
        have hdrop : (drop p (g :: gs) g.account).pairs =
            (g.items.filter (!p ·)).map (g.account, ·) ++ pairs gs := by
          simp only [drop, if_true]
          split
          · next hnil => rw [hnil, List.map_nil, List.nil_append]
          · rfl
        have hitems : ((g.items.filter (!p ·)).map (g.account, ·) ++
            (g.items.filter p).map (g.account, ·)).Perm (g.items.map (g.account, ·)) := by
          rw [← List.map_append]
          exact (List.perm_append_comm.trans (List.filter_append_perm p g.items)).map _
        rw [hdrop, pairs_cons, of, if_pos rfl, List.append_assoc]
        refine (List.perm_append_comm.append_left _).trans ?_
        rw [← List.append_assoc]
        exact hitems.append_right _
      · simp only [drop, of, hg, if_false, pairs_cons, List.append_assoc]
        exact ih.append_left _

/-- Nobody gains an item when items are dropped. -/
theorem pairs_drop_sublist (p : α → Bool) (gs : Grouped α) (a : AccountId) :
    (drop p gs a).pairs.Sublist gs.pairs := by
  induction gs with
  | nil => exact .refl _
  | cons g gs ih =>
      by_cases hg : g.account = a
      · subst hg
        simp only [drop, if_true]
        split
        · rw [pairs_cons]
          exact List.sublist_append_right _ _
        · rw [pairs_cons, pairs_cons]
          exact (List.filter_sublist.map _).append_right _
      · simp only [drop, hg, if_false, pairs_cons]
        exact ih.append_left _

end AppchainStaking.Grouped
