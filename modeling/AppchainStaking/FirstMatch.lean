/-!
# Changing the first match of a list
-/

namespace AppchainStaking

variable {α : Type}

def updateFirst (p : α → Bool) (f : α → α) : List α → List α
  | [] => []
  | x :: xs => if p x then f x :: xs else x :: updateFirst p f xs

@[simp] theorem length_updateFirst (p : α → Bool) (f : α → α) (xs : List α) :
    (updateFirst p f xs).length = xs.length := by
  induction xs with
  | nil => rfl
  | cons x xs ih => by_cases h : p x <;> simp [updateFirst, h, ih]

/-- There is nothing to update, or one element is replaced. -/
theorem updateFirst_cases (p : α → Bool) (f : α → α) (xs : List α) :
    updateFirst p f xs = xs ∨
      ∃ before x after, xs = before ++ x :: after ∧
        updateFirst p f xs = before ++ f x :: after := by
  induction xs with
  | nil => exact .inl rfl
  | cons x xs ih =>
      by_cases h : p x
      · exact .inr ⟨[], x, xs, rfl, by rw [updateFirst, if_pos h]; rfl⟩
      · rw [updateFirst, if_neg h]
        rcases ih with hsame | ⟨before, y, after, hxs, hupdate⟩
        · exact .inl (by rw [hsame])
        · exact .inr ⟨x :: before, y, after, by rw [hxs]; rfl, by rw [hupdate]; rfl⟩

theorem mem_updateFirst {p : α → Bool} {f : α → α} {y : α} {xs : List α}
    (h : y ∈ updateFirst p f xs) : y ∈ xs ∨ ∃ x, xs.find? p = some x ∧ y = f x := by
  induction xs with
  | nil => exact .inl h
  | cons x xs ih =>
      by_cases hx : p x
      · rw [updateFirst, if_pos hx] at h
        rcases List.mem_cons.1 h with rfl | hy
        · exact .inr ⟨x, List.find?_cons_of_pos hx, rfl⟩
        · exact .inl (List.mem_cons_of_mem x hy)
      · rw [updateFirst, if_neg hx] at h
        rw [List.find?_cons_of_neg hx]
        rcases List.mem_cons.1 h with rfl | hy
        · exact .inl List.mem_cons_self
        · exact (ih hy).imp_left (List.mem_cons_of_mem x)

theorem map_updateFirst {κ : Type} {g : α → κ} {p : α → Bool} {f : α → α}
    (hf : ∀ x, g (f x) = g x) (xs : List α) :
    (updateFirst p f xs).map g = xs.map g := by
  induction xs with
  | nil => rfl
  | cons x xs ih => by_cases h : p x <;> simp [updateFirst, h, hf, ih]

theorem find?_updateFirst {p : α → Bool} {f : α → α} (hf : ∀ x, p x → p (f x)) (xs : List α) :
    (updateFirst p f xs).find? p = (xs.find? p).map f := by
  induction xs with
  | nil => rfl
  | cons x xs ih => by_cases h : p x <;> simp [updateFirst, h, hf, ih]

/-- An update that leaves the first match as it is changes nothing. -/
theorem updateFirst_eq_self {p : α → Bool} {f : α → α} {x : α} {xs : List α}
    (h : xs.find? p = some x) (hx : f x = x) : updateFirst p f xs = xs := by
  induction xs with
  | nil => rfl
  | cons y ys ih =>
      by_cases hy : p y
      · obtain rfl : y = x := by simpa [hy] using h
        simp [updateFirst, hy, hx]
      · have hys : ys.find? p = some x := by simpa [hy] using h
        simp [updateFirst, hy, ih hys]

/-- Of two updates in a row the first is made on the element that the second meets. -/
theorem updateFirst_updateFirst {p : α → Bool} {f g : α → α} (hf : ∀ x, p x → p (f x))
    (xs : List α) : updateFirst p g (updateFirst p f xs) = updateFirst p (g ∘ f) xs := by
  induction xs with
  | nil => rfl
  | cons x xs ih => by_cases h : p x <;> simp [updateFirst, h, hf, ih]

section Disjoint

variable {p q : α → Bool} {f g : α → α}

theorem filter_updateFirst_of_disjoint (hf : ∀ x, p x → q x = false ∧ q (f x) = false)
    (xs : List α) : (updateFirst p f xs).filter q = xs.filter q := by
  induction xs with
  | nil => rfl
  | cons x xs ih =>
      by_cases h : p x
      · obtain ⟨hx, hfx⟩ := hf x h
        simp [updateFirst, h, hx, hfx]
      · by_cases hq : q x <;> simp [updateFirst, h, hq, ih]

theorem filter_eraseP_of_disjoint (hpq : ∀ x, p x → q x = false) (xs : List α) :
    (xs.eraseP p).filter q = xs.filter q := by
  induction xs with
  | nil => rfl
  | cons x xs ih =>
      by_cases h : p x
      · simp [h, hpq x h]
      · by_cases hq : q x <;> simp [h, hq, ih]

theorem find?_updateFirst_of_disjoint (hf : ∀ x, p x → q x = false ∧ q (f x) = false)
    (xs : List α) : (updateFirst p f xs).find? q = xs.find? q := by
  rw [← List.head?_filter, ← List.head?_filter, filter_updateFirst_of_disjoint hf]

theorem find?_eraseP_of_disjoint (hpq : ∀ x, p x → q x = false) (xs : List α) :
    (xs.eraseP p).find? q = xs.find? q := by
  rw [← List.head?_filter, ← List.head?_filter, filter_eraseP_of_disjoint hpq]

theorem updateFirst_comm (hf : ∀ x, p x → q x = false ∧ q (f x) = false)
    (hg : ∀ x, q x → p x = false ∧ p (g x) = false) (xs : List α) :
    updateFirst q g (updateFirst p f xs) = updateFirst p f (updateFirst q g xs) := by
  induction xs with
  | nil => rfl
  | cons x xs ih =>
      by_cases h : p x
      · obtain ⟨hx, hfx⟩ := hf x h
        simp [updateFirst, h, hx, hfx]
      · by_cases hq : q x
        · simp [updateFirst, h, hq, (hg x hq).2]
        · simp [updateFirst, h, hq, ih]

theorem eraseP_updateFirst_of_disjoint (hf : ∀ x, p x → q x = false ∧ q (f x) = false)
    (xs : List α) : (updateFirst p f xs).eraseP q = updateFirst p f (xs.eraseP q) := by
  induction xs with
  | nil => rfl
  | cons x xs ih =>
      by_cases h : p x
      · obtain ⟨hx, hfx⟩ := hf x h
        simp [updateFirst, h, hx, hfx]
      · by_cases hq : q x <;> simp [updateFirst, h, hq, ih]

end Disjoint

/-- A change of all elements that neither touches the search nor what the update does. -/
theorem map_updateFirst_comm {p : α → Bool} {f h : α → α} (hp : ∀ x, p (h x) = p x)
    (hf : ∀ x, h (f x) = f (h x)) (xs : List α) :
    (updateFirst p f xs).map h = updateFirst p f (xs.map h) := by
  induction xs with
  | nil => rfl
  | cons x xs ih => by_cases hx : p x <;> simp [updateFirst, hx, hp, hf, ih]

end AppchainStaking
