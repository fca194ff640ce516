import AppchainStaking.Identity

/-!
# Items grouped by account

Every account has a list of items, in the order in which they were added. The accounts stand in
the order of their first item. An account is looked up by the first group that carries its name.
-/

namespace AppchainStaking

structure Group (α : Type) where
  account : AccountId
  items : List α
  deriving DecidableEq

abbrev Grouped (α : Type) := List (Group α)

namespace Grouped

variable {α : Type}

def of : Grouped α → AccountId → List α
  | [], _ => []
  | g :: gs, a => if g.account = a then g.items else of gs a

def push : Grouped α → AccountId → α → Grouped α
  | [], a, x => [⟨a, [x]⟩]
  | g :: gs, a, x =>
      if g.account = a then { g with items := g.items ++ [x] } :: gs else g :: push gs a x

/-- Drops the items of an account that satisfy `p`, and its group when none is left. -/
def drop (p : α → Bool) : Grouped α → AccountId → Grouped α
  | [], _ => []
  | g :: gs, a =>
      if g.account = a then
        match g.items.filter (!p ·) with
        | [] => gs
        | kept => { g with items := kept } :: gs
      else g :: drop p gs a

@[simp] theorem of_push_self (gs : Grouped α) (a : AccountId) (x : α) :
    (gs.push a x).of a = gs.of a ++ [x] := by
  induction gs with
  | nil => simp [push, of]
  | cons g gs ih => by_cases h : g.account = a <;> simp [push, of, h, ih]

theorem of_push_of_ne (gs : Grouped α) {a b : AccountId} (x : α) (h : a ≠ b) :
    (gs.push a x).of b = gs.of b := by
  induction gs with
  | nil => simp [push, of, h]
  | cons g gs ih =>
      by_cases hg : g.account = a
      · simp [push, of, hg, h]
      · by_cases hb : g.account = b <;> simp [push, of, hg, hb, ih, h.symm]

theorem of_drop_of_ne (p : α → Bool) (gs : Grouped α) {a b : AccountId} (h : a ≠ b) :
    (drop p gs a).of b = gs.of b := by
  induction gs with
  | nil => simp [drop]
  | cons g gs ih =>
      by_cases hg : g.account = a
      · simp only [drop, hg, if_true]
        split <;> simp [of, hg, h]
      · by_cases hb : g.account = b <;> simp [drop, of, hg, hb, ih, h.symm]

end Grouped

end AppchainStaking
