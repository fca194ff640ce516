import AppchainStaking.Proofs.Ledger.Request
import AppchainStaking.Proofs.Total

/-!
# Amounts add up

A deposit may be raised or lowered by an amount in one request or in many. It comes to the same, and
so does the question whether all of it is accepted. A deposit that is raised and lowered by one
amount is back where it was.
-/

namespace AppchainStaking

namespace RecordKey

variable {k : RecordKey} {l : Ledger} {a : Amount}

/-- Where a deposit may be changed, the new one is found afterwards. -/
theorem deposit_write (h : k.deposit l = .ok a) (b : Amount) :
    k.deposit ((k.write b).apply l) = .ok b := by
  cases k with
  | validator v =>
      obtain ⟨x, hx, -⟩ := map_eq_ok_iff.1 h
      have hnew : (l.updateValidator v ({ · with deposit := b })).validator? v =
          some { x with deposit := b } := by
        have hself := Ledger.validator?_updateValidator_self (l := l) (v := v)
          (g := ({ · with deposit := b })) fun _ => rfl
        rwa [Ledger.validator_eq_ok_iff.1 hx] at hself
      exact map_eq_ok_iff.2 ⟨_, Ledger.validator_eq_ok_iff.2 hnew, rfl⟩
  | delegation d v =>
      obtain ⟨x, hx, -⟩ := map_eq_ok_iff.1 h
      obtain ⟨bound, hfound, live⟩ := Ledger.liveDelegation_eq_ok_iff.1 hx
      have hnew : (l.updateDelegation d v ({ · with deposit := b })).delegation? d v =
          some { x with deposit := b } := Ledger.delegation?_updateDelegation_self hfound
      exact map_eq_ok_iff.2 ⟨_, Ledger.liveDelegation_eq_ok_iff.2 ⟨bound, hnew, live⟩, rfl⟩

theorem write_write (k : RecordKey) (l : Ledger) (b c : Amount) :
    (k.write c).apply ((k.write b).apply l) = (k.write c).apply l := by
  cases k with
  | validator v =>
      have htwice := updateFirst_updateFirst (p := (·.id = v)) (f := ({ · with deposit := b }))
        (g := ({ · with deposit := c })) (fun _ h => h) l.validators
      exact congrArg (fun validators => ({ l with validators } : Ledger)) htwice
  | delegation d v =>
      have htwice := updateFirst_updateFirst (p := (·.isOf d v)) (f := ({ · with deposit := b }))
        (g := ({ · with deposit := c })) (fun _ h => h) l.delegations
      exact congrArg (fun delegations => ({ l with delegations } : Ledger)) htwice

theorem write_self (h : k.deposit l = .ok a) : (k.write a).apply l = l := by
  cases k with
  | validator v =>
      obtain ⟨x, hx, rfl⟩ := map_eq_ok_iff.1 h
      have hsame := updateFirst_eq_self (f := ({ · with deposit := x.deposit }))
        (Ledger.validator_eq_ok_iff.1 hx) rfl
      simp only [write, RecordEdit.apply, Ledger.updateValidator, hsame]
  | delegation d v =>
      obtain ⟨x, hx, rfl⟩ := map_eq_ok_iff.1 h
      have hsame := updateFirst_eq_self (f := ({ · with deposit := x.deposit }))
        (Ledger.liveDelegation_eq_ok_iff.1 hx).2.1 rfl
      simp only [write, RecordEdit.apply, Ledger.updateDelegation, hsame]

end RecordKey

namespace Ledger

variable {rules : LedgerRules} {l l' : Ledger} {k : RecordKey} {r : RecordRequest} {x : Amount}

def after? (rules : LedgerRules) (l : Ledger) (r : RecordRequest) : Option Ledger :=
  match l.ask rules r with
  | (.ok _, l') => some l'
  | (.error _, _) => none

def afterAll? (rules : LedgerRules) (l : Ledger) (rs : List RecordRequest) : Option Ledger :=
  rs.foldlM (after? rules) l

theorem afterAll?_singleton (rules : LedgerRules) (l : Ledger) (r : RecordRequest) :
    l.afterAll? rules [r] = l.after? rules r := by
  rw [afterAll?, List.foldlM_cons]
  exact bind_pure _

theorem afterAll?_cons_eq_some_iff {rs : List RecordRequest} :
    l.afterAll? rules (r :: rs) = some l' ↔
      ∃ l₁, l.after? rules r = some l₁ ∧ l₁.afterAll? rules rs = some l' := by
  rw [afterAll?, List.foldlM_cons]
  exact Option.bind_eq_some_iff

theorem after?_eq_some_iff :
    l.after? rules r = some l' ↔
      ∃ e fact, r.decides rules.settings (r.reads l) = .ok (e, fact) ∧ l' = e.apply l := by
  rw [after?, ask_eq]
  cases r.decides rules.settings (r.reads l) with
  | error reason => simp [carryOut]
  | ok decision => simp [carryOut, Prod.ext_iff, eq_comm]

theorem after?_increase_eq_some_iff :
    l.after? rules (.increase k x) = some l' ↔
      0 < x ∧ ∃ a b : Amount, k.deposit l = .ok a ∧ a.toNat + x.toNat = b.toNat ∧
        l' = (k.write b).apply l := by
  rw [after?_eq_some_iff]
  simp only [RecordRequest.decides_increase_eq_ok_iff, RecordRequest.reads]
  constructor
  · rintro ⟨_, _, ⟨positive, a, b, hdeposit, sum, hdecision⟩, rfl⟩
    cases hdecision
    exact ⟨positive, a, b, hdeposit, sum, rfl⟩
  · rintro ⟨positive, a, b, hdeposit, sum, rfl⟩
    exact ⟨_, _, ⟨positive, a, b, hdeposit, sum, rfl⟩, rfl⟩

theorem after?_decrease_eq_some_iff :
    l.after? rules (.decrease k x) = some l' ↔
      0 < x ∧ ∃ a b : Amount, k.deposit l = .ok a ∧
        (b.toNat + x.toNat = a.toNat ∧ k.minimum rules.settings ≤ b) ∧
        l' = (k.write b).apply l := by
  rw [after?_eq_some_iff]
  simp only [RecordRequest.decides_decrease_eq_ok_iff, RecordRequest.reads]
  constructor
  · rintro ⟨_, _, ⟨positive, a, b, hdeposit, sum, minimum, hdecision⟩, rfl⟩
    cases hdecision
    exact ⟨positive, a, b, hdeposit, ⟨sum, minimum⟩, rfl⟩
  · rintro ⟨positive, a, b, hdeposit, ⟨sum, minimum⟩, rfl⟩
    exact ⟨_, _, ⟨positive, a, b, hdeposit, sum, minimum, rfl⟩, rfl⟩

/-- A request for a positive amount moves the deposit under the key, and to move it by two amounts
is to move it by their sum. -/
structure Moves (rules : LedgerRules) (k : RecordKey) (request : Amount → RecordRequest)
    (moves : Amount → Nat → Amount → Prop) : Prop where
  after?_iff : ∀ (l : Ledger) (x : Amount) (l' : Ledger),
    l.after? rules (request x) = some l' ↔
      0 < x ∧ ∃ a b, k.deposit l = .ok a ∧ moves a x.toNat b ∧ l' = (k.write b).apply l
  add_iff : ∀ (a c : Amount) (m n : Nat),
    moves a (m + n) c ↔ ∃ b, moves a m b ∧ moves b n c
  lt_size : ∀ (a b : Amount) (n : Nat), moves a n b → n < UInt64.size

theorem moves_increase (rules : LedgerRules) (k : RecordKey) :
    Moves rules k (.increase k) fun a n b => a.toNat + n = b.toNat where
  after?_iff _ _ _ := after?_increase_eq_some_iff
  add_iff a c m n := by
    have hc := c.toNat_lt_size
    constructor
    · intro h
      have hb : (UInt64.ofNat (a.toNat + m)).toNat = a.toNat + m :=
        UInt64.toNat_ofNat_of_lt' (by omega)
      exact ⟨.ofNat (a.toNat + m), hb.symm, by omega⟩
    · rintro ⟨b, hab, hbc⟩
      omega
  lt_size a b n h := by
    have hb := b.toNat_lt_size
    omega

theorem moves_decrease (rules : LedgerRules) (k : RecordKey) :
    Moves rules k (.decrease k) fun a n b =>
      b.toNat + n = a.toNat ∧ k.minimum rules.settings ≤ b where
  after?_iff _ _ _ := after?_decrease_eq_some_iff
  add_iff a c m n := by
    have ha := a.toNat_lt_size
    constructor
    · rintro ⟨h, minimum⟩
      have hb : (UInt64.ofNat (c.toNat + n)).toNat = c.toNat + n :=
        UInt64.toNat_ofNat_of_lt' (by omega)
      -- On the way down no deposit is below the last one.
      have hcb : c ≤ .ofNat (c.toNat + n) := UInt64.le_iff_toNat_le.2 (by omega)
      exact ⟨.ofNat (c.toNat + n), ⟨by omega, UInt64.le_trans minimum hcb⟩, hb.symm, minimum⟩
    · rintro ⟨b, ⟨hab, -⟩, hbc, minimum⟩
      exact ⟨by omega, minimum⟩
  lt_size a b n h := by
    have ha := a.toNat_lt_size
    omega

section Moves

variable {request : Amount → RecordRequest} {moves : Amount → Nat → Amount → Prop}
  {xs : List Amount}

/-- Requests one by one move the deposit by the total of their amounts. -/
theorem Moves.afterAll?_iff (h : Moves rules k request moves)
    (positive : ∀ y ∈ x :: xs, 0 < y) :
    l.afterAll? rules ((x :: xs).map request) = some l' ↔
      ∃ a b, k.deposit l = .ok a ∧ moves a (Amount.total (x :: xs)) b ∧
        l' = (k.write b).apply l := by
  obtain ⟨hx, hxs⟩ := List.forall_mem_cons.1 positive
  induction xs generalizing l x with
  | nil =>
      rw [List.map_singleton, afterAll?_singleton, h.after?_iff]
      exact and_iff_right hx
  | cons y ys ih =>
      have hy := (List.forall_mem_cons.1 hxs).1
      have hys := (List.forall_mem_cons.1 hxs).2
      rw [List.map_cons, afterAll?_cons_eq_some_iff]
      constructor
      · rintro ⟨_, hfirst, hrest⟩
        obtain ⟨-, a, b, hdeposit, hab, rfl⟩ := (h.after?_iff ..).1 hfirst
        obtain ⟨b', c, hdeposit', hbc, rfl⟩ := (ih hxs hy hys).1 hrest
        obtain rfl : b = b' := Except.ok.inj ((k.deposit_write hdeposit b).symm.trans hdeposit')
        exact ⟨a, c, hdeposit, (h.add_iff ..).2 ⟨b, hab, hbc⟩, k.write_write l b c⟩
      · rintro ⟨a, c, hdeposit, hac, rfl⟩
        obtain ⟨b, hab, hbc⟩ := (h.add_iff ..).1 hac
        refine ⟨(k.write b).apply l, (h.after?_iff ..).2 ⟨hx, a, b, hdeposit, hab, rfl⟩, ?_⟩
        refine (ih hxs hy hys).2 ⟨b, c, k.deposit_write hdeposit b, hbc, ?_⟩
        exact (k.write_write l b c).symm

/-- To move a deposit by several amounts is to move it once by their sum, which then is in range. -/
theorem Moves.split_iff (h : Moves rules k request moves) (nonempty : xs ≠ [])
    (positive : ∀ x ∈ xs, 0 < x) :
    l.afterAll? rules (xs.map request) = some l' ↔
      Amount.total xs < UInt64.size ∧
        l.after? rules (request (.ofNat (Amount.total xs))) = some l' := by
  obtain ⟨x, xs, rfl⟩ := List.exists_cons_of_ne_nil nonempty
  rw [h.afterAll?_iff positive, h.after?_iff]
  constructor
  · rintro ⟨a, b, hdeposit, hab, rfl⟩
    have hlt := h.lt_size a b _ hab
    have hsum := UInt64.toNat_ofNat_of_lt' hlt
    have hx := UInt64.lt_iff_toNat_lt.1 (positive x List.mem_cons_self)
    have hpos : 0 < UInt64.ofNat (Amount.total (x :: xs)) := by
      rw [UInt64.lt_iff_toNat_lt, hsum, Amount.total_cons]
      exact Nat.lt_add_right _ hx
    exact ⟨hlt, hpos, a, b, hdeposit, hsum.symm ▸ hab, rfl⟩
  · rintro ⟨hlt, -, a, b, hdeposit, hab, rfl⟩
    rw [UInt64.toNat_ofNat_of_lt' hlt] at hab
    exact ⟨a, b, hdeposit, hab, rfl⟩

end Moves

/-- A deposit that may stay as it is does so when it is raised and then lowered by one amount. -/
theorem increase_decrease {a : Amount} (hdeposit : k.deposit l = .ok a)
    (minimum : k.minimum rules.settings ≤ a) (accepted : (l.after? rules (.increase k x)).isSome) :
    l.afterAll? rules [.increase k x, .decrease k x] = some l := by
  obtain ⟨l₁, hraised⟩ := Option.isSome_iff_exists.1 accepted
  refine afterAll?_cons_eq_some_iff.2 ⟨l₁, hraised, ?_⟩
  obtain ⟨positive, a', b, hdeposit', sum, rfl⟩ := after?_increase_eq_some_iff.1 hraised
  obtain rfl : a = a' := Except.ok.inj (hdeposit.symm.trans hdeposit')
  rw [afterAll?_singleton, after?_decrease_eq_some_iff]
  refine ⟨positive, b, a, k.deposit_write hdeposit b, ⟨sum, minimum⟩, ?_⟩
  rw [k.write_write, k.write_self hdeposit]

/-- Splitting an amount makes no difference. Positive amounts, of which there is at least one, are
all accepted one by one just if their sum is in range and accepted at once, and the ledger is then
the same. And a deposit of at least the minimum that could be raised by an amount can be lowered by
it again, which restores the ledger. -/
theorem amounts_add_up (rules : LedgerRules) (l : Ledger) (k : RecordKey) :
    (∀ request : Amount → RecordRequest, request = .increase k ∨ request = .decrease k →
      ∀ xs : List Amount, xs ≠ [] → (∀ x ∈ xs, 0 < x) → ∀ l' : Ledger,
        l.afterAll? rules (xs.map request) = some l' ↔
          Amount.total xs < UInt64.size ∧
            l.after? rules (request (.ofNat (Amount.total xs))) = some l') ∧
      ∀ x a : Amount, k.deposit l = .ok a → k.minimum rules.settings ≤ a →
        (l.after? rules (.increase k x)).isSome →
          l.afterAll? rules [.increase k x, .decrease k x] = some l := by
  refine ⟨fun request either xs nonempty positive l' => ?_, fun x a => increase_decrease⟩
  rcases either with rfl | rfl
  · exact (moves_increase rules k).split_iff nonempty positive
  · exact (moves_decrease rules k).split_iff nonempty positive

open SampleLedger in
/-- A stake that is raised by ten and then by twenty is raised by thirty, and lowered again. -/
theorem amounts_add_up_sampleLedger :
    let k : RecordKey := .validator senior
    let xs : List Amount := [10, 20]
    xs ≠ [] ∧ (∀ x ∈ xs, 0 < x) ∧
      ledger.afterAll? current (xs.map (.increase k)) =
        some (ledger.updateValidator senior ({ · with deposit := 6030 })) ∧
      k.deposit ledger = .ok 6000 ∧ k.minimum current.settings ≤ 6000 ∧
      (ledger.after? current (.increase k 30)).isSome ∧
      ledger.afterAll? current [.increase k 30, .decrease k 30] = some ledger := by
  intro k xs
  have nonempty : xs ≠ [] := List.cons_ne_nil _ _
  have positive : ∀ x ∈ xs, 0 < x :=
    List.forall_mem_cons.2 ⟨by decide, List.forall_mem_singleton.2 (by decide)⟩
  have hdeposit : k.deposit ledger = .ok 6000 := rfl
  have minimum : k.minimum current.settings ≤ 6000 := by decide
  have hsum : ledger.after? current (.increase k 30) =
      some (ledger.updateValidator senior ({ · with deposit := 6030 })) := rfl
  have accepted : (ledger.after? current (.increase k 30)).isSome := rfl
  obtain ⟨hsplit, hback⟩ := amounts_add_up current ledger k
  refine ⟨nonempty, positive, ?_, hdeposit, minimum, accepted,
    hback 30 6000 hdeposit minimum accepted⟩
  exact (hsplit _ (.inl rfl) xs nonempty positive _).2 ⟨by decide, hsum⟩

end Ledger

end AppchainStaking
