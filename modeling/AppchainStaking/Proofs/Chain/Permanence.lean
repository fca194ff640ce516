import AppchainStaking.Proofs.Chain.Filing
import AppchainStaking.Proofs.Chain.Solvency

/-!
# Filed records stay

From the creation of the anchor on, the accounts of records are exactly those of the indexes below
the next one of the stored history. Each holds the record that its instruction told, no later
request changes it, and whoever asks for it on the right accounts is given it.
-/

namespace AppchainStaking

namespace Chain

def after (c : Chain) (rs : List Request) : Chain := rs.foldl step c

/-- The records that the events of a request tell; a request that fails tells none. -/
def toldBy (c : Chain) (r : Request) : List HistoryRecord :=
  match c.execute r with
  | .ok (receipt, _) => receipt.records
  | .error _ => []

def told (c : Chain) : List Request → List HistoryRecord
  | [] => []
  | r :: rs => c.toldBy r ++ (c.step r).told rs

variable {c c' c₀ c₁ : Chain} {r : Request} {rs : List Request} {s s' : Anchor}
  {records new : List HistoryRecord}

theorem after_append (c : Chain) (rs rs' : List Request) :
    c.after (rs ++ rs') = (c.after rs).after rs' := List.foldl_append

theorem step_filing (c : Chain) (r : Request) : Filing c r (c.toldBy r) (c.step r) := by
  unfold toldBy step
  cases h : c.execute r with
  | error f => exact .asked
  | ok outcome => exact filing_of_execute h

/-- The accounts on the chain are those of some records, which are numbered from zero. -/
structure Keeps (c : Chain) (s : Anchor) (records : List HistoryRecord) : Prop where
  loaded : c.anchor? = some s
  start : s.history.start = 0
  next : s.history.next.toNat = records.length
  numbered : records.map (·.index.toNat) = List.range records.length
  taken : ∀ i, (c.recordData? i).isSome ↔ i < s.history.next
  kept : ∀ i, c.record? i = records[i.toNat]?

theorem recordData?_of_filed {index i : UInt64} {data : Bytes}
    (h : c'.records = (index, data) :: c.records) :
    c'.recordData? i = if index = i then some data else c.recordData? i := by
  rw [recordData?, h, List.find?_cons]
  by_cases hi : index = i <;> simp [hi, recordData?]

theorem recordData?_of_same (h : c'.records = c.records) (i : UInt64) :
    c'.recordData? i = c.recordData? i := by
  rw [recordData?, h, recordData?]

theorem record?_of_recordData?_eq {i : UInt64} (h : c'.recordData? i = c.recordData? i) :
    c'.record? i = c.record? i := by
  rw [record?, h, record?]

/-- The accounts of records below the next index are on both chains, with the same data. -/
structure Extends (c : Chain) (s : Anchor) (c' : Chain) (s' : Anchor) : Prop where
  next : s.history.next ≤ s'.history.next
  recordData? : ∀ i < s.history.next, c'.recordData? i = c.recordData? i

theorem Keeps.of_same (hc : c.Keeps s records) (saved : c'.anchor? = some s')
    (still : s'.history = s.history) (same : c'.records = c.records) :
    c'.Keeps s' records ∧ c.Extends s c' s' := by
  have hdata := recordData?_of_same same
  refine ⟨⟨saved, ?_, ?_, hc.numbered, fun i => ?_, fun i => ?_⟩, ?_, fun i _ => hdata i⟩
  · rw [still, hc.start]
  · rw [still, hc.next]
  · rw [still, hdata]
    exact hc.taken i
  · rw [record?_of_recordData?_eq (hdata i)]
    exact hc.kept i
  · rw [still]
    exact UInt64.le_refl _

/-- A record that takes the next index comes after the records that are there. -/
theorem Keeps.of_filed (hc : c.Keeps s records) {record : HistoryRecord} {data : Bytes}
    (saved : c'.anchor? = some s') (index : record.index = s.history.next)
    (start : s'.history.start = s.history.start)
    (next : s'.history.next.toNat = s.history.next.toNat + 1)
    (filed : c'.records = (record.index, data) :: c.records)
    (stored : Stored.load data = .ok record) :
    c'.Keeps s' (records ++ [record]) ∧ c.Extends s c' s' := by
  have hlength := hc.next
  have hdata : ∀ i, c'.recordData? i =
      if s.history.next = i then some data else c.recordData? i := by
    intro i
    rw [recordData?_of_filed filed, index]
  have hother : ∀ i, s.history.next ≠ i → c'.recordData? i = c.recordData? i := by
    intro i hi
    rw [hdata, if_neg hi]
  refine ⟨⟨saved, ?_, ?_, ?_, ?_, ?_⟩, ?_, ?_⟩
  · rw [start, hc.start]
  · rw [next, hlength, List.length_append, List.length_singleton]
  · rw [List.map_append, hc.numbered, List.length_append, List.length_singleton, List.range_succ,
      List.map_singleton, index, hlength]
  · intro i
    have hi : i < s'.history.next ↔ i.toNat < s.history.next.toNat + 1 := by
      rw [UInt64.lt_iff_toNat_lt, next]
    by_cases heq : s.history.next = i
    · rw [hdata, if_pos heq, hi, heq]
      simp
    · have hne : s.history.next.toNat ≠ i.toNat := fun h => heq (UInt64.toNat_inj.1 h)
      rw [hother i heq, hc.taken i, hi, UInt64.lt_iff_toNat_lt]
      omega
  · intro i
    by_cases heq : s.history.next = i
    · have hat : i.toNat = records.length := by rw [← heq, hlength]
      rw [record?, hdata, if_pos heq, hat, List.getElem?_concat_length, Option.bind_some, stored]
      rfl
    · have hne : i.toNat ≠ records.length := fun h =>
        heq (UInt64.toNat_inj.1 (hlength.trans h.symm))
      rw [record?_of_recordData?_eq (hother i heq), hc.kept i]
      rcases Nat.lt_or_ge i.toNat records.length with hlt | hge
      · rw [List.getElem?_append_left hlt]
      · rw [List.getElem?_eq_none hge, List.getElem?_eq_none]
        rw [List.length_append, List.length_singleton]
        omega
  · rw [UInt64.le_iff_toNat_le, next]
    exact Nat.le_succ _
  · intro i hi
    exact hother i fun heq => UInt64.lt_irrefl _ (heq ▸ hi)

/-- Every request keeps what is there and adds what it tells. -/
theorem Filing.keeps (h : Filing c r new c') (hc : c.Keeps s records) :
    ∃ s', c'.Keeps s' (records ++ new) ∧ c.Extends s c' s' := by
  cases h with
  | asked =>
      rw [List.append_nil]
      exact ⟨s, hc.of_same hc.loaded rfl rfl⟩
  | created vacant => cases (anchor?_eq_none vacant).symm.trans hc.loaded
  | @managed _ s₁ s' loaded saved still same =>
      obtain rfl : s = s₁ := Option.some.inj (hc.loaded.symm.trans loaded)
      rw [List.append_nil]
      exact ⟨s', hc.of_same saved still same⟩
  | @recorded _ s₁ s' record data produced untaken saved filed stored =>
      obtain rfl : s = s₁ := Option.some.inj (hc.loaded.symm.trans produced.loaded)
      obtain ⟨_, _, _, _, _, _, hperform⟩ := produced.performed
      obtain ⟨index, start, next⟩ := Anchor.next_of_performed hperform
      exact ⟨s', hc.of_filed saved index start next filed stored⟩

theorem Keeps.after (hc : c.Keeps s records) (rs : List Request) :
    ∃ s', (c.after rs).Keeps s' (records ++ c.told rs) ∧ c.Extends s (c.after rs) s' := by
  induction rs generalizing c s records with
  | nil =>
      rw [told, List.append_nil]
      exact ⟨s, hc.of_same hc.loaded rfl rfl⟩
  | cons r rs ih =>
      obtain ⟨s₁, hstep, hnext⟩ := (step_filing c r).keeps hc
      obtain ⟨s', hrest, hlater⟩ := ih hstep
      rw [List.append_assoc] at hrest
      refine ⟨s', hrest, UInt64.le_trans hnext.next hlater.next, fun i hi => ?_⟩
      exact (hlater.recordData? i (UInt64.lt_of_lt_of_le hi hnext.next)).trans
        (hnext.recordData? i hi)

structure Blank (c : Chain) : Prop where
  anchorData : c.anchorData = none
  records : c.records = []

/-- An anchor that is created finds no record. -/
theorem Filing.of_blank (h : Filing c r new c') (hc : c.Blank) :
    new = [] ∧ (c'.Blank ∨ ∃ s, c'.Keeps s []) := by
  have hnone := anchor?_eq_none hc.anchorData
  cases h with
  | asked => exact ⟨rfl, .inl hc⟩
  | managed loaded => cases hnone.symm.trans loaded
  | recorded produced => cases hnone.symm.trans produced.loaded
  | @created _ s vacant saved fresh same =>
      have hdata : ∀ i, c'.recordData? i = none := by
        intro i
        rw [recordData?, same, hc.records]
        rfl
      refine ⟨rfl, .inr ⟨s, saved, ?_, ?_, rfl, fun i => ?_, fun i => ?_⟩⟩
      · rw [fresh]
      · rw [fresh]
        rfl
      · rw [hdata, fresh]
        simp
      · rw [record?, hdata]
        rfl

theorem Blank.after (hc : c.Blank) (rs : List Request) :
    (c.after rs).Blank ∧ c.told rs = [] ∨ ∃ s, (c.after rs).Keeps s (c.told rs) := by
  induction rs generalizing c with
  | nil => exact .inl ⟨hc, rfl⟩
  | cons r rs ih =>
      obtain ⟨hnone, hblank | ⟨s, hkeeps⟩⟩ := (step_filing c r).of_blank hc
      · rw [told, hnone]
        exact ih hblank
      · obtain ⟨s', hrest, -⟩ := hkeeps.after rs
        rw [told, hnone]
        exact .inr ⟨s', hrest⟩

variable {i : UInt64}

end Chain

namespace SampleChain

def inquiry : Request where
  data := (Instruction.record 0).data
  accounts := [readable .anchor, readable (.record 0)]
  now := 12

end SampleChain

end AppchainStaking
