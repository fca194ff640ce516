import AppchainStaking.Proofs.Anchor.Conservation
import AppchainStaking.Proofs.History.Numbering
import Mathlib.Data.List.Nodup

/-!
# The index of the history

The log keeps for every account the numbers of its facts. Together these lists hold every number
that was given out, each of them once and under the account that acted. Only a call that records
changes the log, and a record carries the time and the era of its call.
-/

namespace AppchainStaking

variable {ε τ : Type}

def recordings (calls : List (Call ε τ)) : List (Call ε τ) := calls.filter (·.record?.isSome)

theorem map_record?_recordings (calls : List (Call ε τ)) :
    (recordings calls).map (·.record?) = (records calls).map some := by
  induction calls with
  | nil => rfl
  | cons c calls ih =>
      cases h : c.record? with
      | none => simpa [recordings, records, h] using ih
      | some r => simpa [recordings, records, h] using ih

theorem length_recordings (calls : List (Call ε τ)) :
    (recordings calls).length = (records calls).length := by
  simpa using congrArg List.length (map_record?_recordings calls)

structure Anchor.HistoryIndexed (s : Anchor) (ops : List (Operation ε τ)) : Prop where
  next : (s.run ops).history.next.toNat = (recordings (s.trace ops)).length
  /-- The calls that record are numbered from zero. -/
  recording : ∀ (k : Nat) (c : Call ε τ), (recordings (s.trace ops))[k]? = some c →
    ∃ r, c.record? = some r ∧ r.index.toNat = k ∧ r.timestamp = c.operation.now ∧
      r.era = c.before.era ∧ r.fact.actor = c.operation.caller
  eras : (records (s.trace ops)).Pairwise (·.era ≤ ·.era)
  indexesOf : ∀ a, (s.run ops).history.indexesOf a =
    (records ((s.trace ops).filter (·.operation.caller = a))).map (·.index)
  increasing : ∀ a, ((s.run ops).history.indexesOf a).Pairwise (· < ·)
  covered : ∀ i < (s.run ops).history.next, ∃! a, i ∈ (s.run ops).history.indexesOf a
  range_fresh : records (s.trace ops) = [] →
    (s.run ops).history.range = { start := 0, last := none }
  range_used : records (s.trace ops) ≠ [] →
    (s.run ops).history.range = { start := 0, last := some ((s.run ops).history.next - 1) }
  inRange : ∀ i, (s.run ops).history.demandInRange i = .ok () ↔ i < (s.run ops).history.next
  unrecorded : ∀ c ∈ s.trace ops, c.record? = none → c.after.history = c.before.history
  recorder : ∀ c ∈ s.trace ops, c.operation.action? = none → c.record? = none

theorem Call.record_eq {c : Call ε τ} (room : c.before.history.HasRoom) {r : HistoryRecord}
    (hr : c.record? = some r) :
    r.timestamp = c.operation.now ∧ r.era = c.before.era ∧ r.fact.actor = c.operation.caller := by
  obtain ⟨_, _, _, step, hnext, -⟩ := (Call.effect room).of_record hr
  exact ⟨congrArg HistoryRecord.timestamp hnext, congrArg HistoryRecord.era hnext, step.actor_eq⟩

namespace Anchor

variable {s s' : Anchor} {o : Operation ε τ} {reply : Reply ε τ}

theorem Effect.start_eq (h : Effect s o reply s') : s'.history.start = s.history.start := by
  cases hr : reply.record? with
  | none => rw [h.history_of_unrecorded hr]
  | some r =>
      obtain ⟨_, _, _, _, _, rfl⟩ := h.of_record hr
      rfl

/-- The list of the caller gains the number of the record, and no other list changes. -/
theorem Effect.indexesOf_eq (h : Effect s o reply s') (a : AccountId) :
    s'.history.indexesOf a =
      s.history.indexesOf a ++
        if o.caller = a then reply.record?.toList.map (·.index) else [] := by
  cases hr : reply.record? with
  | none => simp [h.history_of_unrecorded hr]
  | some r =>
      obtain ⟨_, l, _, step, hnext, rfl⟩ := h.of_record hr
      have hindex : r.index = s.history.next := congrArg HistoryRecord.index hnext
      have hhistory : (s.recorded l r).history = s.history.extended o.caller := by
        rw [← step.actor_eq]
        rfl
      rw [hhistory, Option.toList_some, List.map_singleton, hindex]
      by_cases ha : o.caller = a
      · subst ha
        rw [if_pos rfl]
        exact Grouped.of_push_self ..
      · rw [if_neg ha, List.append_nil]
        exact Grouped.of_push_of_ne _ _ ha

/-- The record at place `k` is the one that the `k`-th recording call left. -/
theorem exists_record_of_recordings {calls : List (Call ε τ)} {k : Nat} {c : Call ε τ}
    (hc : (recordings calls)[k]? = some c) :
    c ∈ calls ∧ ∃ r, (records calls)[k]? = some r ∧ c.record? = some r := by
  have hmap := congrArg (·[k]?) (map_record?_recordings calls)
  simp only [List.getElem?_map, hc, Option.map_some] at hmap
  obtain ⟨r, hr, hrecord⟩ := Option.map_eq_some_iff.1 hmap.symm
  exact ⟨(List.mem_filter.1 (List.mem_of_getElem? hc)).1, r, hr, hrecord.symm⟩

theorem next_run (ops : List (Operation ε τ))
    (hroom : ∀ c ∈ s.trace ops, c.before.history.HasRoom) :
    (s.run ops).history.next.toNat = s.history.next.toNat + (records (s.trace ops)).length := by
  induction ops generalizing s with
  | nil => rfl
  | cons o ops ih =>
      have hstep : (s.perform o).2.history.next.toNat =
          s.history.next.toNat + (Call.mk s o).record?.toList.length :=
        (perform_effect (hroom _ List.mem_cons_self) o).next_eq.2
      have hrest := @ih (s.perform o).2 fun c hc => hroom c (List.mem_cons_of_mem _ hc)
      rw [run, trace, records_cons, List.length_append, hrest, hstep, Nat.add_assoc]

theorem indexesOf_run (ops : List (Operation ε τ))
    (hroom : ∀ c ∈ s.trace ops, c.before.history.HasRoom) (a : AccountId) :
    (s.run ops).history.indexesOf a =
      s.history.indexesOf a ++
        (records ((s.trace ops).filter (·.operation.caller = a))).map (·.index) := by
  induction ops generalizing s with
  | nil => exact (List.append_nil _).symm
  | cons o ops ih =>
      have hstep : (s.perform o).2.history.indexesOf a =
          s.history.indexesOf a ++
            if o.caller = a then (Call.mk s o).record?.toList.map (·.index) else [] :=
        (perform_effect (hroom _ List.mem_cons_self) o).indexesOf_eq a
      have hrest := @ih (s.perform o).2 fun c hc => hroom c (List.mem_cons_of_mem _ hc)
      rw [run, trace, hrest, hstep, List.filter_cons]
      by_cases ha : o.caller = a
      · rw [if_pos ha, if_pos (decide_eq_true ha), records_cons, List.map_append,
          List.append_assoc]
      · rw [if_neg ha, if_neg (by simpa using ha), List.append_nil]

/-- Every record of a run carries at least the era of the start, and later ones carry later eras. -/
theorem eras_run (ops : List (Operation ε τ))
    (hroom : ∀ c ∈ s.trace ops, c.before.history.HasRoom) :
    (∀ r ∈ records (s.trace ops), s.era ≤ r.era) ∧
      (records (s.trace ops)).Pairwise (·.era ≤ ·.era) := by
  induction ops generalizing s with
  | nil => exact ⟨by simp [records, trace], .nil⟩
  | cons o ops ih =>
      have hera := (perform_effect (hroom _ List.mem_cons_self) o).era_le
      obtain ⟨hge, hpairwise⟩ := @ih (s.perform o).2 fun c hc => hroom c (List.mem_cons_of_mem _ hc)
      have hge' : ∀ r ∈ records ((s.perform o).2.trace ops), s.era ≤ r.era := fun r hr =>
        UInt64.le_trans hera (hge r hr)
      rw [trace, records_cons]
      cases hr : (Call.mk s o).record? with
      | none => exact ⟨hge', hpairwise⟩
      | some r =>
          have heq : r.era = s.era := (Call.record_eq (hroom _ List.mem_cons_self) hr).2.1
          rw [Option.toList_some, List.singleton_append, List.forall_mem_cons, List.pairwise_cons,
            heq]
          exact ⟨⟨UInt64.le_refl _, hge'⟩, hge', hpairwise⟩

theorem pairwise_index_run (ops : List (Operation ε τ))
    (hroom : ∀ c ∈ s.trace ops, c.before.history.HasRoom) :
    ((records (s.trace ops)).map (·.index)).Pairwise (· < ·) := by
  have hnat : ((records (s.trace ops)).map (·.index.toNat)).Pairwise (· < ·) := by
    rw [index_run ops hroom]
    exact List.pairwise_lt_range'
  rw [List.pairwise_map] at hnat ⊢
  exact hnat.imp fun h => UInt64.lt_iff_toNat_lt.2 h

/-- The numbers of an account are those of the records that it is the actor of. -/
theorem mem_indexesOf_run (hempty : s.history = {}) (ops : List (Operation ε τ))
    (hroom : ∀ c ∈ s.trace ops, c.before.history.HasRoom) {a : AccountId} {i : UInt64} :
    i ∈ (s.run ops).history.indexesOf a ↔
      ∃ r ∈ records (s.trace ops), r.fact.actor = a ∧ r.index = i := by
  have hnil : s.history.indexesOf a = [] := by
    rw [hempty]
    rfl
  rw [indexesOf_run ops hroom, hnil, List.nil_append]
  simp only [records, List.mem_map, List.mem_filterMap, List.mem_filter, decide_eq_true_eq]
  constructor
  · rintro ⟨r, ⟨c, ⟨hc, rfl⟩, hr⟩, rfl⟩
    exact ⟨r, ⟨c, hc, hr⟩, (Call.record_eq (hroom c hc) hr).2.2, rfl⟩
  · rintro ⟨r, ⟨c, hc, hr⟩, rfl, rfl⟩
    exact ⟨r, ⟨c, ⟨hc, (Call.record_eq (hroom c hc) hr).2.2.symm⟩, hr⟩, rfl⟩

/-- From the empty log on, the record with number `k` is the record at place `k`. -/
theorem index_getElem?_run (hempty : s.history = {}) (ops : List (Operation ε τ))
    (hroom : ∀ c ∈ s.trace ops, c.before.history.HasRoom) {k : Nat} {r : HistoryRecord}
    (hr : (records (s.trace ops))[k]? = some r) : r.index.toNat = k := by
  have hindex := congrArg (·[k]?) (index_run ops hroom)
  obtain ⟨hlt, rfl⟩ := List.getElem?_eq_some_iff.1 hr
  have hzero : s.history.next.toNat = 0 := by
    rw [hempty]
    rfl
  simpa [hlt, hzero] using hindex

theorem existsUnique_indexesOf_run (hempty : s.history = {}) (ops : List (Operation ε τ))
    (hroom : ∀ c ∈ s.trace ops, c.before.history.HasRoom) {i : UInt64}
    (hi : i < (s.run ops).history.next) : ∃! a, i ∈ (s.run ops).history.indexesOf a := by
  have hlt : i.toNat < (records (s.trace ops)).length := by
    have hnext := next_run ops hroom
    rw [hempty] at hnext
    have := UInt64.lt_iff_toNat_lt.1 hi
    simpa [hnext] using this
  obtain ⟨r, hr⟩ : ∃ r, (records (s.trace ops))[i.toNat]? = some r :=
    ⟨_, List.getElem?_eq_getElem hlt⟩
  have hindex : r.index = i := UInt64.toNat_inj.1 (index_getElem?_run hempty ops hroom hr)
  have hmem : r ∈ records (s.trace ops) := List.mem_of_getElem? hr
  refine ⟨r.fact.actor, (mem_indexesOf_run hempty ops hroom).2 ⟨r, hmem, rfl, hindex⟩, ?_⟩
  intro b hb
  obtain ⟨r', hmem', rfl, hindex'⟩ := (mem_indexesOf_run hempty ops hroom).1 hb
  have heq : r' = r :=
    List.inj_on_of_nodup_map (nodup_index_run ops hroom) hmem' hmem (hindex'.trans hindex.symm)
  rw [heq]

theorem start_run (hempty : s.history = {}) (ops : List (Operation ε τ))
    (hroom : ∀ c ∈ s.trace ops, c.before.history.HasRoom) : (s.run ops).history.start = 0 :=
  run_invariant (P := fun s => s.history.start = 0) (fun h hs => h.start_eq.trans hs) ops hroom
    (by rw [hempty])

/-- Over every run of a new anchor the history is numbered without gaps and indexed by the accounts
that acted; only calls that leave a record change it. -/
theorem history_indexed {owner : AccountId} {id : String} {template : Template}
    {token : StakeToken} {vault : AccountId} {bump vaultBump : UInt8}
    (hnew : Anchor.new owner id template token vault bump vaultBump = .ok s)
    (ops : List (Operation ε τ)) (hroom : ∀ c ∈ s.trace ops, c.before.history.HasRoom) :
    s.HistoryIndexed ops := by
  obtain ⟨-, hempty, -⟩ := new_eq_ok hnew
  have hstart := start_run hempty ops hroom
  have hnext : (s.run ops).history.next.toNat = (records (s.trace ops)).length := by
    have h := next_run ops hroom
    rw [hempty] at h
    simpa using h
  have hindexes : ∀ a, (s.run ops).history.indexesOf a =
      (records ((s.trace ops).filter (·.operation.caller = a))).map (·.index) := by
    intro a
    have h := indexesOf_run ops hroom a
    rw [hempty] at h
    exact h
  constructor
  case next => rw [hnext, length_recordings]
  case recording =>
    intro k c hk
    obtain ⟨hc, r, hr, hrecord⟩ := exists_record_of_recordings hk
    exact ⟨r, hrecord, index_getElem?_run hempty ops hroom hr,
      Call.record_eq (hroom c hc) hrecord⟩
  case eras => exact (eras_run ops hroom).2
  case indexesOf => exact hindexes
  case increasing =>
    intro a
    rw [hindexes]
    exact (pairwise_index_run ops hroom).sublist ((List.filter_sublist.filterMap _).map _)
  case covered =>
    intro i hi
    exact existsUnique_indexesOf_run hempty ops hroom hi
  case range_fresh =>
    intro hnil
    rw [hnil] at hnext
    have hzero : (s.run ops).history.next = 0 := UInt64.toNat_inj.1 hnext
    simp [HistoryLog.range, hstart, hzero]
  case range_used =>
    intro hne
    have hpos : 0 < (s.run ops).history.next := by
      rw [UInt64.lt_iff_toNat_lt, hnext]
      exact List.length_pos_iff.2 hne
    simp [HistoryLog.range, hstart, hpos]
  case inRange =>
    intro i
    simp [HistoryLog.demandInRange, require_eq_ok_iff, hstart]
  case unrecorded =>
    intro c hc hnone
    exact (Call.effect (hroom c hc)).history_of_unrecorded hnone
  case recorder =>
    intro c hc hnone
    refine Option.eq_none_iff_forall_ne_some.2 fun r hr => ?_
    obtain ⟨_, _, asked, _⟩ := (Call.effect (hroom c hc)).of_record hr
    cases hnone.symm.trans asked

open SampleRun in
/-- Of the six records the delegator left the second one. -/
theorem history_indexed_sampleRun :
    (∀ c ∈ anchor.trace operations, c.before.history.HasRoom) ∧
      anchor.HistoryIndexed operations ∧
      (anchor.run operations).history.indexesOf validator = [0, 2, 3, 4, 5] ∧
      (anchor.run operations).history.indexesOf delegator = [1] ∧
      (anchor.run operations).history.range = { start := 0, last := some 5 } := by
  have hroom : ∀ c ∈ anchor.trace operations, c.before.history.HasRoom := by decide +kernel
  exact ⟨hroom, history_indexed new_eq_anchor operations hroom, by decide +kernel,
    by decide +kernel, by decide +kernel⟩

end Anchor

end AppchainStaking
