import AppchainStaking.Proofs.Anchor.Effect
import Mathlib.Data.List.Nodup

/-!
# Numbers of the records

Records are numbered in the order of their calls, without gaps and from the next number of the
history on. So no number is given twice in a run.
-/

namespace AppchainStaking.Anchor

variable {ε τ : Type} {s s' : Anchor} {o : Operation ε τ} {reply : Reply ε τ}

/-- A record has the next number, and then the numbers go on by one. -/
theorem Effect.next_eq (h : Effect s o reply s') :
    reply.record?.toList.map (·.index.toNat) =
        List.range' s.history.next.toNat reply.record?.toList.length ∧
      s'.history.next.toNat = s.history.next.toNat + reply.record?.toList.length := by
  cases h with
  | recorded _ _ _ room =>
      refine ⟨rfl, ?_⟩
      simp only [Anchor.recorded, HistoryLog.extended, Reply.record?, Option.toList_some,
        List.length_singleton, UInt64.toNat_add]
      exact Nat.mod_eq_of_lt room
  | profileSet | paid => exact ⟨rfl, rfl⟩
  | commanded _ executed =>
      rw [(execute_frame executed).2.1]
      exact ⟨rfl, rfl⟩
  | unchanged unrecorded =>
      rw [unrecorded]
      exact ⟨rfl, rfl⟩

/-- The records of a run are numbered from the next number of the history on. -/
theorem index_run (ops : List (Operation ε τ))
    (hroom : ∀ c ∈ s.trace ops, c.before.history.HasRoom) :
    (records (s.trace ops)).map (·.index.toNat) =
      List.range' s.history.next.toNat (records (s.trace ops)).length := by
  induction ops generalizing s with
  | nil => rfl
  | cons o ops ih =>
      have room : s.history.HasRoom := hroom _ List.mem_cons_self
      obtain ⟨hindex, hnext⟩ :
          (Call.mk s o).record?.toList.map (·.index.toNat) =
              List.range' s.history.next.toNat (Call.mk s o).record?.toList.length ∧
            (s.perform o).2.history.next.toNat =
              s.history.next.toNat + (Call.mk s o).record?.toList.length :=
        (perform_effect room o).next_eq
      have hrest := ih fun c hc => hroom c (List.mem_cons_of_mem _ hc)
      rw [trace, records_cons, List.map_append, List.length_append, hindex, hrest, hnext,
        List.range'_append_1]

theorem nodup_index_run (ops : List (Operation ε τ))
    (hroom : ∀ c ∈ s.trace ops, c.before.history.HasRoom) :
    ((records (s.trace ops)).map (·.index)).Nodup := by
  refine List.Nodup.of_map UInt64.toNat ?_
  have hmap : ((records (s.trace ops)).map (·.index)).map UInt64.toNat =
      List.range' s.history.next.toNat (records (s.trace ops)).length := by
    rw [List.map_map, ← index_run ops hroom]
    rfl
  rw [hmap]
  exact List.nodup_range'

end AppchainStaking.Anchor
