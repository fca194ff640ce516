import AppchainStaking.Proofs.Anchor.InPlace

/-!
# Operations that fail

Nothing is rolled back when an operation fails, and still a failed operation leaves the anchor as it
was. The one exception is a staking action on a full history: its change to the ledger comes before
its fact is numbered, and it stays.
-/

namespace AppchainStaking

variable {ε τ : Type}

/-- The operation gave an error. A withdrawal also fails when its transfer does. -/
def Reply.failed : Reply ε τ → Bool
  | staking (.error _) | profile (.error _) | command (.error _) => true
  | withdrawal (.refused _) | withdrawal (.rejected _ _) => true
  | staking (.ok _) | profile (.ok _) | command (.ok _) => false
  | withdrawal .nothingDue | withdrawal (.paid _ _) => false

namespace Anchor

variable {s s' : Anchor} {o : Operation ε τ} {reply : Reply ε τ}

theorem Effect.eq_of_failed (h : Effect s o reply s') (failed : reply.failed) : s' = s := by
  cases h with
  | recorded | profileSet | paid | commanded => simp [Reply.failed] at failed
  | unchanged => rfl

theorem next_of_no_room (h : ¬s.history.HasRoom) :
    s.history.next.toNat = UInt64.size - 1 := by
  have hlt : s.history.next.toNat < UInt64.size := s.history.next.toNat_lt
  unfold HistoryLog.HasRoom at h
  omega

/-- Operations that write in place do what they are said to do, and one that fails leaves the anchor
as it was, although nothing undoes its writes. Only a staking action that is asked for when the last
number of the history has been reached may fail after it has changed the ledger. -/
theorem failures_change_nothing (s : Anchor) (o : Operation ε τ) :
    s.performInPlace o = s.perform o ∧
      ((s.performInPlace o).1.failed →
        (s.performInPlace o).2 = s ∨
          o.action?.isSome ∧ s.history.next.toNat = UInt64.size - 1 ∧
            ∃ ledger, s.performInPlace o =
              (.staking (.error .indexOutOfRange), { s with ledger })) := by
  have hsame : s.performInPlace o = s.perform o := performInPlace_eq s o
  refine ⟨hsame, fun failed => ?_⟩
  rcases hp : s.performInPlace o with ⟨reply, s'⟩
  have houtcome := perform_outcome s o
  rw [← hsame, hp] at houtcome
  rw [hp] at failed
  rcases houtcome with heffect | hunrecorded
  · exact .inl (heffect.eq_of_failed failed)
  · cases hunrecorded with
    | @intro action l f asked permitted step full =>
        exact .inr ⟨by simp [asked], next_of_no_room full, l, rfl⟩

/-- A withdrawal whose transfer fails. -/
theorem failures_change_nothing_sampleRun :
    let s := SampleRun.anchor.run (SampleRun.operations.take 7)
    let o : Operation Unit Unit := .withdraw SampleRun.validator fun _ => .error ()
    (s.performInPlace o).1.failed ∧ (s.performInPlace o).2 = s := by
  intro s o
  have failed : (s.performInPlace o).1.failed := by decide +kernel
  rcases (failures_change_nothing s o).2 failed with hsame | ⟨asked, -⟩
  · exact ⟨failed, hsame⟩
  · cases asked

/-- On a full history a registration fails, and the validator is there nevertheless. -/
example :
    let s := { SampleRun.anchor with history.next := .ofNat (UInt64.size - 1) }
    let answer := s.performInPlace (SampleRun.operations.head (by decide))
    answer.1.failed ∧ answer.2.ledger.validatorCount = 1 := by
  decide +kernel

end Anchor

end AppchainStaking
