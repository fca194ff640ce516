import AppchainStaking.Proofs.Anchor.InPlace
import AppchainStaking.Proofs.Settings.Batch

/-!
# Batches on an anchor

The protocol settings, the appchain settings, the appointments and the wrapped token are changed in
batches by commands of governance. All of them work in the same way: a batch takes effect as a whole
or not at all, two batches in a row are as one, and the last value that is assigned to a field
counts.
-/

namespace AppchainStaking

open Procedure

/-- A group as it is part of an anchor, with the command that changes it. -/
structure AnchorGroup (σ κ : Type) extends SettingsGroup σ κ where
  part : Anchor → σ
  put : Anchor → σ → Anchor
  command : List κ → Command
  part_put (s : Anchor) (g : σ) : part (put s g) = g
  put_part (s : Anchor) : put s (part s) = s
  put_put (s : Anchor) (g g' : σ) : put (put s g) g' = put s g'
  capability_command (changes : List κ) : (command changes).capability = .governance
  execute_command (s : Anchor) (changes : List κ) :
    s.execute (command changes) = (changes.foldlM apply (part s)).map fun g => (.done, put s g)

namespace AnchorGroup

variable {σ κ : Type} (G : AnchorGroup σ κ) (authorizer : Authorizer) (caller : AccountId)
  (s : Anchor)

def change (changes : List κ) : Except StakingError CommandReply × Anchor :=
  exec (Anchor.commandInPlace authorizer caller (G.command changes)) s

/-- How batches of changes to a group work on an anchor. -/
structure Batched : Prop where
  /-- A batch succeeds exactly if every prefix of it leads to a valid value. -/
  succeeds (changes : List κ) :
    (G.change authorizer caller s changes).1 = .ok .done ↔ G.StaysValid (G.part s) changes
  fails (changes : List κ) :
    (G.change authorizer caller s changes).1 ≠ .ok .done →
      G.change authorizer caller s changes = (.error .invalidValue, s)
  holds {changes : List κ} {s' : Anchor} :
    G.change authorizer caller s changes = (.ok .done, s') →
      ∀ f, G.value (G.part s') f = (G.last? changes f).getD (G.value (G.part s) f)
  frame {changes : List κ} {s' : Anchor} :
    G.change authorizer caller s changes = (.ok .done, s') → s' = G.put s (G.part s')
  /-- One batch is as two in a row, whoever may give the second one. -/
  append {first second : List κ} {authorizer' : Authorizer} {caller' : AccountId} {s' : Anchor} :
    authorizer' caller' .governance →
      (G.change authorizer caller s (first ++ second) = (.ok .done, s') ↔
        ∃ s₁, G.change authorizer caller s first = (.ok .done, s₁) ∧
          G.change authorizer' caller' s₁ second = (.ok .done, s'))
  /-- Changes to different fields may be swapped wherever both orders succeed. -/
  swap {earlier later : List κ} {c d : κ} {s' s'' : Anchor} :
    G.Apart c d →
      G.change authorizer caller s (earlier ++ c :: d :: later) = (.ok .done, s') →
        G.change authorizer caller s (earlier ++ d :: c :: later) = (.ok .done, s'') → s' = s''

variable {G authorizer caller s} {changes : List κ}

theorem change_eq (authorized : authorizer caller .governance) :
    G.change authorizer caller s changes =
      match changes.foldlM G.apply (G.part s) with
      | .ok g => (.ok .done, G.put s g)
      | .error e => (.error e, s) := by
  have hcommand : s.command authorizer caller (G.command changes) =
      s.execute (G.command changes) := by
    rw [Anchor.command, G.capability_command, Authorizer.demand, require, if_pos authorized]
    rfl
  rw [change, Anchor.exec_commandInPlace, hcommand, G.execute_command]
  cases changes.foldlM G.apply (G.part s) <;> rfl

theorem change_eq_done_iff {s' : Anchor} (authorized : authorizer caller .governance)
    (hs : G.Valid (G.part s)) :
    G.change authorizer caller s changes = (.ok .done, s') ↔
      G.StaysValid (G.part s) changes ∧ s' = G.put s (changes.foldl G.set (G.part s)) := by
  rw [change_eq authorized]
  constructor
  · intro h
    split at h
    · next g hfold =>
        cases h
        obtain ⟨hstays, rfl⟩ := (SettingsGroup.foldlM_apply_eq_ok_iff hs).1 hfold
        exact ⟨hstays, rfl⟩
    · cases h
  · rintro ⟨hstays, rfl⟩
    rw [(SettingsGroup.foldlM_apply_eq_ok_iff hs).2 ⟨hstays, rfl⟩]

theorem change_of_not_staysValid (authorized : authorizer caller .governance)
    (hs : G.Valid (G.part s)) (h : ¬G.StaysValid (G.part s) changes) :
    G.change authorizer caller s changes = (.error .invalidValue, s) := by
  rw [change_eq authorized]
  cases hfold : changes.foldlM G.apply (G.part s) with
  | ok g => exact absurd ((SettingsGroup.foldlM_apply_eq_ok_iff hs).1 hfold).1 h
  | error e => rw [SettingsGroup.eq_of_foldlM_apply_eq_error hfold]

theorem succeeds_iff (authorized : authorizer caller .governance) (hs : G.Valid (G.part s)) :
    (G.change authorizer caller s changes).1 = .ok .done ↔ G.StaysValid (G.part s) changes := by
  by_cases h : G.StaysValid (G.part s) changes
  · rw [(change_eq_done_iff authorized hs).2 ⟨h, rfl⟩]
    exact iff_of_true rfl h
  · rw [change_of_not_staysValid authorized hs h]
    exact iff_of_false (fun herror => by cases herror) h

theorem change_append (authorized : authorizer caller .governance) (hs : G.Valid (G.part s))
    {first second : List κ} {authorizer' : Authorizer} {caller' : AccountId} {s' : Anchor}
    (authorized' : authorizer' caller' .governance) :
    G.change authorizer caller s (first ++ second) = (.ok .done, s') ↔
      ∃ s₁, G.change authorizer caller s first = (.ok .done, s₁) ∧
        G.change authorizer' caller' s₁ second = (.ok .done, s') := by
  rw [change_eq_done_iff authorized hs, SettingsGroup.staysValid_append, List.foldl_append]
  constructor
  · rintro ⟨⟨hfirst, hsecond⟩, rfl⟩
    refine ⟨_, (change_eq_done_iff authorized hs).2 ⟨hfirst, rfl⟩, ?_⟩
    rw [← G.part_put s (first.foldl G.set (G.part s))] at hsecond
    refine (change_eq_done_iff authorized' hsecond.start).2 ⟨hsecond, ?_⟩
    rw [G.part_put, G.put_put]
  · rintro ⟨s₁, hdone, hdone'⟩
    obtain ⟨hfirst, rfl⟩ := (change_eq_done_iff authorized hs).1 hdone
    have hs₁ : G.Valid (G.part (G.put s (first.foldl G.set (G.part s)))) := by
      rw [G.part_put]
      exact hfirst.valid
    obtain ⟨hsecond, rfl⟩ := (change_eq_done_iff authorized' hs₁).1 hdone'
    rw [G.part_put] at hsecond
    refine ⟨⟨hfirst, hsecond⟩, ?_⟩
    rw [G.part_put, G.put_put]

theorem batched (authorized : authorizer caller .governance) (hs : G.Valid (G.part s)) :
    G.Batched authorizer caller s where
  succeeds _ := succeeds_iff authorized hs
  fails changes hfails :=
    change_of_not_staysValid authorized hs (mt (succeeds_iff authorized hs).2 hfails)
  holds h f := by
    obtain ⟨-, rfl⟩ := (change_eq_done_iff authorized hs).1 h
    rw [G.part_put, SettingsGroup.value_foldl_set]
  frame h := by
    obtain ⟨-, rfl⟩ := (change_eq_done_iff authorized hs).1 h
    rw [G.part_put]
  append := change_append authorized hs
  swap happart h h' := by
    obtain ⟨-, rfl⟩ := (change_eq_done_iff authorized hs).1 h
    obtain ⟨-, rfl⟩ := (change_eq_done_iff authorized hs).1 h'
    rw [SettingsGroup.foldl_set_swap happart]

end AnchorGroup

namespace Anchor

def protocolGroup : AnchorGroup ProtocolSettings ProtocolChange where
  toSettingsGroup := AppchainStaking.protocolGroup
  part s := s.settings.protocol
  put s protocol := { s with settings.protocol := protocol }
  command changes := .changeSettings (.protocol changes)
  part_put _ _ := rfl
  put_part _ := rfl
  put_put _ _ _ := rfl
  capability_command _ := rfl
  execute_command s changes := by
    change ((s.settings.protocol.applyAll changes >>= _) >>= _) =
      (s.settings.protocol.applyAll changes).map _
    cases s.settings.protocol.applyAll changes <;> rfl

def appchainGroup : AnchorGroup AppchainSettings AppchainChange where
  toSettingsGroup := AppchainStaking.appchainGroup
  part s := s.settings.appchain
  put s appchain := { s with settings.appchain := appchain }
  command changes := .changeSettings (.appchain changes)
  part_put _ _ := rfl
  put_part _ := rfl
  put_put _ _ _ := rfl
  capability_command _ := rfl
  execute_command s changes := by
    change ((s.settings.appchain.applyAll changes >>= _) >>= _) =
      (s.settings.appchain.applyAll changes).map _
    cases s.settings.appchain.applyAll changes <;> rfl

def appointmentGroup : AnchorGroup AppointmentSettings AppointmentChange where
  toSettingsGroup := AppchainStaking.appointmentGroup
  part s := s.settings.appointments
  put s appointments := { s with settings.appointments := appointments }
  command changes := .changeSettings (.appointments changes)
  part_put _ _ := rfl
  put_part _ := rfl
  put_put _ _ _ := rfl
  capability_command _ := rfl
  execute_command s changes := by
    have hfold : changes.foldlM AppchainStaking.appointmentGroup.apply s.settings.appointments =
      .ok (s.settings.appointments.applyAll changes) := List.foldlM_pure ..
    rw [hfold]
    rfl

def wrappedTokenGroup : AnchorGroup WrappedToken WrappedTokenChange where
  toSettingsGroup := AppchainStaking.wrappedTokenGroup
  part s := s.wrappedToken
  put s wrappedToken := { s with wrappedToken }
  command changes := .changeWrappedToken changes
  part_put _ _ := rfl
  put_part _ := rfl
  put_put _ _ _ := rfl
  capability_command _ := rfl
  execute_command s changes := by
    change (s.wrappedToken.applyAll changes >>= _) = (s.wrappedToken.applyAll changes).map _
    cases s.wrappedToken.applyAll changes <;> rfl

/-- Batches of whoever holds governance are atomic, sequential, and the last assignment counts, in
all four groups. Of the appchain settings and the wrapped token a batch is refused exactly for a
text that is too long, and appointments are never refused. -/
theorem batches_atomic (s : Anchor) (authorizer : Authorizer) (caller : AccountId)
    (authorized : authorizer caller .governance) (hs : s.settings.Valid)
    (ht : s.wrappedToken.metadata.Fits) :
    protocolGroup.Batched authorizer caller s ∧
      (appchainGroup.Batched authorizer caller s ∧
        ∀ changes, (appchainGroup.change authorizer caller s changes).1 = .ok .done ↔
          ∀ c ∈ changes, c.Fits) ∧
      (appointmentGroup.Batched authorizer caller s ∧
        ∀ changes, (appointmentGroup.change authorizer caller s changes).1 = .ok .done) ∧
      wrappedTokenGroup.Batched authorizer caller s ∧
        ∀ changes, (wrappedTokenGroup.change authorizer caller s changes).1 = .ok .done ↔
          ∀ c ∈ changes, c.Fits := by
  have hprotocol : protocolGroup.Batched authorizer caller s :=
    AnchorGroup.batched authorized hs.protocol
  have happchain : appchainGroup.Batched authorizer caller s :=
    AnchorGroup.batched authorized hs.appchain
  have happointments : appointmentGroup.Batched authorizer caller s :=
    AnchorGroup.batched authorized trivial
  have htoken : wrappedTokenGroup.Batched authorizer caller s :=
    AnchorGroup.batched authorized ht
  refine ⟨hprotocol, ⟨happchain, fun changes => ?_⟩, ⟨happointments, fun changes => ?_⟩, htoken,
    fun changes => ?_⟩
  · rw [happchain.succeeds]
    exact SettingsGroup.staysValid_iff_forall AppchainSettings.valid_set_iff hs.appchain
  · exact (happointments.succeeds changes).2 fun _ _ => trivial
  · rw [htoken.succeeds]
    exact SettingsGroup.staysValid_iff_forall WrappedToken.fits_set_iff ht

end Anchor

open SampleRun in
/-- Ninety validators at most and eighty at least are accepted in one order only, and of two fees
the second one counts. -/
theorem Anchor.batches_atomic_sampleRun :
    let governs := anchor.roles.authorize
    let widen : List ProtocolChange := [.maximumValidatorCount 90, .minimumValidatorCount 80]
    let fees : List ProtocolChange := [.delegationFeePercent 5, .delegationFeePercent 7]
    let charged := (protocolGroup.change governs SampleRun.owner anchor fees).2
    governs SampleRun.owner .governance ∧ anchor.settings.Valid ∧
      anchor.wrappedToken.metadata.Fits ∧
      (protocolGroup.change governs SampleRun.owner anchor widen).1 = .ok .done ∧
      protocolGroup.change governs SampleRun.owner anchor widen.reverse =
        (.error .invalidValue, anchor) ∧
      charged.settings.protocol.delegationFeePercent = 7 := by
  intro governs widen fees charged
  have authorized : governs SampleRun.owner .governance := by decide
  have hs : anchor.settings.Valid := SettingsStore.valid_default
  have ht : anchor.wrappedToken.metadata.Fits := WrappedToken.fits_default
  obtain ⟨hprotocol, -⟩ := batches_atomic anchor governs SampleRun.owner authorized hs ht
  have hfees : protocolGroup.change governs SampleRun.owner anchor fees = (.ok .done, charged) :=
    Prod.ext rfl rfl
  refine ⟨authorized, hs, ht, rfl, ?_, ?_⟩
  · exact hprotocol.fails widen.reverse (by rintro ⟨⟩)
  · exact hprotocol.holds hfees .delegationFeePercent

end AppchainStaking
