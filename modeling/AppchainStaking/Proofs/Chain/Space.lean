import AppchainStaking.Proofs.Anchor.Space
import AppchainStaking.Proofs.Chain.Denial
import AppchainStaking.Proofs.Chain.Effect

/-!
# Allocated space suffices

An account is sized before the instruction that writes to it. The account of the anchor has room
for what one operation can add, and the accounts of a fresh anchor and of a record are as large as
any of them can be. So no instruction fails because what it writes does not fit.
-/

namespace AppchainStaking

open Wire

theorem length_resized (data : Bytes) (size : Nat) : (resized data size).length = size := by
  rw [resized, blankData, List.length_append, List.length_take, List.length_replicate]
  omega

theorem length_blankData (size : Nat) : (blankData size).length = size :=
  List.length_replicate

def Housed {α : Type} (x : Except Fault α) : Prop :=
  FailsBy (fun f => ∀ role, f ≠ .access .doesNotFit role) x

theorem Fault.ne_doesNotFit_of_isDenial {f : Fault} (h : f.isDenial) (role : Option AccountRole) :
    f ≠ .access .doesNotFit role := by
  rintro rfl
  cases h

section Attempts

variable {α : Type} {x : Except Fault α}

theorem Denies.housed (h : Denies x) : Housed x :=
  FailsBy.mono h fun _ => Fault.ne_doesNotFit_of_isDenial

theorem housed_liftStaking (x : Except StakingError α) : Housed (liftStaking x) := by
  cases x with
  | error e => exact failsBy_error nofun
  | ok a => exact failsBy_ok a

theorem housed_token (x : Except TokenError α) : Housed (x.mapError .token) := by
  cases x with
  | error e => exact failsBy_error nofun
  | ok a => exact failsBy_ok a

/-- What an instruction reports is the fault of its outcome. -/
theorem Housed.fault_ne (hx : Housed x) {log : List String} {failure : Failure}
    (h : x.mapError (⟨·, log⟩) = .error failure) (role : Option AccountRole) :
    failure.fault ≠ .access .doesNotFit role := by
  cases x with
  | error e =>
      cases h
      exact hx e rfl role
  | ok a => cases h

end Attempts

namespace Chain

variable {c : Chain} {r : Request} {refs : List AccountRef} {s s' : Anchor}

/-- The stored anchor could have one more of everything. -/
def Extensible (c : Chain) : Prop := ∀ s, c.anchor? = some s → Wire.Extensible s

theorem housed_saveAnchor (hs : Wire.Extensible s) (h : Grows Anchor.growthRoom s s') :
    Housed (c.saveAnchor s s') := by
  have hfits := Anchor.fitsIn_requiredSpace hs h
  rw [← length_resized (c.anchorData.getD []) s.requiredSpace] at hfits
  obtain ⟨data, hstore⟩ := hfits.store?
  rw [saveAnchor, hstore]
  exact failsBy_ok _

theorem housed_createRecord {r : HistoryRecord} (h : Stored.FitsIn r HistoryRecord.space) :
    Housed (c.createRecord r) := by
  rw [← length_blankData HistoryRecord.space] at h
  obtain ⟨data, hstore⟩ := h.store?
  rw [createRecord, hstore]
  exact failsBy_ok _

theorem housed_saveRecorded {outcome : Except StakingError HistoryRecord × Anchor}
    (hs : Wire.Extensible s) (h : Grows Anchor.growthRoom s outcome.2)
    (hrecord : ∀ r, outcome.1 = .ok r → Stored.FitsIn r HistoryRecord.space) :
    Housed (c.saveRecorded s outcome) := by
  refine (housed_liftStaking _).bind fun r hr => ?_
  refine FailsBy.bind (failsBy_require nofun) fun _ _ => ?_
  refine (housed_saveAnchor hs h).bind fun c' _ => ?_
  exact (housed_createRecord (hrecord r (liftStaking_eq_ok_iff.1 hr))).bind fun _ _ => failsBy_ok _

theorem housed_manage
    {change : Anchor → AccountId → Except StakingError (Receipt × Anchor)} (hc : c.Extensible)
    (hchange : ∀ s signer receipt s', change s signer = .ok (receipt, s') →
      Grows Anchor.growthRoom s s') : Housed (c.manage (AccountRef.merge r.accounts) change) := by
  refine denies_manage_check.housed.bind fun ⟨s, signer⟩ hcheck => ?_
  refine (housed_liftStaking _).bind fun ⟨receipt, s'⟩ h => ?_
  have hgrows := hchange s signer receipt s' (liftStaking_eq_ok_iff.1 h)
  exact (housed_saveAnchor (hc s (manage_check_eq_ok hcheck).1) hgrows).bind fun _ _ => failsBy_ok _

theorem housed_command (hc : c.Extensible) (command : Command) :
    Housed (c.command (AccountRef.merge r.accounts) command) := by
  refine housed_manage hc fun s signer receipt s' h => ?_
  simp only [bind_eq_ok_iff, pure_eq_ok_iff, Prod.mk.injEq] at h
  obtain ⟨⟨reply, s₁⟩, hcommand, -, rfl⟩ := h
  obtain ⟨-, executed⟩ := Anchor.command_eq_ok_iff.1 hcommand
  exact (Anchor.grows_of_execute executed).mono (by decide)

theorem housed_setProfile (hc : c.Extensible) (entries : List ProfileEntry) :
    Housed (c.setProfile (AccountRef.merge r.accounts) entries) := by
  refine housed_manage hc fun s signer receipt s' h => ?_
  simp only [bind_eq_ok_iff, pure_eq_ok_iff, Prod.mk.injEq] at h
  obtain ⟨s₁, hprofile, -, rfl⟩ := h
  obtain ⟨distinct, fits, known, rfl⟩ := Anchor.setProfile_eq_ok_iff.1 hprofile
  have heffect : Anchor.Effect s (.setProfile signer entries : Operation Unit Unit) _ _ :=
    .profileSet rfl distinct fits known
  exact heffect.grows

/-- The outcome of a staking operation is stored. -/
theorem housed_staking (hs : Wire.Extensible s) {o : Operation Unit Unit}
    {outcome : Except StakingError HistoryRecord × Anchor}
    (h : s.perform o = outcome.map .staking id) : Housed (c.saveRecorded s outcome) := by
  have hgrows := s.perform_grows o
  rw [h] at hgrows
  refine housed_saveRecorded hs hgrows fun r hr => ?_
  refine Anchor.fitsIn_of_record (s := s) (o := o) ?_
  rw [h]
  exact congrArg (Reply.record? ∘ .staking) hr

theorem housed_direct (hc : c.Extensible) (now : Int64) (action : DirectAction) :
    Housed (c.direct (AccountRef.merge r.accounts) now action) := by
  refine denies_direct_check.housed.bind fun ⟨s, signer⟩ hcheck => ?_
  have loaded := (direct_check_eq_ok hcheck).1
  exact housed_staking (hc s loaded) (o := .act signer now action.toStakingAction) rfl

theorem housed_deposit (hc : c.Extensible) (now : Int64) (amount : Amount) (message : String) :
    Housed (c.deposit (AccountRef.merge r.accounts) now amount message) := by
  refine denies_deposit_check.housed.bind fun ⟨s, signer, account, vault⟩ hcheck => ?_
  refine FailsBy.bind (failsBy_require nofun) fun _ _ => ?_
  refine (housed_token _).bind fun tokens _ => ?_
  have loaded := (deposit_check_eq_ok hcheck).loaded
  exact housed_staking (hc s loaded) (o := .deposit signer now amount message) rfl

theorem housed_withdraw (hc : c.Extensible) :
    Housed (c.withdraw (AccountRef.merge r.accounts)) := by
  refine denies_withdraw_check.housed.bind fun ⟨s, signer, account, vault⟩ hcheck => ?_
  have hs := hc s (withdraw_check_eq_ok hcheck).loaded
  have hgrows : Grows Anchor.growthRoom s
      (s.withdraw signer (c.tokens.transfer vault account Address.vaultAuthorityId)).2 :=
    s.perform_grows
      (.withdraw signer (c.tokens.transfer vault account Address.vaultAuthorityId))
  dsimp only
  split
  · exact failsBy_error nofun
  · exact failsBy_error nofun
  · next s' hw =>
      rw [hw] at hgrows
      exact (housed_saveAnchor hs hgrows).bind fun _ _ => failsBy_ok _
  · next amount tokens s' hw =>
      rw [hw] at hgrows
      exact (housed_saveAnchor hs hgrows).bind fun _ _ => failsBy_ok _

theorem housed_query (q : Query) : Housed (c.query refs q) := by
  refine denies_presentAnchor.housed.bind fun _ _ => ?_
  refine denies_demandAddress.housed.bind fun _ _ => ?_
  exact (housed_liftStaking _).bind fun _ _ => failsBy_ok _

theorem housed_queryRecord (index : UInt64) : Housed (c.queryRecord refs index) := by
  refine denies_queryRecord_check.housed.bind fun s _ => ?_
  refine (housed_liftStaking _).bind fun _ _ => ?_
  split
  · exact failsBy_ok _
  · exact failsBy_error nofun

theorem housed_create_commit {vault : TokenAccount} {signer : AccountId}
    (h : Stored.FitsIn s Anchor.initialSpace) : Housed (create.commit c s vault signer) := by
  rw [← length_blankData Anchor.initialSpace] at h
  obtain ⟨data, hstore⟩ := h.store?
  unfold create.commit
  rw [hstore]
  split
  · exact (housed_token _).bind fun _ _ => failsBy_ok _
  · exact failsBy_ok _

theorem housed_create {id : String} {template : Template} {failure : Failure}
    (h : c.create (AccountRef.merge r.accounts) id template = .error failure)
    (role : Option AccountRole) : failure.fault ≠ .access .doesNotFit role := by
  rcases bind_eq_error_iff.1 h with hcheck | ⟨⟨mint, vault, signer⟩, -, h⟩
  · exact denies_create_check.housed.fault_ne hcheck role
  rcases bind_eq_error_iff.1 h with hestablished | ⟨s, hestablished, h⟩
  · exact (housed_liftStaking _).fault_ne hestablished role
  · obtain ⟨-, fresh⟩ :=
      create_establish_eq_ok (liftStaking_eq_ok_iff.1 (mapError_eq_ok_iff.1 hestablished))
    rcases bind_eq_error_iff.1 h with hcommit | ⟨c', -, h⟩
    · exact (housed_create_commit (Anchor.fitsIn_initialSpace fresh)).fault_ne hcommit role
    · cases h

theorem housed_run (hc : c.Extensible) {i : Instruction} {failure : Failure}
    (h : c.run (AccountRef.merge r.accounts) r.now i = .error failure)
    (role : Option AccountRole) : failure.fault ≠ .access .doesNotFit role := by
  cases i with
  | create id template => exact housed_create h role
  | command command => exact (housed_command hc command).fault_ne h role
  | setProfile entries => exact (housed_setProfile hc entries).fault_ne h role
  | deposit amount message => exact (housed_deposit hc r.now amount message).fault_ne h role
  | direct action => exact (housed_direct hc r.now action).fault_ne h role
  | withdraw => exact (housed_withdraw hc).fault_ne h role
  | query q => exact Housed.fault_ne (housed_query q).map h role
  | record index => exact Housed.fault_ne (housed_queryRecord index).map h role

theorem housed_ofData (data : Bytes) : Housed (Instruction.ofData data) := by
  refine FailsBy.bind (failsBy_found nofun) fun entry _ => ?_
  split
  · exact failsBy_ok _
  · exact failsBy_error nofun

/-- What is allocated before is always enough for what is written after: the account of the anchor
for the outcome of one operation, the account of a fresh anchor for every fresh anchor, and the
account of a record for every record. So no instruction fails for want of space. -/
theorem space_suffices {ε τ : Type} :
    (∀ (s : Anchor) (o : Operation ε τ), Wire.Extensible s →
        Wire.size (s.perform o).2 ≤ Wire.size s + Anchor.growthRoom ∧
          Stored.FitsIn (s.perform o).2 s.requiredSpace) ∧
      (∀ owner id template token vault bump vaultBump s,
        Anchor.new owner id template token vault bump vaultBump = .ok s →
          Stored.FitsIn s Anchor.initialSpace) ∧
      (∀ (s : Anchor) (o : Operation ε τ) r,
        (s.perform o).1.record? = some r → Stored.FitsIn r HistoryRecord.space) ∧
      ∀ (c : Chain) r failure role, c.Extensible → c.execute r = .error failure →
        failure.fault ≠ .access .doesNotFit role := by
  refine ⟨fun s o hs => ?_, fun _ _ _ _ _ _ _ _ => Anchor.fitsIn_initialSpace,
    fun _ _ _ => Anchor.fitsIn_of_record, fun c r failure role hc h => ?_⟩
  · have hgrows := s.perform_grows o
    exact ⟨hgrows.size, Anchor.fitsIn_requiredSpace hs hgrows⟩
  · rcases bind_eq_error_iff.1 h with hdata | ⟨i, -, hrun⟩
    · exact (housed_ofData r.data).fault_ne hdata role
    · exact housed_run hc hrun role

end Chain

open SampleRun in
/-- A fresh anchor could have one more of everything, so whatever is asked of it leaves an anchor
that fits the space required before. -/
theorem Chain.space_suffices_sampleRun :
    Wire.Extensible anchor ∧ anchor.requiredSpace = 8507 ∧
      ∀ o : Operation Unit Unit, Stored.FitsIn (anchor.perform o).2 8507 := by
  have hextensible : Wire.Extensible anchor := by decide +kernel
  have hspace : anchor.requiredSpace = 8507 := by decide +kernel
  obtain ⟨hperform, -⟩ := space_suffices (ε := Unit) (τ := Unit)
  exact ⟨hextensible, hspace, fun o => hspace ▸ (hperform anchor o hextensible).2⟩

end AppchainStaking
