import AppchainStaking.Proofs.Anchor.Privilege
import AppchainStaking.Proofs.Chain.Refinement
import AppchainStaking.Proofs.Chain.Upgrade
import Mathlib.Data.List.Induction

/-!
# Ownership comes from the upgrade authority

No instruction touches the code of the program, so its data names the same upgrade authority during
a whole run. The one creation that can succeed is signed by that authority and makes it the owner.
From then on an owner is followed only by the account to which it hands the anchor over itself.
-/

namespace AppchainStaking

theorem Anchor.execute_owner {s s' : Anchor} {c : Command} {reply : CommandReply}
    (h : s.execute c = .ok (reply, s')) : s'.owner = s.owner ∨ c = .setOwner s'.owner := by
  cases c <;>
    simp only [Anchor.execute, bind_eq_ok_iff, pure_eq_ok_iff, Prod.mk.injEq] at h
  case setOwner =>
    obtain ⟨-, rfl⟩ := h
    exact .inr rfl
  case changeSettings | changeWrappedToken | goBooting | goLive | goBroken | switchEra =>
    obtain ⟨_, _, _, rfl⟩ := h
    exact .inl rfl
  case setPrice | pauseTransfers =>
    obtain ⟨_, rfl⟩ := h
    exact .inl rfl

/-- A command outside the special roles is the owner's. -/
theorem Roles.eq_owner_of_authorize {roles : Roles} {caller : AccountId}
    (h : roles.authorize caller .governance) : caller = roles.owner := by
  simpa [Roles.authorize] using h

namespace Chain

/-- The request succeeds in a transfer of ownership to `owner` that `former` signed. -/
structure HandsOver (c : Chain) (r : Request) (former owner : AccountId) : Prop where
  decoded : Instruction.ofData r.data = .ok (.command (.setOwner owner))
  succeeded : ∃ outcome, c.execute r = .ok outcome
  signed : r.SignedAt 1 former

variable {c c' c₀ : Chain} {r : Request} {rs : List Request} {s : Anchor} {receipt : Receipt}

theorem programData_of_execute (h : c.execute r = .ok (receipt, c')) :
    c'.programData = c.programData := by
  obtain ⟨i, -, hrun⟩ := execute_eq_ok_iff.1 h
  rcases carries_of_run hrun with ⟨id, template, rfl⟩ | hquestion | ⟨_, _, hcarries⟩
  · obtain ⟨s, mint, vault, signer, -, -, -, -, hsaved⟩ := create_eq_ok hrun
    exact hsaved.programData
  · rw [(run_question_eq_ok hquestion hrun).1]
  · exact hcarries.programData

@[simp] theorem programData_step (c : Chain) (r : Request) :
    (c.step r).programData = c.programData := by
  unfold step
  split
  · next h => exact programData_of_execute h
  · rfl

theorem programData_after (c : Chain) (rs : List Request) :
    (c.after rs).programData = c.programData := by
  induction rs generalizing c with
  | nil => rfl
  | cons r rs ih => exact (ih (c.step r)).trans (programData_step c r)

/-- A creation is signed by the upgrade authority, which becomes the owner. -/
theorem owner_of_creates (h : c.creates r) :
    ∃ a s, r.SignedAt 4 a ∧ RecordsAuthority c.programData (1 :: a.bytes) ∧
      c.anchorData = none ∧ (c.step r).anchor? = some s ∧ s.owner = a := by
  unfold creates at h
  split at h
  · next id template outcome hdata hexecute =>
      obtain ⟨receipt, c'⟩ := outcome
      obtain ⟨i, hdata', hrun⟩ := execute_eq_ok_iff.1 hexecute
      obtain rfl := Except.ok.inj (hdata.symm.trans hdata')
      obtain ⟨s, mint, vault, a, accounts, hauthority, fresh, -, hsaved⟩ := create_eq_ok hrun
      obtain ⟨-, -, -, howner, -⟩ := Anchor.new_eq_ok fresh
      have saved := hsaved.saved
      rw [← step_eq_of_ok hexecute] at saved
      exact ⟨a, s, accounts.signed, demandUpgradeAuthority_eq_ok_iff.1 hauthority,
        accounts.vacant, saved, howner⟩
  · cases h

theorem owner_of_command {command : Command} (loaded : c.anchor? = some s)
    (h : c.command (AccountRef.merge r.accounts) command = .ok (receipt, c')) :
    ∃ s', c'.anchor? = some s' ∧
      (s'.owner = s.owner ∨ command = .setOwner s'.owner ∧ r.SignedAt 1 s.owner) := by
  obtain ⟨s₀, s', signer, reply, loaded₀, signed, hcommand, -, hsaved⟩ := command_eq_ok h
  obtain rfl := Option.some.inj (loaded.symm.trans loaded₀)
  obtain ⟨authorized, executed⟩ := Anchor.command_eq_ok_iff.1 hcommand
  refine ⟨s', hsaved.saved, ?_⟩
  rcases Anchor.execute_owner executed with howner | hset
  · exact .inl howner
  · rw [hset] at authorized
    obtain rfl : signer = s.owner := Roles.eq_owner_of_authorize authorized
    exact .inr ⟨hset, signed⟩

/-- What is not a command keeps the owner. -/
theorem Carries.owner_eq {i : Instruction} {o : Operation TokenError TokenBook}
    (loaded : c.anchor? = some s) {s₀ : Anchor} (h : c.Carries s₀ r i o c')
    (hi : ∀ command, i ≠ .command command) :
    ∃ s', c'.anchor? = some s' ∧ s'.owner = s.owner := by
  obtain rfl := Option.some.inj (loaded.symm.trans h.loaded)
  have hne : ∀ authorizer caller command, o ≠ .command authorizer caller command := by
    rintro authorizer caller command rfl
    have hasked := h.asked
    cases i with
    | command command => exact hi command rfl
    | create | query | record => cases hasked
    | setProfile | deposit | direct | withdraw =>
        simp [asked?, Option.bind_eq_some_iff] at hasked
  obtain ⟨ledger, history, unbonding, hperform⟩ := s.perform_of_ne_command hne
  refine ⟨_, h.saved, ?_⟩
  rw [hperform]

/-- A stored anchor stays, and its owner is followed only by the account that it names itself. -/
theorem owner_step (loaded : c.anchor? = some s) (r : Request) :
    ∃ s', (c.step r).anchor? = some s' ∧
      (s'.owner = s.owner ∨ c.HandsOver r s.owner s'.owner) := by
  cases hexecute : c.execute r with
  | error f =>
      rw [step_eq_of_quiet (.inl ⟨f, hexecute⟩)]
      exact ⟨s, loaded, .inl rfl⟩
  | ok outcome =>
      obtain ⟨receipt, c'⟩ := outcome
      rw [step_eq_of_ok hexecute]
      obtain ⟨i, hdata, hrun⟩ := execute_eq_ok_iff.1 hexecute
      rcases carries_of_run hrun with ⟨id, template, rfl⟩ | hquestion | ⟨_, _, hcarries⟩
      · obtain ⟨_, vacant, -⟩ := founded?_of_create hrun
        cases (anchor?_eq_none vacant).symm.trans loaded
      · rw [← step_eq_of_ok hexecute, step_eq_of_quiet (.inr ⟨i, hdata, hquestion⟩)]
        exact ⟨s, loaded, .inl rfl⟩
      · by_cases hi : ∃ command, i = .command command
        · obtain ⟨command, rfl⟩ := hi
          obtain ⟨s', saved, howner⟩ := owner_of_command loaded (mapError_eq_ok_iff.1 hrun)
          refine ⟨s', saved, howner.imp_right ?_⟩
          rintro ⟨rfl, signed⟩
          exact ⟨hdata, ⟨_, hexecute⟩, signed⟩
        · obtain ⟨s', saved, howner⟩ := hcarries.owner_eq loaded fun command h => hi ⟨command, h⟩
          exact ⟨s', saved, .inl howner⟩

/-- How an account came by the ownership in the course of some requests: the upgrade authority
created the anchor for itself, and each owner after it was named by the one before. -/
inductive Inherits (c₀ : Chain) : List Request → AccountId → Prop
  | founded {rs : List Request} {r : Request} {a : AccountId}
      (created : (c₀.after rs).creates r)
      (signed : r.SignedAt 4 a)
      (recorded : RecordsAuthority c₀.programData (1 :: a.bytes)) :
      Inherits c₀ (rs ++ [r]) a
  | kept {rs : List Request} {r : Request} {a : AccountId}
      (owned : Inherits c₀ rs a) :
      Inherits c₀ (rs ++ [r]) a
  | handed {rs : List Request} {r : Request} {a b : AccountId}
      (owned : Inherits c₀ rs a)
      (transfer : (c₀.after rs).HandsOver r a b) :
      Inherits c₀ (rs ++ [r]) b

theorem after_concat (c : Chain) (rs : List Request) (r : Request) :
    c.after (rs ++ [r]) = (c.after rs).step r := c.after_append rs [r]

/-- There is an anchor exactly after its one creation. -/
theorem creations_of_vacant (vacant : c.anchorData = none) (rs : List Request) :
    (c.after rs).anchorData = none ∧ c.creations rs = 0 ∨
      ((c.after rs).anchor?).isSome ∧ c.creations rs = 1 := by
  induction rs with
  | nil => exact .inl ⟨vacant, rfl⟩
  | cons r rs ih =>
      cases c.refined r with
      | founded _ founds saved =>
          obtain ⟨hanchor, -, hcount⟩ := after_of_loaded saved rs
          refine .inr ⟨Option.isSome_of_eq_some hanchor, ?_⟩
          rw [creations, if_pos founds.succeeded, hcount]
      | carried loaded => cases (anchor?_eq_none vacant).symm.trans loaded
      | quiet h =>
          have hstep := step_eq_of_quiet h
          have hafter : c.after (r :: rs) = c.after rs := congrArg (after · rs) hstep
          rw [hafter, creations, creates_of_quiet h, hstep]
          simpa using ih

/-- An anchor that was not there before the last request was created by it. -/
theorem creates_of_fresh (hbefore : c.anchor? = none) (loaded : (c.step r).anchor? = some s) :
    c.creates r := by
  cases c.refined r with
  | founded _ founds => exact founds.succeeded
  | carried hloaded => cases hbefore.symm.trans hloaded
  | quiet h =>
      rw [step_eq_of_quiet h, hbefore] at loaded
      cases loaded

theorem inherits_after (vacant : c₀.anchorData = none) (rs : List Request) :
    ∀ s, (c₀.after rs).anchor? = some s → c₀.Inherits rs s.owner := by
  induction rs using List.reverseRecOn with
  | nil =>
      intro s loaded
      cases (anchor?_eq_none vacant).symm.trans loaded
  | append_singleton rs r ih =>
      intro s loaded
      rw [after_concat] at loaded
      cases hbefore : (c₀.after rs).anchor? with
      | none =>
          have created := creates_of_fresh hbefore loaded
          obtain ⟨a, s', signed, recorded, -, loaded', rfl⟩ := owner_of_creates created
          obtain rfl := Option.some.inj (loaded.symm.trans loaded')
          rw [programData_after] at recorded
          exact .founded created signed recorded
      | some s₀ =>
          obtain ⟨s', loaded', hkept | hover⟩ := owner_step hbefore r
          all_goals obtain rfl := Option.some.inj (loaded.symm.trans loaded')
          · rw [hkept]
            exact (ih s₀ hbefore).kept
          · exact (ih s₀ hbefore).handed hover

/-- How ownership stands after the requests `rs`, and what one more request can do to it. -/
structure Owned (c₀ : Chain) (rs : List Request) : Prop where
  once : c₀.creations rs ≤ 1
  stored_iff : ((c₀.after rs).anchor?).isSome ↔ c₀.creations rs = 1
  founded : ∀ r, (c₀.after rs).creates r → ∃ a s, r.SignedAt 4 a ∧
    RecordsAuthority c₀.programData (1 :: a.bytes) ∧
    ((c₀.after rs).step r).anchor? = some s ∧ s.owner = a
  /-- The owner is followed only by an account to which it hands the anchor over. -/
  followed : ∀ r s, (c₀.after rs).anchor? = some s →
    ∃ s', ((c₀.after rs).step r).anchor? = some s' ∧
      (s'.owner = s.owner ∨ (c₀.after rs).HandsOver r s.owner s'.owner)
  inherited : ∀ s, (c₀.after rs).anchor? = some s → c₀.Inherits rs s.owner

/-- On a chain without an anchor, whatever the data of the program's code, ownership comes from the
upgrade authority alone. The data names one in a single layout, and the check tells apart data with
another key, with none, and of any other layout. -/
theorem ownership_unbroken (vacant : c₀.anchorData = none) :
    (∀ rs, c₀.Owned rs) ∧
      ∀ (data : Bytes) (a : AccountId),
        (demandUpgradeAuthority data a = .ok () ↔ RecordsAuthority data (1 :: a.bytes)) ∧
        (demandUpgradeAuthority data a = .error .noUpgradeAuthority ↔
          RecordsAuthority data [0]) ∧
        (demandUpgradeAuthority data a = .error .invalidUpgradeAuthority ↔
          ∃ key : AccountId, key ≠ a ∧ RecordsAuthority data (1 :: key.bytes)) ∧
        (demandUpgradeAuthority data a = .error .invalidProgramData ↔
          ¬ RecordsAuthority data [0] ∧
            ∀ key : AccountId, ¬ RecordsAuthority data (1 :: key.bytes)) := by
  refine ⟨fun rs => ⟨?_, ?_, fun r created => ?_, fun r s loaded => owner_step loaded r,
    inherits_after vacant rs⟩, fun data a => ⟨demandUpgradeAuthority_eq_ok_iff,
    demandUpgradeAuthority_eq_noUpgradeAuthority_iff,
    demandUpgradeAuthority_eq_invalidUpgradeAuthority_iff,
    demandUpgradeAuthority_eq_invalidProgramData_iff⟩⟩
  · rcases creations_of_vacant vacant rs with ⟨-, hcount⟩ | ⟨-, hcount⟩ <;> omega
  · rcases creations_of_vacant vacant rs with ⟨hnone, hcount⟩ | ⟨hsome, hcount⟩
    · rw [anchor?_eq_none hnone, hcount]
      simp
    · exact iff_of_true hsome hcount
  · obtain ⟨a, s, signed, recorded, -, saved, howner⟩ := owner_of_creates created
    rw [programData_after] at recorded
    exact ⟨a, s, signed, recorded, saved, howner⟩

end Chain

namespace SampleChain

open SampleRun (owner validator)

def handover : Request where
  data := (Instruction.command (.setOwner validator)).data
  accounts := [writable .anchor, signing owner, readable .systemProgram]
  now := 12

end SampleChain

open SampleChain SampleRun in
/-- The upgrade authority of the sample is its first owner, and the validator the next. -/
theorem Chain.ownership_unbroken_sampleChain :
    chain.anchorData = none ∧ chain.creations [creation, handover] = 1 ∧
      (∃ a, creation.SignedAt 4 a ∧ RecordsAuthority chain.programData (1 :: a.bytes)) ∧
      (chain.after [creation]).anchor?.map (·.owner) = some owner ∧
      (chain.after [creation, handover]).anchor?.map (·.owner) = some validator ∧
      chain.Inherits [creation, handover] validator ∧
      demandUpgradeAuthority chain.programData validator = .error .invalidUpgradeAuthority := by
  have hcreates : chain.creates creation := by decide +kernel
  have hcount : chain.creations [creation, handover] = 1 := by decide +kernel
  have hfirst : (chain.after [creation]).anchor?.map (·.owner) = some owner := by decide +kernel
  have hlast : (chain.after [creation, handover]).anchor?.map (·.owner) = some validator := by
    decide +kernel
  obtain ⟨hrun, hcheck⟩ := ownership_unbroken (show chain.anchorData = none from rfl)
  obtain ⟨a, _, signed, recorded, -⟩ := (hrun []).founded creation hcreates
  obtain ⟨s, loaded, hs⟩ := Option.map_eq_some_iff.1 hlast
  have inherited := (hrun [creation, handover]).inherited s loaded
  rw [hs] at inherited
  refine ⟨rfl, hcount, ⟨a, signed, recorded⟩, hfirst, hlast, inherited, ?_⟩
  have hother : owner ≠ validator := by decide
  exact (hcheck _ _).2.2.1.2 ⟨owner, hother, [7, 0, 0, 0, 0, 0, 0, 0], [], rfl, rfl⟩

end AppchainStaking
