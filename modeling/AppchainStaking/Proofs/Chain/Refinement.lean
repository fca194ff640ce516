import AppchainStaking.Proofs.Anchor.Failure
import AppchainStaking.Proofs.Chain.Permanence

/-!
# Instructions refine operations

The chain is an anchor behind checks. On a chain that starts without one, the account of the anchor
holds what the one successful creation made of its accounts and arguments, after the operations that
the later successful instructions stand for, in their order. Each is asked by the signer at the time
of the clock, under the roles of the anchor before it. Requests that fail and instructions that only
ask leave the chain as it is.
-/

namespace AppchainStaking

def Address.key? : Address → Option AccountId
  | key a => some a
  | anchor | record _ | programData => none

/-- The key of the account that plays a part, by the place of the part in the table. -/
def Request.key? (r : Request) (e : Entry) (role : AccountRole) : Option AccountId :=
  r.accounts[e.accounts.idxOf role]?.bind (·.address.key?)

namespace Chain

def tokenAccount? (c : Chain) (r : Request) (e : Entry) (role : AccountRole) :
    Option TokenAccount := do
  c.tokens.account? (← r.key? e role)

/-- The anchor that a creation makes: its signer is the owner, and mint and vault are those of its
accounts. -/
def founded? (c : Chain) (r : Request) (id : String) (template : Template) : Option Anchor := do
  let owner ← r.key? .create .signer
  let key ← r.key? .create .stakeMint
  let mint ← c.mints.find? (·.address = key)
  let vault ← r.key? .create .stakeVault
  (Anchor.new owner id template mint.stakeToken vault Address.anchorBump
    Address.vaultAuthorityBump).toOption

def asked? (c : Chain) (s : Anchor) (r : Request) :
    Instruction → Option (Operation TokenError TokenBook)
  | .command command => do
      let caller ← r.key? (Instruction.command command).entry .signer
      return .command s.roles.authorize caller command
  | .setProfile entries => return .setProfile (← r.key? .setProfile .signer) entries
  | .deposit amount message => return .deposit (← r.key? .deposit .signer) r.now amount message
  | .direct action => do
      let caller ← r.key? (Instruction.direct action).entry .signer
      return .act caller r.now action.toStakingAction
  | .withdraw => do
      let caller ← r.key? .withdraw .signer
      let vault ← c.tokenAccount? r .withdraw .stakeVault
      let account ← c.tokenAccount? r .withdraw .userTokenAccount
      return .withdraw caller (c.tokens.transfer vault account Address.vaultAuthorityId)
  | .create _ _ | .query _ | .record _ => none

def operation? (c : Chain) (s : Anchor) (r : Request) : Option (Operation TokenError TokenBook) :=
  match Instruction.ofData r.data, c.execute r with
  | .ok i, .ok _ => c.asked? s r i
  | _, _ => none

/-- The operations of those requests that succeed, from the chain `c` with the anchor `s` on. -/
def operations (c : Chain) (s : Anchor) : List Request → List (Operation TokenError TokenBook)
  | [] => []
  | r :: rs =>
      match c.operation? s r with
      | some o => o :: (c.step r).operations (s.perform o).2 rs
      | none => (c.step r).operations s rs

def creates (c : Chain) (r : Request) : Bool :=
  match Instruction.ofData r.data, c.execute r with
  | .ok (.create _ _), .ok _ => true
  | _, _ => false

def creations (c : Chain) : List Request → Nat
  | [] => 0
  | r :: rs => (if c.creates r then 1 else 0) + (c.step r).creations rs

/-- The request creates the anchor `s`, out of its accounts and arguments. -/
structure Founds (c : Chain) (r : Request) (s : Anchor) : Prop where
  succeeded : c.creates r
  founded : ∃ id template, Instruction.ofData r.data = .ok (.create id template) ∧
    c.founded? r id template = some s

/-- The request fails or only asks. -/
def Quiet (c : Chain) (r : Request) : Prop :=
  (∃ f, c.execute r = .error f) ∨ ∃ i, Instruction.ofData r.data = .ok i ∧ i.isQuestion

variable {c c' c₀ : Chain} {r : Request} {rs : List Request} {s : Anchor} {receipt : Receipt}

theorem key?_of_lists {e : Entry} {role : AccountRole} {n : Nat} {a : AccountId}
    (h : r.Lists n a) (hplace : e.accounts.idxOf role = n) : r.key? e role = some a := by
  obtain ⟨ref, hget, haddress⟩ := Option.map_eq_some_iff.1 h
  rw [Request.key?, hplace, hget, Option.bind_some, haddress]
  rfl

theorem tokenAccount?_of_lists {e : Entry} {role : AccountRole} {n : Nat} {t : TokenAccount}
    (h : r.Lists n t.address) (hplace : e.accounts.idxOf role = n)
    (hlisted : c.tokens.account? t.address = some t) : c.tokenAccount? r e role = some t := by
  rw [tokenAccount?, key?_of_lists h hplace]
  exact hlisted

theorem idxOf_signer_command (command : Command) :
    (Instruction.command command).entry.accounts.idxOf .signer = 1 := by
  rcases command with (_ | _ | _) | _ | _ | _ | _ | _ | _ | _ | _ <;> rfl

theorem idxOf_signer_direct (action : DirectAction) :
    (Instruction.direct action).entry.accounts.idxOf .signer = 2 := by
  rcases action with _ | _ | (_ | _) | _ | _ <;> rfl

/-- What a request makes of a stored anchor, when it asks the operation `o` of it. The code of the
program stays as it is. -/
structure Carries (c : Chain) (s : Anchor) (r : Request) (i : Instruction)
    (o : Operation TokenError TokenBook) (c' : Chain) : Prop where
  loaded : c.anchor? = some s
  asked : c.asked? s r i = some o
  succeeded : (s.perform o).1.failed = false
  saved : c'.anchor? = some (s.perform o).2
  programData : c'.programData = c.programData

theorem Carries.of_performed {i : Instruction} {o : Operation TokenError TokenBook}
    {a : Reply TokenError TokenBook} {s' : Anchor} (loaded : c.anchor? = some s)
    (asked : c.asked? s r i = some o) (performed : s.perform o = (a, s'))
    (succeeded : a.failed = false) (saved : c'.anchor? = some s')
    (same : c'.programData = c.programData) : c.Carries s r i o c' := by
  refine ⟨loaded, asked, ?_, ?_, same⟩
  · rw [performed]
    exact succeeded
  · rw [performed]
    exact saved

theorem carries_of_command {command : Command}
    (h : c.command (AccountRef.merge r.accounts) command = .ok (receipt, c')) :
    ∃ s o, c.Carries s r (.command command) o c' := by
  obtain ⟨s, s', signer, reply, loaded, signed, hcommand, -, hsaved⟩ := command_eq_ok h
  refine ⟨s, .command s.roles.authorize signer command, ?_⟩
  refine .of_performed (a := .command (.ok reply)) loaded ?_ ?_ rfl hsaved.saved
    hsaved.programData
  · rw [asked?, key?_of_lists signed.listed (idxOf_signer_command command)]
    rfl
  · rw [Anchor.perform, hcommand]
    rfl

theorem carries_of_setProfile {entries : List ProfileEntry}
    (h : c.setProfile (AccountRef.merge r.accounts) entries = .ok (receipt, c')) :
    ∃ s o, c.Carries s r (.setProfile entries) o c' := by
  obtain ⟨s, s', signer, loaded, signed, hprofile, -, hsaved⟩ := setProfile_eq_ok h
  refine ⟨s, .setProfile signer entries, ?_⟩
  refine .of_performed (a := .profile (.ok ())) loaded ?_ ?_ rfl hsaved.saved
    hsaved.programData
  · rw [asked?, key?_of_lists signed.listed rfl]
    rfl
  · rw [Anchor.perform, hprofile]
    rfl

theorem carries_of_deposit {amount : Amount} {message : String}
    (h : c.deposit (AccountRef.merge r.accounts) r.now amount message = .ok (receipt, c')) :
    ∃ s o, c.Carries s r (.deposit amount message) o c' := by
  obtain ⟨s, s', signer, account, vault, tokens, record, accounts, -, hdeposit, hfiled⟩ :=
    deposit_eq_ok h
  refine ⟨s, .deposit signer r.now amount message, ?_⟩
  refine .of_performed (a := .staking (.ok record)) accounts.loaded ?_ ?_ rfl hfiled.saved
    hfiled.programData
  · rw [asked?, key?_of_lists accounts.signed.listed rfl]
    rfl
  · rw [Anchor.perform, hdeposit]
    rfl

theorem carries_of_direct {action : DirectAction}
    (h : c.direct (AccountRef.merge r.accounts) r.now action = .ok (receipt, c')) :
    ∃ s o, c.Carries s r (.direct action) o c' := by
  obtain ⟨s, s', signer, record, loaded, signed, -, hact, hfiled⟩ := direct_eq_ok h
  refine ⟨s, .act signer r.now action.toStakingAction, ?_⟩
  refine .of_performed (a := .staking (.ok record)) loaded ?_ ?_ rfl hfiled.saved
    hfiled.programData
  · rw [asked?, key?_of_lists signed.listed (idxOf_signer_direct action)]
    rfl
  · rw [Anchor.perform, hact]
    rfl

theorem carries_of_withdraw (h : c.withdraw (AccountRef.merge r.accounts) = .ok (receipt, c')) :
    ∃ s o, c.Carries s r .withdraw o c' := by
  obtain ⟨s, s', signer, account, vault, w, tokens, accounts, hw, hsaved, houtcome⟩ :=
    withdraw_eq_ok h
  refine ⟨s, .withdraw signer (c.tokens.transfer vault account Address.vaultAuthorityId), ?_⟩
  refine .of_performed (a := .withdrawal w) accounts.loaded ?_ ?_ ?_ hsaved.saved
    hsaved.programData
  · rw [asked?, key?_of_lists accounts.signed.listed rfl,
      tokenAccount?_of_lists accounts.vaultAt rfl accounts.vaultListed,
      tokenAccount?_of_lists accounts.accountAt rfl accounts.listed]
    rfl
  · rw [Anchor.perform, hw]
    rfl
  · rcases houtcome with ⟨rfl, -⟩ | ⟨amount, rfl, -⟩ <;> rfl

theorem founded?_of_create {id : String} {template : Template}
    (h : c.create (AccountRef.merge r.accounts) id template = .ok (receipt, c')) :
    ∃ s, c.anchorData = none ∧ c.founded? r id template = some s ∧ c'.anchor? = some s := by
  obtain ⟨s, mint, vault, signer, accounts, -, fresh, -, hsaved⟩ := create_eq_ok h
  refine ⟨s, accounts.vacant, ?_, hsaved.saved⟩
  rw [founded?, key?_of_lists accounts.signed.listed rfl, key?_of_lists accounts.mintAt rfl,
    key?_of_lists accounts.vaultAt rfl]
  change (c.mints.find? (·.address = mint.address)).bind _ = _
  rw [accounts.mintListed]
  exact toOption_eq_some_iff.2 fresh

/-- An instruction that neither creates the anchor nor only asks carries out an operation. -/
theorem carries_of_run {i : Instruction}
    (h : c.run (AccountRef.merge r.accounts) r.now i = .ok (receipt, c')) :
    (∃ id template, i = .create id template) ∨ i.isQuestion ∨ ∃ s o, c.Carries s r i o c' := by
  cases i with
  | create id template => exact .inl ⟨id, template, rfl⟩
  | query | record => exact .inr (.inl rfl)
  | command => exact .inr (.inr (carries_of_command (mapError_eq_ok_iff.1 h)))
  | setProfile => exact .inr (.inr (carries_of_setProfile (mapError_eq_ok_iff.1 h)))
  | deposit => exact .inr (.inr (carries_of_deposit (mapError_eq_ok_iff.1 h)))
  | direct => exact .inr (.inr (carries_of_direct (mapError_eq_ok_iff.1 h)))
  | withdraw => exact .inr (.inr (carries_of_withdraw (mapError_eq_ok_iff.1 h)))

theorem step_eq_of_quiet (h : c.Quiet r) : c.step r = c := by
  cases hexecute : c.execute r with
  | error f => rw [step, hexecute]
  | ok outcome =>
      obtain ⟨receipt, c'⟩ := outcome
      rw [step_eq_of_ok hexecute]
      obtain ⟨i, hdata, hrun⟩ := execute_eq_ok_iff.1 hexecute
      rcases h with ⟨f, hf⟩ | ⟨i', hdata', hquestion⟩
      · cases hf.symm.trans hexecute
      obtain rfl := Except.ok.inj (hdata.symm.trans hdata')
      exact (run_question_eq_ok hquestion hrun).1

theorem operation?_of_quiet (h : c.Quiet r) (s : Anchor) : c.operation? s r = none := by
  unfold operation?
  split
  · next i outcome hdata hexecute =>
      rcases h with ⟨f, hf⟩ | ⟨i', hdata', hquestion⟩
      · cases hf.symm.trans hexecute
      obtain rfl := Except.ok.inj (hdata.symm.trans hdata')
      cases i with
      | query | record => rfl
      | create | command | setProfile | deposit | direct | withdraw => cases hquestion
  · rfl

theorem creates_of_quiet (h : c.Quiet r) : c.creates r = false := by
  unfold creates
  split
  · next hdata hexecute =>
      rcases h with ⟨f, hf⟩ | ⟨i', hdata', hquestion⟩
      · cases hf.symm.trans hexecute
      · cases hdata.symm.trans hdata'
        cases hquestion
  · rfl

inductive Refined (c : Chain) (r : Request) : Prop
  | founded {s : Anchor}
      (vacant : c.anchorData = none)
      (founds : c.Founds r s)
      (saved : (c.step r).anchor? = some s)
  | carried {s : Anchor} {o : Operation TokenError TokenBook}
      (loaded : c.anchor? = some s)
      (asked : c.operation? s r = some o)
      (changing : c.creates r = false)
      (succeeded : (s.perform o).1.failed = false)
      (saved : (c.step r).anchor? = some (s.perform o).2)
  | quiet (h : c.Quiet r)

theorem Carries.refined {i : Instruction} {o : Operation TokenError TokenBook}
    (h : c.Carries s r i o c') (hdata : Instruction.ofData r.data = .ok i)
    (hexecute : c.execute r = .ok (receipt, c')) : c.Refined r := by
  refine .carried h.loaded ?_ ?_ h.succeeded ?_
  · rw [operation?, hdata, hexecute]
    exact h.asked
  · rw [creates, hdata, hexecute]
    cases i with
    | create => cases h.asked
    | _ => rfl
  · rw [step_eq_of_ok hexecute]
    exact h.saved

theorem refined (c : Chain) (r : Request) : c.Refined r := by
  cases hexecute : c.execute r with
  | error f => exact .quiet (.inl ⟨f, hexecute⟩)
  | ok outcome =>
      obtain ⟨receipt, c'⟩ := outcome
      obtain ⟨i, hdata, hrun⟩ := execute_eq_ok_iff.1 hexecute
      rcases carries_of_run hrun with ⟨id, template, rfl⟩ | hquestion | ⟨s, o, hcarries⟩
      · obtain ⟨s, vacant, hfounded, saved⟩ := founded?_of_create hrun
        refine .founded vacant ⟨?_, id, template, hdata, hfounded⟩ ?_
        · rw [creates, hdata, hexecute]
        · rw [step_eq_of_ok hexecute]
          exact saved
      · exact .quiet (.inr ⟨i, hdata, hquestion⟩)
      · exact hcarries.refined hdata hexecute

/-- From a stored anchor on, requests run the operations that they ask for. -/
theorem after_of_loaded (loaded : c.anchor? = some s) (rs : List Request) :
    (c.after rs).anchor? = some (s.run (c.operations s rs)) ∧
      (∀ call ∈ s.trace (c.operations s rs), call.reply.failed = false) ∧
      c.creations rs = 0 := by
  induction rs generalizing c s with
  | nil => exact ⟨loaded, by simp [operations, Anchor.trace], rfl⟩
  | cons r rs ih =>
      cases c.refined r with
      | founded vacant => cases (anchor?_eq_none vacant).symm.trans loaded
      | @carried s₁ o loaded' asked changing succeeded saved =>
          obtain rfl : s = s₁ := Option.some.inj (loaded.symm.trans loaded')
          obtain ⟨hanchor, hcalls, hcount⟩ := ih saved
          have hoperations : c.operations s (r :: rs) =
              o :: (c.step r).operations (s.perform o).2 rs := by
            rw [operations, asked]
          rw [hoperations]
          refine ⟨hanchor, List.forall_mem_cons.2 ⟨succeeded, hcalls⟩, ?_⟩
          rw [creations, changing, hcount]
          rfl
      | quiet h =>
          have hstep := step_eq_of_quiet h
          obtain ⟨hanchor, hcalls, hcount⟩ := ih loaded
          have hoperations : c.operations s (r :: rs) = c.operations s rs := by
            rw [operations, operation?_of_quiet h, hstep]
          have hafter : c.after (r :: rs) = c.after rs := congrArg (after · rs) hstep
          rw [hoperations, hafter, creations, creates_of_quiet h, hstep, hcount]
          exact ⟨hanchor, hcalls, rfl⟩

theorem load_of_anchor? (h : c.anchor? = some s) : c.anchorData.map Stored.load = some (.ok s) := by
  obtain ⟨data, hdata, hload⟩ := Option.bind_eq_some_iff.1 h
  rw [hdata, Option.map_some, toOption_eq_some_iff.1 hload]

/-- A run from a chain without an anchor either creates none, and there still is none, or it creates
one. Then the account holds what that anchor became by the operations of the later requests that
succeeded, each of which succeeded on the anchor as well. Requests that fail or only ask change
nothing. -/
theorem refines_anchor (vacant : c₀.anchorData = none) (rs : List Request) :
    ((c₀.after rs).anchorData = none ∧ c₀.creations rs = 0 ∨
      ∃ before r later s, rs = before ++ r :: later ∧ (c₀.after before).Founds r s ∧
        c₀.creations rs = 1 ∧
        (c₀.after rs).anchorData.map Stored.load =
          some (.ok (s.run ((c₀.after (before ++ [r])).operations s later))) ∧
        ∀ call ∈ s.trace ((c₀.after (before ++ [r])).operations s later),
          call.reply.failed = false) ∧
      ∀ (c : Chain) (r : Request), c.Quiet r → c.step r = c := by
  refine ⟨?_, fun c r => step_eq_of_quiet⟩
  induction rs with
  | nil => exact .inl ⟨vacant, rfl⟩
  | cons r rs ih =>
      cases c₀.refined r with
      | @founded s _ founds saved =>
          obtain ⟨hanchor, hcalls, hcount⟩ := after_of_loaded saved rs
          refine .inr ⟨[], r, rs, s, rfl, founds, ?_, load_of_anchor? hanchor, hcalls⟩
          rw [creations, if_pos founds.succeeded, hcount]
      | carried loaded => cases (anchor?_eq_none vacant).symm.trans loaded
      | quiet h =>
          have hstep := step_eq_of_quiet h
          have hafter (rs' : List Request) : c₀.after (r :: rs') = c₀.after rs' :=
            congrArg (after · rs') hstep
          have hcount : c₀.creations (r :: rs) = c₀.creations rs := by
            rw [creations, creates_of_quiet h, hstep]
            exact Nat.zero_add _
          rw [hafter, hcount]
          refine ih.imp_right ?_
          rintro ⟨before, r', later, s, rfl, founds, hone, hload, hcalls⟩
          refine ⟨r :: before, r', later, s, rfl, ?_, hone, ?_, ?_⟩
          · rw [hafter]
            exact founds
          · rw [List.cons_append, hafter]
            exact hload
          · rw [List.cons_append, hafter]
            exact hcalls

end Chain

namespace SampleChain

/-- A registration comes too early, is repeated after the creation, and its record is asked for. -/
def requests : List Request := [registration, creation, registration, inquiry]

end SampleChain

open SampleChain in
theorem Chain.refines_anchor_sampleChain :
    chain.anchorData = none ∧ chain.creations requests = 1 ∧
      ∃ before r later s, requests = before ++ r :: later ∧ (chain.after before).Founds r s ∧
        (chain.after requests).anchorData.map Stored.load =
          some (.ok (s.run ((chain.after (before ++ [r])).operations s later))) ∧
        (s.run ((chain.after (before ++ [r])).operations s later)).ledger.validatorCount = 1 := by
  have hcount : (chain.after requests).anchor?.map (·.ledger.validatorCount) = some 1 := by
    decide +kernel
  obtain ⟨⟨hnone, -⟩ | ⟨before, r, later, s, hrequests, founds, hone, hload, -⟩, -⟩ :=
    refines_anchor (show chain.anchorData = none from rfl) requests
  · rw [anchor?_eq_none hnone] at hcount
    cases hcount
  · refine ⟨rfl, hone, before, r, later, s, hrequests, founds, hload, ?_⟩
    obtain ⟨data, hdata, hdecoded⟩ := Option.map_eq_some_iff.1 hload
    rw [anchor?, hdata, Option.bind_some, hdecoded] at hcount
    exact Option.some.inj hcount

end AppchainStaking
