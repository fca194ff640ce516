import AppchainStaking.Chain.Execute

/-!
# How checks fail

Most of what an instruction can fail by are denials: an account or a program is missing, or is not
what the instruction needs. The checks that come before its work fail in no other way.
-/

namespace AppchainStaking

/-- An account is not as a check demands. -/
def Fault.isDenial : Fault → Bool
  | .access e _ => e ≠ .doesNotFit
  | .staking e _ =>
      e ∈ [.invalidMint, .invalidVaultAuthority, .invalidTokenOwner, .invalidProgramData]
  | .invalidTokenData _ | .accountInUse => true
  | .token _ => false

def FailsBy {α : Type} (q : Fault → Prop) (x : Except Fault α) : Prop :=
  ∀ f, x = .error f → q f

def Denies {α : Type} (x : Except Fault α) : Prop := FailsBy (·.isDenial) x

section Attempts

variable {α β : Type} {q q' : Fault → Prop} {x : Except Fault α} {f : Fault}

theorem failsBy_ok (a : α) : FailsBy q (.ok a) := by
  intro f h
  cases h

theorem failsBy_error (hf : q f) : FailsBy q (.error f : Except Fault α) := by
  intro f' h
  cases h
  exact hf

theorem FailsBy.mono (h : FailsBy q x) (hq : ∀ f, q f → q' f) : FailsBy q' x :=
  fun f hf => hq f (h f hf)

theorem FailsBy.bind {g : α → Except Fault β} (hx : FailsBy q x)
    (hg : ∀ a, x = .ok a → FailsBy q (g a)) : FailsBy q (x >>= g) := by
  intro f h
  rcases bind_eq_error_iff.1 h with h | ⟨a, ha, h⟩
  · exact hx f h
  · exact hg a ha f h

theorem FailsBy.map {g : α → β} (hx : FailsBy q x) : FailsBy q (x.map g) := by
  cases x with
  | error f => exact failsBy_error (hx f rfl)
  | ok a => exact failsBy_ok (g a)

theorem failsBy_require {p : Prop} [Decidable p] (hf : q f) : FailsBy q (require p f) := by
  intro f' h
  obtain ⟨-, rfl⟩ := require_eq_error_iff.1 h
  exact hf

theorem failsBy_found {o : Option α} (hf : q f) : FailsBy q (found f o) := by
  cases o with
  | none => exact failsBy_error hf
  | some a => exact failsBy_ok a

end Attempts

section Checks

variable {c : Chain} {role : AccountRole} {o : Option AccountRef} {ref : AccountRef}
  {refs : List AccountRef} {s : Anchor}

theorem denies_present : Denies (present role o) := failsBy_found rfl

theorem denies_presentNew : Denies (presentNew o) := failsBy_found rfl

theorem denies_presentSigner : Denies (presentSigner o) := by
  refine denies_present.bind fun ref _ => ?_
  split
  · exact failsBy_ok _
  · exact failsBy_error rfl

theorem denies_presentProgram {program : Address} : Denies (presentProgram role program o) :=
  denies_present.bind fun _ _ => failsBy_require rfl

theorem denies_demandAddress {a : Address} : Denies (demandAddress role ref a) :=
  failsBy_require rfl

theorem denies_demandWritable : Denies (demandWritable role ref) := failsBy_require rfl

theorem denies_presentAnchor : Denies (c.presentAnchor o) := by
  refine denies_present.bind fun ref _ => ?_
  split
  · split
    · exact failsBy_ok _
    · exact failsBy_error rfl
  · exact failsBy_error rfl
  · exact failsBy_error rfl

theorem denies_presentToken : Denies (c.presentToken role o) := by
  refine denies_present.bind fun ref _ => ?_
  split
  · exact failsBy_ok _
  · exact failsBy_error rfl
  · exact failsBy_error rfl
  · exact failsBy_error rfl

theorem denies_presentMint : Denies (c.presentMint o) := by
  refine denies_present.bind fun ref _ => ?_
  split
  · exact failsBy_ok _
  · exact failsBy_error rfl
  · exact failsBy_error rfl
  · exact failsBy_error rfl

theorem denies_demandCreatable {a : Address} : Denies (c.demandCreatable role ref a) := by
  refine denies_demandAddress.bind fun _ _ => ?_
  split
  · exact denies_demandWritable
  · exact failsBy_error rfl

theorem denies_demandOwnAnchor : Denies (demandOwnAnchor ref) :=
  denies_demandAddress.bind fun _ _ => denies_demandWritable

theorem denies_demandVault {vault : TokenAccount} {authority : AccountRef} :
    Denies (demandVault s ref vault authority) :=
  denies_demandWritable.bind fun _ _ => .bind (failsBy_require rfl) fun _ _ =>
    .bind (failsBy_require rfl) fun _ _ => failsBy_require rfl

theorem denies_demandUserAccount {account : TokenAccount} {user : AccountId} :
    Denies (demandUserAccount s ref account user) :=
  denies_demandWritable.bind fun _ _ => .bind (failsBy_require rfl) fun _ _ => failsBy_require rfl

theorem denies_create_check : Denies (Chain.create.check c refs) := by
  refine denies_presentNew.bind fun _ _ => ?_
  refine denies_present.bind fun _ _ => ?_
  refine denies_presentToken.bind fun ⟨_, vault⟩ _ => ?_
  refine denies_presentMint.bind fun _ _ => ?_
  refine denies_presentSigner.bind fun ⟨_, signer⟩ _ => ?_
  refine denies_presentProgram.bind fun _ _ => ?_
  refine denies_presentProgram.bind fun _ _ => ?_
  refine denies_present.bind fun _ _ => ?_
  refine denies_demandCreatable.bind fun _ _ => ?_
  refine denies_demandAddress.bind fun _ _ => ?_
  refine denies_demandWritable.bind fun _ _ => ?_
  refine FailsBy.bind (failsBy_require rfl) fun _ _ => ?_
  refine FailsBy.bind (failsBy_require rfl) fun _ _ => ?_
  refine denies_demandWritable.bind fun _ _ => ?_
  exact FailsBy.bind (failsBy_require rfl) fun _ _ => failsBy_ok _

theorem denies_manage_check : Denies (Chain.manage.check c refs) := by
  refine denies_presentAnchor.bind fun ⟨_, s⟩ _ => ?_
  refine denies_presentSigner.bind fun ⟨_, signer⟩ _ => ?_
  refine denies_presentProgram.bind fun _ _ => ?_
  refine denies_demandOwnAnchor.bind fun _ _ => ?_
  exact denies_demandWritable.bind fun _ _ => failsBy_ok _

theorem denies_deposit_check : Denies (Chain.deposit.check c refs) := by
  refine denies_presentAnchor.bind fun ⟨_, s⟩ _ => ?_
  refine denies_presentNew.bind fun _ _ => ?_
  refine denies_presentToken.bind fun ⟨_, vault⟩ _ => ?_
  refine denies_present.bind fun _ _ => ?_
  refine denies_presentToken.bind fun ⟨_, account⟩ _ => ?_
  refine denies_presentSigner.bind fun ⟨_, signer⟩ _ => ?_
  refine denies_presentProgram.bind fun _ _ => ?_
  refine denies_presentProgram.bind fun _ _ => ?_
  refine denies_demandCreatable.bind fun _ _ => ?_
  refine denies_demandOwnAnchor.bind fun _ _ => ?_
  refine denies_demandVault.bind fun _ _ => ?_
  refine denies_demandAddress.bind fun _ _ => ?_
  refine denies_demandUserAccount.bind fun _ _ => ?_
  exact denies_demandWritable.bind fun _ _ => failsBy_ok _

theorem denies_direct_check : Denies (Chain.direct.check c refs) := by
  refine denies_presentAnchor.bind fun ⟨_, s⟩ _ => ?_
  refine denies_presentNew.bind fun _ _ => ?_
  refine denies_presentSigner.bind fun ⟨_, signer⟩ _ => ?_
  refine denies_presentProgram.bind fun _ _ => ?_
  refine denies_demandCreatable.bind fun _ _ => ?_
  refine denies_demandOwnAnchor.bind fun _ _ => ?_
  exact denies_demandWritable.bind fun _ _ => failsBy_ok _

theorem denies_withdraw_check : Denies (Chain.withdraw.check c refs) := by
  refine denies_presentAnchor.bind fun ⟨_, s⟩ _ => ?_
  refine denies_presentToken.bind fun ⟨_, vault⟩ _ => ?_
  refine denies_present.bind fun _ _ => ?_
  refine denies_presentToken.bind fun ⟨_, account⟩ _ => ?_
  refine denies_presentSigner.bind fun ⟨_, signer⟩ _ => ?_
  refine denies_presentProgram.bind fun _ _ => ?_
  refine denies_presentProgram.bind fun _ _ => ?_
  refine denies_demandOwnAnchor.bind fun _ _ => ?_
  refine denies_demandVault.bind fun _ _ => ?_
  refine denies_demandAddress.bind fun _ _ => ?_
  refine denies_demandUserAccount.bind fun _ _ => ?_
  exact denies_demandWritable.bind fun _ _ => failsBy_ok _

theorem denies_queryRecord_check {index : UInt64} :
    Denies (Chain.queryRecord.check c refs index) := by
  refine denies_presentAnchor.bind fun ⟨_, s⟩ _ => ?_
  refine denies_present.bind fun _ _ => ?_
  refine denies_demandAddress.bind fun _ _ => ?_
  exact denies_demandAddress.bind fun _ _ => failsBy_ok _

end Checks

end AppchainStaking
