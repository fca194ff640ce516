import AppchainStaking.Proofs.Chain.Effect
import AppchainStaking.Proofs.History.Indexing

/-!
# What an instruction files

An instruction that succeeds files one record or none. It files a record when the anchor answered
with it to what the instruction asked, in an account that was not there before, under the next index
of the history; and one event tells the record. All other instructions leave the history and the
accounts of records as they are, and tell of no fact.
-/

namespace AppchainStaking

def Event.record? : Event → Option HistoryRecord
  | factRecorded record => some record
  | _ => none

def Receipt.records (receipt : Receipt) : List HistoryRecord := receipt.events.filterMap (·.record?)

/-- What an instruction of `signer` asks of the anchor, if it is one that files a record. -/
def Instruction.recording? (signer : AccountId) (now : Int64) :
    Instruction → Option (Operation TokenError TokenBook)
  | deposit amount message => some (.deposit signer now amount message)
  | direct action => some (.act signer now action.toStakingAction)
  | _ => none

/-- A record has the next index of the history, and takes it. -/
theorem Anchor.next_of_performed {ε τ : Type} {s s' : Anchor} {o : Operation ε τ}
    {record : HistoryRecord} (h : s.perform o = (.staking (.ok record), s')) :
    record.index = s.history.next ∧ s'.history.start = s.history.start ∧
      s'.history.next.toNat = s.history.next.toNat + 1 := by
  have houtcome := s.perform_outcome o
  rw [h] at houtcome
  rcases houtcome with heffect | hunrecorded
  · obtain ⟨hindex, hnext⟩ := heffect.next_eq
    have hfirst : record.index.toNat = s.history.next.toNat := (List.cons.inj hindex).1
    exact ⟨UInt64.toNat_inj.1 hfirst, heffect.start_eq, hnext⟩
  · cases hunrecorded

namespace Chain

/-- The anchor on the chain answers with a record to what a request asks of it. -/
structure Produces (c : Chain) (r : Request) (record : HistoryRecord) (s s' : Anchor) : Prop where
  loaded : c.anchor? = some s
  performed : ∃ instruction signer o, Instruction.ofData r.data = .ok instruction ∧
    r.SignedBy signer ∧ instruction.recording? signer r.now = some o ∧
    s.perform o = (.staking (.ok record), s')

/-- What an instruction can do to the history and to the accounts of records, and the records that
its events tell. -/
inductive Filing (c : Chain) (r : Request) : List HistoryRecord → Chain → Prop
  | asked : Filing c r [] c
  | created {c' : Chain} {s : Anchor}
      (vacant : c.anchorData = none)
      (saved : c'.anchor? = some s)
      (fresh : s.history = {})
      (same : c'.records = c.records) :
      Filing c r [] c'
  | managed {c' : Chain} {s s' : Anchor}
      (loaded : c.anchor? = some s)
      (saved : c'.anchor? = some s')
      (still : s'.history = s.history)
      (same : c'.records = c.records) :
      Filing c r [] c'
  | recorded {c' : Chain} {s s' : Anchor} {record : HistoryRecord} {data : Bytes}
      (produced : c.Produces r record s s')
      (untaken : c.recordData? s.history.next = none)
      (saved : c'.anchor? = some s')
      (filed : c'.records = (record.index, data) :: c.records)
      (stored : Stored.load data = .ok record) :
      Filing c r [record] c'

variable {c c' : Chain} {r : Request} {receipt : Receipt}

theorem filing_of_create {id : String} {template : Template}
    (h : c.create (AccountRef.merge r.accounts) id template = .ok (receipt, c')) :
    Filing c r receipt.records c' := by
  obtain ⟨s, mint, vault, signer, accounts, -, fresh, hevents, hsaved⟩ := create_eq_ok h
  rw [Receipt.records, hevents]
  exact .created accounts.vacant hsaved.saved (Anchor.new_eq_ok fresh).2.1 hsaved.records

theorem filing_of_command {command : Command}
    (h : c.command (AccountRef.merge r.accounts) command = .ok (receipt, c')) :
    Filing c r receipt.records c' := by
  obtain ⟨s, s', signer, reply, loaded, -, hcommand, rfl, hsaved⟩ := command_eq_ok h
  have hnone : (s.commandReceipt s' signer command).records = [] := by
    cases command <;> rfl
  rw [hnone]
  have executed := (Anchor.command_eq_ok_iff.1 hcommand).2
  exact .managed loaded hsaved.saved (Anchor.execute_frame executed).2.1 hsaved.records

theorem filing_of_setProfile {entries : List ProfileEntry}
    (h : c.setProfile (AccountRef.merge r.accounts) entries = .ok (receipt, c')) :
    Filing c r receipt.records c' := by
  obtain ⟨s, s', signer, loaded, -, hprofile, hevents, hsaved⟩ := setProfile_eq_ok h
  obtain ⟨-, -, -, rfl⟩ := Anchor.setProfile_eq_ok_iff.1 hprofile
  rw [Receipt.records, hevents]
  exact .managed loaded hsaved.saved rfl hsaved.records

theorem filing_of_withdraw (h : c.withdraw (AccountRef.merge r.accounts) = .ok (receipt, c')) :
    Filing c r receipt.records c' := by
  obtain ⟨s, s', signer, account, vault, w, tokens, accounts, hw, hsaved,
    ⟨-, rfl, -, hevents⟩ | ⟨amount, rfl, hevents⟩⟩ := withdraw_eq_ok h
  · rw [Receipt.records, hevents]
    exact .managed accounts.loaded hsaved.saved rfl hsaved.records
  · obtain ⟨-, -, -, -, rfl⟩ := Anchor.withdraw_eq_paid hw
    rw [Receipt.records, hevents]
    exact .managed accounts.loaded hsaved.saved rfl hsaved.records

theorem filing_of_direct {action : DirectAction}
    (hdata : Instruction.ofData r.data = .ok (.direct action))
    (h : c.direct (AccountRef.merge r.accounts) r.now action = .ok (receipt, c')) :
    Filing c r receipt.records c' := by
  obtain ⟨s, s', signer, record, loaded, signed, untaken, hact, hfiled⟩ := direct_eq_ok h
  obtain ⟨data, filed, stored⟩ := hfiled.filed
  have hperform : s.perform (.act signer r.now action.toStakingAction :
      Operation TokenError TokenBook) = (.staking (.ok record), s') := by
    rw [Anchor.perform, hact]
    rfl
  rw [Receipt.records, hfiled.told]
  exact .recorded ⟨loaded, _, signer, _, hdata, signed.signedBy, rfl, hperform⟩ untaken
    hfiled.saved filed stored

theorem filing_of_deposit {amount : Amount} {message : String}
    (hdata : Instruction.ofData r.data = .ok (.deposit amount message))
    (h : c.deposit (AccountRef.merge r.accounts) r.now amount message = .ok (receipt, c')) :
    Filing c r receipt.records c' := by
  obtain ⟨s, s', signer, account, vault, tokens, record, accounts, -, hdeposit, hfiled⟩ :=
    deposit_eq_ok h
  obtain ⟨data, filed, stored⟩ := hfiled.filed
  have hperform : s.perform (.deposit signer r.now amount message :
      Operation TokenError TokenBook) = (.staking (.ok record), s') := by
    rw [Anchor.perform, hdeposit]
    rfl
  rw [Receipt.records, hfiled.told]
  exact .recorded ⟨accounts.loaded, _, signer, _, hdata, accounts.signed.signedBy, rfl, hperform⟩
    accounts.untaken hfiled.saved filed stored

theorem filing_of_execute (h : c.execute r = .ok (receipt, c')) :
    Filing c r receipt.records c' := by
  obtain ⟨instruction, hdata, h⟩ := execute_eq_ok_iff.1 h
  cases instruction with
  | create id template => exact filing_of_create h
  | command command => exact filing_of_command (mapError_eq_ok_iff.1 h)
  | setProfile entries => exact filing_of_setProfile (mapError_eq_ok_iff.1 h)
  | deposit amount message => exact filing_of_deposit hdata (mapError_eq_ok_iff.1 h)
  | direct action => exact filing_of_direct hdata (mapError_eq_ok_iff.1 h)
  | withdraw => exact filing_of_withdraw (mapError_eq_ok_iff.1 h)
  | query | record =>
      obtain ⟨rfl, hevents⟩ := run_question_eq_ok rfl h
      rw [Receipt.records, hevents]
      exact .asked

end Chain

end AppchainStaking
