import AppchainStaking.Proofs.Anchor.InPlace
import AppchainStaking.Proofs.Anchor.Payout
import AppchainStaking.Proofs.History.Indexing

/-!
# What is pending has a reason

An entry of the queue repeats what one record says: whose stake left a position, how much of it and
in which era. Its last part, the era in which it unlocks, comes from the settings at that call. The
amount that goes out may as well be read off the ledger before it changes.
-/

namespace AppchainStaking

open Procedure

variable {ε τ : Type}

/-- The facts that take stake of an account out of a position. -/
inductive Fact.Releases : Fact → AccountId → Amount → Position → Prop
  | stakeDecreased (v : AccountId) (amount : Amount) :
      Releases (.stakeDecreased v amount) v amount .validator
  | validatorUnbonded (v : AccountId) (amount : Amount) :
      Releases (.validatorUnbonded v amount) v amount .validator
  | delegationDecreased (d v : AccountId) (amount : Amount) :
      Releases (.delegationDecreased d v amount) d amount .delegator
  | delegatorUnbonded (d v : AccountId) (amount : Amount) :
      Releases (.delegatorUnbonded d v amount) d amount .delegator

theorem Fact.releases_iff {f : Fact} {a : AccountId} {amount : Amount} {position : Position} :
    f.Releases a amount position ↔ f.actor = a ∧ f.released? = some (amount, position) := by
  constructor
  · intro h
    cases h <;> exact ⟨rfl, rfl⟩
  · rintro ⟨rfl, h⟩
    cases f with
    | stakeDecreased | validatorUnbonded | delegationDecreased | delegatorUnbonded =>
        cases h
        constructor
    | validatorRegistered | stakeIncreased | delegationEnabled | delegationDisabled
    | delegatorRegistered | delegationIncreased => cases h

theorem toNat_unlockEra (era period : UInt64) :
    (unlockEra era period).toNat = min (UInt64.size - 1) (era.toNat + period.toNat) := by
  have hlt : min (era.toNat + period.toNat) (UInt64.size - 1) < UInt64.size := by
    have hsize : UInt64.size - 1 < UInt64.size := by decide
    omega
  rw [unlockEra, UInt64.toNat_ofNat_of_lt' hlt, Nat.min_comm]

/-- What an action takes out of a position, as the ledger stands before it. -/
def Ledger.outgoing? (l : Ledger) (caller : AccountId) : StakingAction → Option (Amount × Position)
  | .decreaseStake amount => some (amount, .validator)
  | .unbondStake => (l.validator? caller).map fun v => (v.deposit, .validator)
  | .decreaseDelegation _ amount => some (amount, .delegator)
  | .unbondDelegation v => (l.delegation? caller v).map fun x => (x.deposit, .delegator)
  | _ => none

theorem Ledger.Step.released?_eq {rules : LedgerRules} {caller : AccountId} {l l' : Ledger}
    {f : Fact} {action : StakingAction} (h : Ledger.Step rules caller l action l' f) :
    f.released? = l.outgoing? caller action := by
  cases h with
  | unbondStake known => simp [Fact.released?, outgoing?, known]
  | unbondDelegation known => simp [Fact.released?, outgoing?, known]
  | @setDelegable delegable => cases delegable <;> rfl
  | registerValidator | increaseStake | decreaseStake | registerDelegator | increaseDelegation
  | decreaseDelegation => rfl

namespace Anchor

def recordFoundInPlace (caller : AccountId) (outgoing : Option (Amount × UInt64)) (fact : Fact)
    (now : Int64) : Procedure StakingError Anchor HistoryRecord := do
  let r ← on (·.history) (fun s history => { s with history })
    (HistoryLog.appendInPlace fact now (← get).era)
  match outgoing with
  | none => return r
  | some (amount, unlockEra) =>
      modify fun s =>
        let e : UnbondedEntry := { amount, era := s.era, unlockEra, historyIndex := r.index }
        { s with unbonding := s.unbonding.push caller e }
      return r

/-- As `actInPlace`, but what goes out and when it unlocks is found before the ledger changes. -/
def actAheadInPlace (caller : AccountId) (now : Int64) (action : StakingAction) :
    Procedure StakingError Anchor HistoryRecord := do
  let s ← get
  check (s.permit caller action)
  let outgoing := (s.ledger.outgoing? caller action).map fun (amount, position) =>
    (amount, unlockEra s.era (s.settings.protocol.unlockPeriod position))
  let fact ← on (·.ledger) (fun s ledger => { s with ledger })
    (Ledger.actInPlace s.rules caller action)
  recordFoundInPlace caller outgoing fact now

/-- If what was found agrees with the fact, the same is queued. -/
theorem exec_recordFoundInPlace (s : Anchor) (fact : Fact) (now : Int64) :
    exec (recordFoundInPlace fact.actor (fact.released?.map fun (amount, position) =>
        (amount, unlockEra s.era (s.settings.protocol.unlockPeriod position))) fact now) s =
      s.record fact now := by
  rw [recordFoundInPlace, exec_get_bind,
    exec_on_bind (HistoryLog.exec_appendInPlace fact now s.era s.history) rfl, record]
  cases happend : s.history.append fact now s.era with
  | error e => rfl
  | ok x =>
      obtain ⟨r, history⟩ := x
      obtain ⟨-, rfl, -⟩ := HistoryLog.append_eq_ok_iff.1 happend
      simp only [queue, releasedEntry]
      cases fact.released? <;> rfl

/-- To read the outgoing amount ahead of the change comes to the same as to take it from the
fact. -/
theorem exec_actAheadInPlace (caller : AccountId) (now : Int64) (action : StakingAction)
    (s : Anchor) : exec (actAheadInPlace caller now action) s = s.act caller now action := by
  rw [actAheadInPlace, exec_get_bind, exec_check_bind, act, attempt]
  cases s.permit caller action with
  | error e => rfl
  | ok u =>
      rw [proceed_ok, exec_on_bind (Ledger.exec_actInPlace action) rfl]
      cases hact : s.ledger.act s.rules caller action with
      | error e => rfl
      | ok x =>
          obtain ⟨ledger, fact⟩ := x
          have step := Ledger.act_eq_ok_iff.1 hact
          have hrecord := exec_recordFoundInPlace { s with ledger } fact now
          rw [step.actor_eq, step.released?_eq] at hrecord
          exact hrecord

end Anchor

/-- The record `r` of a call is the reason for an entry of `a`. -/
structure Call.Justifies (c : Call ε τ) (r : HistoryRecord) (position : Position) (a : AccountId)
    (e : UnbondedEntry) : Prop where
  returned : c.record? = some r
  index : r.index = e.historyIndex
  releases : r.fact.Releases a e.amount position
  era : r.era = e.era
  /-- The period is the one in force at the call. There is no era after the last one. -/
  unlockEra : e.unlockEra.toNat = min (UInt64.size - 1)
    (e.era.toNat + (c.before.settings.protocol.unlockPeriod position).toNat)
  shown : ∃ action, c.operation.action? = some action ∧
    c.before.ledger.outgoing? a action = some (e.amount, position)

theorem Anchor.releasedEntry_eq_some_iff {s : Anchor} {r : HistoryRecord} {e : UnbondedEntry} :
    s.releasedEntry r = some e ↔ ∃ position, r.fact.released? = some (e.amount, position) ∧
      e = { amount := e.amount, era := s.era, historyIndex := r.index
            unlockEra := unlockEra s.era (s.settings.protocol.unlockPeriod position) } := by
  simp only [releasedEntry, Option.map_eq_some_iff, Prod.exists]
  constructor
  · rintro ⟨amount, position, hreleased, rfl⟩
    exact ⟨position, hreleased, rfl⟩
  · rintro ⟨position, hreleased, he⟩
    exact ⟨e.amount, position, hreleased, he.symm⟩

namespace Call

variable {c : Call ε τ} {r : HistoryRecord} {e : UnbondedEntry}

/-- What a call releases is justified by its own record. -/
theorem justifies_of_releasedEntry (room : c.before.history.HasRoom) (hr : c.record? = some r)
    (he : c.before.releasedEntry r = some e) :
    ∃ position, c.Justifies r position c.operation.caller e := by
  obtain ⟨action, l, asked, step, hnext, -⟩ := (Call.effect room).of_record hr
  obtain ⟨position, hreleased, heq⟩ := Anchor.releasedEntry_eq_some_iff.1 he
  have hera : e.era = c.before.era := congrArg UnbondedEntry.era heq
  refine ⟨position, hr, (Anchor.index_of_releasedEntry he).symm,
    Fact.releases_iff.2 ⟨step.actor_eq, hreleased⟩, ?_, ?_, action, asked, ?_⟩
  · rw [hera]
    exact congrArg HistoryRecord.era hnext
  · rw [hera, ← toNat_unlockEra]
    exact congrArg (·.unlockEra.toNat) heq
  · rw [← step.released?_eq, hreleased]

/-- A fact that releases stake puts its entry in the queue. -/
theorem pushed_of_releases (room : c.before.history.HasRoom) (hr : c.record? = some r)
    {a : AccountId} {amount : Amount} {position : Position}
    (hreleases : r.fact.Releases a amount position) :
    ∃ e : UnbondedEntry, e.amount = amount ∧ c.Justifies r position a e ∧
      c.after.unbonding = c.before.unbonding.push a e := by
  obtain ⟨_, l, _, step, _, hafter⟩ := (Call.effect room).of_record hr
  obtain ⟨hactor, hreleased⟩ := Fact.releases_iff.1 hreleases
  obtain ⟨e, he⟩ : ∃ e, c.before.releasedEntry r = some e := by
    simp [Anchor.releasedEntry, hreleased]
  obtain ⟨position', hjustifies⟩ := justifies_of_releasedEntry room hr he
  have hreleased' := (Fact.releases_iff.1 hjustifies.releases).2
  obtain ⟨rfl, rfl⟩ := Prod.mk.inj (Option.some.inj (hreleased.symm.trans hreleased'))
  have hcaller : c.operation.caller = a := step.actor_eq.symm.trans hactor
  have hqueue : c.after.unbonding = c.before.queue r := by
    rw [hafter]
    rfl
  refine ⟨e, rfl, hcaller ▸ hjustifies, ?_⟩
  rw [hqueue, Anchor.queue, he, hactor]

end Call

structure Anchor.PendingJustified (s : Anchor) (ops : List (Operation ε τ)) : Prop where
  justified : ∀ a, ∀ e ∈ (s.run ops).unbonding.of a, ∃ c ∈ s.trace ops, ∃ r position,
    (records (s.trace ops))[e.historyIndex.toNat]? = some r ∧ c.Justifies r position a e
  /-- Over all groups of the queue, whomever they belong to. -/
  distinct : ((s.run ops).unbonding.pairs.map (·.2.historyIndex)).Nodup
  increasing : ∀ a, ((s.run ops).unbonding.of a).Pairwise (·.historyIndex < ·.historyIndex)
  pushed : ∀ c ∈ s.trace ops, ∀ r a amount position, c.record? = some r →
    r.fact.Releases a amount position →
      ∃ e : UnbondedEntry, e.amount = amount ∧ c.Justifies r position a e ∧
        c.after.unbonding = c.before.unbonding.push a e
  quiet : ∀ c ∈ s.trace ops,
    (∀ r a amount position, c.record? = some r → ¬r.fact.Releases a amount position) →
      ∀ a, (c.after.unbonding.of a).Sublist (c.before.unbonding.of a)

namespace Anchor

variable {s s' : Anchor} {o : Operation ε τ} {reply : Reply ε τ}

/-- The queue of an account keeps its order: entries leave it, and a new one comes in at the end. -/
theorem Effect.of_sublist (h : Effect s o reply s') (hs : Grouped.Unique s.unbonding)
    (a : AccountId) :
    (s'.unbonding.of a).Sublist (s.unbonding.of a ++
      if o.caller = a then (reply.record?.bind s.releasedEntry).toList else []) := by
  cases h.queueChange with
  | @pushed e released _ queue =>
      rw [released, queue]
      by_cases ha : o.caller = a
      · subst ha
        simp
      · simp [Grouped.of_push_of_ne _ _ ha, ha]
  | dropped _ _ queue =>
      rw [queue]
      refine List.Sublist.trans ?_ (List.sublist_append_left _ _)
      by_cases ha : o.caller = a
      · subst ha
        rw [Grouped.of_drop_self (hs.single _)]
        exact List.filter_sublist
      · rw [Grouped.of_drop_of_ne _ _ ha]
  | same _ _ queue =>
      rw [queue]
      exact List.sublist_append_left _ _

def queuedFor (a : AccountId) (calls : List (Call ε τ)) : List UnbondedEntry :=
  ((queued calls).filter (·.1 = a)).map (·.2)

theorem queuedFor_cons (a : AccountId) (c : Call ε τ) (calls : List (Call ε τ)) :
    queuedFor a (c :: calls) =
      (if c.operation.caller = a then c.releasedEntry.toList else []) ++ queuedFor a calls := by
  rw [queuedFor, queued, List.flatMap_cons, List.filter_append, List.map_append]
  congr 1
  cases c.releasedEntry <;> by_cases ha : c.operation.caller = a <;> simp [ha]

theorem mem_queuedFor {a : AccountId} {calls : List (Call ε τ)} {e : UnbondedEntry} :
    e ∈ queuedFor a calls ↔ ∃ c ∈ calls, c.operation.caller = a ∧ c.releasedEntry = some e := by
  simp only [queuedFor, queued, List.mem_map, List.mem_filter, List.mem_flatMap,
    Option.mem_toList, decide_eq_true_eq]
  constructor
  · rintro ⟨_, ⟨⟨c, hc, e, he, rfl⟩, rfl⟩, rfl⟩
    exact ⟨c, hc, rfl, he⟩
  · rintro ⟨c, hc, rfl, he⟩
    exact ⟨_, ⟨⟨c, hc, e, he, rfl⟩, rfl⟩, rfl⟩

theorem index_queuedFor_sublist (a : AccountId) (calls : List (Call ε τ)) :
    ((queuedFor a calls).map (·.historyIndex)).Sublist ((records calls).map (·.index)) := by
  rw [queuedFor, List.map_map]
  exact (List.filter_sublist.map _).trans (index_queued_sublist calls)

theorem of_run_sublist (ops : List (Operation ε τ))
    (hroom : ∀ c ∈ s.trace ops, c.before.history.HasRoom) (hs : s.Unique) (a : AccountId) :
    ((s.run ops).unbonding.of a).Sublist (s.unbonding.of a ++ queuedFor a (s.trace ops)) := by
  induction ops generalizing s with
  | nil => exact List.sublist_append_left _ _
  | cons o ops ih =>
      have heffect := perform_effect (hroom _ List.mem_cons_self) o
      have hstep : ((s.perform o).2.unbonding.of a).Sublist (s.unbonding.of a ++
          if o.caller = a then (Call.mk s o).releasedEntry.toList else []) :=
        heffect.of_sublist hs.unbonding a
      have hrest := @ih (s.perform o).2 (fun c hc => hroom c (List.mem_cons_of_mem _ hc))
        (heffect.unique hs)
      rw [trace, queuedFor_cons, ← List.append_assoc]
      exact hrest.trans (hstep.append_right _)

/-- Over every run of a new anchor each entry that is pending is justified by one record of its
account, and each record that releases stake puts one entry in the queue. -/
theorem pending_justified {owner : AccountId} {id : String} {template : Template}
    {token : StakeToken} {vault : AccountId} {bump vaultBump : UInt8}
    (hnew : Anchor.new owner id template token vault bump vaultBump = .ok s)
    (ops : List (Operation ε τ)) (hroom : ∀ c ∈ s.trace ops, c.before.history.HasRoom) :
    s.PendingJustified ops := by
  obtain ⟨-, hhistory, hempty, -⟩ := new_eq_ok hnew
  have hunique := unique_of_new hnew
  have hsublist : ∀ a, ((s.run ops).unbonding.of a).Sublist (queuedFor a (s.trace ops)) := by
    intro a
    have h := of_run_sublist ops hroom hunique a
    rw [hempty] at h
    exact h
  constructor
  case justified =>
    intro a e he
    obtain ⟨c, hc, rfl, hentry⟩ := mem_queuedFor.1 ((hsublist a).subset he)
    obtain ⟨r, hr, hreleased⟩ := Option.bind_eq_some_iff.1 hentry
    obtain ⟨position, hjustifies⟩ := Call.justifies_of_releasedEntry (hroom c hc) hr hreleased
    obtain ⟨k, hk⟩ := List.mem_iff_getElem?.1 (List.mem_filterMap.2 ⟨c, hc, hr⟩)
    refine ⟨c, hc, r, position, ?_, hjustifies⟩
    rw [← hjustifies.index, index_getElem?_run hhistory ops hroom hk]
    exact hk
  case distinct =>
    have hperm := (pairs_run_perm ops hroom).map (·.2.historyIndex)
    rw [hempty, List.map_append] at hperm
    exact (hperm.nodup_iff.2 (nodup_index_queued ops hroom)).sublist (List.sublist_append_left _ _)
  case increasing =>
    intro a
    have hindexes := (pairwise_index_run ops hroom).sublist
      (index_queuedFor_sublist a (s.trace ops))
    exact (List.pairwise_map.1 hindexes).sublist (hsublist a)
  case pushed =>
    intro c hc r a amount position hr hreleases
    exact Call.pushed_of_releases (hroom c hc) hr hreleases
  case quiet =>
    intro c hc hnone a
    have hreleased : c.releasedEntry = none := by
      refine Option.eq_none_iff_forall_ne_some.2 fun e he => ?_
      obtain ⟨r, hr, hentry⟩ := Option.bind_eq_some_iff.1 he
      obtain ⟨position, hjustifies⟩ := Call.justifies_of_releasedEntry (hroom c hc) hr hentry
      exact hnone r _ _ position hr hjustifies.releases
    have hbefore : c.before.Unique := before_invariant Effect.unique ops hroom hunique c hc
    have hof := (Call.effect (hroom c hc)).of_sublist hbefore.unbonding a
    have hrecord : c.reply.record?.bind c.before.releasedEntry = none := hreleased
    simpa [hrecord] using hof

open SampleRun in
/-- Before the validator of the sample withdraws, two of its facts are pending. -/
theorem pending_justified_sampleRun :
    (∀ c ∈ anchor.trace (operations.take 7), c.before.history.HasRoom) ∧
      anchor.PendingJustified (operations.take 7) ∧
      ((anchor.run (operations.take 7)).unbonding.of validator).map (·.historyIndex) = [3, 4] ∧
      ((anchor.run (operations.take 7)).unbonding.of validator).map (·.amount) = [50, 6050] := by
  have hroom : ∀ c ∈ anchor.trace (operations.take 7), c.before.history.HasRoom := by
    decide +kernel
  exact ⟨hroom, pending_justified new_eq_anchor (operations.take 7) hroom, by decide +kernel,
    by decide +kernel⟩

end Anchor

end AppchainStaking
