import AppchainStaking.Proofs.Anchor.Conservation
import AppchainStaking.Proofs.History.Numbering

/-!
# The history explains the ledger

The image of the ledger in history leaves out the profiles and keeps everything else, with amounts
as integers. A record acts on images, by account and not by position. Replaying the records of a
run from the empty image gives the image of the ledger after it.
-/

namespace AppchainStaking

variable {ε τ : Type}

/-- What history tells about a validator: all but its profile. -/
structure ValidatorImage where
  id : AccountId
  appchainId : String
  deposit : Int
  delegable : Bool
  registeredEra : UInt64
  deriving DecidableEq

structure DelegationImage where
  delegator : AccountId
  validator : AccountId
  deposit : Int
  frozen : Bool
  deriving DecidableEq

structure LedgerImage where
  validators : List ValidatorImage := []
  delegations : List DelegationImage := []
  deriving DecidableEq

def Validator.image (x : Validator) : ValidatorImage :=
  { id := x.id, appchainId := x.appchainId, deposit := x.deposit.toNat, delegable := x.delegable
    registeredEra := x.registeredEra }

def Delegation.image (x : Delegation) : DelegationImage :=
  { delegator := x.delegator, validator := x.validator, deposit := x.deposit.toNat
    frozen := x.frozen }

def Ledger.image (l : Ledger) : LedgerImage :=
  { validators := l.validators.map (·.image), delegations := l.delegations.map (·.image) }

namespace LedgerImage

def onValidator (l : LedgerImage) (v : AccountId) (f : ValidatorImage → ValidatorImage) :
    LedgerImage :=
  { l with validators := l.validators.map fun x => if x.id = v then f x else x }

def onDelegation (l : LedgerImage) (d v : AccountId) (f : DelegationImage → DelegationImage) :
    LedgerImage :=
  { l with
    delegations := l.delegations.map fun x =>
      if x.delegator = d ∧ x.validator = v then f x else x }

def replay (l : LedgerImage) (r : HistoryRecord) : LedgerImage :=
  match r.fact with
  | .validatorRegistered v appchainId amount delegable =>
      { l with
        validators := l.validators ++
          [{ id := v, appchainId, deposit := amount.toNat, delegable, registeredEra := r.era }] }
  | .stakeIncreased v amount =>
      l.onValidator v fun x => { x with deposit := x.deposit + amount.toNat }
  | .stakeDecreased v amount =>
      l.onValidator v fun x => { x with deposit := x.deposit - amount.toNat }
  | .validatorUnbonded v _ =>
      { validators := l.validators.filter (·.id ≠ v)
        delegations := l.delegations.map fun x =>
          if x.validator = v then { x with frozen := true } else x }
  | .delegationEnabled v => l.onValidator v ({ · with delegable := true })
  | .delegationDisabled v => l.onValidator v ({ · with delegable := false })
  | .delegatorRegistered d v amount =>
      { l with
        delegations := l.delegations ++
          [{ delegator := d, validator := v, deposit := amount.toNat, frozen := false }] }
  | .delegationIncreased d v amount =>
      l.onDelegation d v fun x => { x with deposit := x.deposit + amount.toNat }
  | .delegationDecreased d v amount =>
      l.onDelegation d v fun x => { x with deposit := x.deposit - amount.toNat }
  | .delegatorUnbonded d v _ =>
      { l with delegations := l.delegations.filter fun x => ¬(x.delegator = d ∧ x.validator = v) }

end LedgerImage

namespace Ledger

variable {rules : LedgerRules} {caller : AccountId} {l l' : Ledger} {f : Fact}
  {action : StakingAction}

/-- A validator's record is changed in the image as it is on the ledger. -/
theorem image_updateValidator (hl : l.Unique) {v : AccountId} {y : Validator}
    (hy : l.validator? v = some y) {g : Validator → Validator}
    {g' : ValidatorImage → ValidatorImage} (hg : (g y).image = g' y.image) :
    (l.updateValidator v g).image = l.image.onValidator v g' := by
  simp only [updateValidator, updateFirst_eq_map hl.validators, image, LedgerImage.onValidator,
    List.map_map]
  congr 1
  refine List.map_congr_left fun x hx => ?_
  change (if x.id = v then g x else x).image = if x.id = v then g' x.image else x.image
  by_cases hv : x.id = v
  · obtain rfl : x = y := eq_of_find?_eq_some hl.validators hy hx hv
    rw [if_pos hv, if_pos hv, hg]
  · rw [if_neg hv, if_neg hv]

theorem image_updateDelegation (hl : l.Unique) {d v : AccountId} {y : Delegation}
    (hy : l.delegation? d v = some y) {g : Delegation → Delegation}
    {g' : DelegationImage → DelegationImage} (hg : (g y).image = g' y.image) :
    (l.updateDelegation d v g).image = l.image.onDelegation d v g' := by
  have hupdate : updateFirst (·.isOf d v) g l.delegations =
      l.delegations.map fun x => if x.pair = (d, v) then g x else x := by
    rw [← updateFirst_eq_map hl.delegations]
    simp only [Delegation.isOf_eq]
  simp only [updateDelegation, hupdate, image, LedgerImage.onDelegation, List.map_map]
  congr 1
  refine List.map_congr_left fun x hx => ?_
  have hpair : x.pair = (d, v) ↔ x.delegator = d ∧ x.validator = v := by simp [Delegation.pair]
  change (if x.pair = (d, v) then g x else x).image =
    if x.delegator = d ∧ x.validator = v then g' x.image else x.image
  by_cases hv : x.pair = (d, v)
  · have hfind : l.delegations.find? (·.pair = (d, v)) = some y := by
      simpa only [delegation?, Delegation.isOf_eq] using hy
    obtain rfl : x = y := eq_of_find?_eq_some hl.delegations hfind hx hv
    rw [if_pos hv, if_pos (hpair.1 hv), hg]
  · rw [if_neg hv, if_neg (mt hpair.2 hv)]

/-- An accepted action does to the image what the record of its fact says. -/
theorem Step.image_eq_replay (h : Step rules caller l action l' f) (hl : l.Unique)
    (index : UInt64) (now : Int64) :
    l'.image = l.image.replay { index, fact := f, timestamp := now, era := rules.era } := by
  cases h with
  | registerValidator => simp [image, LedgerImage.replay, Validator.image]
  | increaseStake _ known sum =>
      refine image_updateValidator hl known ?_
      simp [Validator.image, ← sum]
  | decreaseStake _ known sum =>
      refine image_updateValidator hl known ?_
      simp [Validator.image, ← sum]
  | unbondStake =>
      simp only [image, LedgerImage.replay, eraseP_eq_filter hl.validators, List.filter_map,
        List.map_map]
      congr 1
      refine List.map_congr_left fun x _ => ?_
      by_cases hx : x.validator = caller <;> simp [Delegation.image, hx]
  | @setDelegable delegable known =>
      obtain ⟨x, known⟩ := Option.isSome_iff_exists.1 known
      cases delegable <;> exact image_updateValidator hl known rfl
  | registerDelegator => simp [image, LedgerImage.replay, Delegation.image]
  | increaseDelegation _ _ known _ sum =>
      refine image_updateDelegation hl known ?_
      simp [Delegation.image, ← sum]
  | decreaseDelegation _ _ known _ sum =>
      refine image_updateDelegation hl known ?_
      simp [Delegation.image, ← sum]
  | @unbondDelegation v x known =>
      have herase : l.delegations.eraseP (·.isOf caller v) =
          l.delegations.filter fun x => ¬(x.delegator = caller ∧ x.validator = v) := by
        have hpairs := eraseP_eq_filter (k := (caller, v)) hl.delegations
        simpa [Delegation.isOf_eq, Delegation.pair] using hpairs
      simp only [image, LedgerImage.replay, herase, List.filter_map]
      rfl

end Ledger

namespace Anchor

variable {s s' : Anchor} {o : Operation ε τ} {reply : Reply ε τ}

/-- An operation changes the image of the ledger by its record, and not at all without one. -/
theorem Effect.image_eq_replay (h : Effect s o reply s') (hs : s.Unique) :
    reply.record?.toList.foldl LedgerImage.replay s.ledger.image = s'.ledger.image := by
  cases h with
  | recorded _ _ step => exact (step.image_eq_replay hs.ledger _ _).symm
  | @profileSet caller _ profile =>
      have himage := map_updateFirst (g := Validator.image) (p := (·.id = caller))
        (f := ({ · with profile := profile.entries })) (fun _ => rfl) s.ledger.validators
      simp only [Ledger.updateValidator, Ledger.image, himage]
      rfl
  | paid => rfl
  | commanded _ executed =>
      rw [(execute_frame executed).1]
      rfl
  | unchanged unrecorded =>
      rw [unrecorded]
      rfl

/-- Replaying the records of a run takes the image of the ledger from before to after. -/
theorem image_run (ops : List (Operation ε τ)) (hs : s.Unique)
    (hroom : ∀ c ∈ s.trace ops, c.before.history.HasRoom) :
    (records (s.trace ops)).foldl LedgerImage.replay s.ledger.image =
      (s.run ops).ledger.image := by
  induction ops generalizing s with
  | nil => rfl
  | cons o ops ih =>
      have room : s.history.HasRoom := hroom _ List.mem_cons_self
      have heffect := perform_effect room o
      have himage : (Call.mk s o).record?.toList.foldl LedgerImage.replay s.ledger.image =
          (s.perform o).2.ledger.image := heffect.image_eq_replay hs
      rw [trace, records_cons, List.foldl_append, himage]
      exact ih (heffect.unique hs) fun c hc => hroom c (List.mem_cons_of_mem _ hc)

/-- Over every run of a new anchor, the records number from zero, and replaying them from the empty
ledger explains the ledger: validators and delegations in stored order, with all fields but the
profiles. -/
theorem history_explains_ledger {owner : AccountId} {id : String} {template : Template}
    {token : StakeToken} {vault : AccountId} {bump vaultBump : UInt8}
    (hnew : Anchor.new owner id template token vault bump vaultBump = .ok s)
    (ops : List (Operation ε τ)) (hroom : ∀ c ∈ s.trace ops, c.before.history.HasRoom) :
    (records (s.trace ops)).map (·.index.toNat) =
        List.range (records (s.trace ops)).length ∧
      (records (s.trace ops)).foldl LedgerImage.replay {} = (s.run ops).ledger.image := by
  obtain ⟨hledger, hhistory, -⟩ := new_eq_ok hnew
  have hindex := index_run ops hroom
  have himage := image_run ops (unique_of_new hnew) hroom
  rw [hhistory] at hindex
  rw [hledger] at himage
  exact ⟨hindex.trans List.range_eq_range'.symm, himage⟩

open SampleRun in
/-- Six records explain a validator that came back and a delegation that stayed frozen. -/
theorem history_explains_ledger_sampleRun :
    (∀ c ∈ anchor.trace operations, c.before.history.HasRoom) ∧
      (records (anchor.trace operations)).length = 6 ∧
      (records (anchor.trace operations)).foldl LedgerImage.replay {} =
        (anchor.run operations).ledger.image := by
  have hroom : ∀ c ∈ anchor.trace operations, c.before.history.HasRoom := by decide +kernel
  exact ⟨hroom, by decide +kernel, (history_explains_ledger new_eq_anchor operations hroom).2⟩

end Anchor

end AppchainStaking
