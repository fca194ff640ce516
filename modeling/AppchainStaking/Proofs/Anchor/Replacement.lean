import AppchainStaking.Proofs.Anchor.Conservation
import AppchainStaking.Proofs.Anchor.Message
import AppchainStaking.Proofs.Ledger.WellFormed

/-!
# Profiles are replaced as a whole

A validator's profile is replaced if its keys are different, it is within its limits, and there is
a validator to have it. The entries are kept in the order of their keys whatever order they came
in, which is also how a registration keeps them, so that a profile that is read and written back
is the same.
-/

namespace AppchainStaking

variable {ε τ : Type}

namespace Profile

variable {es es' : List ProfileEntry}

structure Acceptable (es : List ProfileEntry) : Prop where
  distinct : (es.map (·.key)).Nodup
  count : es.length ≤ 16
  sizes : ∀ e ∈ es, e.key.utf8ByteSize ≤ 32 ∧ e.value.utf8ByteSize ≤ 256

instance (es : List ProfileEntry) : Decidable (Acceptable es) :=
  decidable_of_iff
    ((es.map (·.key)).Nodup ∧ es.length ≤ 16 ∧
      ∀ e ∈ es, e.key.utf8ByteSize ≤ 32 ∧ e.value.utf8ByteSize ≤ 256)
    ⟨fun h => ⟨h.1, h.2.1, h.2.2⟩, fun h => ⟨h.distinct, h.count, h.sizes⟩⟩

theorem Acceptable.perm (h : Acceptable es) (hperm : es.Perm es') : Acceptable es' where
  distinct := (hperm.map ProfileEntry.key).nodup_iff.1 h.distinct
  count := hperm.length_eq ▸ h.count
  sizes e he := h.sizes e (hperm.mem_iff.2 he)

theorem acceptable_entries_iff {p : Profile} : Acceptable p.entries ↔ p.Fits :=
  ⟨fun h => ⟨h.count, h.sizes⟩, fun h => ⟨p.nodup_keys, h.1, h.2⟩⟩

/-- No entry is lost, and what is left of them fits. -/
theorem acceptable_iff :
    Acceptable es ↔ (ofEntries es).entries.length = es.length ∧ (ofEntries es).Fits := by
  rw [length_ofEntries_eq_iff, ← acceptable_entries_iff]
  constructor
  · intro h
    exact ⟨h.distinct, h.perm (ofEntries_perm h.distinct).symm⟩
  · rintro ⟨hdistinct, h⟩
    exact h.perm (ofEntries_perm hdistinct)

def Ordered (es : List ProfileEntry) : Prop :=
  es.Pairwise fun a b => a.key.toUTF8.data.toList < b.key.toUTF8.data.toList

instance (es : List ProfileEntry) : Decidable (Ordered es) := by
  unfold Ordered
  infer_instance

theorem ordered_ofEntries (es : List ProfileEntry) : Ordered (ofEntries es).entries :=
  (ofEntries es).sorted.imp Utf8.bytes_lt

theorem Ordered.eq_of_perm (h : Ordered es) (h' : Ordered es') (hperm : es.Perm es') :
    es = es' := by
  refine hperm.eq_of_pairwise (fun a b _ _ hab hba => ?_) h h'
  exact absurd (List.lt_trans hab hba) (List.lt_irrefl _)

theorem Ordered.nodup (h : Ordered es) : (es.map (·.key)).Nodup := by
  rw [List.Nodup, List.pairwise_map]
  refine h.imp fun {a b} hlt heq => ?_
  rw [heq] at hlt
  exact List.lt_irrefl _ hlt

/-- Entries as they are stored are acceptable, and already in order. -/
theorem Stored.acceptable (h : Stored es) : Acceptable es ∧ (ofEntries es).entries = es := by
  have hordered : Ordered es := h.sorted
  have hperm := ofEntries_perm hordered.nodup
  exact ⟨⟨hordered.nodup, h.count, h.sizes⟩, (ordered_ofEntries es).eq_of_perm hordered hperm⟩

end Profile

namespace Ledger

variable {l l' : Ledger} {v : AccountId}

theorem mem_ids_iff : v ∈ l.validators.map (·.id) ↔ (l.validator? v).isSome := by
  simp [validator?, List.find?_isSome]

theorem profileOf_eq_ok_iff {profile : List ProfileEntry} :
    l.profileOf v = .ok profile ↔ ∃ x, l.validator? v = some x ∧ x.profile = profile := by
  simp only [profileOf, bind_eq_ok_iff, validator_eq_ok_iff, pure_eq_ok_iff]

/-- A registration stores the profile that it declares. -/
theorem profileOf_of_register {rules : LedgerRules} {raw : String} {amount : Amount}
    {delegable : Bool} {profile : Profile} {f : Fact}
    (h : Step rules v l (.registerValidator raw amount delegable profile) l' f) :
    l'.profileOf v = .ok profile.entries := by
  cases h with
  | registerValidator _ fresh =>
      rw [validator?] at fresh
      simp [profileOf_eq_ok_iff, validator?, List.find?_append, fresh]

end Ledger

namespace Anchor

variable {s s' : Anchor} {v : AccountId} {entries entries' : List ProfileEntry}

/-- Whatever is asked of an anchor, its ledger changes as a ledger of its template does. -/
theorem ledger_change (s : Anchor) (o : Operation ε τ) :
    (s.perform o).2.template = s.template ∧
      Ledger.Change s.template s.ledger (s.perform o).2.ledger := by
  have houtcome := perform_outcome s o
  generalize (s.perform o).1 = reply, (s.perform o).2 = s' at houtcome
  rcases houtcome with heffect | hunrecorded
  · cases heffect with
    | recorded _ _ step => exact ⟨rfl, .acted rfl step⟩
    | profileSet _ _ fits known => exact ⟨rfl, .profileSet fits known⟩
    | commanded _ executed =>
        obtain ⟨hledger, -, -, -, htemplate⟩ := execute_frame executed
        rw [hledger]
        exact ⟨htemplate, .unchanged⟩
    | paid | unchanged => exact ⟨rfl, .unchanged⟩
  · cases hunrecorded with
    | intro _ _ step => exact ⟨rfl, .acted rfl step⟩

def WellFormed (s : Anchor) : Prop := s.ledger.WellFormed s.template

theorem WellFormed.perform (h : s.WellFormed) (o : Operation ε τ) : (s.perform o).2.WellFormed := by
  obtain ⟨htemplate, hchange⟩ := ledger_change s o
  rw [WellFormed, htemplate]
  exact hchange.wellFormed h

theorem WellFormed.run (h : s.WellFormed) (ops : List (Operation ε τ)) :
    (s.run ops).WellFormed := by
  have hstep : ∀ c : Call ε τ, True → c.before.WellFormed → c.after.WellFormed :=
    fun c _ hbefore => hbefore.perform c.operation
  exact (invariant_of_calls hstep ops (fun _ _ => trivial) h).2

theorem wellFormed_of_new {owner : AccountId} {id : String} {template : Template}
    {token : StakeToken} {vault : AccountId} {bump vaultBump : UInt8}
    (h : Anchor.new owner id template token vault bump vaultBump = .ok s) : s.WellFormed := by
  obtain ⟨hledger, -⟩ := new_eq_ok h
  rw [WellFormed, hledger]
  exact Ledger.wellFormed_empty

def withProfile (s : Anchor) (v : AccountId) (profile : List ProfileEntry) : Anchor :=
  { s with
    ledger :=
      { s.ledger with
        validators :=
          s.ledger.validators.map fun x => if x.id = v then { x with profile } else x } }

theorem withProfile_eq (hs : s.ledger.Unique) (v : AccountId) (profile : List ProfileEntry) :
    s.withProfile v profile =
      { s with ledger := s.ledger.updateValidator v ({ · with profile }) } := by
  have hupdate := updateFirst_eq_map (f := ({ · with profile })) hs.validators (k := v)
  rw [withProfile, Ledger.updateValidator, hupdate]

/-- Replacing a profile asks for acceptable entries first, and then for a validator. -/
theorem setProfile_eq (hs : s.ledger.Unique) (v : AccountId) (entries : List ProfileEntry) :
    s.setProfile v entries =
      if Profile.Acceptable entries then
        if v ∈ s.ledger.validators.map (·.id) then
          .ok (s.withProfile v (Profile.ofEntries entries).entries)
        else .error .unknownValidator
      else .error .invalidValue := by
  by_cases distinct : (Profile.ofEntries entries).entries.length = entries.length
  · by_cases fits : (Profile.ofEntries entries).Fits
    · rw [if_pos (Profile.acceptable_iff.2 ⟨distinct, fits⟩)]
      split
      · next known =>
          exact setProfile_eq_ok_iff.2
            ⟨distinct, fits, Ledger.mem_ids_iff.1 known, withProfile_eq hs v _⟩
      · next unknown =>
          have hnone : s.ledger.validator? v = none := by
            simpa [Ledger.mem_ids_iff] using unknown
          simp [setProfile, Ledger.setProfile, Profile.checked, require, distinct, fits,
            Ledger.validator, found, hnone, bind, Except.bind]
    · rw [if_neg (fun h => fits (Profile.acceptable_iff.1 h).2)]
      simp [setProfile, Ledger.setProfile, Profile.checked, require, distinct, fits, bind,
        Except.bind]
  · rw [if_neg (fun h => distinct (Profile.acceptable_iff.1 h).1)]
    simp [setProfile, require, distinct, bind, Except.bind]

theorem setProfile_eq_replaced_iff (hs : s.ledger.Unique) :
    s.setProfile v entries = .ok s' ↔
      Profile.Acceptable entries ∧ v ∈ s.ledger.validators.map (·.id) ∧
        s' = s.withProfile v (Profile.ofEntries entries).entries := by
  rw [setProfile_eq hs]
  by_cases hentries : Profile.Acceptable entries
  · by_cases known : v ∈ s.ledger.validators.map (·.id)
    · simp [hentries, known, eq_comm]
    · simp [hentries, known]
  · simp [hentries]

theorem setProfile_of_perm (hs : s.ledger.Unique) (hperm : entries.Perm entries') :
    s.setProfile v entries' = s.setProfile v entries := by
  rw [setProfile_eq hs, setProfile_eq hs]
  by_cases h : Profile.Acceptable entries
  · rw [if_pos h, if_pos (h.perm hperm), Profile.ofEntries_congr hperm h.distinct]
  · rw [if_neg h, if_neg fun h' => h (h'.perm hperm.symm)]

theorem profileOf_withProfile {profile : List ProfileEntry} (hs : s.ledger.Unique)
    (h : v ∈ s.ledger.validators.map (·.id)) :
    (s.withProfile v profile).ledger.profileOf v = .ok profile := by
  obtain ⟨x, known⟩ := Option.isSome_iff_exists.1 (Ledger.mem_ids_iff.1 h)
  have hfound : (s.ledger.updateValidator v ({ · with profile })).validator? v =
      (s.ledger.validator? v).map ({ · with profile }) :=
    find?_updateFirst (f := fun x : Validator => { x with profile })
      (p := fun x : Validator => x.id = v) (fun _ hx => hx) s.ledger.validators
  rw [known] at hfound
  rw [withProfile_eq hs]
  exact Ledger.profileOf_eq_ok_iff.2 ⟨_, hfound, rfl⟩

/-- A profile that is read and written back is there already. -/
theorem setProfile_of_profileOf (hs : s.WellFormed) (h : s.ledger.profileOf v = .ok entries) :
    s.setProfile v entries = .ok s := by
  obtain ⟨x, known, rfl⟩ := Ledger.profileOf_eq_ok_iff.1 h
  obtain ⟨hacceptable, hordered⟩ :=
    (hs.profiles x (List.mem_of_find?_eq_some known)).acceptable
  obtain ⟨distinct, fits⟩ := Profile.acceptable_iff.1 hacceptable
  refine setProfile_eq_ok_iff.2 ⟨distinct, fits, Option.isSome_iff_exists.2 ⟨x, known⟩, ?_⟩
  rw [hordered, Ledger.updateValidator, updateFirst_eq_self known rfl]

/-- After every run of a new anchor, the profile of a validator is replaced by any acceptable
entries in the order of their keys, in whatever order they are given. The profile that is read can
be written back, and the profile of a registration is one that is read. -/
theorem profiles_replaced_exactly {owner : AccountId} {id : String} {template : Template}
    {token : StakeToken} {vault : AccountId} {bump vaultBump : UInt8} {new : Anchor}
    (hnew : Anchor.new owner id template token vault bump vaultBump = .ok new)
    (ops : List (Operation ε τ)) (v : AccountId) (entries : List ProfileEntry) :
    let s := new.run ops
    ((∃ s', s.setProfile v entries = .ok s') ↔
        (entries.map (·.key)).Nodup ∧ entries.length ≤ 16 ∧
          (∀ e ∈ entries, e.key.utf8ByteSize ≤ 32 ∧ e.value.utf8ByteSize ≤ 256) ∧
          v ∈ s.ledger.validators.map (·.id)) ∧
      (∀ s', s.setProfile v entries = .ok s' → ∃ sorted : List ProfileEntry,
        sorted.Perm entries ∧ Profile.Ordered sorted ∧ s' = s.withProfile v sorted ∧
          s'.ledger.profileOf v = .ok sorted) ∧
      (∀ entries', entries.Perm entries' → s.setProfile v entries' = s.setProfile v entries) ∧
      (∀ profile, s.ledger.profileOf v = .ok profile → s.setProfile v profile = .ok s) ∧
      ∀ (o : Operation ε τ) (raw : String) (amount : Amount) (delegable : Bool) (profile : Profile),
        o.action? = some (.registerValidator raw amount delegable profile) →
          (s.perform o).1.record?.isSome →
            (s.perform o).2.ledger.profileOf o.caller = .ok profile.entries ∧
              (s.perform o).2.setProfile o.caller profile.entries = .ok (s.perform o).2 := by
  intro s
  have hs : s.WellFormed := (wellFormed_of_new hnew).run ops
  refine ⟨?_, fun s' h => ?_, fun entries' => setProfile_of_perm hs.unique,
    fun profile => setProfile_of_profileOf hs,
    fun o raw amount delegable profile asked hrecord => ?_⟩
  · simp only [setProfile_eq_replaced_iff hs.unique]
    constructor
    · rintro ⟨_, hentries, known, -⟩
      exact ⟨hentries.distinct, hentries.count, hentries.sizes, known⟩
    · rintro ⟨distinct, count, sizes, known⟩
      exact ⟨_, ⟨distinct, count, sizes⟩, known, rfl⟩
  · obtain ⟨hentries, known, rfl⟩ := (setProfile_eq_replaced_iff hs.unique).1 h
    exact ⟨_, Profile.ofEntries_perm hentries.distinct, Profile.ordered_ofEntries entries, rfl,
      profileOf_withProfile hs.unique known⟩
  · obtain ⟨r, hr⟩ := Option.isSome_iff_exists.1 hrecord
    have hread : (s.perform o).2.ledger.profileOf o.caller = .ok profile.entries := by
      rcases perform_outcome s o with heffect | hunrecorded
      · obtain ⟨action, l, hasked, step, -, hafter⟩ := heffect.of_record hr
        rw [asked] at hasked
        cases hasked
        rw [hafter]
        exact Ledger.profileOf_of_register step
      · generalize (s.perform o).1 = reply, (s.perform o).2 = s' at hr hunrecorded
        cases hunrecorded
        cases hr
    exact ⟨hread, setProfile_of_profileOf (hs.perform o) hread⟩

end Anchor

namespace SampleRun

def arrival : Operation Unit Unit := .deposit validator 10 6000 SampleMessage.registration

def registration : StakingAction :=
  .registerValidator SampleMessage.identifier 6000 false SampleMessage.profile

theorem decode_arrival : Intent.decode SampleMessage.registration =
    .ok (.registerValidator SampleMessage.identifier false SampleMessage.profile) :=
  Intent.decode_of_rendered ⟨SampleMessage.value,
    .registerValidator (.swap _ _ _) (.cons _ (.swap _ _ _)), SampleMessage.renders_value⟩
    (by decide +kernel)

theorem action?_arrival : arrival.action? = some registration := by
  rw [arrival, Operation.action?, StakingAction.ofMessage, decode_arrival]
  rfl

theorem perform_arrival :
    anchor.perform arrival = anchor.perform (.act validator 10 registration) := by
  simp only [arrival, Anchor.perform]
  rw [Anchor.deposit_of_decoded decode_arrival rfl, registration]

/-- Another profile, out of order: `é` takes two bytes, both above those of `z`. -/
def revised : List ProfileEntry := [⟨"é", "1"⟩, ⟨"z", "2"⟩, ⟨"a", "3"⟩]

end SampleRun

open SampleRun in
theorem Anchor.profiles_replaced_exactly_arrival :
    (anchor.run [arrival]).ledger.profileOf validator = .ok SampleMessage.profile.entries ∧
      (anchor.run [arrival]).setProfile validator SampleMessage.profile.entries =
        .ok (anchor.run [arrival]) ∧
      (∃ s', (anchor.run [arrival]).setProfile validator revised = .ok s' ∧
        s' = (anchor.run [arrival]).withProfile validator revised.reverse ∧
        s'.ledger.profileOf validator = .ok revised.reverse ∧
        (anchor.run [arrival]).setProfile validator revised.reverse = .ok s') ∧
      ¬∃ s', (anchor.run [arrival]).setProfile validator (revised ++ revised) = .ok s' := by
  obtain ⟨-, -, -, -, hregistered⟩ :=
    profiles_replaced_exactly new_eq_anchor ([] : List (Operation Unit Unit)) validator []
  simp only [Anchor.run] at hregistered
  have hrecord : (anchor.perform arrival).1.record?.isSome := by
    rw [perform_arrival]
    decide +kernel
  have hcaller : arrival.caller = validator := by simp only [arrival, Operation.caller]
  have hrun : (anchor.perform arrival).2 = anchor.run [arrival] := by rw [Anchor.run, Anchor.run]
  obtain ⟨hread, hwritten⟩ := hregistered arrival _ _ _ _ action?_arrival hrecord
  rw [hrun, hcaller] at hread hwritten
  obtain ⟨hexact, hreplaced, hperm, -, -⟩ :=
    profiles_replaced_exactly new_eq_anchor [arrival] validator revised
  obtain ⟨x, known, -⟩ := Ledger.profileOf_eq_ok_iff.1 hread
  have hvalidator := Ledger.mem_ids_iff.2 (Option.isSome_iff_exists.2 ⟨x, known⟩)
  obtain ⟨s', hs'⟩ := hexact.2 ⟨by decide, by decide, by decide, hvalidator⟩
  obtain ⟨sorted, hsorted, hordered, hafter, hread'⟩ := hreplaced s' hs'
  obtain rfl : sorted = revised.reverse :=
    hordered.eq_of_perm (by decide +kernel) (hsorted.trans (List.reverse_perm revised).symm)
  obtain ⟨hrepeated, -⟩ :=
    profiles_replaced_exactly new_eq_anchor [arrival] validator (revised ++ revised)
  refine ⟨hread, hwritten, ⟨s', hs', hafter, hread', ?_⟩, fun h => ?_⟩
  · exact (hperm revised.reverse (List.reverse_perm revised).symm).trans hs'
  · exact absurd (hrepeated.1 h).1 (by decide +kernel)

end AppchainStaking
