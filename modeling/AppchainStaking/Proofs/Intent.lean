import AppchainStaking.Anchor.Deposit
import AppchainStaking.Proofs.Json.Rendering
import AppchainStaking.Proofs.Profile

/-!
# Rendered intents are decoded

An intent is denoted by a JSON value whose fields stand in any order, with the members of a profile
in any order among themselves; an empty profile may be left out. A message of admissible size that
renders such a value is decoded to the intent.
-/

namespace AppchainStaking.Intent

open Json (Value)

def entryMember (e : ProfileEntry) : Option String × Value := (some e.key, .text (some e.value))

def registrationMembers (appchainId : String) (delegable : Bool) : List (Option String × Value) :=
  [(some "validator_id_in_appchain", .text (some appchainId)),
    (some "can_be_delegated_to", .bool delegable)]

def validatorMember (validator : String) : Option String × Value :=
  (some "validator_id", .text (some validator))

/-- The values that denote an intent, each tagged with its name. -/
inductive Denotes : Value → Intent → Prop
  | registerValidator {appchainId : String} {delegable : Bool} {profile : Profile}
      {entries : List ProfileEntry} {members : List (Option String × Value)}
      (ordered : entries.Perm profile.entries)
      (fields : members.Perm
        ((some "profile", .object (entries.map entryMember)) ::
          registrationMembers appchainId delegable)) :
      Denotes (.object [(some "RegisterValidator", .object members)])
        (.registerValidator appchainId delegable profile)
  | registerValidatorWithoutProfile {appchainId : String} {delegable : Bool}
      {members : List (Option String × Value)}
      (fields : members.Perm (registrationMembers appchainId delegable)) :
      Denotes (.object [(some "RegisterValidator", .object members)])
        (.registerValidator appchainId delegable .empty)
  | increaseStake : Denotes (.text (some "IncreaseStake")) .increaseStake
  | registerDelegator {validator : String} :
      Denotes (.object [(some "RegisterDelegator", .object [validatorMember validator])])
        (.registerDelegator validator)
  | increaseDelegation {validator : String} :
      Denotes (.object [(some "IncreaseDelegation", .object [validatorMember validator])])
        (.increaseDelegation validator)

def Rendered (i : Intent) (message : String) : Prop :=
  ∃ v, Denotes v i ∧ Json.Renders v message

variable {members members' : List (Option String × Value)} {message : String} {i : Intent}

/-- What stands under a key does not depend on the order of members with different keys. -/
theorem field?_of_perm (h : members.Perm members') (hkeys : (members'.map (·.1)).Nodup)
    (name : String) : field? members name = field? members' name := by
  have hperm := h.filter (·.1 = some name)
  unfold field?
  cases hfilter : members'.filter (·.1 = some name) with
  | nil =>
      rw [hfilter] at hperm
      rw [hperm.eq_nil]
  | cons m rest =>
      have hrest : rest = [] := by
        have hsub : ((m :: rest).map (·.1)).Nodup := by
          rw [← hfilter]
          exact hkeys.sublist (List.filter_sublist.map _)
        have hall : ∀ m' ∈ m :: rest, m'.1 = some name := by
          intro m' hm'
          rw [← hfilter] at hm'
          exact of_decide_eq_true (List.mem_filter.1 hm').2
        cases rest with
        | nil => rfl
        | cons m' rest =>
            have hsame : m'.1 = m.1 := (hall m' (by simp)).trans (hall m (by simp)).symm
            exact absurd (List.mem_map.2 ⟨m', by simp, hsame⟩) (List.nodup_cons.1 hsub).1
      rw [hfilter, hrest] at hperm
      rw [List.perm_singleton.1 hperm, hrest]

theorem fields?_of_perm (h : members.Perm members') (hkeys : (members'.map (·.1)).Nodup)
    (names : List String) :
    fields? names (.object members) = fields? names (.object members') := by
  have hfield : field? members = field? members' := funext (field?_of_perm h hkeys)
  have hall : members.all (·.1.isSome) = members'.all (·.1.isSome) := h.all_eq
  simp only [fields?, hfield, hall]

theorem mapM_profileEntry? (entries : List ProfileEntry) :
    (entries.map entryMember).mapM profileEntry? = some entries := by
  have hentry : profileEntry? ∘ entryMember = fun e => pure (id e) := rfl
  rw [List.mapM_map, hentry, List.mapM_pure, List.map_id]
  rfl

theorem registration?_of_perm {appchainId : String} {delegable : Bool} {profile : Profile}
    {entries : List ProfileEntry} (ordered : entries.Perm profile.entries)
    (fields : members.Perm ((some "profile", .object (entries.map entryMember)) ::
      registrationMembers appchainId delegable)) :
    registration? (.object members) = some (.registerValidator appchainId delegable profile) := by
  rw [registration?, fields?_of_perm fields (by simp [registrationMembers])]
  have hprofile : profile? (some (.object (entries.map entryMember))) = some profile := by
    rw [profile?, mapM_profileEntry?, Option.map_some, Profile.ofEntries_of_perm ordered]
  simp [fields?, field?, registrationMembers, hprofile]

theorem registration?_of_perm_without {appchainId : String} {delegable : Bool}
    (fields : members.Perm (registrationMembers appchainId delegable)) :
    registration? (.object members) = some (.registerValidator appchainId delegable .empty) := by
  rw [registration?, fields?_of_perm fields (by simp [registrationMembers])]
  simp [fields?, field?, registrationMembers, profile?]

theorem validator?_validatorMember (validator : String) :
    validator? (.object [validatorMember validator]) = some validator := by
  simp [validator?, fields?, field?, validatorMember]

theorem ofValue?_of_denotes {v : Value} (h : Denotes v i) : ofValue? v = some i := by
  cases h with
  | registerValidator ordered fields => exact registration?_of_perm ordered fields
  | registerValidatorWithoutProfile fields => exact registration?_of_perm_without fields
  | increaseStake => rfl
  | registerDelegator | increaseDelegation => simp [ofValue?, validator?_validatorMember]

theorem decode_of_rendered (h : i.Rendered message)
    (fits : message.utf8ByteSize ≤ maximumMessageSize) : decode message = .ok i := by
  obtain ⟨v, hdenotes, hrenders⟩ := h
  rw [decode, Json.parse?_of_renders hrenders, Option.bind_eq_bind, Option.bind_some,
    ofValue?_of_denotes hdenotes, require, if_pos fits]
  rfl

theorem decode_eq_error {e : StakingError} (h : decode message = .error e) :
    e = .malformedIntent := by
  rw [decode, bind_eq_error_iff] at h
  rcases h with hsize | ⟨_, -, hparse⟩
  · exact (require_eq_error_iff.1 hsize).2.symm
  · cases hvalue : Json.parse? message >>= ofValue? with
    | none =>
        rw [hvalue] at hparse
        cases hparse
        rfl
    | some i =>
        rw [hvalue] at hparse
        cases hparse

end AppchainStaking.Intent
