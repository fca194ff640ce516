import AppchainStaking.Proofs.Anchor.Operation
import AppchainStaking.Proofs.Intent
import AppchainStaking.Proofs.Text.Base58

/-!
# A deposit does what its message says

However an intent is written as JSON, a deposit with that message is the staking action called
directly, with the sender as caller and exactly the fields of the intent. A message that is not
decoded, or names a validator by anything but the Base58 form of an account, changes nothing.
-/

namespace AppchainStaking

variable {amount : Amount} {message : String} {i : Intent}

namespace Intent

theorem action_registerDelegator (amount : Amount) (v : AccountId) :
    (registerDelegator v.toBase58).action amount = .ok (.registerDelegator v amount) := by
  rw [action, AccountId.ofBase58?_eq_some_iff.2 rfl]
  rfl

theorem action_increaseDelegation (amount : Amount) (v : AccountId) :
    (increaseDelegation v.toBase58).action amount = .ok (.increaseDelegation v amount) := by
  rw [action, AccountId.ofBase58?_eq_some_iff.2 rfl]
  rfl

theorem action_of_misnamed {name : String} (hi : i = registerDelegator name ∨
    i = increaseDelegation name) (h : ∀ v, name ≠ AccountId.toBase58 v) :
    i.action amount = .error .malformedIntent := by
  have hnone := AccountId.ofBase58?_eq_none_iff.2 h
  rcases hi with rfl | rfl <;> rw [action, hnone] <;> rfl

end Intent

namespace Anchor

variable {s : Anchor} {sender : AccountId} {now : Int64}

theorem deposit_of_decoded {action : StakingAction} (h : Intent.decode message = .ok i)
    (haction : i.action amount = .ok action) :
    s.deposit sender amount message now = s.act sender now action := by
  have hmessage : StakingAction.ofMessage amount message = .ok action := by
    rw [StakingAction.ofMessage, h]
    exact haction
  rw [deposit, hmessage]

theorem deposit_of_malformed {e : StakingError}
    (h : StakingAction.ofMessage amount message = .error e) :
    s.deposit sender amount message now = (.error e, s) := by
  rw [deposit, h]

/-- A message of at most 8192 bytes that renders an intent does what the intent says; one that is
not decoded, or names no validator, is malformed and changes nothing. -/
theorem deposit_as_called (s : Anchor) (sender : AccountId) (amount : Amount) (message : String)
    (now : Int64) :
    (message.utf8ByteSize ≤ 8192 →
      (∀ appchainId delegable profile,
        (Intent.registerValidator appchainId delegable profile).Rendered message →
        s.deposit sender amount message now =
          s.act sender now (.registerValidator appchainId amount delegable profile)) ∧
      (Intent.increaseStake.Rendered message →
        s.deposit sender amount message now = s.act sender now (.increaseStake amount)) ∧
      (∀ v : AccountId, (Intent.registerDelegator v.toBase58).Rendered message →
        s.deposit sender amount message now = s.act sender now (.registerDelegator v amount)) ∧
      ∀ v : AccountId, (Intent.increaseDelegation v.toBase58).Rendered message →
        s.deposit sender amount message now = s.act sender now (.increaseDelegation v amount)) ∧
    ((∃ e, Intent.decode message = .error e) →
      s.deposit sender amount message now = (.error .malformedIntent, s)) ∧
    ∀ name, Intent.decode message = .ok (.registerDelegator name) ∨
        Intent.decode message = .ok (.increaseDelegation name) →
      (∀ v : AccountId, name ≠ v.toBase58) →
      s.deposit sender amount message now = (.error .malformedIntent, s) := by
  refine ⟨fun fits => ⟨?_, ?_, ?_, ?_⟩, ?_, ?_⟩
  · intro appchainId delegable profile h
    exact deposit_of_decoded (Intent.decode_of_rendered h fits) rfl
  · intro h
    exact deposit_of_decoded (Intent.decode_of_rendered h fits) rfl
  · intro v h
    exact deposit_of_decoded (Intent.decode_of_rendered h fits)
      (Intent.action_registerDelegator amount v)
  · intro v h
    exact deposit_of_decoded (Intent.decode_of_rendered h fits)
      (Intent.action_increaseDelegation amount v)
  · rintro ⟨e, h⟩
    refine deposit_of_malformed ?_
    rw [StakingAction.ofMessage, h, Intent.decode_eq_error h]
    rfl
  · intro name h hname
    refine deposit_of_malformed ?_
    rcases h with h | h <;> rw [StakingAction.ofMessage, h]
    · exact Intent.action_of_misnamed (.inl rfl) hname
    · exact Intent.action_of_misnamed (.inr rfl) hname

end Anchor

namespace SampleMessage

open Json (Value Token SpellsAll SpellsUnit SpellsToken SpellsTokens spellsAll_plain)

def identifier : String := "0x3333333333333333333333333333333333333333333333333333333333333333"

def profile : Profile := ⟨[⟨"mood", "😀"⟩, ⟨"site", "a/b"⟩], by decide⟩

/-- The fields and the entries of the profile are out of order, one character of a key and one of a
value are escaped, and so are both units of a character outside the basic plane. -/
def registration : String :=
  "\x7b\"RegisterValidator\" :\n\x7b\"prof\\u0069le\":\x7b\"site\":\"a\\/b\",\"mood\":" ++
  "\"\\uD83d\\ude00\"\x7d,\t\"can_be_delegated_to\":false,\"validator_id_in_appchain\":\"" ++
  identifier ++ "\"\x7d\x7d "

def misnamed : String :=
  "\x7b\"RegisterDelegator\":\x7b\"validator_id\":\"alice.near\"\x7d\x7d"

def value : Value :=
  .object [(some "RegisterValidator", .object [
    (some "profile", .object [(some "site", .text (some "a/b")), (some "mood", .text (some "😀"))]),
    (some "can_be_delegated_to", .bool false),
    (some "validator_id_in_appchain", .text (some identifier))])]

def text (s : String) : Token := .value (.text (some s))

theorem tokens_value : value.tokens =
    [.openObject, text "RegisterValidator", .colon, .openObject, text "profile", .colon,
      .openObject, text "site", .colon, text "a/b", .comma, text "mood", .colon, text "😀",
      .closeObject, .comma, text "can_be_delegated_to", .colon, .value (.bool false), .comma,
      text "validator_id_in_appchain", .colon, text identifier, .closeObject, .closeObject] := by
  simp [value, text, Json.tokens_object, Json.memberTokens, Value.tokens]

theorem spells_profile : SpellsAll "profile".toList "prof\\u0069le".toList := by
  have hunit : SpellsUnit "0069".toList 'i'.toNat :=
    @SpellsUnit.digits '0' '0' '6' '9' 0 0 6 9 (.inl rfl) (.inl rfl) (.inl rfl) (.inl rfl)
  have hhead : SpellsAll "prof".toList "prof".toList := spellsAll_plain (by decide)
  have htail : SpellsAll "le".toList "le".toList := spellsAll_plain (by decide)
  exact hhead.append (.cons (.unit hunit) htail)

theorem spells_site : SpellsAll "a/b".toList "a\\/b".toList := by
  have hhead : SpellsAll "a".toList "a".toList := spellsAll_plain (by decide)
  have htail : SpellsAll "b".toList "b".toList := spellsAll_plain (by decide)
  exact hhead.append (.cons (.short (by decide)) htail)

theorem spells_mood : SpellsAll "😀".toList "\\uD83d\\ude00".toList := by
  have hhigh : SpellsUnit "D83d".toList 0xD83D :=
    @SpellsUnit.digits 'D' '8' '3' 'd' 13 8 3 13 (.inr rfl) (.inl rfl) (.inl rfl) (.inl rfl)
  have hlow : SpellsUnit "de00".toList 0xDE00 :=
    @SpellsUnit.digits 'd' 'e' '0' '0' 13 14 0 0 (.inl rfl) (.inl rfl) (.inl rfl) (.inl rfl)
  have hvalue : '😀'.toNat = 0x1F600 := rfl
  have hpair : Json.Spells '😀' "\\uD83d\\ude00".toList :=
    .pair (by rw [hvalue]; decide) (by rw [hvalue]; exact hhigh) (by rw [hvalue]; exact hlow)
  exact .cons hpair .nil

theorem spells_plain (s : String) (h : s.toList.all Json.isPlain) :
    SpellsToken (text s) ('"' :: (s.toList ++ ['"'])) :=
  .text (spellsAll_plain h)

theorem renders_value : Json.Renders value registration := by
  have hblank (c : Char) (h : c ∈ [' ', '\t', '\n', '\r']) : Json.Blanks [c] :=
    List.forall_mem_singleton.2 h
  have hspelled : ∃ w, SpellsTokens value.tokens w ∧ registration.toList = w := by
    rw [tokens_value]
    exact ⟨_, .tight .openObject <| .tight (spells_plain "RegisterValidator" (by decide)) <|
      .cons (hblank ' ' (by decide)) .colon <| .cons (hblank '\n' (by decide)) .openObject <|
      .tight (.text spells_profile) <| .tight .colon <| .tight .openObject <|
      .tight (spells_plain "site" (by decide)) <| .tight .colon <| .tight (.text spells_site) <|
      .tight .comma <| .tight (spells_plain "mood" (by decide)) <| .tight .colon <|
      .tight (.text spells_mood) <| .tight .closeObject <| .tight .comma <|
      .cons (hblank '\t' (by decide)) (spells_plain "can_be_delegated_to" (by decide)) <|
      .tight .colon <| .tight .false <| .tight .comma <|
      .tight (spells_plain "validator_id_in_appchain" (by decide)) <| .tight .colon <|
      .tight (spells_plain identifier (by decide +kernel)) <| .tight .closeObject <|
      .tight .closeObject <| .nil (hblank ' ' (by decide)),
      by decide +kernel⟩
  obtain ⟨w, h, hw⟩ := hspelled
  rw [Json.Renders, hw]
  exact h

end SampleMessage

open SampleMessage SampleRun in
/-- The sample registers a validator; a message for a validator by another name is malformed. -/
theorem Anchor.deposit_as_called_sampleMessage :
    registration.utf8ByteSize ≤ 8192 ∧
      SampleRun.anchor.deposit SampleRun.validator 6000 registration 10 =
        SampleRun.anchor.act SampleRun.validator 10
          (.registerValidator identifier 6000 false profile) ∧
      (SampleRun.anchor.act SampleRun.validator 10
        (.registerValidator identifier 6000 false profile)).1.toOption.isSome ∧
      SampleRun.anchor.deposit SampleRun.delegator 500 misnamed 11 =
        (.error .malformedIntent, SampleRun.anchor) := by
  have hfits : registration.utf8ByteSize ≤ 8192 := by decide +kernel
  have hdone : (SampleRun.anchor.act SampleRun.validator 10
      (.registerValidator identifier 6000 false profile)).1.toOption.isSome := by decide +kernel
  have hrendered : (Intent.registerValidator identifier false profile).Rendered registration :=
    ⟨value, .registerValidator (.swap _ _ _) (.cons _ (.swap _ _ _)), renders_value⟩
  have hname : ∀ v : AccountId, "alice.near" ≠ v.toBase58 :=
    AccountId.ofBase58?_eq_none_iff.1 (by decide)
  have hdecoded : Intent.decode misnamed = .ok (.registerDelegator "alice.near") := by rfl
  obtain ⟨hcall, -, -⟩ :=
    deposit_as_called SampleRun.anchor SampleRun.validator 6000 registration 10
  obtain ⟨-, -, hmisnamed⟩ :=
    deposit_as_called SampleRun.anchor SampleRun.delegator 500 misnamed 11
  exact ⟨hfits, (hcall hfits).1 _ _ _ hrendered, hdone,
    hmisnamed _ (.inl hdecoded) hname⟩

end AppchainStaking
