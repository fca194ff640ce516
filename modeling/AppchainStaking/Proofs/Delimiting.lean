import AppchainStaking.Proofs.Intent
import AppchainStaking.Proofs.Json.Prefix

/-!
# Messages delimit themselves

A message that has been decoded can go on with white space, as long as it is not too long, and with
nothing else. It ends where its JSON text ends, so a message that is cut off before that is none.
-/

namespace AppchainStaking.Intent

open Json (Blanks)

variable {m : String} {i : Intent}

theorem decode_eq_ok_iff :
    decode m = .ok i ↔
      m.utf8ByteSize ≤ 8192 ∧ ∃ v, Json.parse? m = some v ∧ ofValue? v = some i := by
  simp only [decode, bind_eq_ok_iff, require_eq_ok_iff, found_eq_ok_iff, Option.bind_eq_bind,
    Option.bind_eq_some_iff]
  constructor
  · rintro ⟨_, hsize, hparsed⟩
    exact ⟨hsize, hparsed⟩
  · rintro ⟨hsize, hparsed⟩
    exact ⟨(), hsize, hparsed⟩

theorem decode_eq_malformed (h : ∀ j, decode m ≠ .ok j) : decode m = .error .malformedIntent := by
  cases hdecoded : decode m with
  | ok j => exact absurd hdecoded (h j)
  | error e => rw [decode_eq_error hdecoded]

/-- A number denotes no intent, so a message ends with a token that shows its own end. -/
theorem decode_extended_iff (h : decode m = .ok i) {front rest : String} {j : Intent}
    (hfront : Blanks front.toList) :
    decode (front ++ m ++ rest) = .ok j ↔
      (Blanks rest.toList ∧ (front ++ m ++ rest).utf8ByteSize ≤ 8192) ∧ j = i := by
  obtain ⟨-, v, hparsed, hvalue⟩ := decode_eq_ok_iff.1 h
  have hnumber : v ≠ .number := by
    rintro rfl
    cases hvalue
  rw [decode_eq_ok_iff, String.append_assoc, Json.parse?_blanks_append hfront]
  simp only [Json.parse?_append hparsed hnumber]
  constructor
  · rintro ⟨hsize, _, ⟨hrest, rfl⟩, hvalue'⟩
    rw [hvalue] at hvalue'
    cases hvalue'
    exact ⟨⟨hrest, hsize⟩, rfl⟩
  · rintro ⟨⟨hrest, hsize⟩, rfl⟩
    exact ⟨hsize, v, ⟨hrest, rfl⟩, hvalue⟩

theorem eq_of_decode_append (h : decode m = .ok i) {rest : String} {j : Intent}
    (hj : decode (m ++ rest) = .ok j) : Blanks rest.toList ∧ j = i := by
  have hnone : Blanks "".toList := List.forall_mem_nil _
  rw [← @String.empty_append m] at hj
  obtain ⟨⟨hrest, -⟩, hsame⟩ := (decode_extended_iff h hnone).1 hj
  exact ⟨hrest, hsame⟩

/-- White space around a decoded message does not matter until it makes the message too long.
Anything else behind it, and any cut into its JSON text, leaves a malformed message. -/
theorem messages_self_delimiting (h : decode m = .ok i) :
    (∀ front rest : String, Blanks front.toList →
      (Blanks rest.toList ∧ (front ++ m ++ rest).utf8ByteSize ≤ 8192 →
        decode (front ++ m ++ rest) = .ok i) ∧
      (¬(Blanks rest.toList ∧ (front ++ m ++ rest).utf8ByteSize ≤ 8192) →
        decode (front ++ m ++ rest) = .error .malformedIntent)) ∧
      (∀ rest j, decode (m ++ rest) = .ok j → Blanks rest.toList ∧ j = i) ∧
      ∀ kept cut, m = kept ++ cut → ¬Blanks cut.toList → decode kept = .error .malformedIntent := by
  refine ⟨fun front rest hfront => ⟨fun hfits => ?_, fun hfails => ?_⟩,
    fun rest j => eq_of_decode_append h, ?_⟩
  · exact (decode_extended_iff h hfront).2 ⟨hfits, rfl⟩
  · refine decode_eq_malformed fun j hj => hfails ?_
    exact ((decode_extended_iff h hfront).1 hj).1
  · rintro kept cut rfl hcut
    refine decode_eq_malformed fun j hj => hcut ?_
    exact (eq_of_decode_append hj h).1

/-- White space around the message, a comma behind it, and the message without its last quote. -/
theorem messages_self_delimiting_increaseStake :
    decode (" " ++ "\"IncreaseStake\"" ++ "\n\t") = .ok .increaseStake ∧
      decode ("" ++ "\"IncreaseStake\"" ++ ",") = .error .malformedIntent ∧
      decode "\"IncreaseStake" = .error .malformedIntent := by
  have hdecoded : decode "\"IncreaseStake\"" = .ok .increaseStake := by rfl
  have hblanks : Blanks " ".toList ∧ Blanks "\n\t".toList ∧ Blanks "".toList := by simp [Blanks]
  have hcomma : ¬Blanks ",".toList := by simp [Blanks]
  have hquote : ¬Blanks "\"".toList := by simp [Blanks]
  obtain ⟨haround, -, hcut⟩ := messages_self_delimiting hdecoded
  obtain ⟨hspace, hlines, hnothing⟩ := hblanks
  refine ⟨(haround " " "\n\t" hspace).1 ⟨hlines, by decide⟩, ?_, hcut _ "\"" (by decide) hquote⟩
  exact (haround "" "," hnothing).2 fun h => hcomma h.1

end AppchainStaking.Intent
