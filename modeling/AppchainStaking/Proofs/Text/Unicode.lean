import AppchainStaking.Proofs.Text.Hex
import AppchainStaking.Text.Unicode
import Mathlib.Data.List.TakeWhile

/-!
# White space and lower case

A text is cut into the white space at its ends and what is between. Lower case works on ASCII letter
by letter. It leaves a trace of every other character: of its lower case, one character is still
outside ASCII, but for two letters that have their lower case in ASCII.
-/

namespace AppchainStaking

variable {c d : Char} {cs before core after : List Char}

theorem trimBlank_append (hbefore : ∀ c ∈ before, isBlank c) (hcore : ∀ c ∈ core, ¬isBlank c)
    (hafter : ∀ c ∈ after, isBlank c) : trimBlank (before ++ core ++ after) = core := by
  have hreverse : core.reverse.dropWhile isBlank = core.reverse :=
    List.dropWhile_eq_self_iff.2 fun h => hcore _ (List.mem_reverse.1 (List.getElem_mem h))
  rw [trimBlank, List.append_assoc, List.dropWhile_append_of_pos hbefore]
  cases core with
  | nil => rw [List.nil_append, List.dropWhile_eq_nil_iff.2 hafter]; rfl
  | cons c core =>
      rw [List.cons_append, List.dropWhile_cons_of_neg (hcore c List.mem_cons_self),
        ← List.cons_append, List.reverse_append, List.dropWhile_append_of_pos, hreverse,
        List.reverse_reverse]
      exact fun c hc => hafter c (List.mem_reverse.1 hc)

theorem exists_trimBlank (cs : List Char) :
    ∃ before after, cs = before ++ trimBlank cs ++ after ∧
      (∀ c ∈ before, isBlank c) ∧ ∀ c ∈ after, isBlank c := by
  refine ⟨cs.takeWhile isBlank, ((cs.dropWhile isBlank).reverse.takeWhile isBlank).reverse, ?_,
    fun c => List.mem_takeWhile_imp, fun c hc => List.mem_takeWhile_imp (List.mem_reverse.1 hc)⟩
  rw [trimBlank, List.append_assoc, ← List.reverse_append, List.takeWhile_append_dropWhile,
    List.reverse_reverse, List.takeWhile_append_dropWhile]

theorem not_isBlank_of_isHexDigit (h : isHexDigit c) : ¬isBlank c :=
  forall_isHexDigit (P := fun c => ¬isBlank c) (by decide +kernel) h

theorem lowerFrom_eq_map (before : List Char) (h : ∀ c ∈ cs, c.toNat < 128) :
    lowerFrom before cs = cs.map Char.toLower := by
  induction cs generalizing before with
  | nil => rfl
  | cons c cs ih =>
      obtain ⟨hc, hcs⟩ := List.forall_mem_cons.1 h
      have hsigma : c ≠ '\u03A3' := by
        rintro rfl
        exact absurd hc (by decide)
      rw [lowerFrom, if_neg hsigma, lowerChar, if_pos hc, ih _ hcs]
      rfl

/-- The lower case of a run is outside ASCII on one side of the surrogates, or it is the letter of
the Kelvin sign. -/
def CaseRun.IsForeign (run : CaseRun) : Prop :=
  128 ≤ run.lower ∧ run.lower + (run.last - run.first) < 0xD800 ∨
    0xDFFF < run.lower ∧ run.lower + (run.last - run.first) < 0x110000 ∨
    run.first = run.last ∧ run.lower = 'k'.toNat

instance (run : CaseRun) : Decidable run.IsForeign :=
  inferInstanceAs (Decidable (_ ∨ _))

theorem isForeign_of_mem {run : CaseRun} (h : run ∈ caseRuns) : run.IsForeign := by
  have hall : caseRuns.all fun run => run.IsForeign := by decide +kernel
  exact of_decide_eq_true (List.all_eq_true.1 hall run h)

theorem CaseRun.IsForeign.of_lower? {run : CaseRun} (h : run.IsForeign)
    (hd : run.lower? c = some d) : 128 ≤ d.toNat ∨ d = 'k' := by
  unfold lower? at hd
  split at hd
  next hc =>
    cases hd
    have hchar {n : Nat} (hlarge : 128 ≤ n) (hvalid : n.isValidChar) :
        128 ≤ (Char.ofNat n).toNat := by
      rw [Char.ofNat, dif_pos hvalid]
      exact hlarge
    obtain ⟨hlower, hupper⟩ | ⟨hlower, hupper⟩ | ⟨hsingle, hkelvin⟩ := h
    · exact .inl (hchar (by omega) (.inl (by omega)))
    · exact .inl (hchar (by omega) (.inr ⟨by omega, by omega⟩))
    · have hfirst : c.toNat - run.first = 0 := by omega
      rw [hkelvin, hfirst]
      exact .inr rfl
  · cases hd

/-- A character outside ASCII shows in its lower case. -/
theorem exists_mem_lowerChar (h : 128 ≤ c.toNat) :
    ∃ d ∈ lowerChar c, 128 ≤ d.toNat ∨ d = 'i' ∨ d = 'k' := by
  rw [lowerChar, if_neg (Nat.not_lt.2 h)]
  by_cases hdotted : c = '\u0130'
  · exact ⟨'i', by simp [hdotted], .inr (.inl rfl)⟩
  rw [if_neg hdotted]
  refine ⟨_, List.mem_singleton_self _, ?_⟩
  cases hfound : caseRuns.findSome? (·.lower? c) with
  | none => exact .inl h
  | some d =>
      obtain ⟨run, hrun, hlower⟩ := List.exists_of_findSome?_eq_some hfound
      exact ((isForeign_of_mem hrun).of_lower? hlower).imp_right .inr

theorem exists_mem_lowerFrom (before : List Char) (hc : c ∈ cs) (h : 128 ≤ c.toNat) :
    ∃ d ∈ lowerFrom before cs, 128 ≤ d.toNat ∨ d = 'i' ∨ d = 'k' := by
  induction cs generalizing before with
  | nil => cases hc
  | cons c' cs ih =>
      rw [lowerFrom]
      obtain rfl | hc := List.mem_cons.1 hc
      · split
        · split
          · exact ⟨'\u03C2', List.mem_cons_self, .inl (by decide)⟩
          · exact ⟨'\u03C3', List.mem_cons_self, .inl (by decide)⟩
        · exact (exists_mem_lowerChar h).imp fun d hd => ⟨List.mem_append_left _ hd.1, hd.2⟩
      · exact (ih _ hc).imp fun d hd => ⟨List.mem_append_right _ hd.1, hd.2⟩

/-- The Kelvin sign becomes a letter of ASCII, and the last sigma of a word has a letter of its
own. -/
example : toLowercase ['\u212A', '\u03A3', '\u03A3'] = ['k', '\u03C3', '\u03C2'] := by
  decide +kernel

end AppchainStaking
