import AppchainStaking.Proofs.Json.Rendering

/-!
# Texts that go on

A text is read up to any place without regard to what follows. Where a value other than a number is
finished nothing is left begun, so only white space can follow: every token is one too many, and
every other character begins one.
-/

namespace AppchainStaking.Json

variable {cs ds : List Char} {t : Token} {ts ts' : List Token} {v : Value}

namespace Lexer

variable {lexer next : Lexer} {c : Char}

/-- The tokens that a part of a text completes, and what it leaves begun. -/
def scan : Lexer → List Char → Option (List Token × Lexer)
  | lexer, [] => some ([], lexer)
  | lexer, c :: cs => do
      let (tokens, lexer) ← lexer.step c
      let (more, lexer) ← lexer.scan cs
      return (tokens ++ more, lexer)

theorem run_append (lexer : Lexer) (cs ds : List Char) :
    lexer.run (cs ++ ds) = (lexer.scan cs).bind fun r => (r.2.run ds).map (r.1 ++ ·) := by
  induction cs generalizing lexer with
  | nil =>
      rw [scan, List.nil_append, Option.bind_some]
      exact Option.map_id'.symm
  | cons c cs ih =>
      rw [List.cons_append]
      cases hstep : lexer.step c with
      | none => simp only [run, scan, hstep, Option.bind_eq_bind, Option.bind_none]
      | some r =>
          obtain ⟨ts, next⟩ := r
          rw [run_cons hstep, ih next]
          simp only [scan, hstep, Option.bind_eq_bind, Option.bind_some]
          cases next.scan cs with
          | none => rfl
          | some r => simp [Function.comp_def]

theorem run_eq_some_iff :
    lexer.run cs = some ts ↔
      ∃ before next after, lexer.scan cs = some (before, next) ∧ next.finish = some after ∧
        ts = before ++ after := by
  have happend := run_append lexer cs []
  rw [List.append_nil] at happend
  rw [happend]
  simp only [Option.bind_eq_some_iff, Option.map_eq_some_iff, run, Prod.exists]
  constructor
  · rintro ⟨before, next, hscan, after, hfinish, rfl⟩
    exact ⟨before, next, after, hscan, hfinish, rfl⟩
  · rintro ⟨before, next, after, hscan, hfinish, rfl⟩
    exact ⟨before, next, hscan, after, hfinish, rfl⟩

/-- A character that neither completes nor begins a token is white space between tokens. -/
theorem step_eq_silent (h : lexer.step c = some ([], between)) :
    lexer = between ∧ isSpace c := by
  cases lexer with
  | between =>
      refine ⟨rfl, ?_⟩
      change begin c = _ at h
      unfold begin at h
      split at h
      · assumption
      · split at h <;> first | cases h | (split at h <;> cases h)
  | word letters v =>
      rcases letters with _ | ⟨l, _ | ⟨l', letters⟩⟩
      · cases h
      · rw [step] at h
        split at h <;> cases h
      · rw [step] at h
        · split at h <;> cases h
        · exact List.cons_ne_nil l' letters
  | number stage =>
      rw [step] at h
      split at h
      · cases h
      · split at h
        · obtain ⟨_, _, hnumber⟩ := Option.map_eq_some_iff.1 h
          cases hnumber
        · cases h
  | text pieces =>
      rw [step] at h
      split at h
      · cases h
      · split at h
        · cases h
        · split at h <;> cases h
  | escape pieces =>
      rw [step] at h
      split at h
      · cases h
      · obtain ⟨_, _, hpiece⟩ := Option.map_eq_some_iff.1 h
        cases hpiece
  | unit pieces digits value =>
      rw [step] at h
      obtain ⟨_, _, hpiece⟩ := Option.map_eq_some_iff.1 h
      split at hpiece <;> cases hpiece

/-- A text without tokens is white space. -/
theorem eq_of_run_eq_nil (h : lexer.run cs = some []) : lexer = between ∧ Blanks cs := by
  induction cs generalizing lexer with
  | nil =>
      refine ⟨?_, List.forall_mem_nil _⟩
      rw [run] at h
      cases lexer with
      | between => rfl
      | number stage =>
          rw [finish] at h
          split at h <;> cases h
      | word | text | escape | unit => cases h
  | cons c cs ih =>
      cases hstep : lexer.step c with
      | none =>
          rw [run, hstep] at h
          cases h
      | some r =>
          obtain ⟨ts, next⟩ := r
          rw [run_cons hstep] at h
          obtain ⟨ts', hrest, hnil⟩ := Option.map_eq_some_iff.1 h
          obtain ⟨rfl, rfl⟩ := List.append_eq_nil_iff.1 hnil
          obtain ⟨rfl, hblanks⟩ := ih hrest
          obtain ⟨rfl, hspace⟩ := step_eq_silent hstep
          have hc : c ∈ [' ', '\t', '\n', '\r'] := by simpa [isSpace, or_assoc] using hspace
          exact ⟨rfl, List.forall_mem_cons.2 ⟨hc, hblanks⟩⟩

theorem run_eq_nil_iff : between.run cs = some [] ↔ Blanks cs := by
  refine ⟨fun h => (eq_of_run_eq_nil h).2, fun h => ?_⟩
  exact run_tokens (.nil h)

end Lexer

namespace Parser

theorem finish_eq_some_iff {p : Parser} : p.finish = some v ↔ p = done v := by
  cases p <;> simp [finish]

theorem foldlM_done (ts : List Token) :
    ts.foldlM step (done v) = if ts = [] then some (done v) else none := by
  cases ts <;> rfl

theorem complete_eq_done {v' : Value} {stack : List Frame} (h : complete v' stack = done v) :
    v' = v ∧ stack = [] := by
  cases stack with
  | nil => cases h; exact ⟨rfl, rfl⟩
  | cons frame stack => cases frame <;> cases h

/-- A number finishes a text only if it is the whole of it. -/
theorem eq_number_of_step {p : Parser} (h : p.step (.value .number) = some (done v)) :
    v = .number := by
  cases p with
  | value stack => exact (complete_eq_done (Option.some.inj h)).1.symm
  | firstItem stack => cases (complete_eq_done (Option.some.inj h)).2
  | afterItem | firstKey | nextKey | colon | afterMember | done => cases h

end Parser

open Lexer

theorem parse?_eq_some_iff {s : String} :
    parse? s = some v ↔
      ∃ ts, tokens? s = some ts ∧ ts.foldlM Parser.step (.value []) = some (.done v) := by
  simp only [parse?, Option.bind_eq_bind, Option.bind_eq_some_iff, Parser.finish_eq_some_iff,
    exists_eq_right]

/-- Where a value other than a number is finished, no token is left begun. -/
theorem scan_of_parse? {s : String} (h : parse? s = some v) (hv : v ≠ .number) :
    ∃ ts, between.scan s.toList = some (ts, between) ∧
      ts.foldlM Parser.step (.value []) = some (.done v) := by
  obtain ⟨ts, htokens, hparsed⟩ := parse?_eq_some_iff.1 h
  obtain ⟨before, next, after, hscan, hfinish, rfl⟩ := run_eq_some_iff.1 htokens
  cases next with
  | between =>
      cases hfinish
      rw [List.append_nil] at hparsed
      exact ⟨before, hscan, hparsed⟩
  | number stage =>
      rw [finish] at hfinish
      split at hfinish
      · cases hfinish
        rw [List.foldlM_append] at hparsed
        obtain ⟨p, -, hlast⟩ := Option.bind_eq_some_iff.1 hparsed
        rw [List.foldlM_cons] at hlast
        obtain ⟨q, hstep, hq⟩ := Option.bind_eq_some_iff.1 hlast
        cases hq
        exact absurd (Parser.eq_number_of_step hstep) hv
      · cases hfinish
  | word | text | escape | unit => cases hfinish

/-- A finished value goes on as white space, or as no value at all. -/
theorem parse?_append {s rest : String} (h : parse? s = some v) (hv : v ≠ .number) {v' : Value} :
    parse? (s ++ rest) = some v' ↔ Blanks rest.toList ∧ v' = v := by
  obtain ⟨ts, hscan, hparsed⟩ := scan_of_parse? h hv
  have htokens : tokens? (s ++ rest) = (between.run rest.toList).map (ts ++ ·) := by
    rw [tokens?, String.toList_append, run_append, hscan, Option.bind_some]
  rw [parse?_eq_some_iff, htokens, ← run_eq_nil_iff]
  constructor
  · rintro ⟨_, hrun, hfold⟩
    obtain ⟨ts', hrest, rfl⟩ := Option.map_eq_some_iff.1 hrun
    rw [List.foldlM_append, hparsed] at hfold
    change ts'.foldlM Parser.step (.done v) = _ at hfold
    rw [Parser.foldlM_done] at hfold
    split at hfold
    · next hnil =>
        cases hfold
        exact ⟨hnil ▸ hrest, rfl⟩
    · cases hfold
  · rintro ⟨hrest, rfl⟩
    refine ⟨ts, ?_, hparsed⟩
    rw [hrest, Option.map_some, List.append_nil]

theorem parse?_blanks_append {front s : String} (h : Blanks front.toList) :
    parse? (front ++ s) = parse? s := by
  rw [parse?, parse?, tokens?, tokens?, String.toList_append, run_blanks h]

end AppchainStaking.Json
