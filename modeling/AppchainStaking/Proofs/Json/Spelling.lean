import AppchainStaking.Json.Parser

/-!
# Spelled tokens are read

How RFC 8259 lets a token be spelled, apart from numbers: each character of a text stands for itself
or is escaped in any of the ways there are, and there may be white space around tokens. However a
list of tokens is spelled, the machine that cuts a text into tokens finds that list.
-/

namespace AppchainStaking.Json

def IsHexDigit (c : Char) (n : Nat) : Prop :=
  "0123456789abcdef".toList[n]? = some c ∨ "0123456789ABCDEF".toList[n]? = some c

inductive SpellsUnit : List Char → Nat → Prop
  | digits {c₃ c₂ c₁ c₀ : Char} {n₃ n₂ n₁ n₀ : Nat} (h₃ : IsHexDigit c₃ n₃) (h₂ : IsHexDigit c₂ n₂)
      (h₁ : IsHexDigit c₁ n₁) (h₀ : IsHexDigit c₀ n₀) :
      SpellsUnit [c₃, c₂, c₁, c₀] (0x1000 * n₃ + 0x100 * n₂ + 0x10 * n₁ + n₀)

def shortEscapes : List (Char × Char) :=
  [('"', '"'), ('\\', '\\'), ('/', '/'), ('b', '\x08'), ('f', '\x0c'), ('n', '\n'), ('r', '\r'),
    ('t', '\t')]

/-- The spellings of a character inside a text. A character outside the basic plane is escaped as
its two UTF-16 units. -/
inductive Spells (c : Char) : List Char → Prop
  | literal (visible : ' ' ≤ c) (quote : c ≠ '"') (backslash : c ≠ '\\') : Spells c [c]
  | short {letter : Char} (h : (letter, c) ∈ shortEscapes) : Spells c ['\\', letter]
  | unit {w : List Char} (h : SpellsUnit w c.toNat) : Spells c ('\\' :: 'u' :: w)
  | pair {w w' : List Char} (outside : 0x10000 ≤ c.toNat)
      (high : SpellsUnit w (0xD800 + (c.toNat - 0x10000) / 0x400))
      (low : SpellsUnit w' (0xDC00 + (c.toNat - 0x10000) % 0x400)) :
      Spells c ('\\' :: 'u' :: (w ++ '\\' :: 'u' :: w'))

inductive SpellsAll : List Char → List Char → Prop
  | nil : SpellsAll [] []
  | cons {c : Char} {cs w w' : List Char} (first : Spells c w) (rest : SpellsAll cs w') :
      SpellsAll (c :: cs) (w ++ w')

inductive SpellsToken : Token → List Char → Prop
  | openArray : SpellsToken .openArray ['[']
  | closeArray : SpellsToken .closeArray [']']
  | openObject : SpellsToken .openObject ['{']
  | closeObject : SpellsToken .closeObject ['}']
  | comma : SpellsToken .comma [',']
  | colon : SpellsToken .colon [':']
  | null : SpellsToken (.value .null) ['n', 'u', 'l', 'l']
  | true : SpellsToken (.value (.bool true)) ['t', 'r', 'u', 'e']
  | false : SpellsToken (.value (.bool false)) ['f', 'a', 'l', 's', 'e']
  | text {s : String} {w : List Char} (h : SpellsAll s.toList w) :
      SpellsToken (.value (.text (some s))) ('"' :: (w ++ ['"']))

def Blanks (w : List Char) : Prop := ∀ c ∈ w, c ∈ [' ', '\t', '\n', '\r']

/-- Tokens one after the other, with white space in front of each and behind the last. -/
inductive SpellsTokens : List Token → List Char → Prop
  | nil {blanks : List Char} (h : Blanks blanks) : SpellsTokens [] blanks
  | cons {t : Token} {ts : List Token} {blanks w w' : List Char} (h : Blanks blanks)
      (first : SpellsToken t w) (rest : SpellsTokens ts w') :
      SpellsTokens (t :: ts) (blanks ++ w ++ w')

variable {c : Char} {n : Nat} {cs w rest : List Char} {pieces : List Piece} {t : Token}
  {ts : List Token}

theorem SpellsAll.append {cs' w' : List Char} (h : SpellsAll cs w) (h' : SpellsAll cs' w') :
    SpellsAll (cs ++ cs') (w ++ w') := by
  induction h with
  | nil => exact h'
  | cons first _ ih =>
      rw [List.append_assoc]
      exact .cons first ih

def isPlain (c : Char) : Bool := ' ' ≤ c ∧ c ≠ '"' ∧ c ≠ '\\'

theorem spellsAll_plain (h : cs.all isPlain) : SpellsAll cs cs := by
  induction cs with
  | nil => exact .nil
  | cons c cs ih =>
      obtain ⟨hc, hcs⟩ := Bool.and_eq_true_iff.1 h
      obtain ⟨visible, quote, backslash⟩ := of_decide_eq_true hc
      exact .cons (.literal visible quote backslash) (ih hcs)

theorem SpellsTokens.tight {w' : List Char} (first : SpellsToken t w) (rest : SpellsTokens ts w') :
    SpellsTokens (t :: ts) (w ++ w') :=
  .cons (List.forall_mem_nil _) first rest

namespace Lexer

theorem run_cons {lexer : Lexer} {c : Char} {next : Lexer} {ts : List Token}
    (h : lexer.step c = some (ts, next)) (rest : List Char) :
    lexer.run (c :: rest) = (next.run rest).map (ts ++ ·) := by
  simp only [run, h, Option.bind_eq_bind, Option.bind_some]
  cases next.run rest <;> rfl

theorem run_cons_of_silent {lexer : Lexer} {c : Char} {next : Lexer}
    (h : lexer.step c = some ([], next)) (rest : List Char) :
    lexer.run (c :: rest) = next.run rest := by
  rw [run_cons h]
  exact Option.map_id'

theorem run_cons_of_token {lexer : Lexer} {c : Char} {t : Token}
    (h : lexer.step c = some ([t], between)) (rest : List Char) :
    lexer.run (c :: rest) = (between.run rest).map (t :: ·) :=
  run_cons h rest

theorem run_word {w : List Char} (hw : w ≠ []) (v : Value) (rest : List Char) :
    (word w v).run (w ++ rest) = (between.run rest).map (.value v :: ·) := by
  induction w with
  | nil => exact absurd rfl hw
  | cons c w ih =>
      cases w with
      | nil => exact run_cons_of_token (by simp [step]) rest
      | cons c' w => exact (run_cons_of_silent (by simp [step]) _).trans (ih (by simp))

end Lexer

open Lexer

theorem hexValue?_of_isHexDigit (h : IsHexDigit c n) : hexValue? c = some n := by
  have hlower : ∀ n < 16, "0123456789abcdef".toList[n]?.bind hexValue? = some n := by decide
  have hupper : ∀ n < 16, "0123456789ABCDEF".toList[n]?.bind hexValue? = some n := by decide
  rcases h with h | h
  · have hn : n < 16 := (List.getElem?_eq_some_iff.1 h).1
    simpa only [h, Option.bind_some] using hlower n hn
  · have hn : n < 16 := (List.getElem?_eq_some_iff.1 h).1
    simpa only [h, Option.bind_some] using hupper n hn

theorem step_backslash (pieces : List Piece) :
    (text pieces).step '\\' = some ([], escape pieces) := rfl

theorem step_escape_u (pieces : List Piece) :
    (escape pieces).step 'u' = some ([], unit pieces 4 0) := rfl

/-- Four digits after the mark of an escape are one piece. -/
theorem run_unit (h : SpellsUnit w n) (pieces : List Piece) (rest : List Char) :
    (text pieces).run ('\\' :: 'u' :: (w ++ rest)) = (text (.ofUnit n :: pieces)).run rest := by
  cases h with
  | @digits c₃ c₂ c₁ c₀ n₃ n₂ n₁ n₀ h₃ h₂ h₁ h₀ =>
      have hdigit {c : Char} {d : Nat} (h : IsHexDigit c d) (digits value : Nat) :
          (unit pieces digits value).step c = some (if digits = 1
            then ([], text (.ofUnit (16 * value + d) :: pieces))
            else ([], unit pieces (digits - 1) (16 * value + d))) := by
        rw [step, hexValue?_of_isHexDigit h]
        rfl
      have hvalue : 16 * (16 * (16 * (16 * 0 + n₃) + n₂) + n₁) + n₀ =
          0x1000 * n₃ + 0x100 * n₂ + 0x10 * n₁ + n₀ := by omega
      rw [run_cons_of_silent (step_backslash pieces), run_cons_of_silent (step_escape_u pieces)]
      simp only [List.cons_append, List.nil_append]
      rw [run_cons_of_silent (hdigit h₃ 4 0), run_cons_of_silent (hdigit h₂ 3 _),
        run_cons_of_silent (hdigit h₁ 2 _), run_cons_of_silent (hdigit h₀ 1 _), hvalue]

theorem ofUnit_toNat (c : Char) : Piece.ofUnit c.toNat = .scalar c := by
  have hvalid : ¬ (0xD800 ≤ c.toNat ∧ c.toNat < 0xE000) := by
    rcases c.valid with h | h <;> rw [Char.toNat] <;> omega
  rw [Piece.ofUnit, if_neg hvalid, Char.ofNat_toNat]

theorem escaped?_of_short {letter : Char} (h : (letter, c) ∈ shortEscapes) :
    letter ≠ 'u' ∧ escaped? letter = some c := by
  have hall : ∀ e ∈ shortEscapes, e.1 ≠ 'u' ∧ escaped? e.1 = some e.2 := by decide
  exact hall _ h

theorem pieces_of_spells (h : Spells c w) :
    ∃ read : List Piece,
      (∀ pieces rest, (text pieces).run (w ++ rest) = (text (read.reverse ++ pieces)).run rest) ∧
      ∀ more, Piece.join (read ++ more) = (Piece.join more).map (c :: ·) := by
  cases h with
  | literal visible quote backslash =>
      refine ⟨[.scalar c], fun pieces rest => ?_, fun more => rfl⟩
      refine run_cons_of_silent ?_ rest
      rw [step, if_neg quote, if_neg backslash, if_neg (Char.not_lt.2 visible)]
      rfl
  | short h =>
      obtain ⟨hletter, hescaped⟩ := escaped?_of_short h
      refine ⟨[.scalar c], fun pieces rest => ?_, fun more => rfl⟩
      refine (run_cons_of_silent (step_backslash pieces) _).trans (run_cons_of_silent ?_ rest)
      rw [step, if_neg hletter, hescaped]
      rfl
  | unit h =>
      refine ⟨[.scalar c], fun pieces rest => ?_, fun more => rfl⟩
      exact (run_unit h pieces rest).trans (by rw [ofUnit_toNat]; rfl)
  | @pair w w' outside high low =>
      have hlt : c.toNat < 0x110000 := by
        rcases c.valid with h | h <;> rw [Char.toNat] <;> omega
      have hhigh : Piece.ofUnit (0xD800 + (c.toNat - 0x10000) / 0x400) =
          .half (0xD800 + (c.toNat - 0x10000) / 0x400) := if_pos (by omega)
      have hlow : Piece.ofUnit (0xDC00 + (c.toNat - 0x10000) % 0x400) =
          .half (0xDC00 + (c.toNat - 0x10000) % 0x400) := if_pos (by omega)
      refine ⟨[.half (0xD800 + (c.toNat - 0x10000) / 0x400),
        .half (0xDC00 + (c.toNat - 0x10000) % 0x400)], fun pieces rest => ?_, fun more => ?_⟩
      · rw [List.cons_append, List.cons_append, List.append_assoc, run_unit high, hhigh,
          List.cons_append, List.cons_append, run_unit low, hlow]
        rfl
      · have hjoined : 0x10000 + (0xD800 + (c.toNat - 0x10000) / 0x400 - 0xD800) * 0x400 +
            (0xDC00 + (c.toNat - 0x10000) % 0x400 - 0xDC00) = c.toNat := by omega
        rw [List.cons_append, List.singleton_append, Piece.join, if_pos (by omega), hjoined,
          Char.ofNat_toNat]
        rfl

theorem pieces_of_spellsAll (h : SpellsAll cs w) :
    ∃ read : List Piece,
      (∀ pieces rest, (text pieces).run (w ++ rest) = (text (read.reverse ++ pieces)).run rest) ∧
      Piece.join read = some cs := by
  induction h with
  | nil => exact ⟨[], fun _ _ => rfl, rfl⟩
  | cons first _ ih =>
      obtain ⟨read, hrun, hjoin⟩ := pieces_of_spells first
      obtain ⟨read', hrun', hjoin'⟩ := ih
      refine ⟨read ++ read', fun pieces rest => ?_, ?_⟩
      · rw [List.append_assoc, hrun, hrun', List.reverse_append, List.append_assoc]
      · rw [hjoin, hjoin']
        rfl

theorem run_text {s : String} (h : SpellsAll s.toList w) (rest : List Char) :
    between.run ('"' :: (w ++ ['"']) ++ rest) =
      (between.run rest).map (.value (.text (some s)) :: ·) := by
  obtain ⟨read, hrun, hjoin⟩ := pieces_of_spellsAll h
  have hopen : between.step '"' = some ([], text []) := rfl
  have htoken : textToken (read.reverse ++ []) = .value (.text (some s)) := by
    rw [textToken, List.append_nil, List.reverse_reverse, hjoin, Option.map_some,
      String.ofList_toList]
  have hclose : (text (read.reverse ++ [])).step '"' =
      some ([.value (.text (some s))], between) := htoken ▸ rfl
  rw [List.cons_append, List.append_assoc, run_cons_of_silent hopen, hrun]
  exact run_cons_of_token hclose rest

theorem run_token (h : SpellsToken t w) (rest : List Char) :
    between.run (w ++ rest) = (between.run rest).map (t :: ·) := by
  cases h with
  | openArray => exact run_cons_of_token (show between.step '[' = _ from rfl) rest
  | closeArray => exact run_cons_of_token (show between.step ']' = _ from rfl) rest
  | openObject => exact run_cons_of_token (show between.step '{' = _ from rfl) rest
  | closeObject => exact run_cons_of_token (show between.step '}' = _ from rfl) rest
  | comma => exact run_cons_of_token (show between.step ',' = _ from rfl) rest
  | colon => exact run_cons_of_token (show between.step ':' = _ from rfl) rest
  | null =>
      have hbegin : between.step 'n' = some ([], word ['u', 'l', 'l'] .null) := rfl
      exact (run_cons_of_silent hbegin _).trans (run_word (by simp) _ rest)
  | true =>
      have hbegin : between.step 't' = some ([], word ['r', 'u', 'e'] (.bool true)) := rfl
      exact (run_cons_of_silent hbegin _).trans (run_word (by simp) _ rest)
  | false =>
      have hbegin : between.step 'f' = some ([], word ['a', 'l', 's', 'e'] (.bool false)) := rfl
      exact (run_cons_of_silent hbegin _).trans (run_word (by simp) _ rest)
  | text h => exact run_text h rest

theorem run_blanks (h : Blanks w) (rest : List Char) :
    between.run (w ++ rest) = between.run rest := by
  induction w with
  | nil => rfl
  | cons c w ih =>
      obtain ⟨hc, hw⟩ := List.forall_mem_cons.1 h
      have hspace : isSpace c = true := by simpa [isSpace, or_assoc] using hc
      have hstep : between.step c = some ([], between) := by
        change begin c = _
        unfold begin
        exact if_pos hspace
      exact (run_cons_of_silent hstep _).trans (ih hw)

theorem run_tokens (h : SpellsTokens ts w) : between.run w = some ts := by
  induction h with
  | nil h =>
      have hrun := run_blanks h []
      rwa [List.append_nil] at hrun
  | cons h first _ ih =>
      rw [List.append_assoc, run_blanks h, run_token first, ih]
      rfl

theorem tokens?_of_spells {s : String} (h : SpellsTokens ts s.toList) : tokens? s = some ts :=
  run_tokens h

end AppchainStaking.Json
