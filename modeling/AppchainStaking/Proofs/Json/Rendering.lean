import AppchainStaking.Json.Parser
import AppchainStaking.Proofs.Json.Spelling

/-!
# Rendered values are parsed

A text renders a value when it spells the tokens of the value. The parser finds the value again,
whatever containers it is nested in. A value with a number in it, or with a text that is no string,
has no spelling here.
-/

namespace AppchainStaking.Json

def separated (parts : List (List Token)) : List Token := [Token.comma].intercalate parts

def Value.tokens : Value → List Token
  | .array items => .openArray :: separated (items.map fun v => tokens v) ++ [.closeArray]
  | .object members =>
      .openObject :: separated (members.map fun m => .value (.text m.1) :: .colon :: tokens m.2) ++
        [.closeObject]
  | v => [.value v]
decreasing_by
  · decreasing_tactic
  · have hmember := List.sizeOf_lt_of_mem ‹m ∈ members›
    have hpair : sizeOf m = 1 + sizeOf m.1 + sizeOf m.2 := rfl
    decreasing_tactic

def Renders (v : Value) (s : String) : Prop := SpellsTokens v.tokens s.toList

/-- The parser turns the tokens into the value, in whatever container it stands. -/
def Reads (ts : List Token) (v : Value) : Prop :=
  ∀ stack, ts.foldlM Parser.step (.value stack) = some (Parser.complete v stack)

def memberTokens (m : Option String × Value) : List Token :=
  .value (.text m.1) :: .colon :: m.2.tokens

variable {v : Value} {items : List Value} {m : Option String × Value}
  {members : List (Option String × Value)} {stack : List Frame}

theorem tokens_array (items : List Value) :
    (Value.array items).tokens =
      .openArray :: (separated (items.map Value.tokens) ++ [.closeArray]) := by
  rw [Value.tokens]
  rfl

theorem tokens_object (members : List (Option String × Value)) :
    (Value.object members).tokens =
      .openObject :: (separated (members.map memberTokens) ++ [.closeObject]) := by
  rw [Value.tokens]
  rfl

@[simp] theorem separated_singleton (ts : List Token) : separated [ts] = ts :=
  List.intercalate_singleton

@[simp] theorem separated_cons_cons (ts ts' : List Token) (parts : List (List Token)) :
    separated (ts :: ts' :: parts) = ts ++ .comma :: separated (ts' :: parts) := by
  rw [separated, List.intercalate_cons_cons, List.append_assoc]
  rfl

/-- No value starts with the end of an array. -/
theorem tokens_eq_cons (v : Value) :
    ∃ t ts, v.tokens = t :: ts ∧
      ∀ stack, Parser.step (.firstItem stack) t = Parser.step (.value (.array [] :: stack)) t := by
  cases v with
  | array items => exact ⟨_, _, tokens_array items, fun _ => rfl⟩
  | object members => exact ⟨_, _, tokens_object members, fun _ => rfl⟩
  | null | bool | number | text => exact ⟨_, [], by rw [Value.tokens] <;> nofun, fun _ => rfl⟩

theorem foldlM_items (hne : items ≠ []) (h : ∀ v ∈ items, Reads v.tokens v) (before : List Value)
    (stack : List Frame) :
    (separated (items.map Value.tokens) ++ [Token.closeArray]).foldlM Parser.step
        (.value (.array before :: stack)) =
      some (Parser.complete (.array (before.reverse ++ items)) stack) := by
  induction items generalizing before with
  | nil => exact absurd rfl hne
  | cons v items ih =>
      obtain ⟨hv, hitems⟩ := List.forall_mem_cons.1 h
      cases items with
      | nil =>
          rw [List.map_singleton, separated_singleton, List.foldlM_append, hv, ← List.reverse_cons]
          rfl
      | cons v' items =>
          have hrest := ih (List.cons_ne_nil v' items) hitems (v :: before)
          rw [List.reverse_cons, List.append_assoc] at hrest
          rw [List.map_cons, List.map_cons, separated_cons_cons, List.append_assoc,
            List.foldlM_append, hv]
          exact hrest

theorem reads_array (h : ∀ v ∈ items, Reads v.tokens v) :
    Reads (Value.array items).tokens (.array items) := by
  intro stack
  rw [tokens_array]
  cases items with
  | nil => rfl
  | cons v items =>
      have hitems := foldlM_items (List.cons_ne_nil v items) h [] stack
      obtain ⟨t, ts, htokens, hstep⟩ := tokens_eq_cons v
      obtain ⟨rest, hrest⟩ : ∃ rest, separated ((v :: items).map Value.tokens) ++
          [Token.closeArray] = t :: rest := by
        cases items <;> simp [htokens]
      rw [hrest, List.foldlM_cons, ← hstep] at hitems
      rw [hrest]
      exact hitems

theorem foldlM_member (h : Reads m.2.tokens m.2) {before : List (Option String × Value)}
    {p : Parser} (hkey : ∀ key, p.step (.value (.text key)) = some (.colon before key stack))
    (ts : List Token) :
    (memberTokens m ++ ts).foldlM Parser.step p =
      ts.foldlM Parser.step (.afterMember (m :: before) stack) := by
  rw [memberTokens, List.cons_append, List.cons_append, List.foldlM_cons, hkey]
  change (m.2.tokens ++ ts).foldlM Parser.step (.value (.member before m.1 :: stack)) = _
  rw [List.foldlM_append, h]
  rfl

theorem foldlM_members (hne : members ≠ []) (h : ∀ m ∈ members, Reads m.2.tokens m.2)
    {before : List (Option String × Value)} {p : Parser}
    (hkey : ∀ key, p.step (.value (.text key)) = some (.colon before key stack)) :
    (separated (members.map memberTokens) ++ [Token.closeObject]).foldlM Parser.step p =
      some (Parser.complete (.object (before.reverse ++ members)) stack) := by
  induction members generalizing before p with
  | nil => exact absurd rfl hne
  | cons m members ih =>
      obtain ⟨hm, hmembers⟩ := List.forall_mem_cons.1 h
      cases members with
      | nil =>
          rw [List.map_singleton, separated_singleton, foldlM_member hm hkey, ← List.reverse_cons]
          rfl
      | cons m' members =>
          have hnext : ∀ key, (Parser.nextKey (m :: before) stack).step (.value (.text key)) =
              some (.colon (m :: before) key stack) := fun _ => rfl
          have hrest := ih (List.cons_ne_nil m' members) hmembers hnext
          rw [List.reverse_cons, List.append_assoc] at hrest
          rw [List.map_cons, List.map_cons, separated_cons_cons, List.append_assoc,
            foldlM_member hm hkey]
          exact hrest

theorem reads_object (h : ∀ m ∈ members, Reads m.2.tokens m.2) :
    Reads (Value.object members).tokens (.object members) := by
  intro stack
  rw [tokens_object]
  cases members with
  | nil => rfl
  | cons m members =>
      have hkey : ∀ key, (Parser.firstKey stack).step (.value (.text key)) =
          some (.colon [] key stack) := fun _ => rfl
      exact foldlM_members (List.cons_ne_nil m members) h hkey

theorem reads_tokens (v : Value) : Reads v.tokens v := by
  induction v using Value.tokens.induct with
  | case1 items ih => exact reads_array ih
  | case2 members ih => exact reads_object ih
  | case3 v harray hobject =>
      intro stack
      rw [Value.tokens.eq_3 v harray hobject]
      rfl

/-- A value is parsed from any text that renders it. -/
theorem parse?_of_renders {s : String} (h : Renders v s) : parse? s = some v := by
  rw [parse?, tokens?_of_spells h]
  change (v.tokens.foldlM Parser.step (.value [])).bind Parser.finish = some v
  rw [reads_tokens v]
  rfl

end AppchainStaking.Json
