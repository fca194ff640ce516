import AppchainStaking.Text.Bytes

/-!
# JSON texts

A text is cut into tokens by a machine that reads one character at a time. A number ends at the
first character that cannot continue it, so a step may yield two tokens. A second machine puts the
tokens together and keeps the containers it is inside of on a stack; what a container holds so far
is kept last first. The value of a number is dropped, since no message uses it, and a text that
spells half of a surrogate pair stands for no string.
-/

namespace AppchainStaking.Json

inductive Value
  | null
  | bool (b : Bool)
  | number
  | text (content : Option String)
  | array (items : List Value)
  | object (members : List (Option String × Value))

/-- What one position of a text stands for: a character, or half of a surrogate pair. -/
inductive Piece
  | scalar (c : Char)
  | half (unit : Nat)
  deriving DecidableEq

namespace Piece

def ofUnit (unit : Nat) : Piece :=
  if 0xD800 ≤ unit ∧ unit < 0xE000 then half unit else scalar (.ofNat unit)

/-- The characters that pieces spell. A high half and the low half after it make one character;
any other half makes none. -/
def join : List Piece → Option (List Char)
  | [] => some []
  | scalar c :: rest => (c :: ·) <$> join rest
  | half high :: half low :: rest =>
      if high < 0xDC00 ∧ 0xDC00 ≤ low then
        (.ofNat (0x10000 + (high - 0xD800) * 0x400 + (low - 0xDC00)) :: ·) <$> join rest
      else none
  | half _ :: _ => none

end Piece

inductive Token
  | openArray
  | closeArray
  | openObject
  | closeObject
  | comma
  | colon
  /-- A literal name, a number or a text. -/
  | value (v : Value)

inductive NumberStage
  | minus
  | zero
  | integer
  | point
  | fraction
  | exponent
  | sign
  | power
  deriving DecidableEq

namespace NumberStage

/-- The stage after one more character, if that character can continue the number. -/
def advance : NumberStage → Char → Option NumberStage
  | minus, c => if c = '0' then some zero else if c.isDigit then some integer else none
  | zero, c => if c = '.' then some point else if c = 'e' ∨ c = 'E' then some exponent else none
  | integer, c =>
      if c.isDigit then some integer else if c = '.' then some point
      else if c = 'e' ∨ c = 'E' then some exponent else none
  | point, c => if c.isDigit then some fraction else none
  | fraction, c =>
      if c.isDigit then some fraction else if c = 'e' ∨ c = 'E' then some exponent else none
  | exponent, c =>
      if c = '+' ∨ c = '-' then some sign else if c.isDigit then some power else none
  | sign, c => if c.isDigit then some power else none
  | power, c => if c.isDigit then some power else none

def isComplete : NumberStage → Bool
  | zero | integer | fraction | power => true
  | minus | point | exponent | sign => false

end NumberStage

/-- What the characters read so far have begun. Pieces of a text are kept last first. -/
inductive Lexer
  | between
  | word (rest : List Char) (v : Value)
  | number (stage : NumberStage)
  | text (pieces : List Piece)
  | escape (pieces : List Piece)
  | unit (pieces : List Piece) (digits : Nat) (value : Nat)

namespace Lexer

def isSpace (c : Char) : Bool :=
  c = ' ' || c = '\t' || c = '\n' || c = '\r'

def begin (c : Char) : Option (List Token × Lexer) :=
  if isSpace c then some ([], between)
  else match c with
    | '[' => some ([.openArray], between)
    | ']' => some ([.closeArray], between)
    | '{' => some ([.openObject], between)
    | '}' => some ([.closeObject], between)
    | ',' => some ([.comma], between)
    | ':' => some ([.colon], between)
    | '"' => some ([], text [])
    | 'n' => some ([], word ['u', 'l', 'l'] .null)
    | 't' => some ([], word ['r', 'u', 'e'] (.bool true))
    | 'f' => some ([], word ['a', 'l', 's', 'e'] (.bool false))
    | '-' => some ([], number .minus)
    | '0' => some ([], number .zero)
    | c => if c.isDigit then some ([], number .integer) else none

def escaped? : Char → Option Char
  | '"' => some '"'
  | '\\' => some '\\'
  | '/' => some '/'
  | 'b' => some '\x08'
  | 'f' => some '\x0c'
  | 'n' => some '\n'
  | 'r' => some '\r'
  | 't' => some '\t'
  | _ => none

def textToken (pieces : List Piece) : Token :=
  .value (.text ((Piece.join pieces.reverse).map .ofList))

/-- The tokens completed by one more character, and what it leaves begun. -/
def step : Lexer → Char → Option (List Token × Lexer)
  | between, c => begin c
  | word [] _, _ => none
  | word (l :: rest) v, c =>
      if c ≠ l then none
      else match rest with
        | [] => some ([.value v], between)
        | rest => some ([], word rest v)
  | number stage, c =>
      match stage.advance c with
      | some stage => some ([], number stage)
      | none =>
          if stage.isComplete then
            (begin c).map fun (tokens, lexer) => (.value .number :: tokens, lexer)
          else none
  | text pieces, c =>
      if c = '"' then some ([textToken pieces], between)
      else if c = '\\' then some ([], escape pieces)
      else if c < ' ' then none
      else some ([], text (.scalar c :: pieces))
  | escape pieces, c =>
      if c = 'u' then some ([], unit pieces 4 0)
      else (escaped? c).map fun c => ([], text (.scalar c :: pieces))
  | unit pieces digits value, c =>
      (hexValue? c).map fun d =>
        if digits = 1 then ([], text (.ofUnit (16 * value + d) :: pieces))
        else ([], unit pieces (digits - 1) (16 * value + d))

def finish : Lexer → Option (List Token)
  | between => some []
  | number stage => if stage.isComplete then some [.value .number] else none
  | _ => none

def run : Lexer → List Char → Option (List Token)
  | lexer, [] => lexer.finish
  | lexer, c :: cs => do
      let (tokens, lexer) ← lexer.step c
      return tokens ++ (← lexer.run cs)

end Lexer

def tokens? (s : String) : Option (List Token) :=
  Lexer.between.run s.toList

inductive Frame
  | array (items : List Value)
  | member (members : List (Option String × Value)) (key : Option String)

/-- What has been read, by what may come next. -/
inductive Parser
  | value (stack : List Frame)
  | firstItem (stack : List Frame)
  | afterItem (items : List Value) (stack : List Frame)
  | firstKey (stack : List Frame)
  | nextKey (members : List (Option String × Value)) (stack : List Frame)
  | colon (members : List (Option String × Value)) (key : Option String) (stack : List Frame)
  | afterMember (members : List (Option String × Value)) (stack : List Frame)
  | done (v : Value)

namespace Parser

def complete (v : Value) : List Frame → Parser
  | [] => done v
  | .array items :: stack => afterItem (v :: items) stack
  | .member members key :: stack => afterMember ((key, v) :: members) stack

def begin : Token → List Frame → Option Parser
  | .value v, stack => some (complete v stack)
  | .openArray, stack => some (firstItem stack)
  | .openObject, stack => some (firstKey stack)
  | _, _ => none

def step : Parser → Token → Option Parser
  | value stack, t => begin t stack
  | firstItem stack, .closeArray => some (complete (.array []) stack)
  | firstItem stack, t => begin t (.array [] :: stack)
  | afterItem items stack, .comma => some (value (.array items :: stack))
  | afterItem items stack, .closeArray => some (complete (.array items.reverse) stack)
  | firstKey stack, .closeObject => some (complete (.object []) stack)
  | firstKey stack, .value (.text key) => some (colon [] key stack)
  | nextKey members stack, .value (.text key) => some (colon members key stack)
  | colon members key stack, .colon => some (value (.member members key :: stack))
  | afterMember members stack, .comma => some (nextKey members stack)
  | afterMember members stack, .closeObject => some (complete (.object members.reverse) stack)
  | _, _ => none

def finish : Parser → Option Value
  | done v => some v
  | _ => none

end Parser

def parse? (s : String) : Option Value := do
  let parser ← (← tokens? s).foldlM Parser.step (.value [])
  parser.finish

end AppchainStaking.Json
