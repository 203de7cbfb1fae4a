import Portability.Source
import Portability.Tree.Node

/-! Parsers over the token stream of a batch. A scan only moves over significant tokens; a parser
also builds nodes and keeps them. A reading that gives no result has come to a round that reads no
token: it would go on for ever. -/
namespace Portability

/-- The position of the next token and all nodes built so far, each at the place of its `id`. -/
structure Cursor where
  pos : Nat
  nodes : Array Node

def Reading (σ α : Type) : Type := Source → σ → Option (α × σ)

/-- A reading that knows its position and nothing else: it builds no nodes. -/
abbrev Scan := Reading Nat

abbrev Parser := Reading Cursor

instance {σ : Type} : Monad (Reading σ) where
  pure a := fun _ c => some (a, c)
  bind p f := fun s c =>
    match p s c with
    | some (a, c') => f a s c'
    | none => none

/-- A state that stands at a position. -/
class Standing (σ : Type) where
  pos : σ → Nat
  moveTo : σ → Nat → σ

instance : Standing Nat where
  pos p := p
  moveTo _ p := p

instance : Standing Cursor where
  pos c := c.pos
  moveTo c p := { c with pos := p }

instance {σ : Type} [Standing σ] : MonadLift Scan (Reading σ) where
  monadLift p := fun s c =>
    match p s (Standing.pos c) with
    | some (a, pos) => some (a, Standing.moveTo c pos)
    | none => none

/-- What a parser can see: the source and the position in it. -/
structure View where
  source : Source
  pos : Nat

namespace View

/-- The token that many places ahead. -/
def token? (v : View) (offset : Nat) : Option Token := v.source.tokenAt? (v.pos + offset)

def atEnd (v : View) : Bool := v.source.size ≤ v.pos

/-- The bare word that many places ahead. Delimited words are never keywords. -/
def word? (v : View) (offset : Nat) : Option String :=
  match v.token? offset with
  | some (.word value none) => some value
  | _ => none

/-- The bare word here, in upper case. -/
def keyword? (v : View) : Option String := (v.word? 0).map Text.upper

/-- The token that many places ahead is the bare word, in any case. -/
def isWordAt (v : View) (offset : Nat) (word : String) : Bool :=
  match v.word? offset with
  | some w => Text.same w word
  | none => false

def isWord (v : View) (word : String) : Bool := v.isWordAt 0 word

def isWords (v : View) : List String → Bool
  | [] => true
  | word :: rest => v.isWord word && isWords ⟨v.source, v.pos + 1⟩ rest

/-- The token that many places ahead is one of the bare words. -/
def isOneOfAt (v : View) (offset : Nat) (words : List String) : Bool :=
  match v.word? offset with
  | some w => Text.oneOf w words
  | none => false

def isOneOf (v : View) (words : List String) : Bool := v.isOneOfAt 0 words

/-- The token that many places ahead is the mark. -/
def isMarkAt (v : View) (offset : Nat) (mark : Mark) : Bool :=
  match v.token? offset with
  | some (.mark m) => m == mark
  | _ => false

def isMark (v : View) (mark : Mark) : Bool := v.isMarkAt 0 mark

/-- The token that many places ahead is a word, delimited or not. -/
def isAnyWordAt (v : View) (offset : Nat) : Bool :=
  match v.token? offset with
  | some (.word ..) => true
  | _ => false

def display (v : View) : String := ((v.token? 0).map Token.display).getD ""

/-- The variable here, one `@` and no more. -/
def variableName? (v : View) : Option String :=
  match v.word? 0 with
  | some w =>
    match w.toList with
    | '@' :: '@' :: _ => none
    | '@' :: _ => some w
    | _ => none
  | none => none

def isCall (v : View) (word : String) : Bool := v.isWord word && v.isMarkAt 1 .lparen

end View

/-- What a round of a loop decides: to go on or to stop. -/
inductive Round (σ α : Type) where
  | again (state : σ)
  | done (result : α)

namespace Parser

variable {τ : Type}

def look : Scan View := fun s pos => some (⟨s, pos⟩, pos)

def position : Scan Nat := fun _ pos => some (pos, pos)

def remaining : Scan Nat := fun s pos => some (s.size - pos, pos)

/-! ### Rounds -/

/-- No result: the reading would go on for ever. -/
def endless {α : Type} : Reading τ α := fun _ _ => none

section

variable [Standing τ] {σ α : Type}

/-- At most that many rounds. A round that goes on has to leave fewer tokens: without that it would
be repeated for ever. -/
def rounds (body : σ → Reading τ (Round σ α)) : Nat → σ → Reading τ α
  | 0, _ => endless
  | n + 1, state => do
    let before ← remaining
    match ← body state with
    | .again next => if (← remaining) < before then rounds body n next else endless
    | .done a => pure a

/-- Rounds until one stops. A round that goes on reads at least one token, so there are fewer rounds
than tokens and one more. -/
def loop (init : σ) (body : σ → Reading τ (Round σ α)) : Reading τ α := fun s c =>
  rounds body (s.size + 2) init s c

end

/-! ### Looking and moving -/

def sees (test : View → Bool) : Scan Bool := do return test (← look)

def advance : Scan Unit := fun s pos => some ((), if pos < s.size then pos + 1 else pos)

/-- That many tokens read, as far as there are any. -/
def advanceBy : Nat → Scan Unit
  | 0 => pure ()
  | n + 1 => do
    advance
    advanceBy n

/-- The position put back to an earlier one; built nodes stay. -/
def rewind (pos : Nat) : Scan Unit := fun s _ => some ((), min pos s.size)

/-- One token read if the test accepts it, and whether it did. -/
def eatIf (test : View → Bool) : Scan Bool := do
  if test (← look) then
    advance
    return true
  else return false

def eatMark (mark : Mark) : Scan Bool := eatIf (·.isMark mark)

def eatWord (word : String) : Scan Bool := eatIf (·.isWord word)

/-- All the bare words read, or none. -/
def eatWords (words : List String) : Scan Bool := do
  if (← look).isWords words then
    advanceBy words.length
    return true
  else return false

/-- The bare word at the cursor, read and put in upper case. -/
def takeWord? : Scan (Option String) := do
  match (← look).keyword? with
  | some w =>
    advance
    return some w
  | none => return none

/-- The bare word at the cursor in upper case, or nothing. -/
def takeWord : Scan String := do return (← takeWord?).getD ""

/-! ### Names -/

def identifier? : Scan (Option String) := do
  match (← look).token? 0 with
  | some (.word value quote) =>
    advance
    return some (Token.wordText value quote)
  | _ => return none

/-- One identifier as it is written, or the empty text. -/
def identifier : Scan String := do return (← identifier?).getD ""

/-- A dotted name as it is written; parts may be missing but not all of them. -/
def name? : Scan (Option String) := do
  let start ← position
  let text ← loop ("", true) fun (text, wantsPart) => do
    match (← look).token? 0 with
    | some (.word value quote) =>
      if wantsPart then
        advance
        return .again (text ++ Token.wordText value quote, false)
      else return .done text
    | some (.mark .period) =>
      advance
      return .again (text ++ ".", true)
    | _ => return .done text
  if text.toList.all (· == '.') then
    rewind start
    return none
  else return some text

/-- A dotted name as it is written, or the empty text. -/
def name : Scan String := do return (← name?).getD ""

/-! ### Skipping -/

def skipParens : Scan Unit := do
  if (← look).isMark .lparen then
    loop 0 fun depth => do
      let v ← look
      if v.atEnd then return .done ()
      else
        advance
        if v.isMark .lparen then return .again (depth + 1)
        else if v.isMark .rparen then
          if depth ≤ 1 then return .done () else return .again (depth - 1)
        else return .again depth
  else pure ()

/-- Tokens read until the test accepts what follows. -/
def skipPlainUntil (stop : View → Bool) : Scan Unit :=
  loop () fun _ => do
    let v ← look
    if v.atEnd || stop v then return .done ()
    else
      advance
      return .again ()

/-- Tokens and groups in parentheses read until the test accepts what follows. -/
def skipUntil (stop : View → Bool) : Scan Unit :=
  loop () fun _ => do
    let v ← look
    if v.atEnd || stop v then return .done ()
    else if v.isMark .lparen then
      skipParens
      return .again ()
    else
      advance
      return .again ()

/-- The rest of a list member read: up to a comma or a closing parenthesis. -/
def skipMember : Scan Unit := skipUntil fun v => v.isMark .comma || v.isMark .rparen

def textFrom (start : Nat) : Scan String := fun s pos => some (s.textBetween start pos, pos)

def parensText? : Scan (Option String) := do
  if (← look).isMark .lparen then
    let start ← position
    skipParens
    let stop ← position
    return some ((← look).source.textBetween (start + 1) (stop - 1))
  else return none

/-! ### Nodes -/

/-- A new node from `start` to the cursor. -/
def node (kind : Kind) (start : Nat) (children : List Node) : Parser Node := fun s c =>
  let n : Node :=
    { id := c.nodes.size, kind, line := s.lineAt start, start, stop := max c.pos start, children }
  some (n, { c with nodes := c.nodes.push n })

/-- A new node without parts. -/
def leaf (kind : Kind) (start : Nat) : Parser Node := node kind start []

/-- A built node put in place of its earlier form. -/
def amend (n : Node) : Parser Node := fun _ c =>
  some (n, { c with nodes := c.nodes.setIfInBounds n.id n })

/-! ### Repetition -/

section

variable [Standing τ] {α : Type}

/-- Items as long as the test accepts what follows. -/
def manyWhile (test : View → Bool) (item : Reading τ α) : Reading τ (List α) :=
  loop [] fun items => do
    if test (← look) then return .again ((← item) :: items)
    else return .done items.reverse

/-- One item or more, with commas between them. -/
def commaSeparated (item : Reading τ α) : Reading τ (List α) :=
  loop [] fun items => do
    let items := (← item) :: items
    if ← eatMark .comma then return .again items else return .done items.reverse

/-- Members in parentheses, each with the comma after it if there is one. -/
def parenMembers (member : Reading τ α) : Reading τ (List α) := do
  if ← eatMark .lparen then
    let members ← manyWhile (fun v => !v.atEnd && !v.isMark .rparen) do
      let m ← member
      let _ ← eatMark .comma
      return m
    let _ ← eatMark .rparen
    return members
  else return []

/-- The items if the lead was read, else nothing. -/
def listAfter (lead : Scan Bool) (items : Reading τ (List α)) : Reading τ (List α) := do
  if ← lead then items else return []

/-- The item if the lead was read, else nothing. -/
def itemAfter (lead : Scan Bool) (item : Reading τ α) : Reading τ (List α) := do
  if ← lead then return [← item] else return []

/-- The item as a list if the test accepts what follows, else nothing. -/
def whenSees (test : View → Bool) (item : Reading τ α) : Reading τ (List α) :=
  itemAfter (sees test) item

end

/-- Operands with operators between them, combined from the left. The operator gives the kind of the
node that combines two operands. -/
def chainLeft (operand : Parser Node) (operator? : View → Option Kind) : Parser Node := do
  let first ← operand
  loop first fun left => do
    match operator? (← look) with
    | some kind =>
      advance
      let right ← operand
      return .again (← node kind left.start [left, right])
    | none => return .done left

end Parser

end Portability
