import Portability.Proofs.RoundTrip.Rules

/-! Expressions as trees and as tokens, with the parentheses they need and no others. -/
namespace Portability

/-- How tightly the parts of an expression hold together, from the loosest on. -/
inductive Level where
  | disjunction
  | conjunction
  | negation
  | predicate
  | additive
  | multiplicative
  | signed
  deriving DecidableEq, Repr

namespace Level

/-- Tighter levels have a higher rank. -/
def rank : Level → Nat
  | disjunction => 0
  | conjunction => 1
  | negation => 2
  | predicate => 3
  | additive => 4
  | multiplicative => 5
  | signed => 6

/-- The first level binds looser than the second. -/
def looser (l m : Level) : Bool := l.rank < m.rank

/-- The next tighter level. -/
def tighter : Level → Level
  | disjunction => conjunction
  | conjunction => negation
  | negation => predicate
  | predicate => additive
  | additive => multiplicative
  | multiplicative | signed => signed

/-- The level of the operands of a chain; a level without chains is its own. -/
def operand : Level → Level
  | disjunction => conjunction
  | conjunction => negation
  | additive => multiplicative
  | multiplicative => signed
  | m => m

@[simp] theorem looser_disjunction (l : Level) : l.looser .disjunction = false := by
  cases l <;> rfl

@[simp] theorem signed_looser (m : Level) : signed.looser m = false := by cases m <;> rfl

theorem rank_tighter {m l : Level} (h : m.rank < l.rank) : m.tighter.rank = m.rank + 1 := by
  cases m <;> first | rfl | (cases l <;> simp [rank] at h)

theorem eq_of_rank_eq {m l : Level} (h : m.rank = l.rank) : m = l := by
  cases m <;> cases l <;> first | rfl | cases h

end Level

/-- An operator between two operands that groups to the left. -/
inductive Connective where
  | or | and
  | plus | minus | amp | pipe | caret
  | star | slash | percent
  deriving DecidableEq, Repr

namespace Connective

def level : Connective → Level
  | or => .disjunction
  | and => .conjunction
  | plus | minus | amp | pipe | caret => .additive
  | star | slash | percent => .multiplicative

def token : Connective → Token
  | or => .word "OR" none
  | and => .word "AND" none
  | plus => .mark .plus
  | minus => .mark .minus
  | amp => .mark .amp
  | pipe => .mark .pipe
  | caret => .mark .caret
  | star => .mark .star
  | slash => .mark .slash
  | percent => .mark .percent

def kind : Connective → Kind
  | or => .logical "OR"
  | and => .logical "AND"
  | plus => .binaryOp "+"
  | minus => .binaryOp "-"
  | amp => .binaryOp "&"
  | pipe => .binaryOp "|"
  | caret => .binaryOp "^"
  | star => .binaryOp "*"
  | slash => .binaryOp "/"
  | percent => .binaryOp "%"

end Connective

/-- An operator that compares two operands. -/
inductive Relation where
  | eq | ne | lt | gt | le | ge
  | notEq | notLt | notGt
  deriving DecidableEq, Repr

namespace Relation

def tokens : Relation → List Token
  | eq => [.mark .eq]
  | ne => [.mark .ne]
  | lt => [.mark .lt]
  | gt => [.mark .gt]
  | le => [.mark .le]
  | ge => [.mark .ge]
  | notEq => [.mark .bang, .mark .eq]
  | notLt => [.mark .bang, .mark .lt]
  | notGt => [.mark .bang, .mark .gt]

def text : Relation → String
  | eq => "="
  | ne => "<>"
  | lt => "<"
  | gt => ">"
  | le => "<="
  | ge => ">="
  | notEq => "!="
  | notLt => "!<"
  | notGt => "!>"

end Relation

/-- An operator before its operand. -/
inductive Sign where
  | minus | plus | tilde
  deriving DecidableEq, Repr

/-- The mark of a sign. -/
def Sign.mark : Sign → Mark
  | minus => .minus
  | plus => .plus
  | tilde => .tilde

/-- The name of a variable: one `@` and no more. -/
structure Variable where
  name : String
  rest : List Char
  toList_name : name.toList = '@' :: rest
  head_rest : rest.head? ≠ some '@'

/-- Expressions over numbers and variables. -/
inductive Expression where
  | number (digits : String) (long : Bool)
  | var (v : Variable)
  | binary (op : Connective) (left right : Expression)
  | negation (operand : Expression)
  | comparison (op : Relation) (left right : Expression)
  | between (negated : Bool) (operand low high : Expression)
  | inList (negated : Bool) (operand first : Expression) (rest : List Expression)
  | like (negated : Bool) (operand pattern : Expression)
  | likeEscape (negated : Bool) (operand pattern escape : Expression)
  | isNull (negated : Bool) (operand : Expression)
  | sign (op : Sign) (operand : Expression)

/-- The tokens in parentheses if they need them. -/
def enclose (needed : Bool) (ts : List Token) : List Token :=
  if needed then .mark .lparen :: (ts ++ [.mark .rparen]) else ts

/-- `NOT` if it is there. -/
def notTokens (negated : Bool) : List Token := if negated then [.word "NOT" none] else []

namespace Expression

/-- The level that an expression without parentheses around it is read at. -/
def level : Expression → Level
  | number .. | var _ | sign .. => .signed
  | binary op _ _ => op.level
  | negation _ => .negation
  | comparison .. | between .. | inList .. | like .. | likeEscape .. | isNull .. => .predicate

mutual

/-- The tree of an expression. -/
def shape : Expression → Shape
  | number .. => .of (.literal .number) []
  | var v => .of (.localVariable v.name) []
  | binary op left right => .of op.kind [left.shape, right.shape]
  | negation operand => .of .negation [operand.shape]
  | comparison op left right => .of (.comparison op.text) [left.shape, right.shape]
  | between negated operand low high =>
    .of (.between negated) [operand.shape, low.shape, high.shape]
  | inList negated operand first rest =>
    .of (.inList negated) (operand.shape :: first.shape :: shapes rest)
  | like negated operand pattern => .of (.like negated) [operand.shape, pattern.shape]
  | likeEscape negated operand pattern escape =>
    .of (.like negated) [operand.shape, pattern.shape, escape.shape]
  | isNull negated operand => .of (.isNull negated) [operand.shape]
  | sign op operand => .of (.unaryOp op.mark.text) [operand.shape]

/-- The trees of several expressions. -/
def shapes : List Expression → List Shape
  | [] => []
  | e :: rest => e.shape :: shapes rest

end

mutual

/-- The tokens of an expression at a place of a level: in parentheses if the expression binds looser
than that. On the right of an operator that groups to the left, equally loose is too loose. -/
def tokens (e : Expression) (m : Level) : List Token :=
  match e with
  | number digits long => [.number digits long]
  | var v => [.word v.name none]
  | binary op left right => enclose (op.level.looser m) <|
    left.tokens op.level ++ op.token :: right.tokens op.level.operand
  | negation operand => enclose (Level.negation.looser m) <|
    .word "NOT" none :: operand.tokens .negation
  | comparison op left right => enclose (Level.predicate.looser m) <|
    left.tokens .additive ++ (op.tokens ++ right.tokens .additive)
  | between negated operand low high => enclose (Level.predicate.looser m) <|
    operand.tokens .additive ++ (notTokens negated ++ .word "BETWEEN" none ::
      (low.tokens .additive ++ .word "AND" none :: high.tokens .additive))
  | inList negated operand first rest => enclose (Level.predicate.looser m) <|
    operand.tokens .additive ++ (notTokens negated ++ .word "IN" none :: .mark .lparen ::
      (first.tokens .disjunction ++ (memberTokens rest ++ [.mark .rparen])))
  | like negated operand pattern => enclose (Level.predicate.looser m) <|
    operand.tokens .additive ++ (notTokens negated ++ .word "LIKE" none ::
      pattern.tokens .additive)
  | likeEscape negated operand pattern escape => enclose (Level.predicate.looser m) <|
    operand.tokens .additive ++ (notTokens negated ++ .word "LIKE" none ::
      (pattern.tokens .additive ++ .word "ESCAPE" none :: escape.tokens .additive))
  | isNull negated operand => enclose (Level.predicate.looser m) <|
    operand.tokens .additive ++ .word "IS" none :: (notTokens negated ++ [.word "NULL" none])
  | sign op operand => .mark op.mark :: operand.tokens .signed

/-- Further members of a list, each with the comma before it. -/
def memberTokens : List Expression → List Token
  | [] => []
  | e :: rest => .mark .comma :: (e.tokens .disjunction ++ memberTokens rest)

end

/-- The tokens of an expression without parentheses around it. -/
def bare (e : Expression) : List Token := e.tokens .disjunction

theorem tokens_eq (e : Expression) (m : Level) :
    e.tokens m = enclose (e.level.looser m) e.bare := by
  cases e <;> simp [bare, tokens, level, enclose]

theorem tokens_of_le {e : Expression} {m : Level} (h : m.rank ≤ e.level.rank) :
    e.tokens m = e.bare := by
  simp [tokens_eq, enclose, Level.looser, h]

end Expression

/-! ### The first token -/

/-- The token can be the first of an operand of the level. -/
def Token.opens (m : Level) : Token → Bool
  | .number .. => true
  | .mark k => [Mark.lparen, .plus, .minus, .tilde].contains k
  | .word w none => w.toList.head? == some '@' || w == "NOT" && !Level.negation.looser m
  | _ => false

theorem Token.opens_of_le {t : Token} {m l : Level} (h : t.opens l = true)
    (hle : m.rank ≤ l.rank) : t.opens m = true := by
  cases t with
  | word w quote =>
    cases quote with
    | none =>
      simp only [Token.opens, Level.looser, Bool.or_eq_true, Bool.and_eq_true, Bool.not_eq_true',
        decide_eq_false_iff_not] at h ⊢
      exact h.imp_right fun ⟨hw, hl⟩ => ⟨hw, by omega⟩
    | some q => exact h
  | _ => exact h

/-- The tokens begin with one that opens an operand of the level. -/
def Opening (m : Level) (ts : List Token) : Prop := ∃ t rest, ts = t :: rest ∧ t.opens m = true

namespace Opening

variable {m l : Level} {ts us : List Token}

theorem append (h : Opening m ts) : Opening m (ts ++ us) := by
  obtain ⟨t, rest, rfl, ht⟩ := h
  exact ⟨t, rest ++ us, rfl, ht⟩

theorem loosen (h : Opening l ts) (hle : m.rank ≤ l.rank) : Opening m ts := by
  obtain ⟨t, rest, rfl, ht⟩ := h
  exact ⟨t, rest, rfl, Token.opens_of_le ht hle⟩

theorem enclose {needed : Bool} (h : needed = false → Opening m ts) :
    Opening m (enclose needed ts) := by
  cases needed with
  | false => exact h rfl
  | true => exact ⟨_, _, rfl, rfl⟩

end Opening

namespace Expression

theorem opening (e : Expression) (m : Level) : Opening m (e.tokens m) := by
  cases e with
  | number digits long => exact ⟨_, _, rfl, rfl⟩
  | var v =>
    refine ⟨_, _, rfl, ?_⟩
    simp [Token.opens, v.toList_name]
  | sign op operand =>
    refine ⟨_, _, rfl, ?_⟩
    cases op <;> rfl
  | negation operand =>
    refine .enclose fun h => ⟨_, _, rfl, ?_⟩
    simp [Token.opens, h]
  | binary op left right =>
    refine .enclose fun h => .loosen (opening left op.level).append ?_
    simpa [Level.looser] using h
  | comparison _ left _ | between _ left _ _ | inList _ left _ _ | like _ left _
  | likeEscape _ left _ _ | isNull _ left =>
    refine .enclose fun h => .loosen (opening left .additive).append ?_
    have hm : m.rank ≤ Level.predicate.rank := by simpa [Level.looser] using h
    exact Nat.le_trans hm (by decide)

end Expression

end Portability
