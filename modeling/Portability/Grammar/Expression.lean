import Portability.Grammar.Words

/-! Expressions and predicates. From the loosest to the tightest: `OR`, `AND`, `NOT`, predicates,
additive and bitwise operators, multiplicative operators, signs, and primaries with what follows
them. -/
namespace Portability

/-- The constructs that contain themselves, directly or through others. -/
inductive Phrase where
  | expression
  | negation
  | signed
  | query
  | tableSource
  | statement
  deriving DecidableEq, Repr

/-- Phrases that begin with the same token contain each other in this order, the highest one
outermost. -/
def Phrase.rank : Phrase → Nat
  | signed | query | tableSource => 0
  | negation | statement => 1
  | expression => 2

/-- A parser for every phrase, one level further down. -/
abbrev Descent := Phrase → Parser Node

namespace Parser

/-- The name of a data type, perhaps of several words as in `DOUBLE PRECISION`. -/
def typeWords : Scan String := do
  let first ← name
  match Text.upper first with
  | "DOUBLE" => if ← eatWord "PRECISION" then return first ++ " PRECISION" else return first
  | "NATIONAL" =>
    let base := match ← takeWord? with
      | some next => first ++ " " ++ next
      | none => first
    if ← eatWord "VARYING" then return base ++ " VARYING" else return base
  | "CHARACTER" | "CHAR" | "BINARY" =>
    if ← eatWord "VARYING" then return first ++ " VARYING" else return first
  | _ => return first

def dataType : Parser Node := do
  let start ← position
  let full ← typeWords
  let args := (← parensText?).map fun a => Text.upper (Text.collapse a)
  let _ ← eatWord "VARYING"
  leaf (.dataType full args) start

def skipDirection : Scan Unit := do
  if !(← eatWord "ASC") then let _ ← eatWord "DESC"

/-- After a member of an argument list: whether the list goes on. A member that read nothing is
stepped over. -/
def memberFollows (before : Nat) : Scan Bool := do
  if ← eatMark .comma then return true
  else
    stepPast before
    sees fun v => !v.isMark .rparen && !v.atStatementEnd

def windowFrame? : Scan (Option String) := do
  if (← look).isOneOf ["ROWS", "RANGE"] then
    let start ← position
    skipPlainUntil (·.isMark .rparen)
    return some (Text.collapse (Text.upper (← textFrom start)))
  else return none

def skipQuantifier : Scan Unit := do
  if ← sees fun v => v.isOneOf ["DISTINCT", "ALL"] && !v.isMarkAt 1 .comma then advance

def skipWithinGroup : Scan Unit := do
  if ← eatWords ["WITHIN", "GROUP"] then skipParens

section

variable (parse : Descent)

/-- Expressions to sort by, each perhaps with a direction. -/
def orderItems : Parser (List Node) :=
  commaSeparated do
    let item ← parse .expression
    skipDirection
    return item

def argumentMembers (members : List Node) (member : Parser (List Node)) : Parser (List Node) := do
  let members ← loop members fun members => do
    let v ← look
    if v.atEnd || v.isMark .rparen then return .done members
    else
      let before ← position
      let members := members ++ (← member)
      if ← memberFollows before then return .again members else return .done members
  let _ ← eatMark .rparen
  return members

def parenList : Parser (List Node) := do
  if ← eatMark .lparen then
    argumentMembers [] do
      return [← parse (if (← look).startsQueryAt 0 then .query else .expression)]
  else return []

def overClause : Parser Node := do
  let start ← position
  advance
  if ← eatMark .lparen then
    let partition ← listAfter (eatWords ["PARTITION", "BY"]) (commaSeparated (parse .expression))
    let ordered ← eatWords ["ORDER", "BY"]
    let order ← listAfter (pure ordered) (orderItems parse)
    let frame ← windowFrame?
    let _ ← eatMark .rparen
    node (.window ordered frame) start (partition ++ order)
  else
    let _ ← identifier?
    leaf (.window false none) start

def overClause? : Parser (List Node) := whenSees (·.isWord "OVER") (overClause parse)

/-- One argument of a call, with a type after `AS` and an expression after `USING`. -/
def callArgument : Parser (List Node) := do
  let value ← parse .expression
  let type ← itemAfter (eatWord "AS") dataType
  let style ← itemAfter (eatWord "USING") (parse .expression)
  return value :: type ++ style

/-- A call; the cursor stands on the opening parenthesis. -/
def functionCall (name : String) (start : Nat) : Parser Node := do
  advance
  let star ← whenSees (·.isMark .star) do
    let pos ← position
    advance
    leaf .star pos
  skipQuantifier
  let args ← argumentMembers star (callArgument parse)
  skipWithinGroup
  let window ← overClause? parse
  node (.functionCall name) start (args ++ window)

def castCall (name : String) : Parser Node := do
  let start ← position
  advanceBy 2
  let value ← parse .expression
  let _ ← eatWord "AS"
  let target ← dataType
  let _ ← eatMark .rparen
  node (.functionCall name) start [value, target]

def convertCall (name : String) : Parser Node := do
  let start ← position
  advanceBy 2
  let target ← dataType
  let rest ← manyWhile (·.isMark .comma) do
    advance
    parse .expression
  let _ ← eatMark .rparen
  node (.functionCall name) start (target :: rest)

def caseExpression : Parser Node := do
  let start ← position
  advance
  let subject ← whenSees (!·.isWord "WHEN") (parse .expression)
  let branches ← manyWhile (·.isWord "WHEN") do
    advance
    let condition ← parse .expression
    let _ ← eatWord "THEN"
    return [condition, ← parse .expression]
  let otherwise ← itemAfter (eatWord "ELSE") (parse .expression)
  let _ ← eatWord "END"
  node .caseWhen start (subject ++ branches.flatten ++ otherwise)

def existsQuery : Parser Node := do
  let start ← position
  advanceBy 2
  let query ← parse .query
  let _ ← eatMark .rparen
  node .existsQuery start [query]

def nextValue : Parser Node := do
  let start ← position
  advanceBy 3
  let sequence ← name
  let window ← overClause? parse
  node (.nextValueFor sequence) start window

def lastQuote? (name : String) : Option Quote :=
  match name.toList.getLast? with
  | some '"' => some .double
  | some ']' => some .bracket
  | _ => none

/-- The name at the cursor, or the word there if it is none. One token is read at least. -/
def primaryName (word : String) : Scan String := do
  let start ← position
  let name := (← name?).getD word
  stepPast start
  return name

def namedPrimary (word : String) : Parser Node := do
  let start ← position
  let name ← primaryName word
  let v ← look
  if name.toList.getLast? == some '.' && v.isMark .star then
    advance
    leaf .star start
  else if v.isMark .lparen then functionCall parse name start
  else leaf (.identifier name (lastQuote? name)) start

def wordPrimary (value : String) (quote : Option Quote) : Parser Node := do
  let start ← position
  let v ← look
  match quote, value.toList with
  | none, '@' :: '@' :: _ =>
    advance
    leaf (.systemVariable (Text.upper value)) start
  | none, '@' :: _ =>
    advance
    leaf (.localVariable value) start
  | none, _ =>
    let called := v.isMarkAt 1 .lparen
    match Text.upper value with
    | "NULL" =>
      advance
      leaf (.literal .null) start
    | "CASE" => caseExpression parse
    | "EXISTS" => if called then existsQuery parse else namedPrimary parse value
    | "CAST" => if called then castCall parse "CAST" else namedPrimary parse value
    | "TRY_CAST" => if called then castCall parse "TRY_CAST" else namedPrimary parse value
    | "CONVERT" => if called then convertCall parse "CONVERT" else namedPrimary parse value
    | "TRY_CONVERT" =>
      if called then convertCall parse "TRY_CONVERT" else namedPrimary parse value
    | "NEXT" =>
      if v.isWords ["NEXT", "VALUE", "FOR"] then nextValue parse else namedPrimary parse value
    | _ => namedPrimary parse value
  | some _, _ => namedPrimary parse value

def skipBraces : Scan Unit :=
  loop 0 fun depth => do
    let v ← look
    if v.atEnd then return .done ()
    else
      advance
      if v.isMark .lbrace then return .again (depth + 1)
      else if v.isMark .rbrace then
        if depth ≤ 1 then return .done () else return .again (depth - 1)
      else return .again depth

/-- The name given to calls in the braces of the ODBC escape. -/
def escapeCallName : String := "\x7bODBC\x7d"

/-- A query in parentheses; its node reaches over the closing one. -/
def parenQuery : Parser Node := do
  advance
  let query ← parse .query
  let _ ← eatMark .rparen
  amend { query with stop := max query.stop (← position) }

/-- An expression in parentheses. Of a row of expressions the first one counts. -/
def parenExpression : Parser Node := do
  advance
  let inner ← parse .expression
  let _ ← manyWhile (·.isMark .comma) do
    advance
    parse .expression
  let _ ← eatMark .rparen
  return inner

/-- An operand without sign and without what may follow it. -/
def primary : Parser Node := do
  let start ← position
  let v ← look
  match v.token? 0 with
  | none => leaf (.unparsed "unexpected end of batch") start
  | some token =>
    match token with
    | .mark .lparen => if v.startsQueryAt 1 then parenQuery parse else parenExpression parse
    | .number .. =>
      advance
      leaf (.literal .number) start
    | .string _ =>
      advance
      leaf (.literal .string) start
    | .national _ =>
      advance
      leaf (.literal .national) start
    | .hex _ =>
      advance
      leaf (.literal .hex) start
    | .mark .star =>
      advance
      leaf .star start
    | .placeholder text =>
      advance
      leaf (.identifier text none) start
    | .mark .lbrace =>
      skipBraces
      leaf (.functionCall escapeCallName) start
    | .word value quote => wordPrimary parse value quote
    | .mark .comma | .mark .rparen | .mark .semicolon =>
      leaf (.unparsed ("expected expression before '" ++ token.display ++ "'")) start
    | _ =>
      advance
      leaf (.unparsed ("unexpected token '" ++ token.display ++ "'")) start

/-- A collation or a method call after a primary. -/
def suffixes (first : Node) : Parser Node :=
  loop first fun left => do
    let v ← look
    if v.isWord "COLLATE" then
      advance
      let collation ← identifier
      return .again (← node (.collate collation) first.start [left])
    else if v.isMark .period && v.isAnyWordAt 1 && v.isMarkAt 2 .lparen then
      advance
      let method ← identifier
      let args ← parenList parse
      return .again (← node (.functionCall ("." ++ method)) first.start (left :: args))
    else return .done left

def signedBody : Parser Node := do
  let start ← position
  match (← look).token? 0 with
  | some (.mark .minus) | some (.mark .plus) | some (.mark .tilde) =>
    let op := (← look).display
    advance
    let operand ← parse .signed
    node (.unaryOp op) start [operand]
  | _ =>
    let first ← primary parse
    suffixes parse first

/-- A binary operator out of a list, unless it belongs to a compound assignment. -/
def binaryOp? (marks : List Mark) (v : View) : Option Kind :=
  match v.token? 0 with
  | some (.mark m) =>
    if marks.contains m && !v.isMarkAt 1 .eq then some (.binaryOp m.text) else none
  | _ => none

def multiplicative : Parser Node :=
  chainLeft (parse .signed) (binaryOp? [.star, .slash, .percent])

def additive : Parser Node :=
  chainLeft (multiplicative parse) (binaryOp? [.plus, .minus, .amp, .pipe, .caret])

/-- A comparison operator and the number of its tokens. The outer joins `*=` and `=*` have to be
written without a gap. -/
def comparison? (v : View) : Option (String × Nat) :=
  match v.token? 0, v.token? 1 with
  | some (.mark .bang), some (.mark .lt) => some ("!<", 2)
  | some (.mark .bang), some (.mark .gt) => some ("!>", 2)
  | some (.mark .bang), some (.mark .eq) => some ("!=", 2)
  | some (.mark .star), some (.mark .eq) =>
    if v.source.adjacentAt v.pos then some ("*=", 2) else none
  | some (.mark .eq), some (.mark .star) =>
    if v.source.adjacentAt v.pos then some ("=*", 2) else some ("=", 1)
  | some (.mark m), _ =>
    if [Mark.eq, .ne, .lt, .gt, .le, .ge].contains m then some (m.text, 1) else none
  | _, _ => none

/-- What stands on the right of a comparison: a quantified list or an additive expression. -/
def comparand : Parser Node := do
  let v ← look
  if v.isOneOf ["ANY", "SOME", "ALL"] && v.isMarkAt 1 .lparen then
    let start ← position
    let quantifier ← takeWord
    let args ← parenList parse
    node (.functionCall quantifier) start args
  else additive parse

def membership (left : Node) (negated : Bool) : Parser Node := do
  let v ← look
  if v.isMark .lparen && v.startsQueryAt 1 then
    advance
    let query ← parse .query
    let _ ← eatMark .rparen
    node (.inSubquery negated) left.start [left, query]
  else
    let members ← parenList parse
    node (.inList negated) left.start (left :: members)

/-- The `NOT` before `IN`, `BETWEEN` or `LIKE` read if it is there, and whether it was. -/
def eatTestNegation : Scan Bool :=
  eatIf fun v => v.isWord "NOT" && v.isOneOfAt 1 ["IN", "BETWEEN", "LIKE"]

def testOf (left : Node) : Parser Node := do
  let negated ← eatTestNegation
  if ← eatWord "IN" then membership parse left negated
  else if ← eatWord "BETWEEN" then
    let low ← additive parse
    let _ ← eatWord "AND"
    let high ← additive parse
    node (.between negated) left.start [left, low, high]
  else if ← eatWord "LIKE" then
    let pattern ← additive parse
    let escape ← itemAfter (eatWord "ESCAPE") (additive parse)
    node (.like negated) left.start (left :: pattern :: escape)
  else if ← eatWord "IS" then
    let negated ← eatWord "NOT"
    let _ ← eatWord "NULL"
    node (.isNull negated) left.start [left]
  else return left

/-- An additive expression, perhaps compared or tested. -/
def predicate : Parser Node := do
  let left ← additive parse
  match comparison? (← look) with
  | some (op, width) =>
    advanceBy width
    let right ← comparand parse
    node (.comparison op) left.start [left, right]
  | none => testOf parse left

/-- A predicate, perhaps negated. -/
def negationBody : Parser Node := do
  if (← look).isWord "NOT" then
    let start ← position
    advance
    let inner ← parse .negation
    node .negation start [inner]
  else predicate parse

def logical? (op : String) (v : View) : Option Kind :=
  if v.isWord op then some (.logical op) else none

def expressionBody : Parser Node :=
  chainLeft (chainLeft (parse .negation) (logical? "AND")) (logical? "OR")

end

end Parser

end Portability
