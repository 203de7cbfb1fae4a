import Portability.Grammar.Expression

/-! Queries: common table expressions, set operations, table sources and the clauses of `SELECT`. -/
namespace Portability.Parser

/-- Hints that may stand in parentheses right after a table name. -/
def bareTableHints : List String :=
  ["NOLOCK", "READUNCOMMITTED", "UPDLOCK", "HOLDLOCK", "ROWLOCK", "PAGLOCK", "TABLOCK",
   "TABLOCKX", "XLOCK", "READPAST", "NOWAIT", "INDEX", "READCOMMITTED", "REPEATABLEREAD",
   "SERIALIZABLE", "FASTFIRSTROW", "NOEXPAND"]

def startsBareHints (v : View) : Bool :=
  v.isMark .lparen && v.isOneOfAt 1 bareTableHints &&
    (v.isMarkAt 2 .rparen || v.isMarkAt 2 .comma || v.isMarkAt 2 .lparen)

/-- A word that may be an alias without `AS`. -/
def isAlias (v : View) : Bool :=
  match v.token? 0 with
  | some (.word _ (some _)) => true
  | some (.word value none) =>
    value.toList.head? != some '@' && !Text.oneOf value aliasStopWords &&
      !Text.oneOf value statementWords
  | _ => false

def tableAlias? : Scan (Option String) := do
  if ← eatWord "AS" then identifier?
  else if isAlias (← look) then identifier?
  else return none

/-- The alias of a column, if it has one; a string may serve as one. -/
def columnAlias? : Scan (Option String) := do
  let marked ← eatWord "AS"
  match (← look).token? 0, marked with
  | some (.string text), _ | some (.national text), true =>
    advance
    return some text
  | _, true => identifier?
  | _, false => if isAlias (← look) then identifier? else return none

/-- A group in parentheses after an alias: column names, which are not kept. -/
def skipColumnList : Scan Unit := skipParens

/-- The bare word at the cursor, or any other token, read and put in upper case. -/
def takeAny : Scan String := do
  match ← takeWord? with
  | some w => return w
  | none =>
    let text := Text.upper (← look).display
    advance
    return text

/-- One member of a list of words and values, named by its first word. -/
def wordMember (make : String → Kind) : Parser Node := do
  let start ← position
  let word ← takeAny
  skipMember
  leaf (make word) start

def hintList : Parser (List Node) := parenMembers (wordMember .tableHint)

def tableHints : Parser (List Node) := do
  if (← look).isCall "WITH" then
    advance
    hintList
  else return []

def skipRepeatable : Scan Unit := do
  if ← eatWord "REPEATABLE" then skipParens

def tableSample : Parser Node := do
  let start ← position
  advance
  let _ ← eatWord "SYSTEM"
  skipParens
  skipRepeatable
  leaf (.tableHint "TABLESAMPLE") start

def formatWords : Scan String := do
  let kind ← takeWord
  match (← look).word? 0 with
  | some w =>
    if kind != "BROWSE" && !Text.same w "OPTION" then
      advance
      return kind ++ " " ++ Text.upper w
    else return kind
  | none => return kind

def skipFormatSettings : Scan Unit := do
  let _ ← manyWhile (·.isMark .comma) do
    advance
    skipUntil fun v =>
      v.atStatementEnd || v.isMark .comma || v.isMark .rparen || v.isWord "OPTION"

def forClause : Parser Node := do
  let start ← position
  advance
  let mode ← formatWords
  skipParens
  skipFormatSettings
  leaf (.forClause mode) start

/-- The words of a query hint in upper case, up to a variable or another token. -/
def hintWords : Scan (List String) :=
  loop [] fun words => do
    match (← look).word? 0 with
    | some w =>
      if w.toList.head? == some '@' then return .done words.reverse
      else
        advance
        return .again (Text.upper w :: words)
    | none => return .done words.reverse

/-- One query hint: its words, or its text if it begins with none. -/
def queryHint : Parser Node := do
  let start ← position
  let words ← hintWords
  skipMember
  let text ← textFrom start
  leaf (.queryHint (if words.isEmpty then Text.upper text else String.intercalate " " words)) start

def optionClause : Parser Node := do
  let start ← position
  advance
  let hints ← parenMembers queryHint
  node .optionClause start hints

def optionClause? : Parser (List Node) := whenSees (·.isCall "OPTION") optionClause

def intoClause : Parser Node := do
  let start ← position
  advance
  let target ← name
  leaf (.into target) start

def joinHintWords : List String := ["LOOP", "HASH", "MERGE", "REMOTE"]

/-- The words for the kind of a join before `JOIN`, read; without any the join is an inner one. -/
def joinKind : Scan JoinKind := do
  if ← eatWord "INNER" then return .inner
  else if ← eatWord "LEFT" then
    let _ ← eatWord "OUTER"
    return .leftOuter
  else if ← eatWord "RIGHT" then
    let _ ← eatWord "OUTER"
    return .rightOuter
  else if ← eatWord "FULL" then
    let _ ← eatWord "OUTER"
    return .fullOuter
  else return .inner

def joinHint? : Scan (Option String) := do
  let v ← look
  if v.isOneOf joinHintWords && v.isWordAt 1 "JOIN" then takeWord? else return none

def joinWords? : Scan (Option (JoinKind × Option String)) := do
  let start ← position
  if ← eatWords ["CROSS", "JOIN"] then return some (.cross, none)
  else if ← eatWords ["CROSS", "APPLY"] then return some (.crossApply, none)
  else if ← eatWords ["OUTER", "APPLY"] then return some (.outerApply, none)
  else
    let kind ← joinKind
    let hint ← joinHint?
    if ← eatWord "JOIN" then return some (kind, hint)
    else
      rewind start
      return none

/-- A variable with an assignment operator after it, read if it is there. -/
def assignmentTarget? : Scan (Option (String × String)) := do
  let v ← look
  match v.variableName?, assignment? v 1 with
  | some target, some (operator, width) =>
    advanceBy (1 + width)
    return some (target, operator)
  | _, _ => return none

section

variable (parse : Descent)

/-! ### Select lists -/

/-- One column of a select list: a star, a variable that is set, or an expression with its alias. -/
def selectItem : Parser Node := do
  let start ← position
  let v ← look
  if v.isMark .star then
    advance
    leaf .star start
  else
    match ← assignmentTarget? with
    | some (target, operator) =>
      let value ← parse .expression
      node (.variableAssignment target operator) start [value]
    | none =>
      if v.isAnyWordAt 0 && v.isMarkAt 1 .eq then
        let knownAs ← identifier?
        advance
        let value ← parse .expression
        node (.selectItem knownAs) start [value]
      else
        let value ← parse .expression
        let knownAs ← columnAlias?
        node (.selectItem knownAs) start [value]

def topCount : Parser Node := do
  if ← eatMark .lparen then
    let e ← parse .expression
    let _ ← eatMark .rparen
    return e
  else primary parse

def topClause : Parser Node := do
  let start ← position
  advance
  let count ← topCount parse
  let percent ← eatWord "PERCENT"
  let withTies ← eatWords ["WITH", "TIES"]
  node (.top percent withTies) start [count]

def topClause? : Parser (List Node) := whenSees (·.isWord "TOP") (topClause parse)

/-! ### Table sources -/

/-- `VALUES (…), (…)`. The expressions of all rows are its parts. -/
def valuesClause : Parser Node := do
  let start ← position
  advance
  let rows ← loop [] fun rows => do
    if (← look).isMark .lparen then
      let rows := (← parenList parse) :: rows
      if ← eatMark .comma then return .again rows else return .done rows.reverse
    else return .done rows.reverse
  node (.values rows.length) start rows.flatten

/-- Two bounds with a word between them, which are not kept. -/
def boundPair (between : String) : Parser Unit := do
  let _ ← additive parse
  let _ ← eatWord between
  let _ ← additive parse

/-- The bounds of `FOR SYSTEM_TIME`, which are not kept. -/
def temporalBounds : Parser Unit := do
  if ← eatWords ["AS", "OF"] then let _ ← additive parse
  else if ← eatWord "FROM" then boundPair parse "TO"
  else if ← eatWord "BETWEEN" then boundPair parse "AND"
  else if ← eatWords ["CONTAINED", "IN"] then skipParens
  else let _ ← eatWord "ALL"

def temporalClause : Parser Node := do
  let start ← position
  advanceBy 2
  temporalBounds parse
  leaf (.tableHint "FOR SYSTEM_TIME") start

/-- A query or rows of values with an alias; the cursor stands after the parenthesis. -/
def derivedTable (start : Nat) (content : Parser Node) : Parser Node := do
  let content ← content
  let _ ← eatMark .rparen
  let knownAs ← tableAlias?
  skipColumnList
  node (.derivedTable knownAs) start [content]

/-- A table source in parentheses: a query, rows of values, or further table sources. -/
def parenSource (start : Nat) : Parser Node := do
  let v ← look
  advance
  if v.startsQueryAt 1 || v.parensStartQuery then derivedTable start (parse .query)
  else if v.isWordAt 1 "VALUES" then derivedTable start (valuesClause parse)
  else
    let inner ← parse .tableSource
    let _ ← eatMark .rparen
    return inner

def namedSource (name : String) (start : Nat) : Parser Node := do
  let v ← look
  if v.isMark .lparen && !startsBareHints v then
    let args ← parenList parse
    let knownAs ← tableAlias?
    skipColumnList
    node (.tableFunction name knownAs) start args
  else
    let bare ← hintList
    let temporal ← whenSees (·.isWords ["FOR", "SYSTEM_TIME"]) (temporalClause parse)
    let knownAs ← tableAlias?
    let sample ← whenSees (·.isWord "TABLESAMPLE") tableSample
    let hints ← tableHints
    node (.tableRef name knownAs) start (bare ++ temporal ++ sample ++ hints)

/-- A table source without joins and pivots. -/
def plainSource (start : Nat) : Parser Node := do
  if (← look).isMark .lparen then parenSource parse start
  else
    match ← name? with
    | some name => namedSource parse name start
    | none => primary parse

/-- A table source without joins, perhaps pivoted. -/
def tablePrimary : Parser Node := do
  let start ← position
  let source ← plainSource parse start
  loop source fun source => do
    let v ← look
    if v.isOneOf ["PIVOT", "UNPIVOT"] then
      advance
      skipParens
      let _ ← tableAlias?
      return .again (← node (.pivot (v.isWord "UNPIVOT")) start [source])
    else return .done source

/-- Table sources with joins between them, combined from the left. -/
def tableSourceBody : Parser Node := do
  let first ← tablePrimary parse
  loop first fun left => do
    match ← joinWords? with
    | some (kind, hint) =>
      let right ← tablePrimary parse
      let condition ← itemAfter (eatIf fun v => kind.takesCondition && v.isWord "ON")
        (parse .expression)
      return .again (← node (.join kind hint) left.start (left :: right :: condition))
    | none => return .done left

def fromClause : Parser Node := do
  let start ← position
  advance
  let sources ← commaSeparated (parse .tableSource)
  node .fromClause start sources

def fromClause? : Parser (List Node) := whenSees (·.isWord "FROM") (fromClause parse)

/-! ### Clauses -/

def currentOf : Parser Node := do
  let start ← position
  advanceBy 2
  let _ ← eatWord "GLOBAL"
  let cursor ← identifier
  leaf (.cursorOp "CURRENT OF" cursor none) start

/-- The condition of a `WHERE`: the row of a cursor, or an expression. -/
def searchCondition : Parser Node := do
  if (← look).isWords ["CURRENT", "OF"] then currentOf else parse .expression

def whereClause : Parser Node := do
  let start ← position
  advance
  let condition ← searchCondition parse
  node .whereClause start [condition]

def whereClause? : Parser (List Node) := whenSees (·.isWord "WHERE") (whereClause parse)

/-- One member of `GROUP BY`: the modifier that it sets, if any, and its expressions. -/
def groupMember : Parser (Option String × List Node) := do
  let v ← look
  if v.isOneOf ["ROLLUP", "CUBE"] && v.isMarkAt 1 .lparen then
    let modifier ← takeWord?
    return (modifier, ← parenList parse)
  else if ← eatWords ["GROUPING", "SETS"] then
    skipParens
    return (some "GROUPING SETS", [])
  else return (none, [← parse .expression])

def groupAll? : Scan (Option String) := do
  if ← eatWord "ALL" then return some "ALL" else return none

/-- The modifier after the members of a `GROUP BY`, or the one known before. -/
def trailingModifier (known : Option String) : Scan (Option String) := do
  if ← eatIf fun v => v.isWord "WITH" && v.isOneOfAt 1 ["ROLLUP", "CUBE"] then
    return some ("WITH " ++ (← takeWord))
  else return known

/-- `GROUP BY` with its members; the last modifier counts. -/
def groupBy : Parser Node := do
  let start ← position
  advanceBy 2
  let all ← groupAll?
  let members ← commaSeparated (groupMember parse)
  let trailing ← trailingModifier (members.foldl (fun m member => member.1.orElse fun _ => m) all)
  node (.groupBy trailing) start (members.map (·.2)).flatten

def having : Parser Node := do
  let start ← position
  advance
  let condition ← parse .expression
  node .having start [condition]

/-- The rows to fetch; the cursor stands after `FETCH`. -/
def fetchCount : Parser Node := do
  let _ ← eatWord "NEXT"
  let _ ← eatWord "FIRST"
  let count ← parse .expression
  let _ ← eatWord "ROWS"
  let _ ← eatWord "ROW"
  let _ ← eatWord "ONLY"
  return count

/-- The rows to skip and to fetch; the cursor stands after `OFFSET`. -/
def offsetFetch : Parser (List Node) := do
  let offset ← parse .expression
  let _ ← eatWord "ROWS"
  let _ ← eatWord "ROW"
  let count ← itemAfter (eatWord "FETCH") (fetchCount parse)
  return offset :: count

def orderBy : Parser Node := do
  let start ← position
  advanceBy 2
  let items ← orderItems parse
  let paged ← eatWord "OFFSET"
  let pages ← listAfter (pure paged) (offsetFetch parse)
  node (.orderBy paged) start (items ++ pages)

/-! ### Queries -/

def distinctWord : Scan Bool := do
  if ← eatWord "DISTINCT" then return true
  else
    let _ ← eatWord "ALL"
    return false

def querySpec : Parser Node := do
  let start ← position
  advance
  let distinct ← distinctWord
  let top ← topClause? parse
  let items ← commaSeparated (selectItem parse)
  let into ← whenSees (·.isWord "INTO") intoClause
  let sources ← fromClause? parse
  let condition ← whereClause? parse
  let grouping ← whenSees (·.isWords ["GROUP", "BY"]) (groupBy parse)
  let having ← whenSees (·.isWord "HAVING") (having parse)
  node (.querySpec distinct) start
    (top ++ items ++ into ++ sources ++ condition ++ grouping ++ having)

/-- A query without set operations: a `SELECT` or a query in parentheses. -/
def queryTerm : Parser Node := do
  let v ← look
  if v.isMark .lparen then
    advance
    let inner ← parse .query
    let _ ← eatMark .rparen
    return inner
  else if v.isWord "SELECT" then querySpec parse
  else otherStatement

def setOperator? : Scan (Option SetOperator) := do
  if ← eatWords ["UNION", "ALL"] then return some .unionAll
  else if ← eatWord "UNION" then return some .union
  else if ← eatWord "EXCEPT" then return some .except
  else if ← eatWord "INTERSECT" then return some .intersect
  else return none

def queryExpression : Parser Node := do
  let first ← queryTerm parse
  loop first fun left => do
    match ← setOperator? with
    | some operator =>
      let right ← queryTerm parse
      return .again (← node (.setOperation operator) left.start [left, right])
    | none => return .done left

/-- What may follow a query expression: order, `FOR` and `OPTION`. -/
def queryTail : Parser (List Node) := do
  let order ← whenSees (·.isWords ["ORDER", "BY"]) (orderBy parse)
  let format ←
    whenSees (fun v => v.isWord "FOR" && v.isOneOfAt 1 ["XML", "JSON", "BROWSE"]) forClause
  let options ← optionClause?
  return order ++ format ++ options

/-- One common table expression, or nothing if the text is none. -/
def cte? : Parser (Option (List Node)) := do
  let start ← position
  if ← eatWord "XMLNAMESPACES" then
    skipParens
    return some []
  else
    match ← identifier? with
    | none => return none
    | some name =>
      skipColumnList
      if ← eatWord "AS" then
        if ← eatMark .lparen then
          let query ← parse .query
          let _ ← eatMark .rparen
          return some [← node (.cte name) start [query]]
        else return none
      else return none

/-- Common table expressions with commas between them, or nothing if one of them is none. -/
def cteMembers? : Parser (Option (List Node)) :=
  loop [] fun members => do
    match ← cte? parse with
    | none => return .done none
    | some found =>
      let members := members ++ found
      if ← eatMark .comma then return .again members else return .done (some members)

/-- `WITH` and its common table expressions, or nothing if the text is no such list. -/
def withClause? : Parser (Option Node) := do
  let start ← position
  if ← eatWord "WITH" then
    match ← cteMembers? parse with
    | some members => return some (← node .withClause start members)
    | none => return none
  else return none

def leadingCtes : Parser (List Node) := do
  if (← look).isWord "WITH" then return (← withClause? parse).toList else return []

def queryBody : Parser Node := do
  let start ← position
  let ctes ← leadingCtes parse
  let body ← queryExpression parse
  let tail ← queryTail parse
  node .query start (ctes ++ body :: tail)

def queryStatement : Parser Node := do
  let v ← look
  if v.isMark .lparen && !v.parensStartQuery then otherStatement else parse .query

end

end Portability.Parser
