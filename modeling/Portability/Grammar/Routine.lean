import Portability.Grammar.Modification

/-! Statements of procedures: variables, cursors, transactions and control flow. -/
namespace Portability.Parser

def fetchOrientations : List String :=
  ["NEXT", "PRIOR", "FIRST", "LAST", "ABSOLUTE", "RELATIVE"]

/-- Words of an isolation level. -/
def isolationWords : List String :=
  ["READ", "COMMITTED", "UNCOMMITTED", "REPEATABLE", "SNAPSHOT", "SERIALIZABLE"]

/-! ### Transactions, settings and permissions -/

/-- The name of a transaction, unless the statement ends here. -/
def transactionName? : Scan (Option String) := do
  if (← look).atStatementEnd then return none else identifier?

def skipMark : Scan Unit := do
  if ← eatWords ["WITH", "MARK"] then
    match (← look).token? 0 with
    | some (.string _) | some (.national _) => advance
    | _ => return ()

def beginTransaction (start : Nat) (action : String) : Parser Node := do
  let name ← transactionName?
  skipMark
  leaf (.transaction action name) start

def transactionWord : Scan Bool := do
  if ← eatWord "TRAN" then return true else eatWord "TRANSACTION"

def transactionEnd : Parser Node := do
  let start ← position
  let verb ← takeWord
  if ← transactionWord then
    let name ← transactionName?
    skipWithParens
    leaf (.transaction (verb ++ " TRANSACTION") name) start
  else
    let work ← eatWord "WORK"
    skipWithParens
    leaf (.transaction (if work then verb ++ " WORK" else verb) none) start

/-- The value of a session setting: a word in upper case, or any token as it is written. -/
def settingValue : Scan String := do
  if (← look).atStatementEnd then return ""
  else
    let negative ← eatMark .minus
    let start ← position
    let v ← look
    if v.atEnd then return ""
    else
      advance
      let text ← textFrom start
      let value := match v.word? 0 with
        | some w => if w.toList.head? == some '@' then text else Text.upper w
        | none => text
      return if negative then "-" ++ value else value

/-- One setting of a `SET` list; some take a further word or a table. -/
def settingName (word : String) : Scan String := do
  match word with
  | "STATISTICS" => return "STATISTICS " ++ (← takeWord)
  | "IDENTITY_INSERT" => do
    let _ ← name?
    return word
  | _ => return word

def settingNames : Scan (List String) :=
  loop [] fun names => do
    match ← takeWord? with
    | none => return .done names
    | some word =>
      let names := names ++ [← settingName word]
      if ← eatMark .comma then return .again names else return .done names

/-- The words of an isolation level, in upper case. -/
def isolationLevel : Scan (List String) := manyWhile (·.isOneOf isolationWords) takeWord

/-- A session setting; the cursor stands after `SET`. -/
def settingStatement (start : Nat) : Parser Node := do
  if ← eatWords ["TRANSACTION", "ISOLATION", "LEVEL"] then
    let words ← isolationLevel
    leaf (.setOption ["TRANSACTION ISOLATION LEVEL"] (String.intercalate " " words)) start
  else
    let names ← settingNames
    let value ← settingValue
    leaf (.setOption names value) start

def skipPrincipals : Scan Unit := do
  if ← eatIf (·.isOneOf ["TO", "FROM"]) then let _ ← commaSeparated identifier?

def skipGrantor : Scan Unit := do
  if ← eatWord "AS" then let _ ← identifier?

/-- `GRANT`, `REVOKE` or `DENY`. Names of permissions may begin statements, so the scan goes on to
the principals. -/
def permissionStatement : Parser Node := do
  let start ← position
  let action ← takeWord
  skipUntil fun v => v.isMark .semicolon || v.isOneOf ["TO", "FROM"]
  skipPrincipals
  let _ ← eatWords ["WITH", "GRANT", "OPTION"]
  let _ ← eatWord "CASCADE"
  skipGrantor
  leaf (.permission action) start

/-! ### Variables and cursors -/

/-- Words between the name of a cursor and `CURSOR`, in upper case. -/
def earlyCursorWords : Scan (List String) :=
  manyWhile (·.isOneOf ["INSENSITIVE", "SCROLL"]) takeWord

/-- Words of a cursor declaration up to `FOR`, in upper case. -/
def cursorWords : Scan (List String) :=
  loop [] fun words => do
    let v ← look
    if v.atEnd || v.isWord "FOR" || v.isMark .semicolon then return .done words.reverse
    else
      match ← takeWord? with
      | some word => return .again (word :: words)
      | none => return .done words.reverse

def cursorPurpose? : Scan (List String) := do
  if ← eatWords ["FOR", "READ", "ONLY"] then return ["FOR READ ONLY"]
  else if ← eatWords ["FOR", "UPDATE"] then
    if ← eatWord "OF" then
      let _ ← commaSeparated identifier?
      return ["FOR UPDATE OF"]
    else return ["FOR UPDATE"]
  else return []

section

variable (parse : Descent)

def cursorTail : Parser (List String × List Node) := do
  let words ← cursorWords
  let query ← itemAfter (eatWord "FOR") (parse .query)
  let purpose ← cursorPurpose?
  return (words ++ purpose, query)

def cursorDecl : Parser Node := do
  let start ← position
  let name ← identifier
  let early ← earlyCursorWords
  let _ ← eatWord "CURSOR"
  let (options, query) ← cursorTail parse
  node (.cursorDecl name (early ++ options)) start query

def variableDecl (tableBody : Parser (List Node)) (name : String) : Parser Node := do
  let start ← position
  advance
  let _ ← eatWord "AS"
  if ← eatWord "TABLE" then
    let elements ← tableBody
    skipWithParens
    node (.tableVariableDecl name) start elements
  else
    let type ← dataType
    let value ← itemAfter (eatMark .eq) (parse .expression)
    node (.variableDecl name) start (type :: value)

/-- Items that begin with a variable, with commas between them; there may be none. -/
def perVariable (item : String → Parser Node) : Parser (List Node) :=
  loop [] fun items => do
    match (← look).variableName? with
    | none => return .done items.reverse
    | some name =>
      let items := (← item name) :: items
      if ← eatMark .comma then return .again items else return .done items.reverse

def declareStatement (tableBody : Parser (List Node)) : Parser Node := do
  let start ← position
  advance
  let v ← look
  if v.variableName?.isNone && v.isAnyWordAt 0 then
    let cursor ← cursorDecl parse
    node .declare start [cursor]
  else
    let decls ← perVariable (variableDecl parse tableBody)
    node .declare start decls

def cursorValue (target : String) : Parser Node := do
  let start ← position
  advance
  let (options, query) ← cursorTail parse
  node (.cursorDecl target options) start query

/-- The value that is assigned to a variable: a cursor or an expression. -/
def assignedValue (target : String) : Parser Node := do
  if (← look).isWord "CURSOR" then cursorValue parse target else parse .expression

def setStatement : Parser Node := do
  let start ← position
  advance
  match ← assignmentTarget? with
  | some (target, operator) =>
    let value ← assignedValue parse target
    node (.variableAssignment target operator) start [value]
  | none => settingStatement start

/-- The offset of a fetch, perhaps with a sign. -/
def fetchOffset : Parser Node := do
  let v ← look
  if v.isMark .minus || v.isMark .plus then
    let start ← position
    advance
    let operand ← primary parse
    node (.unaryOp v.display) start [operand]
  else primary parse

/-- Where a fetch goes, and its offset as a list. -/
def fetchOrientation? : Parser (Option String × List Node) := do
  if (← look).isOneOf fetchOrientations then
    let word ← takeWord
    let offset ← itemAfter (pure (word == "ABSOLUTE" || word == "RELATIVE")) (fetchOffset parse)
    return (some word, offset)
  else return (none, [])

/-- `OPEN`, `CLOSE`, `DEALLOCATE` or `FETCH`; the cursor stands on the word. -/
def cursorStatement (op : String) : Parser Node := do
  let start ← position
  advance
  if op == "FETCH" then
    let (orientation, offset) ← fetchOrientation? parse
    let _ ← eatWord "FROM"
    let _ ← eatWord "GLOBAL"
    let cursor ← identifier
    let targets ← listAfter (eatWord "INTO") (commaSeparated (primary parse))
    node (.cursorOp op cursor orientation) start (offset ++ targets)
  else
    let _ ← eatWord "GLOBAL"
    let cursor ← identifier
    leaf (.cursorOp op cursor none) start

/-! ### Control flow -/

/-- The statements up to the end of a block or of the batch. -/
def statementList : Parser (List Node) :=
  loop [] fun statements => do
    let v ← look
    if v.isMark .semicolon then
      advance
      return .again statements
    else if v.atEnd || v.atBlockEnd then return .done statements.reverse
    else return .again ((← parse .statement) :: statements)

/-- The statement here as a list, unless nothing is left. -/
def branch : Parser (List Node) := whenSees (!·.atEnd) (parse .statement)

/-- `ELSE` read if it is there; a semicolon may stand before it. -/
def eatElse : Scan Bool := do
  let _ ← eatIf fun v => v.isMark .semicolon && v.isWordAt 1 "ELSE"
  eatWord "ELSE"

def ifStatement : Parser Node := do
  let start ← position
  advance
  let condition ← parse .expression
  let yes ← branch parse
  let no ← listAfter eatElse (branch parse)
  node .ifElse start (condition :: yes ++ no)

def whileStatement : Parser Node := do
  let start ← position
  advance
  let condition ← parse .expression
  let body ← branch parse
  node .whileLoop start (condition :: body)

def blockKind : Scan BlockKind := do
  if ← eatWord "TRY" then return .tryBody
  else if ← eatWord "CATCH" then return .catchBody
  else
    if ← eatWord "ATOMIC" then
      if ← eatWord "WITH" then skipParens
    return .plain

def blockEnd (kind : BlockKind) : Scan Unit := do
  if ← eatWord "END" then
    match kind with
    | .tryBody => let _ ← eatWord "TRY"
    | .catchBody => let _ ← eatWord "CATCH"
    | .plain => pure ()

def beginStatement : Parser Node := do
  let start ← position
  let v ← look
  if v.isOneOfAt 1 ["TRAN", "TRANSACTION"] then
    advanceBy 2
    beginTransaction start "BEGIN TRANSACTION"
  else if v.isWordAt 1 "DISTRIBUTED" then
    advanceBy 2
    let _ ← eatWord "TRAN"
    let _ ← eatWord "TRANSACTION"
    beginTransaction start "BEGIN DISTRIBUTED TRANSACTION"
  else if v.isOneOfAt 1 ["DIALOG", "CONVERSATION"] then otherStatement
  else
    advance
    let kind ← blockKind
    let statements ← statementList parse
    blockEnd kind
    node (.block kind) start statements

def returnStatement : Parser Node := do
  let start ← position
  advance
  let value ← whenSees (!·.atStatementEnd) (parse .expression)
  node .returnValue start value

def returnQuery : Parser Node := do
  let start ← position
  advance
  let query ← whenSees (fun v => v.startsQueryAt 0 || v.isMark .lparen) (parse .query)
  node .returnValue start query

/-- The word for a timeout after a comma, read as far as it is there. -/
def eatTimeout : Scan Bool := do
  if ← eatMark .comma then eatWord "TIMEOUT" else return false

def waitForStatement : Parser Node := do
  let start ← position
  advance
  let v ← look
  if v.isMark .lparen then
    let kind := ((v.word? 1).map Text.upper).getD ""
    skipParens
    let timeout ← itemAfter eatTimeout (primary parse)
    node (.waitFor kind) start timeout
  else
    let kind ← takeWord
    let time ← primary parse
    node (.waitFor kind) start [time]

def printStatement : Parser Node := do
  let start ← position
  advance
  let text ← parse .expression
  node .print start [text]

/-- The operands of a `RAISERROR` without parentheses: two at most. -/
def bareRaiserror : Parser (List Node) := do
  let number ← whenSees (!·.atStatementEnd) (primary parse)
  let text ← whenSees (fun v => !number.isEmpty && !v.atStatementEnd) (primary parse)
  return number ++ text

def wordList : Scan (List String) :=
  loop [] fun words => do
    match ← takeWord? with
    | none => return .done words
    | some word =>
      if ← eatMark .comma then return .again (words ++ [word]) else return .done (words ++ [word])

def raiserrorOptions : Scan (List String) := do
  if ← eatWord "WITH" then wordList else return []

/-- `RAISERROR` with operands in parentheses, or without in the old form. -/
def raiserrorStatement : Parser Node := do
  let start ← position
  advance
  if (← look).isMark .lparen then
    let operands ← parenList parse
    let options ← raiserrorOptions
    node (.raiserror options) start operands
  else
    let operands ← bareRaiserror parse
    let options ← raiserrorOptions
    node (.raiserror ("LEGACY SYNTAX" :: options)) start operands

def throwStatement : Parser Node := do
  let start ← position
  advance
  let operands ← listAfter (sees (!·.atStatementEnd)) (commaSeparated (parse .expression))
  node .throw start operands

end

end Portability.Parser
