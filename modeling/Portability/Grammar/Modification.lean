import Portability.Grammar.Query

/-! Statements that change data, and the execution of procedures. -/
namespace Portability.Parser

/-- Functions whose call may stand in place of a table. -/
def rowsetFunctions : List String := ["OPENQUERY", "OPENROWSET", "OPENDATASOURCE", "OPENXML"]

/-- The group in parentheses here appended to a name as it is written. -/
def withArguments (name : String) : Scan String := do
  let start ← position
  skipParens
  return name ++ (← textFrom start)

/-- The table that a statement changes, perhaps the call of a rowset function. -/
def changeTarget : Scan String := do
  let name ← name
  let v ← look
  if v.isMark .lparen && !v.isWordAt 1 "SELECT" then withArguments name else return name

def defaultValues : Parser Node := do
  let start ← position
  advanceBy 2
  leaf .defaultValues start

def truncateStatement : Parser Node := do
  let start ← position
  advanceBy 2
  let table ← name
  skipWithParens
  leaf (.truncate table) start

/-- Options after `WITH` of an execution, in upper case. -/
def executeWithOptions : Scan (List String) := do
  let groups ← commaSeparated do
    if ← eatWords ["RESULT", "SETS"] then
      if (← look).isMark .lparen then skipParens else advance
      return ["RESULT SETS"]
    else return (← takeWord?).toList
  return groups.flatten

/-- What may follow an execution: options, a principal, a server. -/
def executeOptions : Scan (List String) :=
  loop [] fun options => do
    let v ← look
    if v.isWord "WITH" && v.isOneOfAt 1 ["RECOMPILE", "RESULT"] then
      advance
      return .again (options ++ (← executeWithOptions))
    else if v.isWord "AS" && v.isOneOfAt 1 ["USER", "LOGIN"] then
      advance
      let principal ← takeWord
      let _ ← eatMark .eq
      advance
      return .again (options ++ ["AS " ++ principal])
    else if ← eatWord "AT" then
      let _ ← eatWord "DATA_SOURCE"
      let _ ← identifier?
      return .again (options ++ ["AT"])
    else return .done options

def outputTarget? : Scan (Option String) := do
  if ← eatWord "INTO" then
    let target ← name?
    skipColumnList
    return target
  else return none

def argumentName? : Scan (Option String) := do
  let v ← look
  let name := if v.isMarkAt 1 .eq then v.variableName? else none
  if name.isSome then advanceBy 2
  return name

def outputMark : Scan Bool := do
  if ← eatWord "OUTPUT" then return true else eatWord "OUT"

/-- After an argument of an execution: whether another one follows. An argument that read nothing
is stepped over. -/
def argumentFollows (before : Nat) : Scan Bool := do
  if ← eatMark .comma then return true
  else
    stepPast before
    return false

def skipProcedureNumber : Scan Unit := do
  let v ← look
  match v.isMark .semicolon, v.token? 1 with
  | true, some (.number ..) => advanceBy 2
  | _, _ => return ()

/-- The table that an `INSERT` changes, perhaps the call of a rowset function. -/
def insertTarget : Scan String := do
  let table ← name
  if (← look).isMark .lparen && Text.oneOf table rowsetFunctions then withArguments table
  else return table

def skipInsertColumns : Scan Unit := do
  if !(← look).parensStartQuery then skipColumnList

section

variable (parse : Descent)

def outputClause : Parser Node := do
  let start ← position
  advance
  let items ← commaSeparated (selectItem parse)
  let target ← outputTarget?
  node (.output target) start items

def outputClauses : Parser (List Node) := manyWhile (·.isWord "OUTPUT") (outputClause parse)

/-! ### Execution -/

def executeArgument : Parser Node := do
  let start ← position
  let name ← argumentName?
  let isDefault ← eatWord "DEFAULT"
  let value ← itemAfter (pure !isDefault) (parse .expression)
  let output ← outputMark
  node (.execArg name output) start value

def executeArguments : Parser (List Node) :=
  loop [] fun args => do
    if (← look).atStatementEnd then return .done args.reverse
    else
      let before ← position
      let args := (← executeArgument parse) :: args
      if ← argumentFollows before then return .again args else return .done args.reverse

/-- The texts of a dynamic statement; the cursor stands after the opening parenthesis. -/
def dynamicTexts : Parser (List Node) := do
  let texts ← manyWhile (fun v => !v.atEnd && !v.isMark .rparen) do
    let before ← position
    let text ← parse .expression
    separate before
    return text
  let _ ← eatMark .rparen
  return texts

def resultVariable? : Parser (List Node) := do
  let v ← look
  match v.variableName? with
  | some result =>
    if v.isMarkAt 1 .eq then
      let start ← position
      advance
      let target ← leaf (.localVariable result) start
      advance
      return [target]
    else return []
  | none => return []

/-- `EXECUTE` of a procedure or of dynamic texts. `EXECUTE AS` has no shape of its own. -/
def executeStatement : Parser Node := do
  let start ← position
  if (← look).isWordAt 1 "AS" then otherStatement
  else
    advance
    if ← eatMark .lparen then
      let texts ← dynamicTexts parse
      let options ← executeOptions
      node (.execute none options) start texts
    else
      let result ← resultVariable?
      let procedure ← name?
      skipProcedureNumber
      let args ← executeArguments parse
      let options ← executeOptions
      node (.execute procedure options) start (result ++ args)

/-! ### Changes -/

def insertRows : Parser (List Node) := do
  let v ← look
  if v.isWord "VALUES" then return [← valuesClause parse]
  else if v.isWords ["DEFAULT", "VALUES"] then return [← defaultValues]
  else if v.isOneOf ["EXEC", "EXECUTE"] then return [← executeStatement parse]
  else if v.startsQueryAt 0 || v.isMark .lparen then return [← parse .query]
  else return []

def insertStatement : Parser Node := do
  let start ← position
  advance
  let top ← topClause? parse
  let _ ← eatWord "INTO"
  let target ← insertTarget
  let hints ← tableHints
  skipInsertColumns
  let outputs ← outputClauses parse
  let rows ← insertRows parse
  node (.insert target) start (top ++ hints ++ outputs ++ rows)

def columnAssignment : Parser Node := do
  let start ← position
  let column ← name
  let v ← look
  if v.isMark .lparen then
    rewind start
    let call ← parse .expression
    node (.columnAssignment column "METHOD") start [call]
  else
    let (operator, width) := (assignment? v 0).getD ("=", 0)
    advanceBy width
    let value ← parse .expression
    node (.columnAssignment column operator) start [value]

/-- The value of a variable in a `SET` list; it may set a column too. -/
def memberValue : Parser Node := do
  let v ← look
  if v.isPlainName && v.isMarkAt 1 .eq then columnAssignment parse else parse .expression

/-- One member of a `SET` list: a variable or a column that is set. -/
def setMember : Parser Node := do
  let start ← position
  match ← assignmentTarget? with
  | some (target, operator) =>
    let value ← memberValue parse
    node (.variableAssignment target operator) start [value]
  | none => columnAssignment parse

def updateStatement : Parser Node := do
  let start ← position
  advance
  let top ← topClause? parse
  let target ← changeTarget
  let hints ← tableHints
  let changes ← listAfter (eatWord "SET") (commaSeparated (setMember parse))
  let outputs ← outputClauses parse
  let sources ← fromClause? parse
  let condition ← whereClause? parse
  let options ← optionClause?
  node (.update target) start
    (top ++ hints ++ changes ++ outputs ++ sources ++ condition ++ options)

def deleteStatement : Parser Node := do
  let start ← position
  advance
  let top ← topClause? parse
  let _ ← eatWord "FROM"
  let target ← changeTarget
  let hints ← tableHints
  let outputs ← outputClauses parse
  let sources ← fromClause? parse
  let condition ← whereClause? parse
  let options ← optionClause?
  node (.delete target) start (top ++ hints ++ outputs ++ sources ++ condition ++ options)

/-- The words of a `WHEN` clause up to `THEN`, and the conditions between them. -/
def whenWords : Parser (List String × List Node) :=
  loop ([], []) fun (words, conditions) => do
    match ← takeWord? with
    | none => return .done (words, conditions)
    | some word =>
      let words := words ++ [word]
      let conditions := conditions ++ (← itemAfter (eatWord "AND") (parse .expression))
      if word == "THEN" then return .done (words, conditions) else return .again (words, conditions)

def mergeRows : Parser (List Node) := do
  skipColumnList
  let v ← look
  if v.isWord "VALUES" then return [← valuesClause parse]
  else if v.isWords ["DEFAULT", "VALUES"] then return [← defaultValues]
  else return []

/-- What a `WHEN` clause of a `MERGE` does: the word for it and its parts. -/
def mergeChange : Parser (List String × List Node) := do
  if ← eatWord "UPDATE" then
    let _ ← eatWord "SET"
    return (["UPDATE"], ← commaSeparated (setMember parse))
  else if ← eatWord "DELETE" then return (["DELETE"], [])
  else if ← eatWord "INSERT" then return (["INSERT"], ← mergeRows parse)
  else return ([], [])

def mergeAction : Parser Node := do
  let start ← position
  let (words, conditions) ← whenWords parse
  let (action, parts) ← mergeChange parse
  node (.mergeAction (String.intercalate " " (words ++ action))) start (conditions ++ parts)

def mergeStatement : Parser Node := do
  let start ← position
  advance
  let top ← topClause? parse
  let _ ← eatWord "INTO"
  let target ← name
  let hints ← tableHints
  let _ ← tableAlias?
  let source ← itemAfter (eatWord "USING") (parse .tableSource)
  let condition ← itemAfter (eatWord "ON") (parse .expression)
  let actions ← manyWhile (·.isWord "WHEN") (mergeAction parse)
  let outputs ← outputClauses parse
  let options ← optionClause?
  node (.merge target) start
    (top ++ hints ++ source ++ condition ++ actions ++ outputs ++ options)

end

end Portability.Parser
