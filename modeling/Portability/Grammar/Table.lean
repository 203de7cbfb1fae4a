import Portability.Grammar.Query

/-! Columns, constraints and options of tables. -/
namespace Portability.Parser

/-! ### Options -/

/-- The characters of a text divided at the commas outside parentheses. `part` is read backwards. -/
def splitTopLevel (depth : Int) (part : List Char) : List Char → List (List Char)
  | [] => [part.reverse]
  | c :: rest =>
    if c = ',' ∧ depth = 0 then part.reverse :: splitTopLevel 0 [] rest
    else
      let depth := if c = '(' then depth + 1 else if c = ')' then depth - 1 else depth
      splitTopLevel depth (c :: part) rest

/-- The names of the options in a list: what stands before an equals sign or a blank. -/
def optionNames (text : String) : List String :=
  (splitTopLevel 0 [] text.toList).filterMap fun part =>
    let name := (Text.trimChars part).takeWhile fun c => c ≠ '=' && !Text.isBlank c
    if name.isEmpty then none else some (Text.upper (String.ofList name))

def indexOptions : Scan (List String) :=
  loop [] fun options => do
    let v ← look
    if v.isCall "WITH" then
      advance
      let inner := (← parensText?).getD ""
      return .again (options ++ optionNames inner)
    else if ← eatWords ["WITH", "FILLFACTOR"] then
      let _ ← eatMark .eq
      advance
      return .again (options ++ ["FILLFACTOR"])
    else if v.isWord "ON" && !v.isOneOfAt 1 ["DELETE", "UPDATE"] then
      advance
      let _ ← identifier?
      skipParens
      return .again (options ++ ["ON FILEGROUP"])
    else return .done options

def tableOptions : Parser (List Node) :=
  loop [] fun options => do
    let start ← position
    let v ← look
    if v.isOneOf ["ON", "TEXTIMAGE_ON", "FILESTREAM_ON"] then
      let option ← takeWord
      let _ ← identifier?
      skipParens
      return .again (options ++ [← leaf (.tableOption option) start])
    else if v.isCall "WITH" then
      advance
      return .again (options ++ (← parenMembers (wordMember .tableOption)))
    else return .done options

/-! ### Constraints -/

def rowAction : Scan String := do
  if ← eatWords ["NO", "ACTION"] then return "NO ACTION"
  else if ← eatWords ["SET", "NULL"] then return "SET NULL"
  else if ← eatWords ["SET", "DEFAULT"] then return "SET DEFAULT"
  else takeWord

def referentialAction : Scan String := do
  advance
  let event ← takeWord
  let action ← rowAction
  return "ON " ++ event ++ " " ++ action

def wordsOption? (words : List String) : Scan (List String) := do
  if ← eatWords words then return [String.intercalate " " words] else return []

def notForReplication? : Scan (List String) := wordsOption? ["NOT", "FOR", "REPLICATION"]

def clustered? : Scan (Option Bool) := do
  if ← eatWord "CLUSTERED" then return some true
  else if ← eatWord "NONCLUSTERED" then return some false
  else return none

/-- The kind of a constraint, read. What is no other kind counts as a foreign key. -/
def constraintKind : Scan ConstraintKind := do
  if ← eatWords ["PRIMARY", "KEY"] then return .primaryKey
  else if ← eatWord "UNIQUE" then return .unique
  else if ← eatWord "CHECK" then return .check
  else if ← eatWord "DEFAULT" then return .default
  else
    let _ ← eatWords ["FOREIGN", "KEY"]
    return .foreignKey

def skipReferences : Scan Unit := do
  if ← eatWord "REFERENCES" then
    let _ ← name?
    skipColumnList

def foreignKeyOptions (tableLevel : Bool) : Scan (List String) := do
  if tableLevel then skipColumnList
  skipReferences
  let actions ← manyWhile (fun v => v.isWord "ON" && v.isOneOfAt 1 ["DELETE", "UPDATE"])
    referentialAction
  return actions ++ (← notForReplication?)

def constraintName? : Scan (Option String) := do
  if ← eatWord "CONSTRAINT" then identifier? else return none

def skipForColumn : Scan Unit := do
  if ← eatWord "FOR" then let _ ← identifier?

section

variable (parse : Descent)

/-- The condition of a check; the cursor stands after the parenthesis. -/
def checkCondition : Parser Node := do
  let e ← parse .expression
  let _ ← eatMark .rparen
  return e

def constraint (tableLevel : Bool) : Parser Node := do
  let start ← position
  let name ← constraintName?
  let kind ← constraintKind
  match kind with
  | .primaryKey | .unique =>
    let clustered ← clustered?
    let hash ← wordsOption? ["HASH"]
    skipColumnList
    let options ← indexOptions
    leaf (.constraint name kind clustered (hash ++ options)) start
  | .check =>
    let options ← notForReplication?
    let condition ← itemAfter (eatMark .lparen) (checkCondition parse)
    node (.constraint name kind none options) start condition
  | .default =>
    let value ← parse .expression
    skipForColumn
    let options ← wordsOption? ["WITH", "VALUES"]
    node (.constraint name kind none options) start [value]
  | .foreignKey =>
    let options ← foreignKeyOptions tableLevel
    leaf (.constraint name kind none options) start

/-! ### Columns -/

/-- A column attribute by its words, read; nothing if the token is no word, which is read too. -/
def columnAttribute? : Scan (Option String) := do
  let v ← look
  if ← eatWords ["NOT", "NULL"] then return some "NOT NULL"
  else if ← eatWords ["NOT", "FOR", "REPLICATION"] then return some "NOT FOR REPLICATION"
  else if ← eatWord "NULL" then return some "NULL"
  else if ← eatWord "IDENTITY" then
    skipParens
    return some "IDENTITY"
  else if v.isWords ["GENERATED", "ALWAYS"] then
    skipPlainUntil fun v =>
      v.isMark .comma || v.isMark .rparen || v.isOneOf ["HIDDEN", "NOT", "NULL", "CONSTRAINT"]
    return some "GENERATED ALWAYS"
  else if v.isOneOf ["MASKED", "ENCRYPTED"] then
    let word ← takeWord
    if ← eatWord "WITH" then skipParens
    return some word
  else if ← eatWord "INDEX" then
    let _ ← identifier?
    let _ ← eatWord "CLUSTERED"
    let _ ← eatWord "NONCLUSTERED"
    return some "INDEX"
  else
    match ← takeWord? with
    | some word => return some word
    | none =>
      advance
      return none

def columnConstraintWords : List String :=
  ["CONSTRAINT", "DEFAULT", "PRIMARY", "UNIQUE", "CHECK", "REFERENCES", "FOREIGN"]

/-- One more attribute, collation or constraint of a column, unless the column ends here. -/
def columnPart (parts : List Node) : Parser (Round (List Node) (List Node)) := do
  let start ← position
  let v ← look
  if v.isMark .comma || v.isMark .rparen || v.atStatementEnd then return .done parts
  else if ← eatWord "COLLATE" then
    let collation ← identifier
    return .again (parts ++ [← leaf (.collate collation) start])
  else if v.isOneOf columnConstraintWords then
    return .again (parts ++ [← constraint parse false])
  else
    match ← columnAttribute? with
    | some text => return .again (parts ++ [← leaf (.columnAttribute text) start])
    | none => return .again parts

def columnAttributes : Parser (List Node) := loop [] (columnPart parse)

def computedColumn : Parser Node := do
  let start ← position
  let e ← parse .expression
  let persisted ← eatWord "PERSISTED"
  node (.computedColumn persisted) start [e]

/-- The type of a column or the expression that computes it, as a list. -/
def columnType : Parser (List Node) := do
  if ← eatWord "AS" then return [← computedColumn parse]
  else
    whenSees
      (fun v => v.isAnyWordAt 0 && !v.isOneOf ["NULL", "NOT", "CONSTRAINT", "DEFAULT", "COLLATE"])
      dataType

def columnDef : Parser Node := do
  let start ← position
  let name ← identifier
  let typed ← columnType parse
  let attributes ← columnAttributes parse
  node (.columnDef name) start (typed ++ attributes)

def period : Parser Node := do
  let start ← position
  skipMember
  leaf (.tableOption "PERIOD FOR SYSTEM_TIME") start

def tableElement : Parser Node := do
  let start ← position
  let v ← look
  if v.isOneOf ["CONSTRAINT", "PRIMARY", "UNIQUE", "FOREIGN", "CHECK"] then constraint parse true
  else if ← eatWord "INDEX" then
    let _ ← identifier?
    skipMember
    leaf (.tableOption "INDEX") start
  else if v.isWords ["PERIOD", "FOR"] then period
  else columnDef parse

def tableElements : Parser (List Node) := do
  if ← eatMark .lparen then
    let elements ← loop [] fun elements => do
      let v ← look
      if v.atEnd || v.isMark .rparen then return .done elements.reverse
      else
        let before ← position
        let elements := (← tableElement parse) :: elements
        separate before
        return .again elements
    let _ ← eatMark .rparen
    return elements
  else return []

end

end Portability.Parser
