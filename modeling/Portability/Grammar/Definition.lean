import Portability.Grammar.Routine
import Portability.Grammar.Table
import Portability.Text.Numeric

/-! Statements that define, change and drop objects. -/
namespace Portability.Parser

/-- Words that may follow another one in the kind of an object, as in `PARTITION FUNCTION`. -/
def kindContinuation : String → List String
  | "PARTITION" => ["FUNCTION", "SCHEME"]
  | "FULLTEXT" => ["INDEX", "CATALOG", "STOPLIST"]
  | "XML" => ["SCHEMA", "INDEX"]
  | "SCHEMA" => ["COLLECTION"]
  | "MESSAGE" => ["TYPE"]
  | "EVENT" => ["NOTIFICATION", "SESSION"]
  | "MASTER" | "SYMMETRIC" | "ASYMMETRIC" | "ENCRYPTION" => ["KEY"]
  | "APPLICATION" => ["ROLE"]
  | "SERVER" => ["ROLE", "AUDIT"]
  | "AUDIT" => ["SPECIFICATION"]
  | "DATABASE" => ["AUDIT", "ENCRYPTION", "SCOPED"]
  | "SCOPED" => ["CREDENTIAL", "CONFIGURATION"]
  | "EXTERNAL" => ["TABLE", "DATA", "FILE", "RESOURCE", "LIBRARY"]
  | "DATA" => ["SOURCE"]
  | "FILE" => ["FORMAT"]
  | "SECURITY" => ["POLICY"]
  | "PRIMARY" | "SELECTIVE" => ["XML"]
  | "SPATIAL" => ["INDEX"]
  | "REMOTE" => ["SERVICE"]
  | "SERVICE" => ["BINDING"]
  | "RESOURCE" => ["POOL"]
  | "WORKLOAD" => ["GROUP"]
  | "COLUMN" => ["MASTER", "ENCRYPTION"]
  | "SEARCH" => ["PROPERTY"]
  | "PROPERTY" => ["LIST"]
  | "BROKER" => ["PRIORITY"]
  | _ => []

def objectKind : Scan String := do
  match ← takeWord? with
  | none => return ""
  | some first =>
    let more ← loop (first, []) fun (last, words) => do
      let v ← look
      if v.isOneOf (kindContinuation last) then
        let word ← takeWord
        return .again (word, words ++ [word])
      else return .done words
    return if first == "PROC" then "PROCEDURE" else String.intercalate " " (first :: more)

def skipDropOwner : Scan Unit := do
  if ← eatWord "ON" then
    if !(← eatWords ["ALL", "SERVER"]) then let _ ← name?
    skipWithParens

def dropNames : Scan (List String) :=
  loop [] fun names => do
    match ← name? with
    | none => return .done names
    | some found =>
      skipDropOwner
      if ← eatMark .comma then return .again (names ++ [found])
      else return .done (names ++ [found])

def dropStatement : Parser Node := do
  let start ← position
  advance
  let kind ← objectKind
  let ifExists ← eatWords ["IF", "EXISTS"]
  let names ← dropNames
  leaf (.drop kind names ifExists) start

def triggerScope : Scan (TriggerScope × String) := do
  if ← eatWords ["ALL", "SERVER"] then return (.allServer, "ALL SERVER")
  else if ← eatWord "DATABASE" then return (.database, "DATABASE")
  else return (.table, ← name)

def triggerTiming : Scan String := do
  if ← eatWords ["INSTEAD", "OF"] then return "INSTEAD OF" else takeWord

def triggerEvents : Scan (List String) :=
  loop [] fun events => do
    if (← look).isOneOf ["AS", "WITH", "NOT"] then return .done events
    else
      match ← takeWord? with
      | none => return .done events
      | some event =>
        if ← eatMark .comma then return .again (events ++ [event])
        else return .done (events ++ [event])

def externalName : Scan Bool := do
  if ← eatWords ["EXTERNAL", "NAME"] then
    let _ ← name?
    return true
  else return false

/-- The number of a numbered procedure, modulo the size of a 32-bit word. -/
def procedureNumber? : Scan (Option Nat) := do
  if ← eatMark .semicolon then
    match (← look).token? 0 with
    | some (.number digits _) =>
      match Text.parseNat? Text.maxWord64 digits with
      | some n =>
        advance
        return some (n % (Text.maxWord32 + 1))
      | none => return none
    | _ => return none
  else return none

/-- The names that `ALTER TABLE … DROP` drops, which are not kept. -/
def droppedNames : Scan Unit :=
  loop () fun _ => do
    let _ ← identifier?
    skipWithParens
    let v ← look
    if v.isMark .comma && !v.isOneOfAt 1 ["COLUMN", "CONSTRAINT"] && v.isAnyWordAt 1 then
      advance
      return .again ()
    else return .done ()

/-- The kind of what `ALTER TABLE … DROP` drops; a period has no names. -/
def droppedKind : Scan String := do
  if ← eatWord "COLUMN" then return "COLUMN"
  else if ← eatWord "CONSTRAINT" then return "CONSTRAINT"
  else if ← eatWord "PERIOD" then
    skipMember
    return "PERIOD"
  else return "CONSTRAINT"

def droppedElement : Scan String := do
  let target ← droppedKind
  let _ ← eatWords ["IF", "EXISTS"]
  droppedNames
  return "DROP " ++ target

/-- An action on constraints or triggers by name: two words and the names. -/
def switchNames : Scan String := do
  let word ← takeWord
  let object ← takeWord
  let _ ← commaSeparated identifier?
  return word ++ " " ++ object

/-- An action of `ALTER TABLE` without a shape of its own. -/
def otherAction (start : Nat) : Scan String := do
  let word ← takeWord
  let action := match (← look).word? 0 with
    | some next =>
      if word == "ENABLE" || word == "DISABLE" then word ++ " " ++ Text.upper next else word
    | none => word
  skipStatement start
  return action

/-- Whether existing rows are checked, with a blank after the words. -/
def checkWords : Scan String := do
  if ← eatIf fun v => v.isWord "WITH" && v.isOneOfAt 1 ["CHECK", "NOCHECK"] then
    return "WITH " ++ (← takeWord) ++ " "
  else return ""

def indexKind? : Scan (Option String) := do
  if ← eatWord "COLUMNSTORE" then return some "COLUMNSTORE" else return none

def includedColumns : Scan Bool := do
  if ← eatWord "INCLUDE" then
    skipColumnList
    return true
  else return false

section

variable (parse : Descent)

/-! ### Tables, types and indexes -/

/-- `CREATE TABLE`; the cursor stands on `TABLE`. -/
def createTable (start : Nat) : Parser Node := do
  advance
  let name ← name
  let elements ← tableElements parse
  let options ← tableOptions
  node (.createTable name) start (elements ++ options)

def addedElement : Parser Node := do
  let v ← look
  if v.isOneOf ["CONSTRAINT", "PRIMARY", "UNIQUE", "FOREIGN", "CHECK", "DEFAULT"] then
    constraint parse true
  else if v.isWords ["PERIOD", "FOR"] then period
  else columnDef parse

def addedElements : Parser (List Node) :=
  loop [] fun parts => do
    let parts := parts ++ [← addedElement parse]
    if ← eatIf fun v => v.isMark .comma && !v.isOneOfAt 1 ["ADD", "DROP", "ALTER"] then
      return .again parts
    else return .done parts

def tableAction (start : Nat) : Parser (String × List Node) := do
  let v ← look
  if ← eatWord "ADD" then return ("ADD", ← addedElements parse)
  else if ← eatWords ["ALTER", "COLUMN"] then return ("ALTER COLUMN", [← columnDef parse])
  else if ← eatWord "DROP" then return (← droppedElement, [])
  else if v.isOneOf ["CHECK", "NOCHECK"] && v.isWordAt 1 "CONSTRAINT" then
    return (← switchNames, [])
  else if v.isOneOf ["ENABLE", "DISABLE"] && v.isWordAt 1 "TRIGGER" then
    return (← switchNames, [])
  else return (← otherAction start, [])

/-- One action of `ALTER TABLE`, perhaps with a check before it. -/
def alterTableAction : Parser Node := do
  let start ← position
  let checked ← checkWords
  let (action, parts) ← tableAction parse start
  node (.alterTableAction (checked ++ action)) start parts

/-- `ALTER TABLE`; the cursor stands on `TABLE`. -/
def alterTable (start : Nat) : Parser Node := do
  advance
  let table ← name
  let action ← whenSees (fun v => !v.atEnd && !v.isMark .semicolon) (alterTableAction parse)
  node (.alterTable table) start action

/-- `CREATE INDEX`; the cursor stands after `CREATE`. -/
def createIndex (start : Nat) : Parser Node := do
  let unique ← eatWord "UNIQUE"
  let clustered ← clustered?
  let kind ← indexKind?
  let _ ← eatWord "INDEX"
  let name ← identifier
  let _ ← eatWord "ON"
  let table ← Parser.name
  skipColumnList
  let included ← includedColumns
  let filter ← whereClause? parse
  let options ← indexOptions
  node (.createIndex name table unique clustered kind included (!filter.isEmpty) options) start
    filter

def typeName? : Kind → Option String
  | .dataType name _ => some name
  | _ => none

/-- `CREATE TYPE`; the cursor stands on `TYPE`. -/
def createType (start : Nat) : Parser Node := do
  advance
  let name ← name
  if ← eatWord "FROM" then
    let base ← dataType
    let _ ← eatWords ["NOT", "NULL"]
    let _ ← eatWord "NULL"
    node (.createType name (typeName? base.kind) false) start [base]
  else if ← eatWords ["AS", "TABLE"] then
    let elements ← tableElements parse
    skipWithParens
    node (.createType name none true) start elements
  else
    let _ ← externalName
    leaf (.createType name none false) start

/-! ### Views and routines -/

/-- `CREATE VIEW`; the cursor stands on `VIEW`. -/
def createView (start : Nat) (verb : Verb) : Parser Node := do
  advance
  let name ← name
  skipColumnList
  let options ← routineOptions
  let _ ← eatWord "AS"
  let query ← parse .query
  let checkOption ← eatWords ["WITH", "CHECK", "OPTION"]
  node (.createView name verb options checkOption) start [query]

/-- How a parameter may be used: for output, or only read. -/
def parameterModes : Scan (Bool × Bool) :=
  loop (false, false) fun (output, readonly) => do
    if ← eatIf (·.isOneOf ["OUTPUT", "OUT"]) then return .again (true, readonly)
    else if ← eatWord "READONLY" then return .again (output, true)
    else return .done (output, readonly)

def parameter (name : String) : Parser Node := do
  let start ← position
  advance
  let _ ← eatWord "AS"
  let type ← dataType
  let _ ← eatWord "NULL"
  let _ ← eatWords ["NOT", "NULL"]
  let value ← itemAfter (eatMark .eq) (parse .expression)
  let (output, readonly) ← parameterModes
  node (.parameter name output readonly (!value.isEmpty)) start (type :: value)

/-- The parameters of a routine, with or without parentheses around them. -/
def parameters : Parser (List Node) := do
  let enclosed ← eatMark .lparen
  let params ← perVariable (parameter parse)
  let _ ← eatIf fun v => enclosed && v.isMark .rparen
  return params

/-- `CREATE PROCEDURE`; the cursor stands on the word. -/
def createProcedure (start : Nat) (verb : Verb) : Parser Node := do
  advance
  let name ← name
  let number ← procedureNumber?
  let params ← parameters parse
  let options ← routineOptions
  let replication ← wordsOption? ["FOR", "REPLICATION"]
  let _ ← eatWord "AS"
  if ← externalName then
    node (.createProcedure name verb (options ++ replication ++ ["EXTERNAL NAME"]) number) start
      params
  else
    let body ← statementList parse
    node (.createProcedure name verb (options ++ replication) number) start (params ++ body)

/-- What a function returns: its kind and the node for it, as a list. -/
def functionResult : Parser (FunctionKind × List Node) := do
  if ← eatWord "RETURNS" then
    match (← look).variableName? with
    | some result =>
      let start ← position
      advance
      let _ ← eatWord "TABLE"
      let columns ← tableElements parse
      return (.multiStatementTable, [← node (.returnTable result) start columns])
    | none =>
      if ← eatWord "TABLE" then return (.inlineTable, [])
      else return (.scalar, [← dataType])
  else return (.scalar, [])

/-- The body of an inline function: a query, perhaps after `RETURN`. -/
def inlineBody : Parser (List Node) := do
  let v ← look
  if v.isWord "RETURN" then return [← returnQuery parse]
  else if v.isMark .lparen || v.startsQueryAt 0 then return [← parse .query]
  else return []

def functionBody (kind : FunctionKind) : Parser (List Node) :=
  if kind = .inlineTable then inlineBody parse else statementList parse

/-- `CREATE FUNCTION`; the cursor stands on the word. -/
def createFunction (start : Nat) (verb : Verb) : Parser Node := do
  advance
  let name ← name
  let params ← parameters parse
  let (kind, result) ← functionResult parse
  let options ← routineOptions
  let _ ← eatWord "AS"
  if ← externalName then
    node (.createFunction name verb .external options) start (params ++ result)
  else
    let body ← functionBody parse kind
    node (.createFunction name verb kind options) start (params ++ result ++ body)

/-- `CREATE TRIGGER`; the cursor stands on the word. -/
def createTrigger (start : Nat) (verb : Verb) : Parser Node := do
  advance
  let name ← name
  let _ ← eatWord "ON"
  let (scope, target) ← triggerScope
  let options ← routineOptions
  let timing ← triggerTiming
  let events ← triggerEvents
  let append ← wordsOption? ["WITH", "APPEND"]
  let replication ← notForReplication?
  let options := options ++ append ++ replication
  let _ ← eatWord "AS"
  if ← externalName then
    leaf (.createTrigger name verb target scope timing events (options ++ ["EXTERNAL NAME"])) start
  else
    let body ← statementList parse
    node (.createTrigger name verb target scope timing events options) start body

/-- An object of another kind; the cursor stands on the kind. -/
def createOther (start : Nat) : Parser Node := do
  let kind ← objectKind
  let name ← name
  skipStatement start
  leaf (.createOther kind name) start

def definitionVerb : Scan Verb := do
  if ← eatWords ["CREATE", "OR", "ALTER"] then return .createOrAlter
  else if ← eatWord "ALTER" then return .alter
  else
    advance
    return .create

/-- `CREATE`, `ALTER` or `CREATE OR ALTER` of anything. -/
def definitionStatement : Parser Node := do
  let start ← position
  let verb ← definitionVerb
  match verb, (← look).keyword? with
  | .create, some "TABLE" => createTable parse start
  | .alter, some "TABLE" => alterTable parse start
  | _, some "VIEW" => createView parse start verb
  | _, some "PROC" | _, some "PROCEDURE" => createProcedure parse start verb
  | _, some "FUNCTION" => createFunction parse start verb
  | _, some "TRIGGER" => createTrigger parse start verb
  | .create, some "TYPE" => createType parse start
  | .create, some "INDEX" | .create, some "UNIQUE" | .create, some "CLUSTERED"
  | .create, some "NONCLUSTERED" | .create, some "COLUMNSTORE" => createIndex parse start
  | .create, _ => createOther start
  | _, _ => do
    rewind start
    otherStatement

end

end Portability.Parser
