import Portability.Survey.Scope

/-! Reports on definitions of tables, views, routines, triggers, indexes and types. -/
namespace Portability.Survey

def options (topic : Topic) (names : List String) (line : Nat) : List Report :=
  names.map fun name => .item topic name "" line

def verb (v : Verb) (object name : String) (line : Nat) : List Report :=
  Report.onlyIf (v != .create) (.item .objectDefinitions (v.text ++ " " ++ object) name line)

def createTable (s : Scope) (w : Walk) (n : Node) (raw : String) : List Report :=
  let name := Name.resolve raw
  let item :=
    if name.isGlobalTemporary then "CREATE TABLE ##tmp"
    else if name.isTemporary then "CREATE TABLE #tmp"
    else "CREATE TABLE"
  s.nameReports w raw n.line ++ [.item .createTable item raw n.line]

/-- The number of elements that the actions of an `ALTER TABLE` have together; an action without
elements counts as one. -/
def elementCount (n : Node) : Nat :=
  n.children.foldr (fun action count => max action.children.length 1 + count) 0

def alterTable (s : Scope) (w : Walk) (n : Node) (raw : String) : List Report :=
  let count := elementCount n
  s.nameReports w raw n.line ++
    Report.onlyIf (1 < count)
      (.itemAs .alterTable "Multiple actions" (toString count ++ " actions combined") raw n.line)

def after? (lead text : String) : Option String :=
  if lead.toList.isPrefixOf text.toList then some (String.ofList (text.toList.drop lead.length))
  else none

/-- An action of an `ALTER TABLE` without the words on checking before it, and these words. -/
def splitCheck (action : String) : Option String × String :=
  match after? "WITH CHECK " action with
  | some rest => (some "WITH CHECK", rest)
  | none =>
    match after? "WITH NOCHECK " action with
    | some rest => (some "WITH NOCHECK", rest)
    | none => (none, action)

def alterTableAction (n : Node) (action : String) : List Report :=
  let (check, bare) := splitCheck action
  Report.onlyIf (!bare.isEmpty) (.item .alterTable bare "" n.line) ++
    (check.map fun words => Report.item .alterTable words bare n.line).toList

def columnDef (s : Scope) (n : Node) (raw : String) : List Report :=
  let column := (Name.resolve raw).object
  s.lengthReports column n.line ++
    Report.onlyIf (s.limits.isSpecial column) (.item .identifiers "Special column name" raw n.line)

def dataType (s : Scope) (w : Walk) (n : Node) (raw : String) (args : Option String) :
    List Report :=
  let detail := s.text n
  match s.symbols.typeBase? (s.key raw) with
  | some base =>
    let item := if base = "TABLE" then "Table type" else "Alias type"
    [.item .userDefinedDatatypes item detail n.line]
  | none =>
    let isSystem := match (Name.resolve raw).schema? with
      | some schema => Text.same schema "sys"
      | none => true
    let base := Category.baseTypeName raw
    let unlimited := base ++ "(MAX)"
    if isSystem && args == some "MAX" && s.knows .datatypes unlimited then
      [.item .datatypes unlimited detail n.line]
    else if isSystem && s.knows .datatypes base then [.item .datatypes base detail n.line]
    else s.nameReports w raw n.line ++ [.item .userDefinedDatatypes "Alias type" detail n.line]

def columnAttribute (n : Node) (text : String) : List Report :=
  Report.onlyIf (text != "NULL" && text != "NOT NULL") (.item .columnAttributes text "" n.line)

def computedColumn (s : Scope) (n : Node) (persisted : Bool) : List Report :=
  let item := if persisted then "Persisted computed column" else "Computed column"
  [.item .computedColumns item (s.text n) n.line]

def constraintOwner? : Kind → Option String
  | .tableVariableDecl _ => some "table variable"
  | .createType .. => some "table type"
  | .alterTable _ => some "ALTER TABLE"
  | .returnTable _ => some "table-valued function"
  | .createTable _ => some "CREATE TABLE"
  | _ => none

def constraintOwner (site : Site) : String :=
  (site.ancestors.findSome? (constraintOwner? ·.kind)).getD "CREATE TABLE"

def constraint (s : Scope) (site : Site) (name : Option String) (kind : ConstraintKind)
    (clustered : Option Bool) (names : List String) : List Report :=
  let line := site.node.line
  let option := fun name => Report.item .constraintOptions name kind.text line
  (match name with
    | some name => s.lengthReports name line
    | none => []) ++
    [.item .constraints (kind.text ++ " in " ++ constraintOwner site) (name.getD "") line] ++
    (clustered.map fun c => option (if c then "CLUSTERED" else "NONCLUSTERED")).toList ++
    names.map option

def createView (s : Scope) (w : Walk) (n : Node) (raw : String) (v : Verb) (names : List String)
    (checkOption : Bool) : List Report :=
  s.nameReports w raw n.line ++ [.item .views "CREATE VIEW" raw n.line] ++
    verb v "VIEW" raw n.line ++ options .viewOptions names n.line ++
    Report.onlyIf checkOption (.item .views "WITH CHECK OPTION" raw n.line)

def createProcedure (s : Scope) (w : Walk) (n : Node) (raw : String) (v : Verb)
    (names : List String) (number : Option Nat) : List Report :=
  s.nameReports w raw n.line ++ [.item .procedures "CREATE PROCEDURE" raw n.line] ++
    (number.map fun k =>
      Report.item .procedures "Numbered procedure" (raw ++ ";" ++ toString k) n.line).toList ++
    verb v "PROCEDURE" raw n.line ++ options .procedureOptions names n.line

def hasTableType (s : Scope) (n : Node) : Bool :=
  match (n.child? fun | .dataType .. => true | _ => false).map Node.kind with
  | some (.dataType name _) => s.symbols.typeBase? (s.key name) == some "TABLE"
  | _ => false

def parameter (s : Scope) (n : Node) (name : String) (output readonly hasDefault : Bool) :
    List Report :=
  s.lengthReports name n.line ++
    Report.onlyIf output (.item .parameters "OUTPUT parameter" name n.line) ++
    Report.onlyIf (readonly || hasTableType s n)
      (.item .parameters "Table-valued parameter" name n.line) ++
    Report.onlyIf hasDefault (.item .parameters "Parameter default" name n.line)

def functionItem : FunctionKind → String
  | .scalar => "Scalar function"
  | .inlineTable => "Inline table-valued function"
  | .multiStatementTable => "Multi-statement table-valued function"
  | .external => "CLR function"

def createFunction (s : Scope) (w : Walk) (n : Node) (raw : String) (v : Verb)
    (kind : FunctionKind) (names : List String) : List Report :=
  s.nameReports w raw n.line ++ [.item .functions (functionItem kind) raw n.line] ++
    verb v "FUNCTION" raw n.line ++ options .functionOptions names n.line

def triggerScope (s : Scope) (w : Walk) (raw watched : String) (scope : TriggerScope)
    (timing : String) (events : List String) (line : Nat) : List Report :=
  let detail := raw ++ " ON " ++ watched
  match scope with
  | .table =>
    let item := if Text.same timing "INSTEAD OF" then "INSTEAD OF trigger" else "AFTER trigger"
    s.nameReports w watched line ++ [.item .triggers item detail line] ++
      Report.onlyIf (1 < events.length)
        (.item .triggers "Multi-event trigger" (String.intercalate ", " events) line)
  | .database => [.item .triggers "DDL trigger (database)" detail line]
  | .allServer =>
    let isLogon := events.any (Text.same · "LOGON")
    let item := if isLogon then "Logon trigger" else "DDL trigger (server)"
    [.item .triggers item detail line]

def createTrigger (s : Scope) (w : Walk) (n : Node) (raw : String) (v : Verb) (watched : String)
    (scope : TriggerScope) (timing : String) (events names : List String) : List Report :=
  s.nameReports w raw n.line ++ triggerScope s w raw watched scope timing events n.line ++
    verb v "TRIGGER" raw n.line ++ options .triggerOptions names n.line

def indexItem (isColumnstore isClustered : Bool) : String :=
  match isColumnstore, isClustered with
  | true, true => "Clustered columnstore index"
  | true, false => "Nonclustered columnstore index"
  | false, true => "Clustered index"
  | false, false => "Index"

def createIndex (s : Scope) (w : Walk) (n : Node) (name table : String) (unique : Bool)
    (clustered : Option Bool) (kind : Option String) (included filtered : Bool)
    (names : List String) : List Report :=
  let report := fun item => Report.item .indexes item (name ++ " ON " ++ table) n.line
  s.lengthReports name n.line ++ s.nameReports w table n.line ++
    [report (indexItem (kind == some "COLUMNSTORE") (clustered == some true))] ++
    Report.onlyIf unique (report "Unique index") ++
    Report.onlyIf included (report "Included columns") ++
    Report.onlyIf filtered (report "Filtered index") ++
    options .indexOptions names n.line

def createType (s : Scope) (w : Walk) (n : Node) (raw : String) (base : Option String)
    (isTable : Bool) : List Report :=
  let item := if isTable then "CREATE TYPE table" else "CREATE TYPE alias"
  let detail := match base with
    | some base => raw ++ " FROM " ++ base
    | none => raw
  s.nameReports w raw n.line ++ [.item .userDefinedDatatypes item detail n.line]

def createOther (s : Scope) (w : Walk) (n : Node) (objectKind raw : String) : List Report :=
  (if raw.isEmpty then [] else s.nameReports w raw n.line) ++
    [.item .otherDefinitions objectKind raw n.line]

def drop (s : Scope) (w : Walk) (n : Node) (objectKind : String) (names : List String)
    (ifExists : Bool) : List Report :=
  let detail := String.intercalate ", " names
  .item .dropObject objectKind detail n.line ::
    (Report.onlyIf ifExists (.item .dropObject "IF EXISTS" detail n.line) ++
      names.flatMap fun raw => s.nameReports w raw n.line)

end Portability.Survey
