import Portability.Survey.Modification

/-! Reports on declarations, session options, control flow, transactions and calls. -/
namespace Portability.Survey

/-- Reports on a variable that is declared. The parts are the type and perhaps a first value. -/
def variableDecl (s : Scope) (n : Node) (name : String) : List Report :=
  s.lengthReports name n.line ++
    match n.children[1]? with
    | some value =>
      .item .localVariables "DECLARE with initializer" name n.line ::
        dateTimeAssignment s name value n.line
    | none => []

def tableVariableDecl (s : Scope) (n : Node) (name : String) : List Report :=
  s.lengthReports name n.line ++ [.item .localVariables "Table variable" name n.line]

def cursorDecl (site : Site) (names : List String) : List Report :=
  let item := match site.parentKind? with
    | some (.variableAssignment ..) => "Cursor variable"
    | _ => "DECLARE CURSOR"
  .item .cursors item "" site.node.line ::
    names.map fun name => .item .cursorOptions name "" site.node.line

def optionValue? (value : String) : Option String :=
  if value.isEmpty || value.toList.head? == some '@' then none else some value

def sessionOption (s : Scope) (value : String) (line : Nat) (option : String) : Report :=
  if s.matrix.hasArgumentRule Topic.setOptions.name option 1 then
    let constant := optionValue? value
    { question := .argument Topic.setOptions.name option 1 constant
      display := match constant with
        | some v => option ++ " " ++ v
        | none => option
      detail := value
      line }
  else .item .setOptions option value line

def setOption (s : Scope) (site : Site) (names : List String) (value : String) : List Report :=
  let line := site.node.line
  names.map (sessionOption s value line) ++
    Report.onlyIf (1 < names.length)
      (.itemAs .setOptions "Multiple options" (toString names.length ++ " options combined")
        (String.intercalate ", " names) line) ++
    Report.onlyIf
      (site.kind.quotedIdentifier?.isSome && !site.isInRoutine && !s.tree.endsWithOptions site)
      (.item .quotedIdentifier "Effective next batch" value line)

/-- Reports on a `RETURN`; that of a function goes without saying. -/
def returnValue (s : Scope) (site : Site) : List Report :=
  let line := site.node.line
  if site.isInside fun | .createFunction .. => true | _ => false then []
  else
    match site.node.children.head? with
    | some value => [.item .controlFlow "RETURN value" (s.text value) line]
    | none => [.item .controlFlow "RETURN" "" line]

def callee (s : Scope) (w : Walk) (n : Node) (procedure : String) : List Report :=
  let object := (Name.resolve procedure).object
  if procedure.toList.head? == some '@' then
    [.item .dynamicSql "EXECUTE @procedure variable" procedure n.line]
  else if Text.same object "sp_executesql" then
    [.item .dynamicSql "sp_executesql" (s.text n) n.line]
  else if Text.startsWith object "sp_" || Text.startsWith object "xp_" then
    [.item .systemStoredProcedures (Text.upper object) procedure n.line]
  else
    s.nameReports w procedure n.line ++
      [.item .procedureCalls "EXECUTE procedure" procedure n.line]

def execute (s : Scope) (w : Walk) (n : Node) (procedure : Option String) (names : List String) :
    List Report :=
  names.map (fun name => Report.item .executeOptions name "" n.line) ++
    match procedure with
    | some procedure => callee s w n procedure
    | none => [.item .dynamicSql "EXECUTE string" (s.text n) n.line]

/-- The mark of a `RAISERROR` without parentheses among its options. -/
def legacyMark : String := "LEGACY SYNTAX"

def raiserror (s : Scope) (n : Node) (names : List String) : List Report :=
  let item := if names.contains legacyMark then "RAISERROR legacy syntax" else "RAISERROR"
  (names.filter (· != legacyMark)).map (fun name =>
    Report.item .raiserrorOptions name "" n.line) ++ [.item .errorHandling item (s.text n) n.line]

def throw (s : Scope) (n : Node) : List Report :=
  let item := if n.children.isEmpty then "THROW re-raise" else "THROW"
  [.item .errorHandling item (s.text n) n.line]

def cursorOp (n : Node) (op cursor : String) (orientation : Option String) : List Report :=
  .item .cursors op cursor n.line ::
    (orientation.map fun o => Report.item .fetchOrientation o cursor n.line).toList

end Portability.Survey
