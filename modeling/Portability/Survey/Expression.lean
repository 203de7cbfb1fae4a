import Portability.Survey.Scope

/-! Reports on identifiers, calls, operators and predicates. -/
namespace Portability.Survey

def xmlMethods : List String := ["VALUE", "QUERY", "EXIST", "NODES", "MODIFY"]

/-- The places of the dates among the arguments of a function, counted from 1. -/
def datePositions : List (String × List Nat) :=
  [("DATEADD", [3]), ("DATEDIFF", [2, 3]), ("DATEDIFF_BIG", [2, 3]), ("DATEPART", [2]),
   ("DATENAME", [2]), ("DATETRUNC", [2]), ("YEAR", [1]), ("MONTH", [1]), ("DAY", [1]),
   ("EOMONTH", [1])]

def identifier (s : Scope) (n : Node) (name : String) (quote : Option Quote) : List Report :=
  if quote = some .double ∧ s.quotedIdentifier = false then
    [.item .quotedIdentifier "Double-quoted string literal" (s.text n) n.line]
  else s.lengthReports (Name.resolve name).object n.line

/-- The arguments of a call, without an `OVER` at the end. -/
def arguments (n : Node) : List Node :=
  match n.children.getLast?.map Node.kind with
  | some (.window ..) => n.children.dropLast
  | _ => n.children

def unquoted? (text : List Char) : Option (List Char) :=
  let body := match text with
    | 'N' :: rest | 'n' :: rest => rest
    | _ => text
  match body with
  | '\x27' :: rest =>
    if rest.getLast? = some '\x27' then some (Text.undoubleMark '\x27' rest.dropLast) else none
  | _ => none

def argumentValue? (s : Scope) (n : Node) : Option String :=
  let text := Text.trimChars (s.tree.text n).toList
  match n.kind with
  | .literal .string | .literal .national =>
    (unquoted? text).map fun inner => Text.upper (String.ofList inner)
  | .literal .number => some (String.ofList text)
  | .identifier name none => some (Text.upper name)
  | _ => none

/-- The first argument on which the verdict on a function depends. -/
def judgedArgument? (s : Scope) (function : String) (args : List Node) : Option CallArgument :=
  args.zipIdx.findSome? fun (arg, i) =>
    if s.matrix.hasArgumentRule Topic.builtInFunctions.name function (i + 1) then
      let value? := argumentValue? s arg
      some ⟨i + 1, value?, "arg" ++ toString (i + 1) ++ " = " ++ value?.getD (s.text arg)⟩
    else none

def dateArguments (s : Scope) (n : Node) (function : String) (args : List Node) : List Report :=
  let positions := (datePositions.lookup function).getD []
  let numbers := (positions.filterMap fun p => args[p - 1]?).filter (s.category · == .numeric)
  numbers.map fun arg =>
    .item .implicitConversion "Numeric to datetime argument" (function ++ ": " ++ s.text arg) n.line

def builtInCall (s : Scope) (site : Site) (function : String) : List Report :=
  let n := site.node
  let args := arguments n
  let inColumn := site.isInside fun | .computedColumn _ => true | _ => false
  { question := .call function (judgedArgument? s function args) inColumn
    display := function
    detail := s.text n
    line := n.line } :: dateArguments s n function args

/-- The call is the right side of a column that is changed by a method. -/
def isAssignedMethod (site : Site) : Bool :=
  match site.parentKind? with
  | some (.columnAssignment _ operator) => operator == "METHOD"
  | _ => false

def namedCall (s : Scope) (w : Walk) (site : Site) (raw : String) : List Report :=
  let n := site.node
  let name := Name.resolve raw
  let upper := Text.upper name.object
  let isUserDefined := (s.symbols.scalarFunctionType? (s.key raw)).isSome
  if !isUserDefined && 2 ≤ name.partCount && xmlMethods.contains upper then
    [.item .xmlMethods upper (s.text n) n.line]
  else if !isUserDefined && name.partCount == 1 && s.knows .builtInFunctions upper then
    builtInCall s site upper
  else
    s.nameReports w raw n.line ++ [.item .userDefinedFunctions "Scalar UDF call" raw n.line]

def functionCall (s : Scope) (w : Walk) (site : Site) (raw : String) : List Report :=
  let n := site.node
  if isAssignedMethod site then []
  else
    match raw.toList with
    | '.' :: method => [.item .xmlMethods (Text.upper (String.ofList method)) (s.text n) n.line]
    | _ =>
      if raw = "\x7bODBC\x7d" then [.item .builtInFunctions "ODBC escape" (s.text n) n.line]
      else namedCall s w site raw

def window (n : Node) (ordered : Bool) (frame : Option String) : List Report :=
  .item .windowFunctions (if ordered then "OVER with ORDER BY" else "OVER") "" n.line ::
    (frame.map fun f =>
      let item := if "ROWS".toList.isPrefixOf f.toList then "ROWS frame" else "RANGE frame"
      Report.item .windowFunctions item f n.line).toList

def binaryItem? (s : Scope) (n : Node) (op : String) : Option String :=
  match op with
  | "&" => some "Bitwise &"
  | "|" => some "Bitwise |"
  | "^" => some "Bitwise ^"
  | "+" =>
    if n.children.any (s.category · == .dateTime) then some "Date arithmetic"
    else if s.category n == .string then some "String concatenation"
    else none
  | "-" => if n.children.any (s.category · == .dateTime) then some "Date arithmetic" else none
  | _ => none

def binaryOp (s : Scope) (n : Node) (op : String) : List Report :=
  ((binaryItem? s n op).map fun item => Report.item .operators item (s.text n) n.line).toList

def isNull (n : Node) : Bool :=
  match n.kind with
  | .literal .null => true
  | _ => false

def codeCheck (s : Scope) (line : Nat) : CodeCheck → Report
  | .code code via =>
    let number := toString code
    let lookup := if s.knows .errorCodes number then some number else none
    { question := .item Topic.errorCodes.name lookup
      display := "Error code " ++ number
      detail := "via " ++ via
      line
      handled? := some ⟨code, via, line⟩ }
  | .indeterminate text via =>
    { question := .ruled Topic.errorCodes.name none .reviewManually
      display := "Error code"
      detail := text ++ " via " ++ via
      line }

def codeChecks (s : Scope) (w : Walk) (n : Node) : List Report :=
  (w.errors.examine s.tree n).map (codeCheck s n.line)

def comparison (s : Scope) (w : Walk) (n : Node) (op : String) : List Report :=
  let operator := fun item => Report.item .operators item (s.text n) n.line
  (match op with
    | "*=" | "=*" => [Report.item .joins "Old-style outer join" (s.text n) n.line]
    | "!<" | "!>" | "!=" => [operator op]
    | _ => []) ++
    Report.onlyIf ((op == "=" || op == "<>" || op == "!=") && n.children.any isNull)
      (operator "= NULL comparison") ++
    codeChecks s w n

end Portability.Survey
