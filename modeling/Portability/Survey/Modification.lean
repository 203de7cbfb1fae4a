import Portability.Survey.Scope
import Portability.Text.CaseFold

/-! Reports on statements that change data and on assignments. -/
namespace Portability.Survey

def target (s : Scope) (w : Walk) (raw statement : String) (line : Nat) : List Report :=
  if raw.isEmpty || raw.toList.head? == some '@' || raw.toList.contains '(' then []
  else
    s.nameReports w raw line ++
      Report.onlyIf (s.symbols.objectKind? (s.key raw) == some .view)
        (.item .changesToViews (statement ++ " on view") raw line)

/-- The form of `INSERT` that a part of it brings about. -/
def insertForm? (part : Node) : Option String :=
  match part.kind with
  | .values _ => some "INSERT..VALUES"
  | .query => some "INSERT..SELECT"
  | .execute .. => some "INSERT..EXECUTE"
  | .defaultValues => some "INSERT..DEFAULT VALUES"
  | _ => none

def insert (s : Scope) (w : Walk) (n : Node) (raw : String) : List Report :=
  let form := (n.children.findSome? insertForm?).getD "INSERT..VALUES"
  .item .insert form raw n.line :: target s w raw "INSERT" n.line

def values (site : Site) (rows : Nat) : List Report :=
  match site.parentKind? with
  | some (.derivedTable _) => [.item .queryClauses "Table value constructor" "" site.node.line]
  | _ =>
    Report.onlyIf (1 < rows)
      (.item .insert "Multi-row VALUES" (toString rows ++ " rows") site.node.line)

def hasFrom (n : Node) : Bool := n.hasChild fun | .fromClause => true | _ => false

def assignment? (n : Node) : Option (Node × String) :=
  match n.kind with
  | .variableAssignment name _ => some (n, name)
  | _ => none

/-- Some other variable of the list occurs in the text, inside a longer name too. -/
def mentionsOther (names : List String) (name text : String) : Bool :=
  names.any fun other =>
    !Text.same other name && Text.containsFolded other.toList text.toList

/-- Reports on assignments of one statement that read what the same statement assigns. -/
def dependencies (s : Scope) (n : Node) : List Report :=
  let assignments := n.children.filterMap assignment?
  let names := assignments.map (·.2)
  if assignments.length < 2 then []
  else
    assignments.filterMap fun (node, name) =>
      match node.children.head? with
      | none => none
      | some value =>
        if mentionsOther names name (s.tree.text value) then
          some <| .topic .variableAssignmentDependency "Order of assignment not guaranteed" name
            node.line
        else none

def update (s : Scope) (w : Walk) (n : Node) (raw : String) : List Report :=
  .item .update (if hasFrom n then "UPDATE..FROM" else "UPDATE") raw n.line ::
    (target s w raw "UPDATE" n.line ++ dependencies s n)

def delete (s : Scope) (w : Walk) (n : Node) (raw : String) : List Report :=
  .item .delete (if hasFrom n then "DELETE..FROM" else "DELETE") raw n.line ::
    target s w raw "DELETE" n.line

def merge (s : Scope) (w : Walk) (n : Node) (raw : String) : List Report :=
  .item .merge "MERGE" raw n.line :: target s w raw "MERGE" n.line

def output (s : Scope) (w : Walk) (n : Node) (into : Option String) : List Report :=
  match into with
  | some raw =>
    .item .outputClause "OUTPUT INTO" raw n.line ::
      if raw.toList.head? == some '@' then [] else s.nameReports w raw n.line
  | none => [.item .outputClause "OUTPUT" "" n.line]

def truncate (s : Scope) (w : Walk) (n : Node) (raw : String) : List Report :=
  .topic .truncateTable "TRUNCATE TABLE" raw n.line :: target s w raw "TRUNCATE" n.line

/-- The item of a column that is changed by a method of its type. -/
def methodItem (n : Node) : String :=
  match n.firstKind? with
  | some (.functionCall name) =>
    if Text.same (Name.resolve name).object "WRITE" then "UPDATE .WRITE" else "UPDATE column method"
  | _ => "UPDATE column method"

def columnAssignment (s : Scope) (n : Node) (column operator : String) : List Report :=
  match operator with
  | "=" => []
  | "METHOD" => [.item .update (methodItem n) (s.text n) n.line]
  | compound => [.item .compoundAssignment compound column n.line]

def dateTimeAssignment (s : Scope) (name : String) (value : Node) (line : Nat) : List Report :=
  match s.symbols.variableType? name with
  | none => []
  | some declared =>
    Report.onlyIf
      (Category.ofText s.symbols s.schema declared == .dateTime && s.category value == .numeric)
      (.item .implicitConversion "Numeric to datetime assignment"
        (name ++ " = " ++ s.text value) line)

/-- The item of an assignment of a variable, by the statement it is in. -/
def assignmentItem (site : Site) : String :=
  match site.parentKind? with
  | some (.querySpec _) => "SELECT @var ="
  | some (.update _) | some (.mergeAction _) => "UPDATE SET @var ="
  | _ => "SET @var ="

def variableAssignment (s : Scope) (site : Site) (name operator : String) : List Report :=
  let line := site.node.line
  .item .variableAssignment (assignmentItem site) name line ::
    if operator = "=" then
      match site.node.children.head? with
      | some value => dateTimeAssignment s name value line
      | none => []
    else [.item .compoundAssignment operator name line]

end Portability.Survey
