import Portability.Survey.Scope

/-! Reports on queries, table sources and the clauses of a query. -/
namespace Portability.Survey

def catalogSchemas : List String := ["SYS", "INFORMATION_SCHEMA"]

/-- A named table of a query refers to the name, whatever its schema. -/
def refersTo (name : String) (kind : Kind) : Bool :=
  match kind with
  | .tableRef table _ => Text.same (Name.resolve table).object name
  | _ => false

def cte (s : Scope) (n : Node) (name : String) : List Report :=
  let isRecursive := n.nodes.tail.any (refersTo name ·.kind)
  .item .commonTableExpressions (if isRecursive then "Recursive CTE" else "CTE") name n.line ::
    s.lengthReports name n.line

/-- Where a `TOP` stands outside queries. -/
def topOwner? : Kind → Option String
  | .insert _ => some "TOP in INSERT"
  | .update _ => some "TOP in UPDATE"
  | .delete _ => some "TOP in DELETE"
  | .merge _ => some "TOP in MERGE"
  | _ => none

def top (s : Scope) (site : Site) (percent withTies : Bool) : List Report :=
  let report := fun name => Report.item .selectTop name (s.text site.node) site.node.line
  let isConstant := match site.node.firstKind? with
    | some (.literal .number) => true
    | _ => false
  ((site.parentKind?.bind topOwner?).map report).toList ++
    Report.onlyIf percent (report "TOP PERCENT") ++
    Report.onlyIf withTies (report "TOP WITH TIES") ++
    Report.onlyIf (!isConstant) (report "TOP (expression)")

def isPseudoTable (name : Name) : Bool :=
  name.partCount == 1 && (Text.same name.object "inserted" || Text.same name.object "deleted")

def tableRef (s : Scope) (w : Walk) (site : Site) (raw : String) : List Report :=
  let line := site.node.line
  let name := Name.resolve raw
  let catalogView := match name.schema? with
    | some schema =>
      Report.onlyIf (catalogSchemas.any (Text.same · schema))
        (.item .catalogViews (Text.upper (schema ++ "." ++ name.object)) raw line)
    | none => []
  let inTrigger := site.isInside fun | .createTrigger .. => true | _ => false
  s.nameReports w raw line ++ catalogView ++
    Report.onlyIf (isPseudoTable name && inTrigger && w.objects.isMultiEvent)
      (.item .triggers "inserted/deleted in multi-event trigger" raw line)

def tableFunction (s : Scope) (w : Walk) (n : Node) (raw : String) : List Report :=
  let name := Name.resolve raw
  let upper := Text.upper name.object
  if name.partCount == 1 && !s.symbols.isTableFunction (s.key raw) &&
      s.knows .tableFunctions upper then
    [.item .tableFunctions upper (s.text n) n.line]
  else
    s.nameReports w raw n.line ++ [.item .userDefinedFunctions "Table UDF call" raw n.line]

/-- Reports on a join. -/
def join (n : Node) (kind : JoinKind) (hint : Option String) : List Report :=
  .item .joins kind.text "" n.line ::
    (hint.map fun h => Report.item .joinHints h kind.text n.line).toList

def hintedTable (site : Site) : String :=
  match site.parentKind? with
  | some (.tableRef name _) => name
  | _ => ""

/-- What a query leaves behind when its last part was walked. -/
def closing (s : Scope) (n : Node) (q : OpenQuery) : List Report :=
  let detail := s.text n
  let shape := QueryTrait.shape q.traits
  .item .select shape detail q.line ::
    (Report.onlyIf (QueryTrait.isTopWithoutOrder q.traits)
        (.topic .topWithoutOrder "TOP without ORDER BY" detail q.line) ++
      Report.onlyIf (QueryTrait.isUnordered q.traits)
        (.topic .resultWithoutOrder "Result set without ORDER BY" detail q.line))

end Portability.Survey
