import Portability.Survey.Definition
import Portability.Survey.Expression
import Portability.Survey.Procedure
import Portability.Survey.Query

/-! The walk over a tree. A node first changes what the walk knows, then its reports are made, then
its parts are walked, and at last what it opened is closed. -/
namespace Portability

def QueryTrait.ofTarget (target : String) : QueryTrait :=
  let name := Name.resolve target
  if name.isGlobalTemporary then .intoGlobalTemporary
  else if name.isTemporary then .intoTemporary
  else .intoTable

/-- The trait that a clause gives the query it is a part of. -/
def Kind.clauseTrait? : Kind → Option QueryTrait
  | .top .. => some .hasTop
  | .into target => some (.ofTarget target)
  | .fromClause => some .hasFrom
  | .variableAssignment .. => some .assignsVariable
  | _ => none

namespace QueryStack

/-- The innermost query gets the trait that a part of it gives. -/
def addClause (q : QueryStack) (site : Site) : QueryStack :=
  match site.kind.clauseTrait? with
  | some trait => if site.isInSpec then q.add trait else q
  | none => q

/-- The open queries once a node is entered. -/
def enter (q : QueryStack) (site : Site) : QueryStack :=
  match site.kind with
  | .querySpec _ => q.push site.node.id site.node.line site.queryTraits
  | _ => q.addClause site

/-- The open queries once a node is left. -/
def leave (q : QueryStack) (n : Node) : QueryStack :=
  match n.kind with
  | .querySpec _ => q.pop n.id
  | _ => q

end QueryStack

namespace ErrorTracker

/-- A value was stored in a variable, if there is one. -/
def noteValue (e : ErrorTracker) (name : String) : Option Node → ErrorTracker
  | some value => e.note name value
  | none => e

/-- The variables that hold an error code once a node is entered. -/
def enter (e : ErrorTracker) (n : Node) : ErrorTracker :=
  match n.kind with
  | .variableAssignment name operator =>
    if operator = "=" then e.noteValue name n.children.head? else e.forget name
  | .variableDecl name => e.noteValue name n.children[1]?
  | _ => e

end ErrorTracker

/-- The objects that are open once a node is entered. -/
def ObjectStack.enterNode (o : ObjectStack) (n : Node) : ObjectStack :=
  let part := fun (kind name : String) => o.enterPart n.id (kind ++ " " ++ name)
  match n.kind with
  | .createTable name | .alterTable name => o.enter n.id "TABLE" name
  | .createView name .. => o.enter n.id "VIEW" name
  | .createProcedure name .. => o.enter n.id "PROCEDURE" name
  | .createFunction name .. => o.enter n.id "FUNCTION" name
  | .createTrigger name _ _ scope _ events _ =>
    let o := o.enter n.id "TRIGGER" name
    if scope = .table ∧ 1 < events.length then o.markMultiEvent else o
  | .createIndex name .. => o.enter n.id "INDEX" name
  | .createType name .. => o.enter n.id "TYPE" name
  | .tableVariableDecl name => o.enter n.id "TABLE VARIABLE" name
  | .columnDef name => part "COLUMN" name
  | .parameter name .. => part "PARAMETER" name
  | .constraint (some name) .. => part "CONSTRAINT" name
  | _ => o

/-- The database in use once a node is entered. -/
def Kind.databaseAfter (kind : Kind) (database : String) : String :=
  match kind with
  | .use name => (Name.resolve name).object
  | _ => database

namespace Walk

/-- What the walk knows once a node is entered. -/
def enter (w : Walk) (site : Site) : Walk where
  objects := w.objects.enterNode site.node
  queries := w.queries.enter site
  errors := w.errors.enter site.node
  database := site.kind.databaseAfter w.database

/-- What the walk knows once a node is left. -/
def leave (w : Walk) (n : Node) : Walk :=
  { w with objects := w.objects.leave n.id, queries := w.queries.leave n }

def sighting (w : Walk) (isQueued : Bool) (r : Report) : Sighting :=
  ⟨r, w.objects.object, w.objects.part, isQueued⟩

end Walk

namespace Survey

/-- The parts of the node are not looked at. -/
def isOpaque : Kind → Bool
  | .unparsed _ | .createOther .. | .drop .. => true
  | _ => false

/-- The reports on a node itself. -/
def reports (s : Scope) (w : Walk) (site : Site) : List Report :=
  let n := site.node
  let item := fun (topic : Topic) (name detail : String) => [Report.item topic name detail n.line]
  match n.kind with
  -- queries
  | .cte name => cte s n name
  | .setOperation operator => item .setOperators operator.text ""
  | .querySpec distinct =>
    Report.onlyIf distinct (.item .queryClauses "DISTINCT" "" n.line) ++ dependencies s n
  | .top percent withTies => top s site percent withTies
  | .into raw => s.nameReports w raw n.line
  | .tableRef raw _ => tableRef s w site raw
  | .tableFunction raw _ => tableFunction s w n raw
  | .join kind hint => join n kind hint
  | .pivot unpivot => item .queryClauses (if unpivot then "UNPIVOT" else "PIVOT") ""
  | .tableHint hint => item .tableHints hint (hintedTable site)
  | .groupBy (some modifier) => item .queryClauses ("GROUP BY " ++ modifier) ""
  | .orderBy true => item .queryClauses "OFFSET FETCH" ""
  | .forClause mode => item .forClause ("FOR " ++ mode) ""
  | .queryHint hint => item .queryHints hint ""
  -- data modification
  | .insert raw => insert s w n raw
  | .values rows => values site rows
  | .update raw => update s w n raw
  | .delete raw => delete s w n raw
  | .merge raw => merge s w n raw
  | .mergeAction action => item .merge action ""
  | .output into => output s w n into
  | .truncate raw => truncate s w n raw
  | .columnAssignment column operator => columnAssignment s n column operator
  | .variableAssignment name operator => variableAssignment s site name operator
  -- definitions
  | .createTable raw => createTable s w n raw
  | .alterTable raw => alterTable s w n raw
  | .alterTableAction action => alterTableAction n action
  | .columnDef raw => columnDef s n raw
  | .dataType raw args => dataType s w n raw args
  | .columnAttribute text => columnAttribute n text
  | .computedColumn persisted => computedColumn s n persisted
  | .constraint name kind clustered names => constraint s site name kind clustered names
  | .tableOption option => item .tableOptions option ""
  | .createView raw v names checkOption => createView s w n raw v names checkOption
  | .createProcedure raw v names number => createProcedure s w n raw v names number
  | .parameter name output readonly hasDefault => parameter s n name output readonly hasDefault
  | .createFunction raw v kind names => createFunction s w n raw v kind names
  | .createTrigger raw v watched scope timing events names =>
    createTrigger s w n raw v watched scope timing events names
  | .createIndex name table unique clustered kind included filtered names =>
    createIndex s w n name table unique clustered kind included filtered names
  | .createType raw base isTable => createType s w n raw base isTable
  | .createOther objectKind raw => createOther s w n objectKind raw
  | .drop objectKind names ifExists => drop s w n objectKind names ifExists
  -- procedures
  | .block .tryBody => item .errorHandling "TRY..CATCH" ""
  | .variableDecl name => variableDecl s n name
  | .tableVariableDecl name => tableVariableDecl s n name
  | .cursorDecl _ names => cursorDecl site names
  | .setOption names value => setOption s site names value
  | .ifElse => item .controlFlow "IF" ""
  | .whileLoop => item .controlFlow "WHILE" ""
  | .breakLoop => item .controlFlow "BREAK" ""
  | .continueLoop => item .controlFlow "CONTINUE" ""
  | .goto label => item .controlFlow "GOTO" label
  | .label name => item .controlFlow "Label" name
  | .returnValue => returnValue s site
  | .waitFor kind => item .waitFor kind (s.text n)
  | .transaction action _ => item .transactions action ""
  | .execute procedure names => execute s w n procedure names
  | .execArg _ true => item .procedureCalls "OUTPUT argument" (s.text n)
  | .print => item .otherStatements "PRINT" ""
  | .raiserror names => raiserror s n names
  | .throw => throw s n
  | .cursorOp op cursor orientation => cursorOp n op cursor orientation
  | .use database => item .otherStatements "USE" database
  | .permission action => item .permissions action (s.text n)
  | .otherStatement keywords => item .otherStatements keywords ""
  | .unparsed message => item .parseErrors "Unparsed statement" message
  -- expressions
  | .identifier name quote => identifier s n name quote
  | .systemVariable name => item .systemVariables name ""
  | .functionCall raw => functionCall s w site raw
  | .window ordered frame => window n ordered frame
  | .binaryOp op => binaryOp s n op
  | .unaryOp "~" => item .operators "Bitwise ~" (s.text n)
  | .comparison op => comparison s w n op
  | .inList _ | .between _ => codeChecks s w n
  | .collate collation => item .collations collation ""
  | .nextValueFor raw => s.nameReports w raw n.line ++ item .sequences "NEXT VALUE FOR" raw
  | _ => []

/-- The reports that a node leaves behind. -/
def closingReports (s : Scope) (w : Walk) (n : Node) : List Report :=
  match n.kind with
  | .querySpec _ =>
    match w.queries.top? n.id with
    | some q => closing s n q
    | none => []
  | _ => []

mutual

/-- The sightings of a walk over a node, in order, and what the walk knows after it. -/
def ofNode (s : Scope) (ancestors : List Node) (w : Walk) : Node → List Sighting × Walk
  | n@⟨_, kind, _, _, _, children⟩ =>
    let w := w.enter ⟨n, ancestors⟩
    let own := (reports s w ⟨n, ancestors⟩).map (w.sighting false)
    let (below, w) := if isOpaque kind then ([], w) else ofParts s (n :: ancestors) w children
    (own ++ below ++ (closingReports s w n).map (w.sighting true), w.leave n)

def ofParts (s : Scope) (ancestors : List Node) (w : Walk) : List Node → List Sighting × Walk
  | [] => ([], w)
  | n :: rest =>
    let (here, w) := ofNode s ancestors w n
    let (after, w) := ofParts s ancestors w rest
    (here ++ after, w)

end

def ofBatch (s : Scope) (database : String) : List Sighting × String :=
  let (sightings, w) := ofNode s [] { database } s.tree.root
  (sightings, w.database)

end Survey

end Portability
