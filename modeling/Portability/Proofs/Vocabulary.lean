import Portability.Proofs.WellFormed
import Portability.Analysis

/-! The words that reports use. Every report asks about a topic, and where the items of a topic are
not taken from the script, they come from a short list. -/
namespace Portability

/-- The items that reports name under a topic on their own account; nothing where an item can be any
text. Items that the matrix was asked for before are not listed. -/
def Topic.vocabulary? : Topic → Option (List String)
  | .select =>
    some ["SELECT", "SELECT..INTO ##tmp", "SELECT..INTO #tmp", "SELECT..INTO table",
      "SELECT in CTE", "SELECT subquery"]
  | .selectTop =>
    some ["TOP in INSERT", "TOP in UPDATE", "TOP in DELETE", "TOP in MERGE", "TOP PERCENT",
      "TOP WITH TIES", "TOP (expression)"]
  | .setOperators => some ["UNION", "UNION ALL", "EXCEPT", "INTERSECT"]
  | .commonTableExpressions => some ["CTE", "Recursive CTE"]
  | .joins =>
    some ["INNER JOIN", "LEFT OUTER JOIN", "RIGHT OUTER JOIN", "FULL OUTER JOIN", "CROSS JOIN",
      "CROSS APPLY", "OUTER APPLY", "Old-style outer join"]
  | .joinHints => some Parser.joinHintWords
  | .insert =>
    some ["INSERT..VALUES", "INSERT..SELECT", "INSERT..EXECUTE", "INSERT..DEFAULT VALUES",
      "Multi-row VALUES"]
  | .update => some ["UPDATE", "UPDATE..FROM", "UPDATE .WRITE", "UPDATE column method"]
  | .delete => some ["DELETE", "DELETE..FROM"]
  | .outputClause => some ["OUTPUT", "OUTPUT INTO"]
  | .changesToViews =>
    some ["INSERT on view", "UPDATE on view", "DELETE on view", "MERGE on view",
      "TRUNCATE on view"]
  | .compoundAssignment => some (assignmentOperators.filter (· ≠ "="))
  | .variableAssignment => some ["SELECT @var =", "UPDATE SET @var =", "SET @var ="]
  | .implicitConversion => some ["Numeric to datetime assignment", "Numeric to datetime argument"]
  | .userDefinedDatatypes =>
    some ["Table type", "Alias type", "CREATE TYPE alias", "CREATE TYPE table"]
  | .identifiers => some ["Leading dot identifier", "Special column name"]
  | .computedColumns => some ["Computed column", "Persisted computed column"]
  | .createTable => some ["CREATE TABLE", "CREATE TABLE #tmp", "CREATE TABLE ##tmp"]
  | .views => some ["CREATE VIEW", "WITH CHECK OPTION"]
  | .procedures => some ["CREATE PROCEDURE", "Numbered procedure"]
  | .parameters => some ["OUTPUT parameter", "Table-valued parameter", "Parameter default"]
  | .functions =>
    some ["Scalar function", "Inline table-valued function",
      "Multi-statement table-valued function", "CLR function"]
  | .objectDefinitions =>
    some ["ALTER VIEW", "ALTER PROCEDURE", "ALTER FUNCTION", "ALTER TRIGGER",
      "CREATE OR ALTER VIEW", "CREATE OR ALTER PROCEDURE", "CREATE OR ALTER FUNCTION",
      "CREATE OR ALTER TRIGGER"]
  | .triggers =>
    some ["INSTEAD OF trigger", "AFTER trigger", "Multi-event trigger", "DDL trigger (database)",
      "DDL trigger (server)", "Logon trigger", "inserted/deleted in multi-event trigger"]
  | .indexes =>
    some ["Index", "Unique index", "Clustered index", "Included columns", "Filtered index",
      "Clustered columnstore index", "Nonclustered columnstore index"]
  | .localVariables => some ["DECLARE with initializer", "Table variable"]
  | .cursors => some ("DECLARE CURSOR" :: "Cursor variable" :: cursorStatements)
  | .quotedIdentifier => some ["Effective next batch", "Double-quoted string literal"]
  | .controlFlow =>
    some ["IF", "WHILE", "BREAK", "CONTINUE", "GOTO", "Label", "RETURN", "RETURN value"]
  | .errorHandling =>
    some ["TRY..CATCH", "RAISERROR", "RAISERROR legacy syntax", "THROW", "THROW re-raise"]
  | .dynamicSql => some ["EXECUTE string", "EXECUTE @procedure variable", "sp_executesql"]
  | .procedureCalls => some ["EXECUTE procedure", "OUTPUT argument"]
  | .parseErrors => some ["Unparsed statement"]
  | .builtInFunctions => some ["ODBC escape"]
  | .userDefinedFunctions => some ["Scalar UDF call", "Table UDF call"]
  | .windowFunctions => some ["OVER", "OVER with ORDER BY", "ROWS frame", "RANGE frame"]
  | .operators =>
    some ["String concatenation", "Date arithmetic", "Bitwise &", "Bitwise |", "Bitwise ^",
      "Bitwise ~", "!=", "!<", "!>", "= NULL comparison"]
  | .sequences => some ["NEXT VALUE FOR"]
  | .crossDatabaseReferences => some ["Three-part name", "Three-part name to current database"]
  | .remoteObjectReferences => some ["Four-part name"]
  | .datatypes | .specialColumnNames | .functionsInComputedColumn | .tableFunctions => some []
  | _ => none

/-- Reports may name the item under the topic. -/
def Topic.speaks (t : Topic) (item : String) : Bool := t.vocabulary?.all (·.contains item)

/-- The question is about a topic and keeps to its vocabulary, or to what the matrix defines. -/
def Question.IsPlain (m : Matrix) : Question → Prop
  | .item name lookup | .ruled name lookup _ =>
    ∃ t : Topic, name = t.name ∧
      ∀ word, lookup = some word → t.speaks word ∨ m.defines t.name (some word)
  | .argument name option position _ =>
    name = Topic.setOptions.name ∧ m.hasArgumentRule name option position
  | .call function argument? _ =>
    m.defines Topic.builtInFunctions.name (some function) ∧
      ∀ a, argument? = some a →
        m.hasArgumentRule Topic.builtInFunctions.name function a.position

/-- All questions of the reports keep to the vocabulary. -/
def AllPlain (m : Matrix) (rs : List Report) : Prop := ∀ r ∈ rs, r.question.IsPlain m

section

variable {m : Matrix} {t : Topic} {r : Report} {rs rs' : List Report} {name : String}

@[simp] theorem allPlain_nil : AllPlain m [] := by simp [AllPlain]

@[simp] theorem allPlain_cons :
    AllPlain m (r :: rs) ↔ r.question.IsPlain m ∧ AllPlain m rs := by simp [AllPlain]

@[simp] theorem allPlain_append :
    AllPlain m (rs ++ rs') ↔ AllPlain m rs ∧ AllPlain m rs' := by
  simp [AllPlain, or_imp, forall_and]

@[simp] theorem allPlain_onlyIf {condition : Bool} :
    AllPlain m (Report.onlyIf condition r) ↔ (condition = true → r.question.IsPlain m) := by
  simp [AllPlain]

@[simp] theorem allPlain_toList {r? : Option Report} :
    AllPlain m r?.toList ↔ ∀ r, r? = some r → r.question.IsPlain m := by
  simp [AllPlain]

@[simp] theorem allPlain_map {α : Type} {f : α → Report} {as : List α} :
    AllPlain m (as.map f) ↔ ∀ a ∈ as, (f a).question.IsPlain m := by
  simp [AllPlain]

@[simp] theorem Report.isPlain_item {detail : String} {line : Nat} (h : t.speaks name) :
    (Report.item t name detail line).question.IsPlain m :=
  ⟨t, rfl, by simp [h]⟩

@[simp] theorem Report.isPlain_itemAs {display detail : String} {line : Nat} (h : t.speaks name) :
    (Report.itemAs t name display detail line).question.IsPlain m :=
  ⟨t, rfl, by simp [h]⟩

@[simp] theorem Report.isPlain_item_ite {p : Prop} [Decidable p] {other detail : String}
    {line : Nat} :
    (Report.item t (if p then name else other) detail line).question.IsPlain m ↔
      (p → (Report.item t name detail line).question.IsPlain m) ∧
        (¬ p → (Report.item t other detail line).question.IsPlain m) := by
  by_cases hp : p <;> simp [hp]

theorem Report.isPlain_of_defines {detail : String} {line : Nat}
    (h : m.defines t.name (some name)) :
    (Report.item t name detail line).question.IsPlain m :=
  ⟨t, rfl, by simp [h]⟩

@[simp] theorem Report.isPlain_topic {display detail : String} {line : Nat} :
    (Report.topic t display detail line).question.IsPlain m :=
  ⟨t, rfl, by simp⟩

end

attribute [simp] Topic.vocabulary? Topic.speaks

namespace Survey

variable {s : Scope} {w : Walk} {n : Node} {site : Site} {raw : String} {line : Nat}

@[simp] theorem lengthReports_plain {identifier : String} :
    AllPlain s.matrix (s.lengthReports identifier line) := by
  simp [Scope.lengthReports, NameLimits.lengthReports]

@[simp] theorem nameReports_plain : AllPlain s.matrix (s.nameReports w raw line) := by
  unfold Scope.nameReports NameLimits.nameReports NameLimits.reachReports
  simp only [allPlain_append, allPlain_onlyIf]
  refine ⟨⟨?_, ?_⟩, lengthReports_plain⟩
  · simp
  · split
    · simp
    · split <;> simp

-- queries

theorem cte_plain {name : String} : AllPlain s.matrix (cte s n name) := by
  simp [cte]

theorem top_plain {percent withTies : Bool} : AllPlain s.matrix (top s site percent withTies) := by
  have howner : ∀ kind owner, topOwner? kind = some owner → Topic.selectTop.speaks owner := by
    intro kind owner h
    unfold topOwner? at h
    split at h <;> cases h <;> simp
  simp only [top, allPlain_append, allPlain_toList, allPlain_onlyIf, Option.map_eq_some_iff,
    Option.bind_eq_some_iff]
  refine ⟨⟨⟨?_, by simp⟩, by simp⟩, by simp⟩
  rintro r ⟨owner, ⟨kind, -, hkind⟩, rfl⟩
  exact Report.isPlain_item (howner kind owner hkind)

theorem tableRef_plain : AllPlain s.matrix (tableRef s w site raw) := by
  simp only [tableRef, allPlain_append]
  refine ⟨⟨nameReports_plain, ?_⟩, by simp⟩
  split <;> simp

theorem tableFunction_plain : AllPlain s.matrix (tableFunction s w n raw) := by
  simp only [tableFunction]
  split
  · rename_i h
    simp only [Bool.and_eq_true] at h
    simpa using Report.isPlain_of_defines h.2
  · simp

theorem join_plain {kind : JoinKind} {hint : Option String}
    (h : Kind.Fits (.join kind hint) n.children) : AllPlain s.matrix (join n kind hint) := by
  simp only [join, allPlain_cons, allPlain_toList, Option.map_eq_some_iff]
  refine ⟨by cases kind <;> simp [JoinKind.text], ?_⟩
  rintro r ⟨word, rfl, rfl⟩
  have hword : word ∈ Parser.joinHintWords := h
  exact Report.isPlain_item (by simpa using hword)

theorem shape_speaks (traits : List QueryTrait) :
    Topic.select.speaks (QueryTrait.shape traits) := by
  unfold QueryTrait.shape
  split_ifs <;> simp

theorem closing_plain {q : OpenQuery} : AllPlain s.matrix (closing s n q) := by
  simp [closing, Report.isPlain_item (shape_speaks q.traits)]

-- data modification

theorem target_plain {statement : String}
    (h : Topic.changesToViews.speaks (statement ++ " on view")) :
    AllPlain s.matrix (target s w raw statement line) := by
  unfold target
  split
  · simp
  · simp [Report.isPlain_item h]

theorem insert_plain : AllPlain s.matrix (insert s w n raw) := by
  have hform : Topic.insert.speaks ((n.children.findSome? insertForm?).getD "INSERT..VALUES") := by
    cases hfound : n.children.findSome? insertForm? with
    | none => simp
    | some form =>
      obtain ⟨part, -, hpart⟩ := List.exists_of_findSome?_eq_some hfound
      unfold insertForm? at hpart
      split at hpart <;> cases hpart <;> simp
  simp [insert, Report.isPlain_item hform, target_plain]

theorem values_plain {rows : Nat} : AllPlain s.matrix (values site rows) := by
  unfold values
  split <;> simp

@[simp] theorem dependencies_plain : AllPlain s.matrix (dependencies s n) := by
  intro r hr
  simp only [dependencies] at hr
  split at hr
  · simp at hr
  · obtain ⟨⟨node, name⟩, -, hr⟩ := List.mem_filterMap.mp hr
    split at hr
    · cases hr
    · split at hr <;> cases hr
      simp

theorem update_plain : AllPlain s.matrix (update s w n raw) := by
  simp [update, target_plain]

theorem delete_plain : AllPlain s.matrix (delete s w n raw) := by
  simp [delete, target_plain]

theorem merge_plain : AllPlain s.matrix (merge s w n raw) := by
  simp [merge, target_plain]

theorem output_plain {into : Option String} : AllPlain s.matrix (output s w n into) := by
  unfold output
  split
  · simp only [allPlain_cons]
    split <;> simp
  · simp

theorem truncate_plain : AllPlain s.matrix (truncate s w n raw) := by
  simp [truncate, target_plain]

/-- An operator that assigns is the plain one or a compound one. -/
theorem compound_speaks {operator : String} (hmem : operator ∈ assignmentOperators)
    (hne : operator ≠ "=") : Topic.compoundAssignment.speaks operator := by
  simp [hmem, hne]

theorem columnAssignment_plain {column operator : String}
    (h : Kind.Fits (.columnAssignment column operator) n.children) :
    AllPlain s.matrix (columnAssignment s n column operator) := by
  have hmethod : Topic.update.speaks (methodItem n) := by
    unfold methodItem
    split
    · split <;> simp
    · simp
  have hoperator : operator = "METHOD" ∨ operator ∈ assignmentOperators := by
    simpa [Kind.Fits] using h
  unfold columnAssignment
  split
  · simp
  · simp [Report.isPlain_item hmethod]
  · rename_i hplain hother
    have hspeaks := compound_speaks (hoperator.resolve_left hother) hplain
    simpa using Report.isPlain_item hspeaks

@[simp] theorem dateTimeAssignment_plain {name : String} {value : Node} :
    AllPlain s.matrix (dateTimeAssignment s name value line) := by
  unfold dateTimeAssignment
  split <;> simp

theorem variableAssignment_plain {name operator : String}
    (h : Kind.Fits (.variableAssignment name operator) site.node.children) :
    AllPlain s.matrix (variableAssignment s site name operator) := by
  have hitem : Topic.variableAssignment.speaks (assignmentItem site) := by
    unfold assignmentItem
    split <;> simp
  have hmem : operator ∈ assignmentOperators := h
  simp only [variableAssignment, allPlain_cons]
  refine ⟨Report.isPlain_item hitem, ?_⟩
  split
  · split <;> simp
  · rename_i hplain
    simpa using Report.isPlain_item (compound_speaks hmem hplain)

-- expressions

theorem identifier_plain {name : String} {quote : Option Quote} :
    AllPlain s.matrix (identifier s n name quote) := by
  unfold identifier
  split <;> simp

theorem judgedArgument?_rule {function : String} {args : List Node} {a : CallArgument}
    (h : judgedArgument? s function args = some a) :
    s.matrix.hasArgumentRule Topic.builtInFunctions.name function a.position := by
  obtain ⟨⟨arg, i⟩, -, hfound⟩ := List.exists_of_findSome?_eq_some h
  dsimp only at hfound
  split at hfound
  · rename_i hrule
    cases hfound
    exact hrule
  · cases hfound

theorem builtInCall_plain {function : String} (h : s.knows .builtInFunctions function) :
    AllPlain s.matrix (builtInCall s site function) := by
  simp only [builtInCall, dateArguments, allPlain_cons, allPlain_map]
  exact ⟨⟨h, fun a ha => judgedArgument?_rule ha⟩, fun arg _ => by simp⟩

theorem namedCall_plain : AllPlain s.matrix (namedCall s w site raw) := by
  simp only [namedCall]
  split
  · simp
  · split
    · rename_i h
      simp only [Bool.and_eq_true] at h
      exact builtInCall_plain h.2
    · simp

theorem functionCall_plain : AllPlain s.matrix (functionCall s w site raw) := by
  simp only [functionCall]
  split
  · simp
  · split
    · simp
    · split
      · simp
      · exact namedCall_plain

theorem window_plain {ordered : Bool} {frame : Option String} :
    AllPlain s.matrix (window n ordered frame) := by
  simp only [window, allPlain_cons, allPlain_toList, Option.map_eq_some_iff]
  refine ⟨by simp, ?_⟩
  rintro r ⟨f, -, rfl⟩
  simp

theorem binaryOp_plain {op : String} : AllPlain s.matrix (binaryOp s n op) := by
  simp only [binaryOp, allPlain_toList, Option.map_eq_some_iff]
  rintro r ⟨item, hitem, rfl⟩
  apply Report.isPlain_item
  unfold binaryItem? at hitem
  split at hitem <;> (try split at hitem) <;> (try split at hitem) <;> cases hitem <;> simp

theorem codeCheck_plain {check : CodeCheck} :
    (codeCheck s line check).question.IsPlain s.matrix := by
  cases check with
  | code code via => exact ⟨.errorCodes, rfl, by simp⟩
  | indeterminate text via => exact ⟨.errorCodes, rfl, by simp⟩

@[simp] theorem codeChecks_plain : AllPlain s.matrix (codeChecks s w n) := by
  simp [codeChecks, codeCheck_plain]

theorem comparison_plain {op : String} : AllPlain s.matrix (comparison s w n op) := by
  simp only [comparison, allPlain_append, allPlain_onlyIf]
  refine ⟨⟨?_, by simp⟩, codeChecks_plain⟩
  split <;> simp

-- definitions

@[simp] theorem verb_plain {v : Verb} {object name : String}
    (h : object ∈ ["VIEW", "PROCEDURE", "FUNCTION", "TRIGGER"]) :
    AllPlain s.matrix (verb v object name line) := by
  simp only [List.mem_cons, List.not_mem_nil, or_false] at h
  unfold verb
  rcases h with rfl | rfl | rfl | rfl <;> cases v <;> simp [Verb.text]

@[simp] theorem options_plain {t : Topic} {names : List String} (h : ∀ name, t.speaks name) :
    AllPlain s.matrix (options t names line) := by
  simp only [options, allPlain_map]
  exact fun name _ => Report.isPlain_item (h name)

theorem createTable_plain : AllPlain s.matrix (createTable s w n raw) := by
  simp [createTable]

theorem alterTable_plain : AllPlain s.matrix (alterTable s w n raw) := by
  simp [alterTable]

theorem alterTableAction_plain {action : String} :
    AllPlain s.matrix (alterTableAction n action) := by
  simp only [alterTableAction, allPlain_append, allPlain_toList, Option.map_eq_some_iff]
  refine ⟨by simp, ?_⟩
  rintro r ⟨words, -, rfl⟩
  simp

theorem columnDef_plain : AllPlain s.matrix (columnDef s n raw) := by
  simp [columnDef]

theorem dataType_plain {args : Option String} : AllPlain s.matrix (dataType s w n raw args) := by
  have hknown : ∀ base, s.knows .datatypes base →
      AllPlain s.matrix [.item .datatypes base (s.text n) n.line] := by
    intro base h
    simpa using Report.isPlain_of_defines h
  simp only [dataType]
  split
  · simp
  · split_ifs with hmax hbase
    · simp only [Bool.and_eq_true] at hmax
      exact hknown _ hmax.2
    · simp only [Bool.and_eq_true] at hbase
      exact hknown _ hbase.2
    · simp

theorem columnAttribute_plain {text : String} : AllPlain s.matrix (columnAttribute n text) := by
  simp [columnAttribute]

theorem computedColumn_plain {persisted : Bool} :
    AllPlain s.matrix (computedColumn s n persisted) := by
  simp [computedColumn]

theorem constraint_plain {name : Option String} {kind : ConstraintKind} {clustered : Option Bool}
    {names : List String} : AllPlain s.matrix (constraint s site name kind clustered names) := by
  simp only [constraint, allPlain_append, allPlain_toList, allPlain_map, Option.map_eq_some_iff]
  refine ⟨⟨⟨?_, by simp⟩, ?_⟩, by simp⟩
  · split <;> simp
  · rintro r ⟨c, -, rfl⟩
    simp

theorem createView_plain {v : Verb} {names : List String} {checkOption : Bool} :
    AllPlain s.matrix (createView s w n raw v names checkOption) := by
  simp [createView]

theorem createProcedure_plain {v : Verb} {names : List String} {number : Option Nat} :
    AllPlain s.matrix (createProcedure s w n raw v names number) := by
  cases number <;> simp [createProcedure]

theorem parameter_plain {name : String} {output readonly hasDefault : Bool} :
    AllPlain s.matrix (parameter s n name output readonly hasDefault) := by
  simp [parameter]

theorem createFunction_plain {v : Verb} {kind : FunctionKind} {names : List String} :
    AllPlain s.matrix (createFunction s w n raw v kind names) := by
  cases kind <;> simp [createFunction, functionItem]

theorem triggerScope_plain {watched timing : String} {scope : TriggerScope} {events : List String} :
    AllPlain s.matrix (triggerScope s w raw watched scope timing events line) := by
  cases scope <;> simp [triggerScope]

theorem createTrigger_plain {v : Verb} {watched timing : String} {scope : TriggerScope}
    {events names : List String} :
    AllPlain s.matrix (createTrigger s w n raw v watched scope timing events names) := by
  simp [createTrigger, triggerScope_plain]

theorem createIndex_plain {name table : String} {unique included filtered : Bool}
    {clustered : Option Bool} {kind : Option String} {names : List String} :
    AllPlain s.matrix
      (createIndex s w n name table unique clustered kind included filtered names) := by
  have hitem : ∀ a b, Topic.indexes.speaks (indexItem a b) := by
    intro a b
    cases a <;> cases b <;> simp [indexItem]
  simp [createIndex, Report.isPlain_item (hitem _ _)]

theorem createType_plain {base : Option String} {isTable : Bool} :
    AllPlain s.matrix (createType s w n raw base isTable) := by
  simp [createType]

theorem createOther_plain {objectKind : String} :
    AllPlain s.matrix (createOther s w n objectKind raw) := by
  simp only [createOther, allPlain_append]
  exact ⟨by split <;> simp, by simp⟩

theorem drop_plain {objectKind : String} {names : List String} {ifExists : Bool} :
    AllPlain s.matrix (drop s w n objectKind names ifExists) := by
  simp only [drop, allPlain_cons, allPlain_append]
  refine ⟨by simp, by simp, ?_⟩
  intro r hr
  obtain ⟨name, -, hr⟩ := List.mem_flatMap.mp hr
  exact nameReports_plain r hr

-- procedures

theorem variableDecl_plain {name : String} : AllPlain s.matrix (variableDecl s n name) := by
  simp only [variableDecl, allPlain_append]
  refine ⟨lengthReports_plain, ?_⟩
  split <;> simp

theorem tableVariableDecl_plain {name : String} :
    AllPlain s.matrix (tableVariableDecl s n name) := by
  simp [tableVariableDecl]

theorem cursorDecl_plain {names : List String} : AllPlain s.matrix (cursorDecl site names) := by
  simp only [cursorDecl, allPlain_cons, allPlain_map]
  exact ⟨by split <;> simp, by simp⟩

theorem sessionOption_plain {value option : String} :
    (sessionOption s value line option).question.IsPlain s.matrix := by
  unfold sessionOption
  split
  · rename_i h
    exact ⟨rfl, h⟩
  · simp

theorem setOption_plain {names : List String} {value : String} :
    AllPlain s.matrix (setOption s site names value) := by
  simp [setOption, sessionOption_plain]

theorem returnValue_plain : AllPlain s.matrix (returnValue s site) := by
  simp only [returnValue]
  split
  · simp
  · split <;> simp

theorem callee_plain {procedure : String} : AllPlain s.matrix (callee s w n procedure) := by
  simp only [callee]
  split_ifs <;> simp

theorem execute_plain {procedure : Option String} {names : List String} :
    AllPlain s.matrix (execute s w n procedure names) := by
  simp only [execute, allPlain_append]
  refine ⟨by simp, ?_⟩
  split
  · exact callee_plain
  · simp

theorem raiserror_plain {names : List String} : AllPlain s.matrix (raiserror s n names) := by
  simp [raiserror]

theorem throw_plain : AllPlain s.matrix (throw s n) := by
  simp [throw]

/-- The construct is a condition on the row at a cursor, which is reported like a statement. -/
def atCursor : Kind → Bool
  | .cursorOp op _ _ => op == "CURRENT OF"
  | _ => false

/-- What a condition on the row at a cursor asks the matrix for. -/
def atCursorQuestion : Question := .item Topic.cursors.name (some "CURRENT OF")

theorem cursorOp_plain {op cursor : String} {orientation : Option String}
    (h : Kind.Fits (.cursorOp op cursor orientation) n.children)
    (hat : atCursor (.cursorOp op cursor orientation) = false) :
    AllPlain s.matrix (cursorOp n op cursor orientation) := by
  have hop : op = "CURRENT OF" ∨ op ∈ cursorStatements := by simpa [Kind.Fits] using h
  have hmem : op ∈ cursorStatements := hop.resolve_left (by simpa [atCursor] using hat)
  have hspeaks : Topic.cursors.speaks op := by simp [hmem]
  simp only [cursorOp, allPlain_cons, allPlain_toList, Option.map_eq_some_iff]
  refine ⟨Report.isPlain_item hspeaks, ?_⟩
  rintro r ⟨o, -, rfl⟩
  simp

/-- Every construct but one keeps to the vocabulary. -/
theorem reports_plain (h : site.kind.Fits site.node.children) (hat : atCursor site.kind = false) :
    AllPlain s.matrix (reports s w site) := by
  obtain ⟨⟨id, kind, line, start, stop, children⟩, above⟩ := site
  cases kind <;> simp only [reports]
  -- these are bound by what the parser can build
  case join => exact join_plain h
  case columnAssignment => exact columnAssignment_plain h
  case variableAssignment => exact variableAssignment_plain h
  case cursorOp => exact cursorOp_plain h hat
  case cte => exact cte_plain
  case top => exact top_plain
  case tableRef => exact tableRef_plain
  case tableFunction => exact tableFunction_plain
  case insert => exact insert_plain
  case values => exact values_plain
  case update => exact update_plain
  case delete => exact delete_plain
  case merge => exact merge_plain
  case output => exact output_plain
  case truncate => exact truncate_plain
  case createTable => exact createTable_plain
  case alterTable => exact alterTable_plain
  case alterTableAction => exact alterTableAction_plain
  case columnDef => exact columnDef_plain
  case dataType => exact dataType_plain
  case columnAttribute => exact columnAttribute_plain
  case computedColumn => exact computedColumn_plain
  case constraint => exact constraint_plain
  case createView => exact createView_plain
  case createProcedure => exact createProcedure_plain
  case parameter => exact parameter_plain
  case createFunction => exact createFunction_plain
  case createTrigger => exact createTrigger_plain
  case createIndex => exact createIndex_plain
  case createType => exact createType_plain
  case createOther => exact createOther_plain
  case drop => exact drop_plain
  case variableDecl => exact variableDecl_plain
  case tableVariableDecl => exact tableVariableDecl_plain
  case cursorDecl => exact cursorDecl_plain
  case setOption => exact setOption_plain
  case returnValue => exact returnValue_plain
  case execute => exact execute_plain
  case raiserror => exact raiserror_plain
  case throw => exact throw_plain
  case identifier => exact identifier_plain
  case functionCall => exact functionCall_plain
  case window => exact window_plain
  case binaryOp => exact binaryOp_plain
  case comparison => exact comparison_plain
  case setOperation operator => cases operator <;> simp [SetOperator.text]
  case groupBy modifier => cases modifier <;> simp
  case orderBy hasOffset => cases hasOffset <;> simp
  case block kind => cases kind <;> simp
  case execArg isOutput => cases isOutput <;> simp
  case unaryOp op =>
    by_cases hop : op = "~"
    · subst hop
      simp
    · simp [hop]
  all_goals simp

/-- One of the reports on a condition on the row at a cursor leaves the vocabulary. -/
theorem reports_atCursor (hat : atCursor site.kind) :
    (∃ r ∈ reports s w site, r.question = atCursorQuestion) ∧
      ∀ r ∈ reports s w site, r.question = atCursorQuestion ∨ r.question.IsPlain s.matrix := by
  obtain ⟨⟨id, kind, line, start, stop, children⟩, above⟩ := site
  unfold atCursor at hat
  split at hat
  · rename_i op cursor orientation hkind
    obtain rfl : op = "CURRENT OF" := by simpa using hat
    obtain rfl : kind = .cursorOp "CURRENT OF" cursor orientation := hkind
    simp only [reports, cursorOp]
    refine ⟨⟨_, List.mem_cons_self, rfl⟩, fun r hr => ?_⟩
    rcases List.mem_cons.mp hr with rfl | hr
    · exact Or.inl rfl
    · obtain ⟨o, -, rfl⟩ := Option.map_eq_some_iff.mp (Option.mem_toList.mp hr)
      exact Or.inr (by simp)
  · cases hat

/-- What a query leaves behind keeps to the vocabulary. -/
theorem closingReports_plain : AllPlain s.matrix (closingReports s w n) := by
  unfold closingReports
  split
  · split
    · exact closing_plain
    · simp
  · simp

end Survey

namespace Analysis

theorem directiveReports_plain {m : Matrix} (b : Batch) : AllPlain m (directiveReports b) := by
  simp only [directiveReports, allPlain_append, allPlain_map]
  refine ⟨by simp, ?_⟩
  split <;> simp

end Analysis

end Portability
