import Portability.Proofs.Casing.Reports

/-! The reports on each construct are the same up to case. -/
namespace Portability.Survey

variable {s : Scope} {w w' : Walk} {n : Node} {site : Site} {raw : String} {line : Nat}

/-! ### Queries -/

theorem nodes_fold (n : Node) : n.fold.nodes = n.nodes.map Node.fold := by
  have hsites := sitesFrom_fold n []
  rw [List.map_nil] at hsites
  simp [Node.nodes, Node.sites, hsites, Function.comp_def]

/-- A reference to a common table expression is found however either name is spelled. -/
theorem refersTo_fold (name : String) (kind : Kind) :
    refersTo (Text.lower name) kind.fold = refersTo name kind := by
  cases kind
  case tableRef => simp [refersTo, Kind.fold]
  all_goals rfl

/-- Whether a common table expression is recursive does not depend on case. -/
theorem cte_fold (name : String) :
    (cte s.fold n.fold (Text.lower name)).map Report.fold = (cte s n name).map Report.fold := by
  simp [cte, nodes_fold, ← List.map_tail, Function.comp_def, refersTo_fold]

theorem topOwner?_fold (kind : Kind) : topOwner? kind.fold = topOwner? kind := by
  cases kind <;> rfl

/-- The variants of `TOP` depend on its owner and on the kind of its count, never on a text. -/
theorem top_fold {percent withTies : Bool} :
    (top s.fold site.fold percent withTies).map Report.fold =
      (top s site percent withTies).map Report.fold := by
  have howner : site.fold.parentKind?.bind topOwner? = site.parentKind?.bind topOwner? := by
    rw [site.parentKind?_fold]
    cases site.parentKind? <;> simp [topOwner?_fold]
  unfold top
  simp only [howner, Site.node_fold, Node.firstKind?_fold]
  generalize site.parentKind?.bind topOwner? = owner?
  cases site.node.firstKind? with
  | none => cases owner? <;> simp
  | some kind => cases owner? <;> cases kind <;> simp [Kind.fold]

/-- `INSERTED` and `DELETED` are recognized in any case. -/
theorem isPseudoTable_fold (name : Name) : isPseudoTable name.fold = isPseudoTable name := by
  simp [isPseudoTable]

/-- A table is judged by its resolved name, which is the same up to case. -/
theorem tableRef_fold (h : w.Alike w') :
    (tableRef s.fold w site.fold (Text.lower raw)).map Report.fold =
      (tableRef s w' site raw).map Report.fold := by
  unfold tableRef
  rw [site.isInside_fold fun k => by cases k <;> rfl]
  cases hschema : (Name.resolve raw).schema? <;>
    simp [hschema, h.isMultiEvent, Scope.nameReports_fold h, isPseudoTable_fold, Text.lower_upper]

/-- Built-in table functions are looked up in capitals, and other names as they resolve. -/
theorem tableFunction_fold (h : w.Alike w') :
    (tableFunction s.fold w n.fold (Text.lower raw)).map Report.fold =
      (tableFunction s w' n raw).map Report.fold := by
  simp only [tableFunction, Name.resolve_lower, Name.object_fold, Name.partCount_fold,
    Text.upper_lower, Scope.symbols_fold, Scope.key_fold, Scope.knows_fold]
  split <;> simp [Scope.nameReports_fold h]

theorem join_fold (kind : JoinKind) (hint : Option String) :
    (join n.fold kind hint).map Report.fold = (join n kind hint).map Report.fold := by
  simp [join]

/-- The hinted table is named as it is spelled: the two names differ in case only. -/
theorem lower_hintedTable_fold :
    Text.lower (hintedTable site.fold) = Text.lower (hintedTable site) := by
  unfold hintedTable
  rw [site.parentKind?_fold]
  cases site.parentKind? with
  | none => rfl
  | some kind =>
    cases kind
    case tableRef => exact Text.lower_lower _
    all_goals rfl

theorem closing_fold (q : OpenQuery) :
    (closing s.fold n.fold q).map Report.fold = (closing s n q).map Report.fold := by
  simp [closing]

/-! ### Changes of data -/

/-- The first character of a target and its parenthesis have no case, so the same targets are
judged. -/
theorem target_fold (h : w.Alike w') (statement : String) :
    (target s.fold w (Text.lower raw) statement line).map Report.fold =
      (target s w' raw statement line).map Report.fold := by
  have hat := Text.beq_head?_lower (s := raw) Text.isCaseless_at
  have hparen : (Text.lower raw).toList.contains '(' = raw.toList.contains '(' := by
    rw [Bool.eq_iff_iff]
    simp [Text.toList_lower, Text.toLower_eq_iff (show Text.IsCaseless '(' by decide)]
  unfold target
  simp only [Text.isEmpty_lower, hat, hparen]
  split
  · rfl
  · simp [Scope.nameReports_fold h]

theorem insertForm?_fold (part : Node) : insertForm? part.fold = insertForm? part := by
  unfold insertForm?
  rw [part.kind_fold]
  cases part.kind <;> rfl

theorem insert_fold (h : w.Alike w') :
    (insert s.fold w n.fold (Text.lower raw)).map Report.fold =
      (insert s w' n raw).map Report.fold := by
  simp [insert, target_fold h, List.findSome?_map, Function.comp_def, insertForm?_fold]

theorem values_fold (rows : Nat) :
    (values site.fold rows).map Report.fold = (values site rows).map Report.fold := by
  unfold values
  rw [site.parentKind?_fold]
  cases site.parentKind? with
  | none => simp
  | some kind => cases kind <;> simp [Kind.fold]

theorem hasFrom_fold : hasFrom n.fold = hasFrom n := n.hasChild_fold fun k => by cases k <;> rfl

theorem assignment?_fold (part : Node) :
    assignment? part.fold = (assignment? part).map (Prod.map Node.fold Text.lower) := by
  unfold assignment?
  rw [part.kind_fold]
  cases part.kind <;> rfl

/-- Names are searched for in the text of a value without regard to case. -/
theorem mentionsOther_fold (names : List String) (name : String) {text text' : String}
    (h : Text.lower text = Text.lower text') :
    mentionsOther (names.map Text.lower) (Text.lower name) text =
      mentionsOther names name text' := by
  have hcontains : ∀ other : String,
      Text.containsFolded (Text.lower other).toList text.toList =
        Text.containsFolded other.toList text'.toList := by
    intro other
    rw [← Text.containsFolded_toLower, ← Text.containsFolded_toLower other.toList]
    simp only [← Text.toList_lower, Text.lower_lower, h]
  simp [mentionsOther, Function.comp_def, hcontains]

/-- The same assignments depend on one another: names and texts are compared without regard to case.
-/
theorem dependencies_fold :
    (dependencies s.fold n.fold).map Report.fold = (dependencies s n).map Report.fold := by
  have hassignments : n.fold.children.filterMap assignment? =
      (n.children.filterMap assignment?).map (Prod.map Node.fold Text.lower) := by
    simp [List.filterMap_map, List.map_filterMap, assignment?_fold]
  unfold dependencies
  simp only [hassignments]
  generalize n.children.filterMap assignment? = assignments
  have hnames : (assignments.map (Prod.map Node.fold Text.lower)).map (·.2) =
      (assignments.map (·.2)).map Text.lower := by simp
  rw [List.length_map, hnames]
  split
  · rfl
  · rw [List.filterMap_map, List.map_filterMap, List.map_filterMap]
    refine List.filterMap_congr fun p _ => ?_
    obtain ⟨node, name⟩ := p
    cases hvalue : node.children.head? with
    | none => simp [hvalue]
    | some value =>
      have htext : Text.lower (s.fold.tree.text value.fold) = Text.lower (s.tree.text value) :=
        s.tree.lower_text_fold value
      simp only [Function.comp_apply, Prod.map_apply, Node.children_fold, List.head?_map, hvalue,
        Option.map_some, mentionsOther_fold _ _ htext]
      split <;> simp

theorem update_fold (h : w.Alike w') :
    (update s.fold w n.fold (Text.lower raw)).map Report.fold =
      (update s w' n raw).map Report.fold := by
  simp [update, target_fold h, hasFrom_fold, dependencies_fold]

theorem delete_fold (h : w.Alike w') :
    (delete s.fold w n.fold (Text.lower raw)).map Report.fold =
      (delete s w' n raw).map Report.fold := by
  simp [delete, target_fold h, hasFrom_fold]

theorem merge_fold (h : w.Alike w') :
    (merge s.fold w n.fold (Text.lower raw)).map Report.fold =
      (merge s w' n raw).map Report.fold := by
  simp [merge, target_fold h]

theorem output_fold (h : w.Alike w') (into : Option String) :
    (output s.fold w n.fold (into.map Text.lower)).map Report.fold =
      (output s w' n into).map Report.fold := by
  cases into with
  | none => simp [output]
  | some raw =>
    have hat := Text.beq_head?_lower (s := raw) Text.isCaseless_at
    simp only [output, Option.map_some, hat]
    split <;> simp [Scope.nameReports_fold h]

theorem truncate_fold (h : w.Alike w') :
    (truncate s.fold w n.fold (Text.lower raw)).map Report.fold =
      (truncate s w' n raw).map Report.fold := by
  simp [truncate, target_fold h]

/-- A call of the method `WRITE` is recognized in any case. -/
theorem methodItem_fold : methodItem n.fold = methodItem n := by
  have hcall : ∀ name, Text.same (Name.resolve (foldCall name)).object "WRITE" =
      Text.same (Name.resolve name).object "WRITE" := by
    intro name
    unfold foldCall
    split <;> simp
  unfold methodItem
  rw [n.firstKind?_fold]
  cases n.firstKind? with
  | none => rfl
  | some kind =>
    cases kind
    case functionCall => simp [Kind.fold, hcall]
    all_goals rfl

theorem columnAssignment_fold (column operator : String) :
    (columnAssignment s.fold n.fold (Text.lower column) operator).map Report.fold =
      (columnAssignment s n column operator).map Report.fold := by
  unfold columnAssignment
  split <;> simp [methodItem_fold]

/-- The type of the assigned variable is found under either spelling of its name. -/
theorem dateTimeAssignment_fold (name : String) (value : Node) :
    (dateTimeAssignment s.fold (Text.lower name) value.fold line).map Report.fold =
      (dateTimeAssignment s name value line).map Report.fold := by
  unfold dateTimeAssignment
  simp only [Scope.symbols_fold, SymbolTable.variableType?_lower]
  split <;> simp

/-- Where an assignment stands is read off the kinds above it. -/
theorem assignmentItem_fold : assignmentItem site.fold = assignmentItem site := by
  unfold assignmentItem
  rw [site.parentKind?_fold]
  cases site.parentKind? with
  | none => rfl
  | some kind => cases kind <;> rfl

theorem variableAssignment_fold (name operator : String) :
    (variableAssignment s.fold site.fold (Text.lower name) operator).map Report.fold =
      (variableAssignment s site name operator).map Report.fold := by
  simp only [variableAssignment, List.map_cons, assignmentItem_fold]
  split
  · cases hvalue : site.node.children.head? <;>
      simp [hvalue, dateTimeAssignment_fold]
  · simp

/-! ### Definitions -/

theorem createTable_fold (h : w.Alike w') :
    (createTable s.fold w n.fold (Text.lower raw)).map Report.fold =
      (createTable s w' n raw).map Report.fold := by
  simp [createTable, Scope.nameReports_fold h]

theorem elementCount_fold : elementCount n.fold = elementCount n := by
  simp [elementCount, List.foldr_map]

theorem alterTable_fold (h : w.Alike w') :
    (alterTable s.fold w n.fold (Text.lower raw)).map Report.fold =
      (alterTable s w' n raw).map Report.fold := by
  simp [alterTable, Scope.nameReports_fold h, elementCount_fold]

theorem alterTableAction_fold (action : String) :
    (alterTableAction n.fold action).map Report.fold =
      (alterTableAction n action).map Report.fold := by
  simp [alterTableAction]

theorem columnDef_fold :
    (columnDef s.fold n.fold (Text.lower raw)).map Report.fold =
      (columnDef s n raw).map Report.fold := by
  simp [columnDef]

/-- A type is first looked up among the declared ones, by a key without case, then by its base name.
-/
theorem dataType_fold (h : w.Alike w') (args : Option String) :
    (dataType s.fold w n.fold (Text.lower raw) args).map Report.fold =
      (dataType s w' n raw args).map Report.fold := by
  simp only [dataType, Scope.symbols_fold, Scope.key_fold, Name.resolve_lower, Name.schema?_fold,
    Category.baseTypeName_lower, Scope.knows_fold]
  cases s.symbols.typeBase? (s.key raw) with
  | some base => simp
  | none =>
    cases (Name.resolve raw).schema? <;> simp only [Option.map_none, Option.map_some,
      Text.same_lower_left]
    all_goals
      split
      · simp
      · split <;> simp [Scope.nameReports_fold h]

theorem columnAttribute_fold (text : String) :
    (columnAttribute n.fold text).map Report.fold = (columnAttribute n text).map Report.fold := by
  simp [columnAttribute]

theorem computedColumn_fold (persisted : Bool) :
    (computedColumn s.fold n.fold persisted).map Report.fold =
      (computedColumn s n persisted).map Report.fold := by
  simp [computedColumn]

/-- The owner of a constraint is told by the kinds above it; names do not matter. -/
theorem constraintOwner_fold : constraintOwner site.fold = constraintOwner site := by
  have howner : ∀ kind : Kind, constraintOwner? kind.fold = constraintOwner? kind :=
    fun kind => by cases kind <;> rfl
  simp [constraintOwner, List.findSome?_map, Function.comp_def, howner]

theorem constraint_fold (name : Option String) (kind : ConstraintKind) (clustered : Option Bool)
    (names : List String) :
    (constraint s.fold site.fold (name.map Text.lower) kind clustered names).map Report.fold =
      (constraint s site name kind clustered names).map Report.fold := by
  cases name <;> cases clustered <;> simp [constraint, constraintOwner_fold]

theorem verb_fold (v : Verb) (object name : String) :
    (verb v object (Text.lower name) line).map Report.fold =
      (verb v object name line).map Report.fold := by
  simp [verb]

theorem createView_fold (h : w.Alike w') (v : Verb) (names : List String) (checkOption : Bool) :
    (createView s.fold w n.fold (Text.lower raw) v names checkOption).map Report.fold =
      (createView s w' n raw v names checkOption).map Report.fold := by
  simp [createView, Scope.nameReports_fold h, verb_fold]

theorem createProcedure_fold (h : w.Alike w') (v : Verb) (names : List String)
    (number : Option Nat) :
    (createProcedure s.fold w n.fold (Text.lower raw) v names number).map Report.fold =
      (createProcedure s w' n raw v names number).map Report.fold := by
  cases number <;> simp [createProcedure, Scope.nameReports_fold h, verb_fold]

/-- The declared table types are found under either spelling. -/
theorem hasTableType_fold : hasTableType s.fold n.fold = hasTableType s n := by
  unfold hasTableType
  rw [n.child?_fold fun k => by cases k <;> rfl]
  cases n.child? _ with
  | none => rfl
  | some type =>
    simp only [Option.map_some, Node.kind_fold]
    cases type.kind
    case dataType => simp [Kind.fold]
    all_goals rfl

theorem parameter_fold (name : String) (isOutput readonly hasDefault : Bool) :
    (parameter s.fold n.fold (Text.lower name) isOutput readonly hasDefault).map Report.fold =
      (parameter s n name isOutput readonly hasDefault).map Report.fold := by
  simp [parameter, hasTableType_fold]

theorem createFunction_fold (h : w.Alike w') (v : Verb) (kind : FunctionKind)
    (names : List String) :
    (createFunction s.fold w n.fold (Text.lower raw) v kind names).map Report.fold =
      (createFunction s w' n raw v kind names).map Report.fold := by
  simp [createFunction, Scope.nameReports_fold h, verb_fold]

/-- The watched table of a trigger is judged as a name; the other scopes have none. -/
theorem triggerScope_fold (h : w.Alike w') (watched : String) (scope : TriggerScope)
    (timing : String) (events : List String) :
    (triggerScope s.fold w (Text.lower raw) (Text.lower watched) scope timing events line).map
        Report.fold =
      (triggerScope s w' raw watched scope timing events line).map Report.fold := by
  cases scope <;> simp [triggerScope, Scope.nameReports_fold h]

theorem createTrigger_fold (h : w.Alike w') (v : Verb) (watched : String) (scope : TriggerScope)
    (timing : String) (events names : List String) :
    (createTrigger s.fold w n.fold (Text.lower raw) v (Text.lower watched) scope timing events
        names).map Report.fold =
      (createTrigger s w' n raw v watched scope timing events names).map Report.fold := by
  simp [createTrigger, Scope.nameReports_fold h, triggerScope_fold h, verb_fold]

theorem createIndex_fold (h : w.Alike w') (name table : String) (unique : Bool)
    (clustered : Option Bool) (kind : Option String) (included filtered : Bool)
    (names : List String) :
    (createIndex s.fold w n.fold (Text.lower name) (Text.lower table) unique clustered kind included
        filtered names).map Report.fold =
      (createIndex s w' n name table unique clustered kind included filtered names).map
        Report.fold := by
  simp [createIndex, Scope.nameReports_fold h]

theorem createType_fold (h : w.Alike w') (base : Option String) (isTable : Bool) :
    (createType s.fold w n.fold (Text.lower raw) (base.map Text.lower) isTable).map Report.fold =
      (createType s w' n raw base isTable).map Report.fold := by
  cases base <;> simp [createType, Scope.nameReports_fold h]

/-- An object without a name is none in both sources. -/
theorem createOther_fold (h : w.Alike w') (objectKind : String) :
    (createOther s.fold w n.fold objectKind (Text.lower raw)).map Report.fold =
      (createOther s w' n objectKind raw).map Report.fold := by
  simp only [createOther, Text.isEmpty_lower]
  split <;> simp [Scope.nameReports_fold h]

/-- Every dropped name gives the reports of its own, and the list of them is shown as spelled. -/
theorem drop_fold (h : w.Alike w') (objectKind : String) (names : List String) (ifExists : Bool) :
    (drop s.fold w n.fold objectKind (names.map Text.lower) ifExists).map Report.fold =
      (drop s w' n objectKind names ifExists).map Report.fold := by
  simp [drop, Text.lower_intercalate, List.flatMap_map, List.map_flatMap, Function.comp_def,
    Scope.nameReports_fold h]

/-! ### Procedures -/

theorem variableDecl_fold (name : String) :
    (variableDecl s.fold n.fold (Text.lower name)).map Report.fold =
      (variableDecl s n name).map Report.fold := by
  simp only [variableDecl, Node.children_fold, List.getElem?_map]
  cases n.children[1]? <;> simp [dateTimeAssignment_fold]

theorem tableVariableDecl_fold (name : String) :
    (tableVariableDecl s.fold n.fold (Text.lower name)).map Report.fold =
      (tableVariableDecl s n name).map Report.fold := by
  simp [tableVariableDecl]

theorem cursorDecl_fold (names : List String) :
    (cursorDecl site.fold names).map Report.fold = (cursorDecl site names).map Report.fold := by
  unfold cursorDecl
  rw [site.parentKind?_fold]
  cases site.parentKind? with
  | none => simp
  | some kind => cases kind <;> simp [Kind.fold]

/-- Whether a setting has a value that can be judged: an empty one and a variable have none. -/
theorem optionValue?_foldSetting (value : String) :
    (optionValue? (foldSetting value)).map Text.lower = (optionValue? value).map Text.lower := by
  have hempty : (foldSetting value).isEmpty = value.isEmpty := by
    rw [← Text.isEmpty_lower, lower_foldSetting, Text.isEmpty_lower]
  have hat : ((foldSetting value).toList.head? == some '@') = (value.toList.head? == some '@') := by
    rw [← Text.beq_head?_lower Text.isCaseless_at, lower_foldSetting,
      Text.beq_head?_lower Text.isCaseless_at]
  unfold optionValue?
  rw [hempty, hat]
  split
  · rfl
  · simp [lower_foldSetting]

/-- A setting is judged with its value if the matrix has a rule for that argument, else without it.
-/
theorem sessionOption_fold (value option : String) :
    (sessionOption s.fold (foldSetting value) line option).fold =
      (sessionOption s value line option).fold := by
  unfold sessionOption
  rw [Scope.matrix_fold]
  by_cases hrule : s.matrix.hasArgumentRule Topic.setOptions.name option 1
  · rw [if_pos hrule, if_pos hrule]
    obtain ⟨hfolded, hplain⟩ | ⟨_, _, hfolded, hplain, hvalue⟩ :=
      eq_none_or_of_map_eq (optionValue?_foldSetting value)
    · simp [hfolded, hplain, Report.fold, Question.fold, lower_foldSetting]
    · simp [hfolded, hplain, Report.fold, Question.fold, hvalue, lower_foldSetting]
  · rw [if_neg hrule, if_neg hrule]
    simp [lower_foldSetting]

/-- `ON` and `OFF` are told from other values in any case, and so are the flags that follow later.
-/
theorem setOption_fold (names : List String) (value : String) :
    (setOption s.fold site.fold names (foldSetting value)).map Report.fold =
      (setOption s site names value).map Report.fold := by
  simp [setOption, Function.comp_def, sessionOption_fold, lower_foldSetting,
    Kind.quotedIdentifier?_fold, Site.isInRoutine_fold, Tree.endsWithOptions_fold]

theorem returnValue_fold :
    (returnValue s.fold site.fold).map Report.fold = (returnValue s site).map Report.fold := by
  unfold returnValue
  rw [site.isInside_fold fun k => by cases k <;> rfl]
  split
  · rfl
  · cases hvalue : site.node.children.head? <;> simp [hvalue]

/-- Variables, `sp_executesql` and system procedures are told from other procedures in any case. -/
theorem callee_fold (h : w.Alike w') (procedure : String) :
    (callee s.fold w n.fold (Text.lower procedure)).map Report.fold =
      (callee s w' n procedure).map Report.fold := by
  have hat := Text.beq_head?_lower (s := procedure) Text.isCaseless_at
  simp only [callee, hat, Name.resolve_lower, Name.object_fold, Text.same_lower_left,
    Text.startsWith_lower, Text.upper_lower]
  split
  · simp
  · split
    · simp
    · split <;> simp [Scope.nameReports_fold h]

theorem execute_fold (h : w.Alike w') (procedure : Option String) (names : List String) :
    (execute s.fold w n.fold (procedure.map Text.lower) names).map Report.fold =
      (execute s w' n procedure names).map Report.fold := by
  cases procedure <;> simp [execute, callee_fold h]

theorem raiserror_fold (names : List String) :
    (raiserror s.fold n.fold names).map Report.fold = (raiserror s n names).map Report.fold := by
  simp [raiserror]

theorem throw_fold :
    (throw s.fold n.fold).map Report.fold = (throw s n).map Report.fold := by
  simp [throw]

theorem cursorOp_fold (op cursor : String) (orientation : Option String) :
    (cursorOp n.fold op (Text.lower cursor) orientation).map Report.fold =
      (cursorOp n op cursor orientation).map Report.fold := by
  cases orientation <;> simp [cursorOp]

/-! ### Expressions -/

/-- A name in double quotes is a string while quoted identifiers are off, whatever its letters. -/
theorem identifier_fold (name : String) (quote : Option Quote) :
    (identifier s.fold n.fold (Text.lower name) quote).map Report.fold =
      (identifier s n name quote).map Report.fold := by
  by_cases hstring : quote = some .double ∧ s.quotedIdentifier = false
  · simp [identifier, hstring]
  · rw [identifier, if_neg (by exact hstring), identifier, if_neg hstring]
    simp

/-- The arguments of a call are its parts without a window at the end. -/
theorem arguments_fold : arguments n.fold = (arguments n).map Node.fold := by
  unfold arguments
  rw [Node.children_fold, List.getLast?_map]
  cases n.children.getLast? with
  | none => simp
  | some last =>
    simp only [Option.map_some, Node.kind_fold]
    cases last.kind
    case window => exact List.map_dropLast.symm
    all_goals rfl

/-- A quote has no case: what a quote opens and another one closes is unquoted in both. -/
theorem unquoted?_quote_toLower (rest : List Char) :
    unquoted? ('\x27' :: rest.map Char.toLower) =
      (unquoted? ('\x27' :: rest)).map (List.map Char.toLower) := by
  have hquote : Text.IsCaseless '\x27' := by decide
  have hlast : (rest.map Char.toLower).getLast? = some '\x27' ↔ rest.getLast? = some '\x27' := by
    simp [Text.toLower_eq_iff hquote]
  show (if (rest.map Char.toLower).getLast? = some '\x27' then
      some (Text.undoubleMark '\x27' (rest.map Char.toLower).dropLast) else none) =
    (if rest.getLast? = some '\x27' then some (Text.undoubleMark '\x27' rest.dropLast)
      else none).map (List.map Char.toLower)
  simp only [hlast, ← List.map_dropLast, Text.undoubleMark_toLower hquote]
  split <;> rfl

/-- The content of a string literal, with or without the mark of a national string. -/
theorem unquoted?_toLower (cs : List Char) :
    unquoted? (cs.map Char.toLower) = (unquoted? cs).map (List.map Char.toLower) := by
  have hquote : ∀ c : Char, c.toLower = '\x27' ↔ c = '\x27' :=
    fun c => Text.toLower_eq_iff (by decide)
  rcases cs with _ | ⟨c, rest⟩
  · rfl
  by_cases hn : c = 'N' ∨ c = 'n'
  · -- the mark of a national string stands before the quote, in either case
    rcases rest with _ | ⟨d, more⟩
    · rcases hn with rfl | rfl <;> rfl
    · by_cases hd : d = '\x27'
      · subst hd
        rcases hn with rfl | rfl <;> exact unquoted?_quote_toLower more
      · rcases hn with rfl | rfl <;> simp [unquoted?, hd, hquote]
  · by_cases hc : c = '\x27'
    · subst hc
      exact unquoted?_quote_toLower rest
    · have hletter := Text.apply_toLower (f := fun c => decide (c = 'N' ∨ c = 'n')) (by decide) c
      have hn' : ¬ (c.toLower = 'N' ∨ c.toLower = 'n') := by
        rwa [decide_eq_decide.mp hletter]
      push Not at hn hn'
      simp [unquoted?, hn, hn', hc, hquote]

/-- The value of an argument is the same up to case, whether it is a literal, a name or a null. -/
theorem argumentValue?_fold (arg : Node) :
    (argumentValue? s.fold arg.fold).map Text.lower = (argumentValue? s arg).map Text.lower := by
  have htext : (Text.trimChars (s.fold.tree.text arg.fold).toList).map Char.toLower =
      (Text.trimChars (s.tree.text arg).toList).map Char.toLower := by
    simp only [← Text.trimChars_toLower, ← Text.toList_lower, Scope.tree_fold,
      s.tree.lower_text_fold]
  have hquoted := congrArg unquoted? htext
  rw [unquoted?_toLower, unquoted?_toLower] at hquoted
  have hupper : ∀ cs : List Char, Text.lower (Text.upper (String.ofList cs)) =
      String.ofList (cs.map Char.toLower) := fun cs => by rw [Text.lower_upper, Text.lower_ofList]
  unfold argumentValue?
  rw [arg.kind_fold]
  dsimp only
  generalize Text.trimChars (s.fold.tree.text arg.fold).toList = folded,
    Text.trimChars (s.tree.text arg).toList = plain at htext hquoted
  cases arg.kind
  case literal kind =>
    have hvalue := congrArg (Option.map String.ofList) hquoted
    cases kind <;>
      simp [Kind.fold, Function.comp_def, hupper, Text.lower_ofList, htext] at hvalue ⊢ <;>
      exact hvalue
  case identifier name quote => cases quote <;> simp [Kind.fold, Text.upper_lower]
  all_goals rfl

/-- The same argument decides a rule: the one at the first position with a rule for the function. -/
theorem judgedArgument?_fold (function : String) (args : List Node) :
    (judgedArgument? s.fold function (args.map Node.fold)).map CallArgument.fold =
      (judgedArgument? s function args).map CallArgument.fold := by
  unfold judgedArgument?
  rw [List.zipIdx_map, List.findSome?_map, List.map_findSome?, List.map_findSome?]
  refine congrArg (fun f => List.findSome? f args.zipIdx) (funext fun p => ?_)
  obtain ⟨arg, i⟩ := p
  have hvalue := argumentValue?_fold (s := s) arg
  by_cases hrule : s.matrix.hasArgumentRule Topic.builtInFunctions.name function (i + 1)
  · have hdetail : Text.lower ((argumentValue? s.fold arg.fold).getD (s.fold.text arg.fold)) =
        Text.lower ((argumentValue? s arg).getD (s.text arg)) := by
      obtain ⟨hfolded, hplain⟩ | ⟨_, _, hfolded, hplain, hsame⟩ := eq_none_or_of_map_eq hvalue
      · simp [hfolded, hplain]
      · simp [hfolded, hplain, hsame]
    simp [hrule, CallArgument.fold, hvalue, hdetail]
  · simp [hrule]

/-- The arguments at the positions of dates have the same categories. -/
theorem dateArguments_fold (function : String) (args : List Node) :
    (dateArguments s.fold n.fold function (args.map Node.fold)).map Report.fold =
      (dateArguments s n function args).map Report.fold := by
  have hargs : ∀ positions : List Nat,
      (positions.filterMap fun p => (args.map Node.fold)[p - 1]?) =
        (positions.filterMap fun p => args[p - 1]?).map Node.fold := by
    intro positions
    simp [List.map_filterMap]
  simp only [dateArguments, hargs, List.filter_map]
  simp [Function.comp_def]

theorem builtInCall_fold (function : String) :
    (builtInCall s.fold site.fold function).map Report.fold =
      (builtInCall s site function).map Report.fold := by
  have hjudged := judgedArgument?_fold (s := s) function (arguments site.node)
  unfold builtInCall
  rw [site.isInside_fold fun k => by cases k <;> rfl]
  simp [arguments_fold, dateArguments_fold, Report.fold, Question.fold, hjudged]

theorem isAssignedMethod_fold : isAssignedMethod site.fold = isAssignedMethod site := by
  unfold isAssignedMethod
  rw [site.parentKind?_fold]
  cases site.parentKind? with
  | none => rfl
  | some kind => cases kind <;> rfl

/-- A call is one of a declared function, of a built-in one or of another object in both sources. -/
theorem namedCall_fold (h : w.Alike w') :
    (namedCall s.fold w site.fold (Text.lower raw)).map Report.fold =
      (namedCall s w' site raw).map Report.fold := by
  simp only [namedCall, Name.resolve_lower, Name.object_fold, Name.partCount_fold, Text.upper_lower,
    Scope.symbols_fold, Scope.key_fold, Scope.knows_fold]
  split
  · simp
  · split
    · exact builtInCall_fold _
    · simp [Scope.nameReports_fold h]

/-- An escape, a method and a named call are told apart by characters without case. -/
theorem functionCall_fold (h : w.Alike w') :
    (functionCall s.fold w site.fold (foldCall raw)).map Report.fold =
      (functionCall s w' site raw).map Report.fold := by
  unfold functionCall
  rw [isAssignedMethod_fold]
  split
  · rfl
  by_cases hescape : raw = Parser.escapeCallName
  · subst hescape
    simp [foldCall, Parser.escapeCallName]
  · have hname : foldCall raw = Text.lower raw := if_neg hescape
    have hlower := lower_ne_escapeCallName raw
    have hnamed : (namedCall s.fold w site.fold (Text.lower raw)).map Report.fold =
        (namedCall s w' site raw).map Report.fold := namedCall_fold h
    rw [hname]
    dsimp only
    unfold Parser.escapeCallName at hescape hlower
    rw [if_neg hescape, if_neg hlower, Text.toList_lower]
    rcases raw.toList with _ | ⟨c, method⟩
    · exact hnamed
    · by_cases hc : c = '.'
      · subst hc
        simp [show Char.toLower '.' = '.' by decide, ← Text.lower_ofList, Text.lower_upper]
      · have hc' : c.toLower ≠ '.' := by rwa [Ne, Text.toLower_eq_iff (by decide)]
        simp [hc, hc', hnamed]

theorem window_fold (ordered : Bool) (frame : Option String) :
    (window n.fold ordered frame).map Report.fold = (window n ordered frame).map Report.fold := by
  simp [window]

theorem binaryItem?_fold (op : String) : binaryItem? s.fold n.fold op = binaryItem? s n op := by
  simp [binaryItem?, Function.comp_def]

theorem binaryOp_fold (op : String) :
    (binaryOp s.fold n.fold op).map Report.fold = (binaryOp s n op).map Report.fold := by
  simp only [binaryOp, binaryItem?_fold]
  cases binaryItem? s n op <;> simp

theorem isNull_fold (part : Node) : isNull part.fold = isNull part := by
  unfold isNull
  rw [part.kind_fold]
  cases part.kind <;> rfl

/-- The report on one operand that is compared with an error code. -/
theorem codeCheck_fold (check : CodeCheck) :
    (codeCheck s line check.fold).fold = (codeCheck s line check).fold := by
  cases check <;> simp [codeCheck, CodeCheck.fold, Report.fold, HandledCode.fold]

/-- The same variables hold error codes, so the same operands are examined. -/
theorem codeChecks_fold (h : w.Alike w') :
    (codeChecks s.fold w n.fold).map Report.fold = (codeChecks s w' n).map Report.fold := by
  have hreports : ∀ checks : List CodeCheck, (checks.map (codeCheck s n.line)).map Report.fold =
      (checks.map CodeCheck.fold).map fun check => (codeCheck s n.line check).fold := by
    intro checks
    simp [codeCheck_fold]
  unfold codeChecks
  rw [h.errors, hreports, ← w'.errors.examine_fold s.tree n, ← hreports]
  rw [n.line_fold]
  rfl

/-- A comparison with `NULL` is recognized, and error codes are examined. -/
theorem comparison_fold (h : w.Alike w') (op : String) :
    (comparison s.fold w n.fold op).map Report.fold = (comparison s w' n op).map Report.fold := by
  have hnull : n.fold.children.any isNull = n.children.any isNull := by
    simp [Function.comp_def, isNull_fold]
  simp only [comparison, List.map_append, codeChecks_fold h, hnull]
  split <;> simp

/-! ### All constructs -/

/-- What the survey reports at a node, kind by kind, on two sources that differ in case. -/
theorem reports_fold (h : w.Alike w') :
    (reports s.fold w site.fold).map Report.fold = (reports s w' site).map Report.fold := by
  simp only [reports, Site.node_fold, Node.kind_fold, Node.line_fold]
  cases site.node.kind <;> simp only [Kind.fold]
  case cte => exact cte_fold _
  case top => exact top_fold
  case tableRef => exact tableRef_fold h
  case tableFunction => exact tableFunction_fold h
  case join => exact join_fold _ _
  case insert => exact insert_fold h
  case values => exact values_fold _
  case update => exact update_fold h
  case delete => exact delete_fold h
  case merge => exact merge_fold h
  case output => exact output_fold h _
  case truncate => exact truncate_fold h
  case columnAssignment => exact columnAssignment_fold _ _
  case variableAssignment => exact variableAssignment_fold _ _
  case createTable => exact createTable_fold h
  case alterTable => exact alterTable_fold h
  case alterTableAction => exact alterTableAction_fold _
  case columnDef => exact columnDef_fold
  case dataType => exact dataType_fold h _
  case columnAttribute => exact columnAttribute_fold _
  case computedColumn => exact computedColumn_fold _
  case constraint => exact constraint_fold _ _ _ _
  case createView => exact createView_fold h _ _ _
  case createProcedure => exact createProcedure_fold h _ _ _
  case parameter => exact parameter_fold _ _ _ _
  case createFunction => exact createFunction_fold h _ _ _
  case createTrigger => exact createTrigger_fold h _ _ _ _ _ _
  case createIndex => exact createIndex_fold h _ _ _ _ _ _ _ _
  case createType => exact createType_fold h _ _
  case createOther => exact createOther_fold h _
  case drop => exact drop_fold h _ _ _
  case variableDecl => exact variableDecl_fold _
  case tableVariableDecl => exact tableVariableDecl_fold _
  case cursorDecl => exact cursorDecl_fold _
  case setOption => exact setOption_fold _ _
  case returnValue => exact returnValue_fold
  case execute => exact execute_fold h _ _
  case raiserror => exact raiserror_fold _
  case throw => exact throw_fold
  case cursorOp => exact cursorOp_fold _ _ _
  case identifier => exact identifier_fold _ _
  case functionCall => exact functionCall_fold h
  case window => exact window_fold _ _
  case binaryOp => exact binaryOp_fold _
  case comparison => exact comparison_fold h _
  case inList | between => exact codeChecks_fold h
  case into => exact Scope.nameReports_fold h _
  case querySpec => simp [dependencies_fold]
  case tableHint => simp [lower_hintedTable_fold]
  case groupBy modifier => cases modifier <;> simp
  case orderBy hasOffset => cases hasOffset <;> simp
  case block kind => cases kind <;> simp
  case execArg isOutput => cases isOutput <;> simp
  case unaryOp op =>
    by_cases hop : op = "~"
    · subst hop
      simp
    · simp [hop]
  case nextValueFor => simp [Scope.nameReports_fold h]
  all_goals simp

/-- What is reported once everything below a query has been seen. -/
theorem closingReports_fold (h : w.Alike w') :
    (closingReports s.fold w n.fold).map Report.fold =
      (closingReports s w' n).map Report.fold := by
  simp only [closingReports, Node.kind_fold, Node.id_fold, h.queries]
  cases n.kind <;> simp only [Kind.fold]
  case querySpec =>
    cases w'.queries.top? n.id with
    | none => rfl
    | some q => exact closing_fold q

end Portability.Survey
