import Mathlib
import Portability.Proofs.NameKeys
import Portability.Proofs.NameParts
import Portability.Proofs.QuotedIdentifier

/-! What its quoting does to a name. Columns and objects are judged by what stands between their
quotes; common table expressions, constraints, indexes and variables are judged as they are written,
so that for them brackets count. -/
namespace Portability

namespace Name

/-- The last part of a dotted name without its quoting. -/
def unquoted (raw : String) : String := (resolve raw).object

/-- Whichever way the parts of a name are written, the last one of them is read. -/
theorem unquoted_intercalate {parts texts : List String} (hne : parts ≠ [])
    (h : List.Forall₂ Identifier.Written parts texts) :
    unquoted (String.intercalate "." texts) = parts.getLast hne := by
  have hparts := parts_resolve_intercalate hne h
  have hlt : parts.length - 4 < parts.length := by
    have := List.length_pos_iff.mpr hne
    omega
  rw [unquoted, object, hparts, List.getLastD_eq_getLast?,
    List.getLast?_drop, if_neg (by omega), List.getLast?_eq_some_getLast hne, Option.getD_some]

end Name

/-! ### Reports on long names -/

theorem Topic.nodup_names : (all.map name).Nodup := by
  have hbytes : (all.map fun t => Text.bytes t.name).Nodup := by decide +kernel
  refine List.Nodup.of_map Text.bytes ?_
  simpa [Function.comp_def] using hbytes

@[simp] theorem Topic.name_inj {t u : Topic} : t.name = u.name ↔ t = u :=
  ⟨List.inj_on_of_nodup_map nodup_names (mem_all t) (mem_all u), congrArg name⟩

namespace Report

/-- The report says that an identifier is too long. -/
def isTooLong (r : Report) : Bool := r.question == .item Topic.identifierLength.name none

/-- The reports on identifiers that are too long. -/
def tooLong (rs : List Report) : List Report := rs.filter isTooLong

section

variable {r : Report} {rs rs' : List Report}

@[simp] theorem isTooLong_item (t : Topic) (name detail : String) (line : Nat) :
    (item t name detail line).isTooLong = false := by
  simp [isTooLong, item]

@[simp] theorem isTooLong_itemAs (t : Topic) (lookup display detail : String) (line : Nat) :
    (itemAs t lookup display detail line).isTooLong = false := by
  simp [isTooLong, itemAs]

theorem isTooLong_topic {t : Topic} (h : t ≠ .identifierLength) (display detail : String)
    (line : Nat) : (topic t display detail line).isTooLong = false := by
  simp [isTooLong, topic, h]

@[simp] theorem tooLong_nil : tooLong [] = [] := rfl

@[simp] theorem tooLong_cons_of_not (h : r.isTooLong = false) :
    tooLong (r :: rs) = tooLong rs :=
  List.filter_cons_of_neg (by simp [h])

@[simp] theorem tooLong_append : tooLong (rs ++ rs') = tooLong rs ++ tooLong rs' :=
  List.filter_append rs rs'

@[simp] theorem tooLong_onlyIf {condition : Bool} (h : r.isTooLong = false) :
    tooLong (onlyIf condition r) = [] := by
  cases condition <;> simp [onlyIf, h]

@[simp] theorem tooLong_map {α : Type} {f : α → Report} {as : List α}
    (h : ∀ a, (f a).isTooLong = false) : tooLong (as.map f) = [] := by
  simp [tooLong, h]

@[simp] theorem tooLong_toList {α : Type} {f : α → Report} {a? : Option α}
    (h : ∀ a, (f a).isTooLong = false) : tooLong (a?.map f).toList = [] := by
  cases a? <;> simp [h]

@[simp] theorem tooLong_flatMap {α : Type} {f : α → List Report} {as : List α} :
    tooLong (as.flatMap f) = as.flatMap fun a => tooLong (f a) :=
  List.filter_flatMap

@[simp] theorem tooLong_ite {p : Prop} [Decidable p] :
    tooLong (if p then rs else rs') = if p then tooLong rs else tooLong rs' :=
  apply_ite tooLong p rs rs'

end

end Report

open Report (tooLong)

namespace Survey

variable {s : Scope} {w : Walk} {n : Node} {site : Site} {raw : String} {line : Nat}

@[simp] theorem tooLong_lengthReports {identifier : String} :
    tooLong (s.lengthReports identifier line) = s.lengthReports identifier line := by
  unfold Scope.lengthReports NameLimits.lengthReports Report.onlyIf
  split <;> rfl

@[simp] theorem tooLong_nameReports :
    tooLong (s.nameReports w raw line) = s.lengthReports (Name.unquoted raw) line := by
  have hreach : tooLong (NameLimits.reachReports w.database raw (Name.resolve raw) line) = [] := by
    unfold NameLimits.reachReports
    split
    · simp
    · split <;> simp
  show tooLong (_ ++ _ ++ s.lengthReports (Name.unquoted raw) line) = _
  simp [hreach]

/-! ### The names at a node -/

/-- The names at a node that count as they are written. -/
def writtenNames : Kind → List String
  | .cte name | .constraint (some name) .. | .createIndex name .. | .parameter name ..
  | .variableDecl name | .tableVariableDecl name => [name]
  | _ => []

/-- What a statement changes is an object. It can be left out, and a variable or a call too. -/
def isObjectName (raw : String) : Bool :=
  !(raw.isEmpty || raw.toList.head? == some '@' || raw.toList.contains '(')

/-- The node is reported as that item. -/
def hasItem (rs : List Report) (t : Topic) (name : String) : Bool :=
  rs.any (·.question == .item t.name (some name))

/-- The names at a node that count without their quoting, those of columns and of objects. Of a
function, a procedure or a type the reports on the node say that it is none of the language. -/
def resolvedNames (s : Scope) (rs : List Report) (kind : Kind) : List String :=
  match kind with
  | .columnDef raw | .into raw | .tableRef raw _ | .createTable raw | .alterTable raw
  | .createView raw .. | .createProcedure raw .. | .createFunction raw .. | .createType raw ..
  | .createIndex _ raw .. | .nextValueFor raw => [raw]
  | .createTrigger raw _ watched scope .. => raw :: if scope = .table then [watched] else []
  | .createOther _ raw => if raw.isEmpty then [] else [raw]
  | .drop _ names _ => names
  | .insert raw | .update raw | .delete raw | .merge raw | .truncate raw =>
    if isObjectName raw then [raw] else []
  | .output (some raw) => if raw.toList.head? == some '@' then [] else [raw]
  | .identifier name quote =>
    if quote = some .double ∧ s.quotedIdentifier = false then [] else [name]
  | .tableFunction raw _ => if hasItem rs .userDefinedFunctions "Table UDF call" then [raw] else []
  | .functionCall raw => if hasItem rs .userDefinedFunctions "Scalar UDF call" then [raw] else []
  | .execute (some raw) _ => if hasItem rs .procedureCalls "EXECUTE procedure" then [raw] else []
  | .dataType raw _ =>
    if (s.symbols.typeBase? (s.key raw)).isNone && hasItem rs .userDefinedDatatypes "Alias type"
    then [raw] else []
  | _ => []

section

variable {t : Topic} {name : String} {r : Report} {rs rs' : List Report}

@[simp] theorem hasItem_nil : hasItem [] t name = false := rfl

@[simp] theorem hasItem_cons :
    hasItem (r :: rs) t name = (r.question == .item t.name (some name) || hasItem rs t name) :=
  rfl

@[simp] theorem hasItem_append :
    hasItem (rs ++ rs') t name = (hasItem rs t name || hasItem rs' t name) :=
  List.any_append

@[simp] theorem question_item (u : Topic) (other detail : String) (line : Nat) :
    (Report.item u other detail line).question = .item u.name (some other) := rfl

theorem hasItem_map {α : Type} {f : α → Report} {as : List α}
    (h : ∀ a, (f a).question ≠ .item t.name (some name)) : hasItem (as.map f) t name = false := by
  simp [hasItem, h]

end

@[simp] theorem tooLong_target {statement : String} :
    tooLong (target s w raw statement line) =
      if isObjectName raw then s.lengthReports (Name.unquoted raw) line else [] := by
  simp only [target, isObjectName, Bool.not_eq_true', Bool.eq_false_iff, ne_eq, ite_not]
  split <;> simp

@[simp] theorem tooLong_dateTimeAssignment {name : String} {value : Node} :
    tooLong (dateTimeAssignment s name value line) = [] := by
  unfold dateTimeAssignment
  split <;> simp

@[simp] theorem tooLong_dependencies : tooLong (dependencies s n) = [] := by
  refine List.filter_eq_nil_iff.mpr fun r hr => ?_
  unfold dependencies at hr
  dsimp only at hr
  split at hr
  · cases hr
  · obtain ⟨⟨node, name⟩, -, hr⟩ := List.mem_filterMap.mp hr
    split at hr
    · cases hr
    · split at hr
      · cases hr
        simp [Report.isTooLong_topic]
      · cases hr

@[simp] theorem tooLong_codeChecks : tooLong (codeChecks s w n) = [] := by
  refine Report.tooLong_map fun check => ?_
  cases check <;> simp [codeCheck, Report.isTooLong]

/-! ### Names of the language and of objects -/

theorem tooLong_tableFunction : tooLong (tableFunction s w n raw) =
    if hasItem (tableFunction s w n raw) .userDefinedFunctions "Table UDF call"
    then s.lengthReports (Name.unquoted raw) n.line else [] := by
  unfold tableFunction
  dsimp only
  split <;> simp

theorem tooLong_builtInCall {function : String} : tooLong (builtInCall s site function) = [] := by
  refine (Report.tooLong_cons_of_not rfl).trans ?_
  simp [dateArguments]

theorem hasItem_builtInCall {function name : String} :
    hasItem (builtInCall s site function) .userDefinedFunctions name = false := by
  have hdates : hasItem (dateArguments s site.node function (arguments site.node))
      .userDefinedFunctions name = false := hasItem_map (by simp)
  simp [builtInCall, hdates]

theorem tooLong_namedCall : tooLong (namedCall s w site raw) =
    if hasItem (namedCall s w site raw) .userDefinedFunctions "Scalar UDF call"
    then s.lengthReports (Name.unquoted raw) site.node.line else [] := by
  unfold namedCall
  dsimp only
  split
  · simp
  · split
    · simp [tooLong_builtInCall, hasItem_builtInCall]
    · simp

theorem tooLong_functionCall : tooLong (functionCall s w site raw) =
    if hasItem (functionCall s w site raw) .userDefinedFunctions "Scalar UDF call"
    then s.lengthReports (Name.unquoted raw) site.node.line else [] := by
  unfold functionCall
  dsimp only
  split
  · simp
  · split
    · simp
    · split
      · simp
      · exact tooLong_namedCall

theorem tooLong_execute {names : List String} : tooLong (execute s w n (some raw) names) =
    if hasItem (execute s w n (some raw) names) .procedureCalls "EXECUTE procedure"
    then s.lengthReports (Name.unquoted raw) n.line else [] := by
  have hoptions : hasItem (names.map fun name => Report.item .executeOptions name "" n.line)
      .procedureCalls "EXECUTE procedure" = false := hasItem_map (by simp)
  unfold execute callee
  dsimp only
  split
  · simp [hoptions]
  · split
    · simp [hoptions]
    · split <;> simp [hoptions]

theorem tooLong_dataType {args : Option String} : tooLong (dataType s w n raw args) =
    if (s.symbols.typeBase? (s.key raw)).isNone &&
      hasItem (dataType s w n raw args) .userDefinedDatatypes "Alias type"
    then s.lengthReports (Name.unquoted raw) n.line else [] := by
  unfold dataType
  dsimp only
  split
  · rename_i hbase
    simp [hbase]
  · rename_i hbase
    -- the two ways to tell the schema of the system
    split
    all_goals
      split
      · simp
      · split <;> simp [hbase]

@[simp] theorem tooLong_triggerScope {watched timing : String} {scope : TriggerScope}
    {events : List String} :
    tooLong (triggerScope s w raw watched scope timing events line) =
      if scope = .table then s.lengthReports (Name.unquoted watched) line else [] := by
  cases scope <;> simp [triggerScope]

theorem isTooLong_sessionOption (value option : String) :
    (sessionOption s value line option).isTooLong = false := by
  unfold sessionOption
  split
  · rfl
  · simp

@[simp] theorem flatMap_ite {p : Prop} [Decidable p] {names others : List String}
    {f : String → List Report} :
    ((if p then names else others).map Name.unquoted).flatMap f =
      if p then (names.map Name.unquoted).flatMap f else (others.map Name.unquoted).flatMap f := by
  split <;> rfl

theorem tooLong_top {percent withTies : Bool} : tooLong (top s site percent withTies) = [] := by
  simp only [top, Report.tooLong_append, Report.tooLong_toList, Report.tooLong_onlyIf,
    Report.isTooLong_item, implies_true, List.append_nil]

theorem tooLong_tableRef :
    tooLong (tableRef s w site raw) = s.lengthReports (Name.unquoted raw) site.node.line := by
  unfold tableRef
  dsimp only
  split <;> simp

theorem tooLong_values {rows : Nat} : tooLong (values site rows) = [] := by
  unfold values
  split <;> simp

theorem tooLong_columnAssignment {column operator : String} :
    tooLong (columnAssignment s n column operator) = [] := by
  unfold columnAssignment
  split <;> simp

theorem tooLong_variableAssignment {name operator : String} :
    tooLong (variableAssignment s site name operator) = [] := by
  simp only [variableAssignment, Report.tooLong_cons_of_not (Report.isTooLong_item ..),
    Report.tooLong_ite]
  split
  · split <;> simp
  · simp

theorem tooLong_variableDecl {name : String} :
    tooLong (variableDecl s n name) = s.lengthReports name n.line := by
  unfold variableDecl
  split <;> simp

theorem tooLong_returnValue : tooLong (returnValue s site) = [] := by
  unfold returnValue
  dsimp only
  split
  · rfl
  · split <;> simp

theorem tooLong_comparison {op : String} : tooLong (comparison s w n op) = [] := by
  unfold comparison
  dsimp only
  split <;> simp

theorem tooLong_identifier {name : String} {quote : Option Quote} :
    tooLong (identifier s n name quote) =
      if quote = some .double ∧ s.quotedIdentifier = false then []
      else s.lengthReports (Name.unquoted name) n.line := by
  unfold identifier
  split
  · simp
  · exact tooLong_lengthReports

theorem tooLong_output : tooLong (output s w n (some raw)) =
    if raw.toList.head? == some '@' then [] else s.lengthReports (Name.unquoted raw) n.line := by
  simp [output]

/-- A report says that an identifier at the node is too long, for each of its names that is. -/
theorem tooLong_reports : tooLong (reports s w site) =
    (writtenNames site.kind ++
      (resolvedNames s (reports s w site) site.kind).map Name.unquoted).flatMap
        (s.lengthReports · site.node.line) := by
  obtain ⟨⟨id, kind, line, start, stop, children⟩, above⟩ := site
  generalize hrs : reports s w _ = rs
  unfold reports at hrs
  unfold writtenNames resolvedNames
  cases kind <;> dsimp only [Site.kind] at hrs ⊢ <;> subst hrs
  case top => exact tooLong_top
  case values => exact tooLong_values
  case columnAssignment => exact tooLong_columnAssignment
  case variableAssignment => exact tooLong_variableAssignment
  case returnValue => exact tooLong_returnValue
  case comparison => exact tooLong_comparison
  case tableRef => simp [tooLong_tableRef]
  case variableDecl => simp [tooLong_variableDecl]
  case identifier => simp [tooLong_identifier]
  case output into =>
    cases into with
    | some raw => simp [tooLong_output]
    | none => simp [output]
  case tableFunction => simpa using tooLong_tableFunction
  case functionCall => simpa using tooLong_functionCall
  case dataType => simpa using tooLong_dataType
  case execute procedure options =>
    cases procedure with
    | some raw => simpa using tooLong_execute
    | none => simp [execute]
  case constraint name _ _ _ => cases name <;> simp [constraint]
  case truncate => simp [truncate, Report.isTooLong_topic]
  case setOption => simp [setOption, isTooLong_sessionOption]
  case inList | between => simp
  case cte => simp [cte]
  case join => simp [join]
  case insert => simp [insert]
  case update => simp [update]
  case delete => simp [delete]
  case merge => simp [merge]
  case createTable => simp [createTable]
  case alterTable => simp [alterTable]
  case alterTableAction => simp [alterTableAction]
  case columnDef => simp [columnDef, Name.unquoted]
  case columnAttribute => simp [columnAttribute]
  case computedColumn => simp [computedColumn]
  case createView => simp [createView, verb, options]
  case createProcedure => simp [createProcedure, verb, options]
  case parameter => simp [parameter]
  case createFunction => simp [createFunction, verb, options]
  case createTrigger => simp [createTrigger, verb, options]
  case createIndex => simp [createIndex, options]
  case createType => simp [createType]
  case createOther => simp [createOther]
  case drop => simp [drop, List.flatMap_map]
  case tableVariableDecl => simp [tableVariableDecl]
  case cursorDecl => simp [cursorDecl]
  case raiserror => simp [raiserror]
  case throw => simp [throw]
  case cursorOp => simp [cursorOp]
  case window => simp [window]
  case binaryOp => simp [binaryOp]
  case groupBy modifier => cases modifier <;> simp
  case orderBy hasOffset => cases hasOffset <;> simp
  case block kind => cases kind <;> simp
  case execArg isOutput => cases isOutput <;> simp
  case unaryOp op =>
    by_cases hop : op = "~"
    · subst hop
      simp
    · simp [hop]
  all_goals simp

theorem resolvedNames_append_closing (rs : List Report) :
    resolvedNames s (rs ++ closingReports s w n) n.kind = resolvedNames s rs n.kind := by
  unfold closingReports
  split
  · rename_i hkind
    rw [hkind]
    rfl
  · rw [List.append_nil]

theorem tooLong_closingReports : tooLong (closingReports s w n) = [] := by
  unfold closingReports
  split
  · split
    · simp [closing, Report.isTooLong_topic]
    · rfl
  · rfl

/-- The report on an identifier that is too long. -/
def lengthReport (line : Nat) (identifier : String) : Report :=
  .topic .identifierLength "Identifier too long"
    (identifier ++ " (" ++ toString identifier.length ++ " characters)") line

theorem flatMap_lengthReports (names : List String) :
    names.flatMap (s.lengthReports · line) =
      (names.filter fun name => s.limits.length < name.length).map (lengthReport line) := by
  induction names with
  | nil => rfl
  | cons name rest ih =>
    rw [List.flatMap_cons, ih, List.filter_cons]
    by_cases hlong : s.limits.length < name.length <;>
      simp [Scope.lengthReports, NameLimits.lengthReports, Report.onlyIf, hlong, lengthReport]

/-! ### Tables that refer to a common table expression -/

/-- A table below the node has the name as its last part, up to the case of letters. -/
def RefersBelow (t : Tree) (n : Node) (name : String) : Prop :=
  ∃ site ∈ t.sites, n ∈ site.ancestors ∧ ∃ table knownAs, site.kind = .tableRef table knownAs ∧
    Text.same (Name.unquoted table) name = true

theorem mem_nodes_tail_iff {t : Tree} (hsite : site ∈ t.sites) {m : Node} :
    m ∈ site.node.nodes.tail ↔ ∃ x ∈ t.sites, x.node = m ∧ site.node ∈ x.ancestors := by
  have htail : site.node.nodes.tail =
      (site.node.children.flatMap (·.sitesFrom [site.node])).map (·.node) := by
    rw [Node.nodes, Node.sites, Node.sitesFrom_eq]
    rfl
  rw [htail, List.mem_map]
  constructor
  · rintro ⟨⟨m, low⟩, hx, rfl⟩
    obtain ⟨c, hc, hx⟩ := List.mem_flatMap.mp hx
    obtain ⟨up, hpath, hchain⟩ := Node.mem_sitesFrom_iff.mp hx
    have hbelow : (⟨m, low ++ site.ancestors⟩ : Site) ∈
        c.sitesFrom (site.node :: site.ancestors) := by
      refine Node.mem_sitesFrom_iff.mpr ⟨up, ?_, hchain⟩
      simpa [Site.path] using congrArg (· ++ site.ancestors) hpath
    have hinside : site.node ∈ low := by
      cases up <;> simp_all [Site.path]
    exact ⟨_, mem_sites_of_mem_below hsite (Node.mem_sitesFrom.mpr (.inr ⟨c, hc, hbelow⟩)), rfl,
      List.mem_append_left _ hinside⟩
  · rintro ⟨⟨m, ancestors⟩, hx, rfl, hinside⟩
    obtain ⟨low, high, rfl⟩ := List.append_of_mem hinside
    have hchain : ((m :: low ++ [site.node]) ++ high).IsChain Node.IsPartOf := by
      simpa [Site.path] using (Tree.mem_sites_iff.mp hx).1
    have hbelow : (⟨m, low ++ [site.node]⟩ : Site) ∈ site.node.sitesFrom [] :=
      Node.mem_sitesFrom_iff.mpr ⟨m :: low, rfl, hchain.left_of_append⟩
    rcases Node.mem_sitesFrom.mp hbelow with hself | ⟨c, hc, hbelow⟩
    · simp at hself
    · exact ⟨_, List.mem_flatMap.mpr ⟨c, hc, hbelow⟩, rfl⟩

theorem refersTo_iff {name : String} {kind : Kind} : refersTo name kind = true ↔
    ∃ table knownAs, kind = .tableRef table knownAs ∧
      Text.same (Name.unquoted table) name = true := by
  unfold refersTo
  split
  · rename_i table knownAs
    refine ⟨fun h => ⟨table, knownAs, rfl, h⟩, ?_⟩
    rintro ⟨_, _, hkind, h⟩
    cases hkind
    exact h
  · rename_i hother
    refine iff_of_false (by simp) ?_
    rintro ⟨table, knownAs, rfl, -⟩
    exact hother table knownAs rfl

theorem any_refersTo_iff (hsite : site ∈ s.tree.sites) {name : String} :
    site.node.nodes.tail.any (refersTo name ·.kind) = true ↔
      RefersBelow s.tree site.node name := by
  simp only [List.any_eq_true, mem_nodes_tail_iff hsite, refersTo_iff, RefersBelow]
  constructor
  · rintro ⟨_, ⟨x, hx, rfl, hinside⟩, hrefers⟩
    exact ⟨x, hx, hinside, hrefers⟩
  · rintro ⟨x, hx, hinside, hrefers⟩
    exact ⟨x.node, ⟨x, hx, rfl, hinside⟩, hrefers⟩

/-! ### What is reported on names -/

variable {v : Arrival} {read : String → String}

/-- The report on a common table expression that refers to itself. -/
def recursiveReport (line : Nat) (name : String) : Report :=
  .item .commonTableExpressions "Recursive CTE" name line

namespace Arrival

/-- What is reported at the node. -/
def reported (s : Scope) (v : Arrival) : List Report := (v.sightings s).map (·.report)

/-- The names at the node. Those that count as they are written are taken by the given reading. -/
def names (s : Scope) (v : Arrival) (read : String → String) : List String :=
  (writtenNames v.site.kind).map read ++
    (resolvedNames s (v.reported s) v.site.kind).map Name.unquoted

/-- The names at a node are judged by a reading. Those of more characters than the limit are too
long, and a common table expression is recursive where a table below it has its name. -/
structure JudgesNames (s : Scope) (v : Arrival) (read : String → String) : Prop where
  lengths : tooLong (v.reported s) =
    ((v.names s read).filter fun name => s.limits.length < name.length).map
      (lengthReport v.site.node.line)
  recursion : ∀ name, v.site.kind = .cte name →
    (recursiveReport v.site.node.line name ∈ v.reported s ↔
      RefersBelow s.tree v.site.node (read name))

end Arrival

theorem reported_eq : v.reported s =
    reports s (v.walk.enter v.site) v.site ++ closingReports s (v.done s) v.site.node := by
  simp [Arrival.reported, Arrival.sightings, Walk.sighting, Function.comp_def]

theorem tooLong_reported : tooLong (v.reported s) =
    (v.names s id).flatMap (s.lengthReports · v.site.node.line) := by
  rw [Arrival.names, List.map_id, reported_eq, Report.tooLong_append, tooLong_closingReports,
    List.append_nil, Site.kind, resolvedNames_append_closing]
  exact tooLong_reports

theorem recursiveReport_mem_iff {name : String} (hkind : v.site.kind = .cte name) :
    recursiveReport v.site.node.line name ∈ v.reported s ↔
      v.site.node.nodes.tail.any (refersTo name ·.kind) = true := by
  have hnode : v.site.node.kind = .cte name := hkind
  have hcte : v.reported s = cte s v.site.node name := by
    simp [reported_eq, reports, closingReports, hnode]
  have hlength : recursiveReport v.site.node.line name ∉
      s.lengthReports name v.site.node.line := fun hmem => by
    cases (Question.item.inj (congrArg Report.question (Report.mem_onlyIf.mp hmem).2)).2
  rw [hcte, cte, List.mem_cons, or_iff_left hlength]
  cases v.site.node.nodes.tail.any (refersTo name ·.kind) <;> simp [recursiveReport, Report.item]

/-- Common table expressions, constraints and indexes are judged by their names as written. -/
theorem judgesNames_id (hsite : v.site ∈ s.tree.sites) : v.JudgesNames s id where
  lengths := tooLong_reported.trans (flatMap_lengthReports _)
  recursion _ hkind := (recursiveReport_mem_iff hkind).trans (any_refersTo_iff hsite)

/-- Two readings that agree on the names at the node judge them in the same way. -/
theorem Arrival.JudgesNames.of_agree (h : v.JudgesNames s id)
    (hread : ∀ name ∈ writtenNames v.site.kind, read name = name) : v.JudgesNames s read where
  lengths := by
    have hnames : v.names s read = v.names s id := by
      rw [names, List.map_congr_left hread]
      rfl
    rw [hnames, h.lengths]
  recursion name hkind := by
    rw [hread name (by simp [hkind, writtenNames])]
    exact h.recursion name hkind

/-- Names are judged without their quoting where they are columns and objects, and as they are
written where they are common table expressions, constraints and indexes. Wherever such a name is
written bare, all names at the node are judged without their quoting; the last part of a name
without its quoting is the same in whichever way the parts are written. -/
theorem names_judged {text database : String} (h : Tree.ofText? text = some s.tree) :
    let visits := arrivals s [] { database } s.tree.root
    visits.map (·.site) = s.tree.sites ∧
      (ofBatch s database).1.Perm (visits.flatMap (·.sightings s)) ∧
      (∀ v ∈ visits, v.JudgesNames s id ∧
        ((∀ name ∈ writtenNames v.site.kind, Name.unquoted name = name) →
          v.JudgesNames s Name.unquoted) ∧
        ∀ (j : Judge) (b : Batch) (found : List Finding),
          j.findings b.place (Analysis.surveyBatch s database b).1 = .ok found →
            ∀ r, v.Reports s r j b.place found ↔ r ∈ v.reported s) ∧
      ∀ (parts texts : List String) (hne : parts ≠ []),
        List.Forall₂ Identifier.Written parts texts →
          Name.unquoted (String.intercalate "." texts) = parts.getLast hne := by
  intro visits
  have hsites : visits.map (·.site) = s.tree.sites := map_site_arrivals _ _
  have hperm := ofNode_perm (s := s) { database } (children_eq_nil_of_isOpaque h)
  refine ⟨hsites, hperm, fun v hv => ?_, fun _ _ hne => Name.unquoted_intercalate hne⟩
  have hwritten : v.JudgesNames s id := judgesNames_id (hsites ▸ List.mem_map_of_mem hv)
  exact ⟨hwritten, hwritten.of_agree,
    fun j b found hfound => Arrival.reports_iff hfound fun _ => Arrival.mem_surveyBatch h hv b⟩

/-- A common table expression is recursive through a table in brackets and in capitals. -/
theorem names_judged_recursive :
    ∃ t, Tree.ofText? "WITH c AS (SELECT 1 FROM [C]) SELECT 2" = some t ∧
      let s : Scope := ⟨.default, "dbo", ⟨0, []⟩, {}, true, t⟩
      ∃ v ∈ arrivals s [] { database := "" } t.root, v.site.kind = .cte "c" ∧
        recursiveReport v.site.node.line "c" ∈ v.reported s ∧
        tooLong (v.reported s) = [lengthReport v.site.node.line "c"] := by
  have hrun : ((Tree.ofText? "WITH c AS (SELECT 1 FROM [C]) SELECT 2").map fun t =>
      t.sites[3]?.map fun x => (x.kind, x.node.nodes.tail.getLast?.map Node.kind)) =
      some (some (.cte "c", some (.tableRef "[C]" none))) :=
    Tree.map_ofText?_of_apart (by decide +kernel)
  obtain ⟨t, ht, hfacts⟩ := Option.map_eq_some_iff.mp hrun
  obtain ⟨x, hthird, hkinds⟩ := Option.map_eq_some_iff.mp hfacts
  have hx : x ∈ t.sites := List.mem_of_getElem? hthird
  have hkind : x.kind = .cte "c" := congrArg Prod.fst hkinds
  obtain ⟨m, hlast, htable⟩ := Option.map_eq_some_iff.mp (congrArg Prod.snd hkinds)
  let s : Scope := ⟨.default, "dbo", ⟨0, []⟩, {}, true, t⟩
  obtain ⟨v, hv, rfl⟩ : ∃ v ∈ arrivals s [] { database := "" } t.root, v.site = x :=
    List.mem_map.mp (Survey.map_site_arrivals (s := s) _ _ ▸ hx)
  have hbare : Name.unquoted "c" = "c" := by decide +kernel
  have hc : v.JudgesNames s Name.unquoted :=
    ((names_judged (s := s) ht).2.2.1 v hv).2.1 (by simp [hkind, writtenNames, hbare])
  have hrefers : RefersBelow t v.site.node (Name.unquoted "c") := by
    refine (any_refersTo_iff (s := s) hx).mp (List.any_eq_true.mpr ?_)
    refine ⟨m, List.mem_of_getLast? hlast, refersTo_iff.mpr ⟨_, none, htable, ?_⟩⟩
    rw [hbare, show Name.unquoted "[C]" = "C" by decide +kernel, Text.same_iff_upper,
      Text.upper_eq_ofList, Text.upper_eq_ofList]
    decide +kernel
  refine ⟨t, ht, v, hv, hkind, (hc.recursion "c" hkind).mpr hrefers, ?_⟩
  have hnames : v.names s Name.unquoted = ["c"] := by
    simp [Arrival.names, hkind, writtenNames, resolvedNames, hbare]
  rw [hc.lengths, hnames]
  rfl

end Survey

end Portability
