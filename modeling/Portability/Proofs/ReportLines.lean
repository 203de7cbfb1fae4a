import Mathlib
import Portability.Proofs.QueryReports

/-! Reports are on the line of the construct they are about. That is the node at hand, and for the
order of assignments the assignment in question. -/
namespace Portability

/-- The report is about the order in which one statement assigns its variables. -/
def Report.asksOrder (r : Report) : Bool :=
  r.question == .item Topic.variableAssignmentDependency.name none

/-- The report is on the line, and not about the order of assignments. -/
def Report.IsOn (line : Nat) (r : Report) : Prop := r.line = line ∧ r.asksOrder = false

/-- All reports are on the line. -/
def AllOn (line : Nat) (rs : List Report) : Prop := ∀ r ∈ rs, r.IsOn line

section

variable {line : Nat} {r : Report} {rs rs' : List Report}

@[simp] theorem Report.isOn_item (t : Topic) (name detail : String) (line : Nat) :
    (Report.item t name detail line).IsOn line := by
  simp [IsOn, asksOrder, item]

@[simp] theorem Report.isOn_itemAs (t : Topic) (lookup display detail : String) (line : Nat) :
    (Report.itemAs t lookup display detail line).IsOn line := by
  simp [IsOn, asksOrder, itemAs]

theorem Report.isOn_topic {t : Topic} (h : t.name ≠ Topic.variableAssignmentDependency.name)
    (display detail : String) (line : Nat) : (Report.topic t display detail line).IsOn line := by
  simp [IsOn, asksOrder, topic, h]

@[simp] theorem allOn_nil : AllOn line [] := by simp [AllOn]

@[simp] theorem allOn_cons : AllOn line (r :: rs) ↔ r.IsOn line ∧ AllOn line rs := by
  simp [AllOn]

@[simp] theorem allOn_append : AllOn line (rs ++ rs') ↔ AllOn line rs ∧ AllOn line rs' := by
  simp [AllOn, or_imp, forall_and]

@[simp] theorem allOn_onlyIf {condition : Bool} :
    AllOn line (Report.onlyIf condition r) ↔ (condition = true → r.IsOn line) := by
  simp [AllOn]

@[simp] theorem allOn_toList {α : Type} {f : α → Report} {a? : Option α} :
    AllOn line (a?.map f).toList ↔ ∀ a, a? = some a → (f a).IsOn line := by
  simp [AllOn]

@[simp] theorem allOn_map {α : Type} {f : α → Report} {as : List α} :
    AllOn line (as.map f) ↔ ∀ a ∈ as, (f a).IsOn line := by
  simp [AllOn]

@[simp] theorem allOn_flatMap {α : Type} {f : α → List Report} {as : List α} :
    AllOn line (as.flatMap f) ↔ ∀ a ∈ as, AllOn line (f a) := by
  simp only [AllOn, List.mem_flatMap]
  grind

@[simp] theorem allOn_ite {p : Prop} [Decidable p] :
    AllOn line (if p then rs else rs') ↔ (p → AllOn line rs) ∧ (¬ p → AllOn line rs') := by
  by_cases hp : p <;> simp [hp]

end

namespace Survey

variable {s : Scope} {w : Walk} {n : Node} {site : Site} {raw : String} {line : Nat}

@[simp] theorem lengthReports_allOn {identifier : String} :
    AllOn line (s.lengthReports identifier line) := by
  have hname : Topic.identifierLength.name ≠ Topic.variableAssignmentDependency.name := by decide
  simp [Scope.lengthReports, NameLimits.lengthReports, Report.isOn_topic hname]

@[simp] theorem nameReports_allOn : AllOn line (s.nameReports w raw line) := by
  unfold Scope.nameReports NameLimits.nameReports NameLimits.reachReports
  simp only [allOn_append, allOn_onlyIf, allOn_ite, allOn_cons, Report.isOn_item]
  exact ⟨⟨fun _ => trivial, by simp⟩, lengthReports_allOn⟩

@[simp] theorem target_allOn {statement : String} :
    AllOn line (target s w raw statement line) := by
  simp [target]

@[simp] theorem dateTimeAssignment_allOn {name : String} {value : Node} :
    AllOn line (dateTimeAssignment s name value line) := by
  unfold dateTimeAssignment
  split <;> simp

@[simp] theorem builtInCall_allOn {function : String} :
    AllOn site.node.line (builtInCall s site function) := by
  simp only [builtInCall, dateArguments, allOn_cons]
  exact ⟨⟨rfl, rfl⟩, by simp⟩

@[simp] theorem namedCall_allOn : AllOn site.node.line (namedCall s w site raw) := by
  simp [namedCall]

theorem isOn_codeCheck (check : CodeCheck) : (codeCheck s line check).IsOn line := by
  cases check with
  | code code via =>
    have hname : Topic.errorCodes.name ≠ Topic.variableAssignmentDependency.name := by decide
    simp [codeCheck, Report.IsOn, Report.asksOrder, hname]
  | indeterminate text via => exact ⟨rfl, rfl⟩

@[simp] theorem codeChecks_allOn : AllOn n.line (codeChecks s w n) := by
  simp [codeChecks, isOn_codeCheck]

@[simp] theorem verb_allOn {v : Verb} {object name : String} :
    AllOn line (verb v object name line) := by
  simp [verb]

@[simp] theorem options_allOn {t : Topic} {names : List String} :
    AllOn line (options t names line) := by
  simp [options]

@[simp] theorem triggerScope_allOn {watched timing : String} {scope : TriggerScope}
    {events : List String} :
    AllOn line (triggerScope s w raw watched scope timing events line) := by
  cases scope <;> simp [triggerScope]

theorem isOn_sessionOption (value option : String) :
    (sessionOption s value line option).IsOn line := by
  unfold sessionOption
  split
  · exact ⟨rfl, rfl⟩
  · simp

@[simp] theorem callee_allOn {procedure : String} : AllOn n.line (callee s w n procedure) := by
  simp [callee]

theorem top_allOn {percent withTies : Bool} :
    AllOn site.node.line (top s site percent withTies) := by
  simp only [top, allOn_append, allOn_toList, allOn_onlyIf, Report.isOn_item, implies_true,
    and_self]

theorem tableRef_allOn : AllOn site.node.line (tableRef s w site raw) := by
  simp only [tableRef, allOn_append]
  refine ⟨⟨nameReports_allOn, ?_⟩, by simp⟩
  split <;> simp

theorem values_allOn {rows : Nat} : AllOn site.node.line (values site rows) := by
  unfold values
  split <;> simp

theorem output_allOn {into : Option String} : AllOn n.line (output s w n into) := by
  unfold output
  split <;> simp

theorem truncate_allOn : AllOn n.line (truncate s w n raw) := by
  have htopic := Report.isOn_topic (t := .truncateTable) (by decide) "TRUNCATE TABLE" raw n.line
  simp [truncate, htopic]

theorem columnAssignment_allOn {column operator : String} :
    AllOn n.line (columnAssignment s n column operator) := by
  unfold columnAssignment
  split <;> simp

theorem variableAssignment_allOn {name operator : String} :
    AllOn site.node.line (variableAssignment s site name operator) := by
  simp only [variableAssignment, allOn_cons, allOn_ite, Report.isOn_item]
  refine ⟨trivial, fun _ => ?_, by simp⟩
  split <;> simp

theorem dataType_allOn {args : Option String} : AllOn n.line (dataType s w n raw args) := by
  unfold dataType
  split <;> simp

theorem constraint_allOn {name : Option String} {kind : ConstraintKind} {clustered : Option Bool}
    {names : List String} :
    AllOn site.node.line (constraint s site name kind clustered names) := by
  cases name <;> simp [constraint]

theorem variableDecl_allOn {name : String} : AllOn n.line (variableDecl s n name) := by
  simp only [variableDecl, allOn_append]
  refine ⟨lengthReports_allOn, ?_⟩
  split <;> simp

theorem returnValue_allOn : AllOn site.node.line (returnValue s site) := by
  simp only [returnValue, allOn_ite]
  refine ⟨by simp, fun _ => ?_⟩
  split <;> simp

theorem execute_allOn {procedure : Option String} {names : List String} :
    AllOn n.line (execute s w n procedure names) := by
  cases procedure <;> simp [execute]

theorem functionCall_allOn : AllOn site.node.line (functionCall s w site raw) := by
  simp only [functionCall, allOn_ite]
  refine ⟨by simp, fun _ => ?_⟩
  split <;> simp

theorem comparison_allOn {op : String} : AllOn n.line (comparison s w n op) := by
  simp only [comparison, allOn_append]
  refine ⟨⟨?_, by simp⟩, codeChecks_allOn⟩
  split <;> simp

/-- Reports that are not about the order of assignments are on the line of the node. -/
theorem reports_allOn (hspec : ∀ distinct, site.kind ≠ .querySpec distinct)
    (hupdate : ∀ raw, site.kind ≠ .update raw) : AllOn site.node.line (reports s w site) := by
  obtain ⟨⟨id, kind, line, start, stop, children⟩, above⟩ := site
  cases kind <;> simp only [reports]
  -- these two ask about assignments among their parts
  case querySpec distinct => exact absurd rfl (hspec distinct)
  case update raw => exact absurd rfl (hupdate raw)
  case top => exact top_allOn
  case tableRef => exact tableRef_allOn
  case values => exact values_allOn
  case output => exact output_allOn
  case columnAssignment => exact columnAssignment_allOn
  case variableAssignment => exact variableAssignment_allOn
  case dataType => exact dataType_allOn
  case constraint => exact constraint_allOn
  case variableDecl => exact variableDecl_allOn
  case returnValue => exact returnValue_allOn
  case execute => exact execute_allOn
  case functionCall => exact functionCall_allOn
  case comparison => exact comparison_allOn
  case inList | between => exact codeChecks_allOn
  case cte => simp [cte]
  case tableFunction => simp [tableFunction]
  case join => simp [join]
  case insert => simp [insert]
  case delete => simp [delete]
  case merge => simp [merge]
  case truncate => exact truncate_allOn
  case createTable => simp [createTable]
  case alterTable => simp [alterTable]
  case alterTableAction => simp [alterTableAction]
  case columnDef => simp [columnDef]
  case columnAttribute => simp [columnAttribute]
  case computedColumn => simp [computedColumn]
  case createView => simp [createView]
  case createProcedure => simp [createProcedure]
  case parameter => simp [parameter]
  case createFunction => simp [createFunction]
  case createTrigger => simp [createTrigger]
  case createIndex => simp [createIndex]
  case createType => simp [createType]
  case createOther => simp [createOther]
  case drop => simp [drop]
  case tableVariableDecl => simp [tableVariableDecl]
  case cursorDecl => simp [cursorDecl]
  case setOption => simp [setOption, isOn_sessionOption]
  case raiserror => simp [raiserror]
  case throw => simp [throw]
  case cursorOp => simp [cursorOp]
  case identifier => simp [identifier]
  case window => simp [window]
  case binaryOp => simp [binaryOp]
  case groupBy modifier => cases modifier <;> simp
  case orderBy hasOffset => cases hasOffset <;> simp
  case block kind => cases kind <;> simp
  case execArg isOutput => cases isOutput <;> simp
  case unaryOp op =>
    by_cases hop : op = "~"
    · subst hop
      simp
    · simp [hop]
  all_goals simp

/-- The construct that a report on a node is about. -/
inductive Subject (n : Node) (r : Report) : Node → Prop
  | self (hother : r.asksOrder = false) : Subject n r n
  /-- The assignment of the variable that the report names, among the parts of the node. -/
  | assignment {c : Node} {operator : String} (horder : r.asksOrder = true) (hc : c ∈ n.children)
      (hkind : c.kind = .variableAssignment r.detail operator) : Subject n r c

theorem subject_of_isOn {r : Report} (h : r.IsOn n.line) : ∃ c, Subject n r c ∧ r.line = c.line :=
  ⟨n, .self h.2, h.1⟩

theorem assignment?_eq_some {c : Node} {name : String} (h : assignment? n = some (c, name)) :
    n = c ∧ ∃ operator, n.kind = .variableAssignment name operator := by
  unfold assignment? at h
  split at h
  · rename_i found operator hkind
    cases h
    exact ⟨rfl, operator, hkind⟩
  · cases h

theorem dependencies_subject {r : Report} (h : r ∈ dependencies s n) :
    ∃ c, Subject n r c ∧ r.line = c.line := by
  simp only [dependencies] at h
  split at h
  · cases h
  · obtain ⟨⟨c, name⟩, hassign, hr⟩ := List.mem_filterMap.mp h
    obtain ⟨part, hpart, hfound⟩ := List.mem_filterMap.mp hassign
    obtain ⟨rfl, operator, hkind⟩ := assignment?_eq_some hfound
    split at hr
    · cases hr
    · split at hr
      · cases hr
        exact ⟨part, .assignment (beq_self_eq_true _) hpart hkind, rfl⟩
      · cases hr

/-- Every report on a node is on the line of what it is about. -/
theorem reports_subject {r : Report} (h : r ∈ reports s w site) :
    ∃ c, Subject site.node r c ∧ r.line = c.line := by
  by_cases hspec : ∃ distinct, site.kind = .querySpec distinct
  · obtain ⟨distinct, hkind⟩ := hspec
    have hreports : reports s w site =
        Report.onlyIf distinct (.item .queryClauses "DISTINCT" "" site.node.line) ++
          dependencies s site.node := by
      simp [reports, show site.node.kind = .querySpec distinct from hkind]
    rcases List.mem_append.mp (hreports ▸ h) with h | h
    · obtain ⟨-, rfl⟩ := Report.mem_onlyIf.mp h
      exact subject_of_isOn (Report.isOn_item _ _ _ _)
    · exact dependencies_subject h
  by_cases hupdate : ∃ raw, site.kind = .update raw
  · obtain ⟨raw, hkind⟩ := hupdate
    have hreports : reports s w site = update s w site.node raw := by
      simp [reports, show site.node.kind = .update raw from hkind]
    rcases List.mem_cons.mp (hreports ▸ h) with rfl | h
    · exact subject_of_isOn (Report.isOn_item _ _ _ _)
    rcases List.mem_append.mp h with h | h
    · exact subject_of_isOn (target_allOn r h)
    · exact dependencies_subject h
  · have hall : AllOn site.node.line (reports s w site) :=
      reports_allOn (fun distinct hkind => hspec ⟨distinct, hkind⟩)
        fun raw hkind => hupdate ⟨raw, hkind⟩
    exact subject_of_isOn (hall r h)

theorem queryReports_allOn : AllOn site.node.line (s.queryReports site) := by
  have htop := Report.isOn_topic (t := .topWithoutOrder) (by decide) "TOP without ORDER BY"
    (s.text site.node) site.node.line
  have hresult := Report.isOn_topic (t := .resultWithoutOrder) (by decide)
    "Result set without ORDER BY" (s.text site.node) site.node.line
  unfold Scope.queryReports
  split
  · simp [htop, hresult]
  · simp

/-- Whatever is sighted in a batch is reported on a node of its tree, at once or when the last part
of a query was walked, and is on the line of what it is about. -/
theorem exists_subject_of_mem_ofBatch {text database : String} {x : Sighting}
    (h : Tree.ofText? text = some s.tree) (hx : x ∈ (ofBatch s database).1) :
    ∃ w, ∃ site ∈ s.tree.sites, (x.report ∈ reports s w site ∨ x.report ∈ s.queryReports site) ∧
      ∃ c, Subject site.node x.report c ∧ x.report.line = c.line := by
  have hopen := children_eq_nil_of_isOpaque h
  obtain ⟨site, hsite, w, ⟨-, hreport⟩ | ⟨hqueued, -⟩⟩ := mem_ofNode_cases hopen hx
  · exact ⟨w, site, hsite, Or.inl hreport, reports_subject hreport⟩
  · have hheld : x.report ∈ queued (ofBatch s database).1 := by
      refine List.mem_map_of_mem (List.mem_filter.mpr ⟨hx, ?_⟩)
      simp [hqueued]
    rw [queued_ofBatch h] at hheld
    obtain ⟨query, hquery, hreport⟩ := List.mem_flatMap.mp hheld
    have hlisted : query ∈ s.tree.sites := (Node.completionsFrom_perm _ _).mem_iff.mp hquery
    exact ⟨w, query, hlisted, Or.inr hreport, subject_of_isOn (queryReports_allOn _ hreport)⟩

theorem Subject.exists_site {t : Tree} {r : Report} {c : Node} (h : Subject site.node r c)
    (hsite : site ∈ t.sites) : ∃ above, (⟨c, above⟩ : Site) ∈ t.sites := by
  cases h with
  | self => exact ⟨site.ancestors, hsite⟩
  | assignment _ hc => exact ⟨_, Tree.part_mem_sites hsite hc⟩

end Survey

end Portability
