import Portability.Proofs.Layout.Routine
import Portability.Proofs.Layout.Table

/-! Statements that define objects lay out their parts in the order in which they are written. -/
namespace Portability.Parser

variable {s : Source} {parse : Descent} {lo pos : Nat}

/-! ### Scans -/

instance : Onward objectKind := by
  refine .seq inferInstance fun word? => ?_
  split
  · infer_instance
  · refine .seq (.loop fun s pos st => .look (.ite (fun hword => ?_) fun _ => ?_)) inferInstance
    · refine .run (moves_takeWord hword) fun word q _ hlt => .ret (by simp) ?_
      exact ⟨fun _ => hlt, trivial⟩
    · exact .ret (by simp) trivial

instance : Onward skipDropOwner := by
  unfold skipDropOwner
  dsimp only
  refine .step fun hasOn => .either (.step fun allServer => .either ?_ inferInstance) inferInstance
  refine .step fun _ => ?_
  infer_instance

instance : Onward dropNames := by
  refine .loop fun s pos names => .scan fun name? q hq => ?_
  split
  · exact .ret (by simp) trivial
  · refine .scan fun _ q' hq' => ?_
    exact .again (by simp) (by simp) (by omega) (fun _ => trivial) fun _ => trivial

instance : Onward triggerScope := by
  unfold triggerScope
  refine .step fun hasAll => .either inferInstance ?_
  refine .step fun hasDatabase => .either inferInstance ?_
  refine .step fun name => ?_
  infer_instance

instance : Onward triggerTiming := by
  unfold triggerTiming
  exact .step fun hasInstead => .either inferInstance inferInstance

instance : Onward triggerEvents := by
  refine .loop fun s pos events => .look (.ite (fun _ => .ret (by simp) trivial) fun _ => ?_)
  refine .scan fun event? q hq => ?_
  split
  · exact .ret (by simp) trivial
  · exact .again (by simp) (by simp) hq (fun _ => trivial) fun _ => trivial

instance : Onward externalName := by
  unfold externalName
  refine .step fun hasExternal => .either ?_ inferInstance
  refine .step fun _ => ?_
  infer_instance

instance : Onward procedureNumber? := by
  refine .seq inferInstance fun _ => .either (.seq inferInstance fun v => ?_) inferInstance
  split
  · split <;> infer_instance
  · infer_instance

instance : Onward droppedNames := by
  refine .loop fun s pos _ => .scan fun _ q hq => .scan fun _ q₁ h₁ => .look ?_
  refine .ite (fun hcomma => ?_) fun _ => .ret (by simp) trivial
  simp only [Bool.and_eq_true] at hcomma
  refine .advance (View.lt_of_isMark hcomma.1.1) (.ret (by simp) ?_)
  exact ⟨fun _ => by omega, trivial⟩

instance : Onward droppedKind := by
  unfold droppedKind
  refine .step fun hasColumn => .either inferInstance ?_
  refine .step fun hasConstraint => .either inferInstance ?_
  refine .step fun hasPeriod => .either ?_ inferInstance
  refine .step fun _ => ?_
  infer_instance

instance : Onward droppedElement := by
  unfold droppedElement
  refine .step fun target => .step fun _ => .step fun _ => ?_
  infer_instance

instance : Onward switchNames := by
  unfold switchNames
  refine .step fun word => .step fun object => .step fun _ => ?_
  infer_instance

instance {start : Nat} : Onward (otherAction start) := by
  unfold otherAction
  refine .step fun word => .step fun v => .step fun _ => ?_
  infer_instance

instance : Onward checkWords := by
  unfold checkWords
  refine .step fun found => .either ?_ inferInstance
  refine .step fun word => ?_
  infer_instance

instance : Onward indexKind? := by
  unfold indexKind?
  exact .step fun hasColumnstore => .either inferInstance inferInstance

instance : Onward includedColumns := by
  unfold includedColumns
  refine .step fun hasInclude => .either ?_ inferInstance
  refine .step fun _ => ?_
  infer_instance

instance : Onward parameterModes := by
  refine .loop fun s pos modes => .fork (fun q hq => ?_) fun q hq => .fork (fun q₁ h₁ => ?_) ?_
  · exact .ret (by simp) ⟨fun _ => hq, trivial⟩
  · exact .ret (by simp) ⟨fun _ => by omega, trivial⟩
  · exact fun _ _ => .ret (by simp) trivial

/-- The verb of a definition takes at least one token. -/
theorem moves_definitionVerb (hpos : pos < s.size) :
    Moves s pos definitionVerb fun _ q => pos < q := by
  refine .words (fun q hq => .ret (by simp) hq) fun _ => ?_
  refine .eat (fun _ _ => .ret (by simp) (by omega)) fun _ => .advance hpos ?_
  exact .ret (by simp) (by omega)

/-! ### Tables, types and indexes -/

theorem spans_dropStatement : Spans s pos dropStatement := by
  refine .position (.scan fun _ q hq => .scan fun kind q₁ h₁ => .scan fun ifExists q₂ h₂ => ?_)
  exact .scan fun names q₃ h₃ => .leaf trivial

section

variable {start : Nat} (h : AllFrom s parse pos)

include h

/-- The verb has been read from `start` on. -/
theorem lays_createTable : Lays s start pos [] (createTable parse start) (fun n => [n])
    (Node.Exact start) := by
  refine .scan fun _ q hq => .scan fun name q₁ h₁ => ?_
  refine .step (lays_tableElements (h.mono (by omega))) fun elements q₂ h₂ _ => ?_
  refine .step lays_tableOptions fun options q₃ h₃ _ => ?_
  exact .node (by simp) trivial

theorem spans_addedElement : Spans s pos (addedElement parse) := by
  refine .look (.ite (fun _ => ?_) fun _ => .ite (fun _ => spans_period) fun _ => ?_)
  · exact (spans_constraint (h.mono (by omega)) true).imp fun _ _ hn => hn.1
  · exact spans_columnDef (h.mono (by omega))

theorem lays_addedElements : LaysAll s pos (addedElements parse) := by
  refine .loop (fun parts => parts) (by simp) fun parts q hq => ?_
  refine .step (spans_addedElement (h.mono hq)) fun part q' hq' _ => ?_
  exact .again (by simp) (by simp) hq' (fun _ => trivial) fun _ => trivial

/-- The parts of an action stand in the order of the text; it may have none. -/
theorem lays_tableAction :
    Lays s pos pos [] (tableAction parse start) (·.2) fun _ _ => True := by
  refine .look (.fork (fun q hq => ?_) fun q hq => .fork (fun q₁ h₁ => ?_) fun q₁ h₁ =>
    .fork (fun q₂ h₂ => ?_) fun q₂ h₂ => .ite (fun _ => ?_) fun _ => .ite (fun _ => ?_) fun _ => ?_)
  · refine .step (lays_addedElements (h.mono (by omega))) fun parts q' hq' _ => ?_
    exact .ret (by simp) trivial
  · refine .step (spans_columnDef (h.mono (by omega))) fun column q' hq' _ => ?_
    exact .ret (by simp) trivial
  · exact .scan fun action q' hq' => .ret (by simp) trivial
  · exact .scan fun action q' hq' => .ret (by simp) trivial
  · exact .scan fun action q' hq' => .ret (by simp) trivial
  · exact .scan fun action q' hq' => .ret (by simp) trivial

theorem spans_alterTableAction : Spans s pos (alterTableAction parse) := by
  refine .position (.scan fun checked q hq => ?_)
  refine .step (lays_tableAction (h.mono hq)) fun action q' hq' _ => ?_
  exact .node (by simp) trivial

theorem lays_alterTable : Lays s start pos [] (alterTable parse start) (fun n => [n])
    (Node.Exact start) := by
  refine .scan fun _ q hq => .scan fun table q₁ h₁ => ?_
  refine .step (.whenSees fun _ => spans_alterTableAction (h.mono (by omega))) ?_
  exact fun action q₂ h₂ _ => .node (by simp) trivial

theorem lays_createIndex : Lays s start pos [] (createIndex parse start) (fun n => [n])
    (Node.Exact start) := by
  refine .scan fun unique q hq => .scan fun clustered q₁ h₁ => .scan fun kind q₂ h₂ => ?_
  refine .scan fun _ q₃ h₃ => .scan fun name q₄ h₄ => .scan fun _ q₅ h₅ => ?_
  refine .scan fun table q₆ h₆ => .scan fun _ q₇ h₇ => .scan fun included q₈ h₈ => ?_
  refine .step (lays_whereClause? (h.mono (by omega))) fun filter q₉ h₉ _ => ?_
  exact .scan fun options q' hq' => .node (by simp) trivial

theorem lays_createType : Lays s start pos [] (createType parse start) (fun n => [n])
    (Node.Exact start) := by
  refine .scan fun _ q hq => .scan fun name q₁ h₁ => .fork (fun q₂ h₂ => ?_) fun q₂ h₂ => ?_
  · refine .step spans_dataType fun base q₃ h₃ _ => .scan fun _ q₄ h₄ => .scan fun _ q₅ h₅ => ?_
    exact .node (by simp) trivial
  refine .fork (fun q₃ h₃ => ?_) fun q₃ h₃ => .scan fun _ q₄ h₄ => .leaf trivial
  refine .step (lays_tableElements (h.mono (by omega))) fun elements q₄ h₄ _ => ?_
  exact .scan fun _ q₅ h₅ => .node (by simp) trivial

/-! ### Views and routines -/

/-- The node of a definition begins at its verb, where `start` is. -/
theorem lays_createView (verb : Verb) : Lays s start pos [] (createView parse start verb)
    (fun n => [n]) (Node.Exact start) := by
  refine .scan fun _ q hq => .scan fun name q₁ h₁ => .scan fun _ q₂ h₂ => ?_
  refine .scan fun options q₃ h₃ => .scan fun _ q₄ h₄ => ?_
  refine .step (h.query (by omega)) fun query q₅ h₅ _ => .scan fun checkOption q₆ h₆ => ?_
  exact .node (by simp) trivial

theorem spans_parameter (name : String) : Spans s pos (parameter parse name) := by
  refine .position (.scan fun _ q hq => .scan fun _ q₁ h₁ => ?_)
  refine .step spans_dataType fun type q₂ h₂ _ => .scan fun _ q₃ h₃ => .scan fun _ q₄ h₄ => ?_
  refine .step (.itemAfter fun r hr => h.one .expression (by omega)) fun value q₅ h₅ _ => ?_
  exact .scan fun modes q₆ h₆ => .node (by simp) trivial

theorem lays_parameters : LaysAll s pos (parameters parse) := by
  refine .scan fun enclosed q hq => ?_
  refine .step (lays_perVariable fun r hr name => spans_parameter (h.mono (by omega)) name) ?_
  exact fun params q₁ h₁ _ => .scan fun _ q₂ h₂ => .ret (by simp) trivial

theorem lays_createProcedure (verb : Verb) : Lays s start pos [] (createProcedure parse start verb)
    (fun n => [n]) (Node.Exact start) := by
  refine .scan fun _ q hq => .scan fun name q₁ h₁ => .scan fun number q₂ h₂ => ?_
  refine .step (lays_parameters (h.mono (by omega))) fun params q₃ h₃ _ => ?_
  refine .scan fun options q₄ h₄ => .scan fun replication q₅ h₅ => .scan fun _ q₆ h₆ => ?_
  refine .scan fun external q₇ h₇ => .ite (fun _ => .node (by simp) trivial) fun _ => ?_
  refine .step (lays_statementList (h.mono (by omega))) fun body q₈ h₈ _ => ?_
  exact .node (by simp) trivial

theorem lays_functionResult :
    Lays s pos pos [] (functionResult parse) (·.2) fun _ _ => True := by
  refine .fork (fun q hq => .look ?_) fun q hq => .ret (by simp) trivial
  split
  · refine Lays.drop (.position (.scan fun _ q₁ h₁ => .scan fun _ q₂ h₂ => ?_)) (by omega)
    refine .step (lays_tableElements (h.mono (by omega))) fun columns q₃ h₃ _ => ?_
    exact .build (by simp) trivial fun n _ => .ret (by simp) trivial
  · refine .fork (fun q₁ h₁ => .ret (by simp) trivial) fun q₁ h₁ => ?_
    exact .step spans_dataType fun type q₂ h₂ _ => .ret (by simp) trivial

theorem lays_inlineBody : LaysAll s pos (inlineBody parse) := by
  refine .look (.ite (fun hreturn => ?_) fun _ => .ite (fun _ => ?_) fun _ => ?_)
  · exact .single (spans_returnQuery (h.mono (by omega)) (View.lt_of_isWord hreturn))
  · exact .single (h.query (Nat.le_refl pos))
  · exact .ret (by simp) trivial

theorem lays_functionBody (kind : FunctionKind) : LaysAll s pos (functionBody parse kind) := by
  unfold functionBody
  refine .ite (fun _ => lays_inlineBody h) fun _ => ?_
  exact (lays_statementList h).imp fun _ _ _ => trivial

theorem lays_createFunction (verb : Verb) : Lays s start pos [] (createFunction parse start verb)
    (fun n => [n]) (Node.Exact start) := by
  refine .scan fun _ q hq => .scan fun name q₁ h₁ => ?_
  refine .step (lays_parameters (h.mono (by omega))) fun params q₂ h₂ _ => ?_
  refine .step (lays_functionResult (h.mono (by omega))) fun result q₃ h₃ _ => ?_
  refine .scan fun options q₄ h₄ => .scan fun _ q₅ h₅ => .scan fun external q₆ h₆ => ?_
  refine .ite (fun _ => .node (by simp) trivial) fun _ => ?_
  refine .step (lays_functionBody (h.mono (by omega)) _) fun body q₇ h₇ _ => ?_
  exact .node (by simp) trivial

/-- A trigger ends where its statements end. -/
theorem lays_createTrigger (verb : Verb) : Lays s start pos [] (createTrigger parse start verb)
    (fun n => [n]) (Node.Exact start) := by
  refine .scan fun _ q hq => .scan fun name q₁ h₁ => .scan fun _ q₂ h₂ => ?_
  refine .scan fun scope q₃ h₃ => .scan fun options q₄ h₄ => .scan fun timing q₅ h₅ => ?_
  refine .scan fun events q₆ h₆ => .scan fun append q₇ h₇ => .scan fun replication q₈ h₈ => ?_
  refine .scan fun _ q₉ h₉ => .scan fun external q' hq' => .ite (fun _ => .leaf trivial) fun _ => ?_
  refine .step (lays_statementList (h.mono (by omega))) fun body r hr _ => ?_
  exact .node (by simp) trivial

end

theorem lays_createOther {start : Nat} : Lays s start pos [] (createOther start) (fun n => [n])
    (Node.Exact start) := by
  refine .scan fun kind q hq => .scan fun name q₁ h₁ => .scan fun _ q₂ h₂ => ?_
  exact .leaf trivial

/-- What is no definition is read again from the verb on. -/
theorem spans_definitionStatement (h : AllFrom s parse (pos + 1)) (hpos : pos < s.size) :
    Spans s pos (definitionStatement parse) := by
  refine .position (.lifted (moves_definitionVerb hpos) fun verb q hq hlt => .look ?_)
  generalize (View.mk s q).keyword? = word?
  have hq := h.mono hlt
  split
  · exact lays_createTable hq
  · exact lays_alterTable hq
  · exact lays_createView hq _
  · exact lays_createProcedure hq _
  · exact lays_createProcedure hq _
  · exact lays_createFunction hq _
  · exact lays_createTrigger hq _
  · exact lays_createType hq
  · exact lays_createIndex hq
  · exact lays_createIndex hq
  · exact lays_createIndex hq
  · exact lays_createIndex hq
  · exact lays_createIndex hq
  · exact lays_createOther
  · exact .rewind rfl (by omega) (Nat.le_refl pos) spans_otherStatement

end Portability.Parser
