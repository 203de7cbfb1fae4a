import Portability.Proofs.Parsing.Query

/-! Statements that change data use every node that they are made of once. -/
namespace Portability.Parser

variable {parse : Descent}

theorem makes_defaultValues : Makes defaultValues := by
  refine .scan fun start => .scan fun _ => ?_
  exact .leaf trivial

theorem makes_truncateStatement : Makes truncateStatement := by
  refine .scan fun start => .scan fun _ => .scan fun table => .scan fun _ => ?_
  exact .leaf trivial

theorem makes_outputClause (h : Descends parse) : Makes (outputClause parse) := by
  refine .scan fun start => .scan fun _ => ?_
  refine .step (makes_selectItem h).commaSeparated fun items => .scan fun _ => ?_
  exact .node (by simp) trivial

theorem makes_outputClauses (h : Descends parse) : MakesAll (outputClauses parse) :=
  (makes_outputClause h).manyWhile

/-! ### Execution -/

/-- An argument stands over its value, unless it is the default. -/
theorem makes_executeArgument (h : Descends parse) : Makes (executeArgument parse) := by
  refine .scan fun start => .scan fun name? => .scan fun isDefault => ?_
  exact .step (.itemAfter (h .expression)) fun value => .scan fun _ => .node (by simp) trivial

theorem makes_executeArguments (h : Descends parse) : MakesAll (executeArguments parse) := by
  refine .loop (fun args => args.reverse) (by simp) fun args => .scan fun v => .ite ?_ ?_
  · exact .ret (by simp)
  · refine .scan fun before => .step (makes_executeArgument h) fun arg => ?_
    exact .scan fun more => .ite (.ret (by simp)) (.ret (by simp))

theorem makes_dynamicTexts (h : Descends parse) : MakesAll (dynamicTexts parse) := by
  have htext : Makes (do
      let before ← position
      let text ← parse .expression
      separate before
      return text) :=
    .scan fun before => .step (h .expression) fun text => .scan fun _ => .ret (by simp)
  exact .step htext.manyWhile fun texts => .scan fun _ => .ret (by simp)

theorem makes_resultVariable? : MakesAll resultVariable? := by
  refine .scan fun v => ?_
  split
  · refine .ite (.scan fun start => .scan fun _ => ?_) (.ret (by simp))
    exact .step (.leaf trivial) fun target => .scan fun _ => .ret (by simp)
  · exact .ret (by simp)

/-- A procedure stands over its arguments, a dynamic statement over its texts. -/
theorem makes_executeStatement (h : Descends parse) : Makes (executeStatement parse) := by
  refine .scan fun start => .scan fun v => .ite makes_otherStatement ?_
  refine .scan fun _ => .scan fun _ => .ite ?_ ?_
  · exact .step (makes_dynamicTexts h) fun texts => .scan fun _ => .node (by simp) trivial
  · refine .step makes_resultVariable? fun result => .scan fun _ => .scan fun _ => ?_
    exact .step (makes_executeArguments h) fun args => .scan fun _ => .node (by simp) trivial

/-! ### Changes -/

/-- The rows of an insertion: values, defaults, an execution or a query. -/
theorem makes_insertRows (h : Descends parse) : MakesAll (insertRows parse) := by
  refine .scan fun v => .ite ?_ (.ite ?_ (.ite ?_ (.ite ?_ (.ret (by simp)))))
  · exact .step (makes_valuesClause h) fun n => .ret (by simp)
  · exact .step makes_defaultValues fun n => .ret (by simp)
  · exact .step (makes_executeStatement h) fun n => .ret (by simp)
  · exact .step (h .query) fun n => .ret (by simp)

/-- An insertion stands over its top, its hints, its outputs and its rows. -/
theorem makes_insertStatement (h : Descends parse) : Makes (insertStatement parse) := by
  refine .scan fun start => .scan fun _ => .step (makes_topClause? h) fun top => ?_
  refine .scan fun _ => .scan fun _ => .step makes_tableHints fun hints => .scan fun _ => ?_
  refine .step (makes_outputClauses h) fun outputs => ?_
  exact .step (makes_insertRows h) fun rows => .node (by simp) trivial

theorem makes_columnAssignment (h : Descends parse) : Makes (columnAssignment parse) := by
  refine .scan fun start => .scan fun column => .scan fun v => .ite ?_ ?_
  · refine .scan fun _ => .step (h .expression) fun call => ?_
    exact .node (by simp) List.mem_cons_self
  · have hop : ((assignment? v 0).getD ("=", 0)).1 ∈ assignmentOperators := by
      cases ha : assignment? v 0 with
      | none => decide
      | some found => exact assignment?_mem ha
    refine .scan fun _ => .step (h .expression) fun value => ?_
    exact .node (by simp) (List.mem_cons_of_mem _ hop)

theorem makes_memberValue (h : Descends parse) : Makes (memberValue parse) := by
  refine .scan fun v => .ite ?_ ?_
  · exact makes_columnAssignment h
  · exact h .expression

/-- A column or a variable is changed with an assignment operator. -/
theorem makes_setMember (h : Descends parse) : Makes (setMember parse) := by
  refine .scan fun start => .scanOf yields_assignmentTarget? fun target? htarget => ?_
  split
  · rename_i target operator
    exact .step (makes_memberValue h) fun value => .node (by simp) (htarget target operator rfl)
  · exact makes_columnAssignment h

/-- An update stands over its clauses in the order of the text. -/
theorem makes_updateStatement (h : Descends parse) : Makes (updateStatement parse) := by
  refine .scan fun start => .scan fun _ => .step (makes_topClause? h) fun top => ?_
  refine .scan fun _ => .step makes_tableHints fun hints => ?_
  refine .step (.listAfter (makes_setMember h).commaSeparated) fun changes => ?_
  refine .step (makes_outputClauses h) fun outputs => ?_
  refine .step (makes_fromClause? h) fun sources => ?_
  refine .step (makes_whereClause? h) fun condition => ?_
  exact .step makes_optionClause? fun options => .node (by simp) trivial

/-- A deletion stands over its clauses in the order of the text. -/
theorem makes_deleteStatement (h : Descends parse) : Makes (deleteStatement parse) := by
  refine .scan fun start => .scan fun _ => .step (makes_topClause? h) fun top => ?_
  refine .scan fun _ => .scan fun _ => .step makes_tableHints fun hints => ?_
  refine .step (makes_outputClauses h) fun outputs => ?_
  refine .step (makes_fromClause? h) fun sources => ?_
  refine .step (makes_whereClause? h) fun condition => ?_
  exact .step makes_optionClause? fun options => .node (by simp) trivial

/-- The conditions among the words before an action of `MERGE`. -/
theorem builds_whenWords (h : Descends parse) :
    Builds [] (whenWords parse) fun found => found.2 := by
  refine .loop (fun found => found.2) (by simp) fun (words, conditions) => ?_
  refine .scan fun word? => ?_
  split
  · exact .ret (by simp)
  · refine .step (.itemAfter (h .expression)) fun condition => ?_
    exact .ite (.ret (by simp)) (.ret (by simp))

theorem makes_mergeRows (h : Descends parse) : MakesAll (mergeRows parse) := by
  refine .scan fun _ => .scan fun v => .ite ?_ (.ite ?_ (.ret (by simp)))
  · exact .step (makes_valuesClause h) fun n => .ret (by simp)
  · exact .step makes_defaultValues fun n => .ret (by simp)

theorem builds_mergeChange (h : Descends parse) :
    Builds [] (mergeChange parse) fun change => change.2 := by
  refine .scan fun _ => .ite ?_ (.scan fun _ => .ite ?_ (.scan fun _ => .ite ?_ ?_))
  · exact .scan fun _ => .step (makes_setMember h).commaSeparated fun ns => .ret (by simp)
  · exact .ret (by simp)
  · exact .step (makes_mergeRows h) fun ns => .ret (by simp)
  · exact .ret (by simp)

/-- An action of `MERGE` stands over its condition and what it changes. -/
theorem makes_mergeAction (h : Descends parse) : Makes (mergeAction parse) := by
  refine .scan fun start => .step (builds_whenWords h) fun (words, conditions) => ?_
  exact .step (builds_mergeChange h) fun (action, parts) => .node (by simp) trivial

/-- `MERGE` stands over its clauses in the order of the text. -/
theorem makes_mergeStatement (h : Descends parse) : Makes (mergeStatement parse) := by
  refine .scan fun start => .scan fun _ => .step (makes_topClause? h) fun top => ?_
  refine .scan fun _ => .scan fun _ => .step makes_tableHints fun hints => .scan fun _ => ?_
  refine .step (.itemAfter (h .tableSource)) fun source => ?_
  refine .step (.itemAfter (h .expression)) fun condition => ?_
  refine .step (makes_mergeAction h).manyWhile fun actions => ?_
  refine .step (makes_outputClauses h) fun outputs => ?_
  exact .step makes_optionClause? fun options => .node (by simp) trivial

end Portability.Parser
