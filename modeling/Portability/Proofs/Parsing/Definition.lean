import Portability.Proofs.Parsing.Routine
import Portability.Proofs.Parsing.Table

/-! Statements that define objects use every node that they are made of once. -/
namespace Portability.Parser

variable {parse : Descent}

theorem makes_dropStatement : Makes dropStatement := by
  refine .scan fun start => .scan fun _ => .scan fun _ => .scan fun _ => .scan fun _ => ?_
  exact .leaf rfl

/-! ### Tables, types and indexes -/

/-- `CREATE TABLE` stands over its columns, constraints and options. -/
theorem makes_createTable (h : Descends parse) (start : Nat) : Makes (createTable parse start) := by
  refine .scan fun _ => .scan fun _ => .step (makes_tableElements h) fun elements => ?_
  exact .step makes_tableOptions fun options => .node (by simp) trivial

theorem makes_addedElement (h : Descends parse) : Makes (addedElement parse) := by
  refine .scan fun v => .ite ?_ ?_
  · exact makes_constraint h true
  · exact .ite makes_period (makes_columnDef h)

theorem makes_addedElements (h : Descends parse) : MakesAll (addedElements parse) := by
  refine .loop (fun parts => parts) (by simp) fun parts => ?_
  refine .step (makes_addedElement h) fun n => .scan fun more => ?_
  exact .ite (.ret (by simp)) (.ret (by simp))

/-- The parts of an action on a table; its name is a text. -/
theorem builds_tableAction (h : Descends parse) (start : Nat) :
    Builds [] (tableAction parse start) fun action => action.2 := by
  refine .scan fun v => .scan fun _ => .ite ?_ (.scan fun _ => .ite ?_ (.scan fun _ => ?_))
  · exact .step (makes_addedElements h) fun ns => .ret (by simp)
  · exact .step (makes_columnDef h) fun n => .ret (by simp)
  · refine .ite ?_ (.ite ?_ (.ite ?_ ?_))
    · exact .scan fun _ => .ret (by simp)
    · exact .scan fun _ => .ret (by simp)
    · exact .scan fun _ => .ret (by simp)
    · exact .scan fun _ => .ret (by simp)

theorem makes_alterTableAction (h : Descends parse) : Makes (alterTableAction parse) := by
  refine .scan fun start => .scan fun checked => ?_
  exact .step (builds_tableAction h start) fun (action, parts) => .node (by simp) trivial

theorem makes_alterTable (h : Descends parse) (start : Nat) : Makes (alterTable parse start) := by
  refine .scan fun _ => .scan fun _ => ?_
  exact .step (.whenSees (makes_alterTableAction h)) fun action => .node (by simp) trivial

/-- The filter of an index is the only part that it can have. -/
theorem makes_createIndex (h : Descends parse) (start : Nat) : Makes (createIndex parse start) := by
  refine .scan fun _ => .scan fun _ => .scan fun _ => .scan fun _ => .scan fun _ => ?_
  refine .scan fun _ => .scan fun _ => .scan fun _ => .scan fun _ => ?_
  exact .step (makes_whereClause? h) fun filter => .scan fun _ => .node (by simp) trivial

/-- A type stands over its base type, or over the columns of a table type. -/
theorem makes_createType (h : Descends parse) (start : Nat) : Makes (createType parse start) := by
  refine .scan fun _ => .scan fun _ => .scan fun _ => .ite ?_ (.scan fun _ => .ite ?_ ?_)
  · exact .step makes_dataType fun base => .scan fun _ => .scan fun _ => .node (by simp) trivial
  · exact .step (makes_tableElements h) fun elements => .scan fun _ => .node (by simp) trivial
  · exact .scan fun _ => .leaf trivial

/-! ### Views and routines -/

theorem makes_createView (h : Descends parse) (start : Nat) (verb : Verb) :
    Makes (createView parse start verb) := by
  refine .scan fun _ => .scan fun _ => .scan fun _ => .scan fun _ => .scan fun _ => ?_
  exact .step (h .query) fun query => .scan fun _ => .node (by simp) trivial

/-- A parameter stands over its type and, if there is one, its default. -/
theorem makes_parameter (h : Descends parse) (name : String) : Makes (parameter parse name) := by
  refine .scan fun start => .scan fun _ => .scan fun _ => .step makes_dataType fun type => ?_
  refine .scan fun _ => .scan fun _ => .step (.itemAfter (h .expression)) fun value => ?_
  exact .scan fun (output, readonly) => .node (by simp) trivial

theorem makes_parameters (h : Descends parse) : MakesAll (parameters parse) := by
  refine .scan fun enclosed => .step (makes_perVariable (makes_parameter h)) fun params => ?_
  exact .scan fun _ => .ret (by simp)

/-- The parameters of a procedure come before the statements of its body. -/
theorem makes_createProcedure (h : Descends parse) (start : Nat) (verb : Verb) :
    Makes (createProcedure parse start verb) := by
  refine .scan fun _ => .scan fun _ => .scan fun _ => .step (makes_parameters h) fun params => ?_
  refine .scan fun _ => .scan fun _ => .scan fun _ => .scan fun _ => .ite ?_ ?_
  · exact .node (by simp) trivial
  · exact .step (makes_statementList h) fun body => .node (by simp) trivial

/-- What a function returns: the kind of the function, and a type or a table. -/
theorem builds_functionResult (h : Descends parse) :
    Builds [] (functionResult parse) fun result => result.2 := by
  refine .scan fun _ => .ite (.scan fun v => ?_) (.ret (by simp))
  split
  · refine .scan fun start => .scan fun _ => .scan fun _ => ?_
    refine .step (makes_tableElements h) fun columns => ?_
    exact .seq (.node (by simp) trivial) fun n => .ret (by simp)
  · refine .scan fun _ => .ite (.ret (by simp)) ?_
    exact .step makes_dataType fun n => .ret (by simp)

theorem makes_inlineBody (h : Descends parse) : MakesAll (inlineBody parse) := by
  refine .scan fun v => .ite ?_ (.ite ?_ (.ret (by simp)))
  · exact .step (makes_returnQuery h) fun n => .ret (by simp)
  · exact .step (h .query) fun n => .ret (by simp)

theorem makes_functionBody (h : Descends parse) (kind : FunctionKind) :
    MakesAll (functionBody parse kind) := by
  refine .ite ?_ ?_
  · exact makes_inlineBody h
  · exact makes_statementList h

/-- The parameters of a function, what it returns and its body, in this order. -/
theorem makes_createFunction (h : Descends parse) (start : Nat) (verb : Verb) :
    Makes (createFunction parse start verb) := by
  refine .scan fun _ => .scan fun _ => .step (makes_parameters h) fun params => ?_
  refine .step (builds_functionResult h) fun (kind, result) => ?_
  refine .scan fun _ => .scan fun _ => .scan fun _ => .ite ?_ ?_
  · exact .node (by simp) trivial
  · exact .step (makes_functionBody h kind) fun body => .node (by simp) trivial

/-- The statements of a trigger are its parts; what it watches is a text. -/
theorem makes_createTrigger (h : Descends parse) (start : Nat) (verb : Verb) :
    Makes (createTrigger parse start verb) := by
  refine .scan fun _ => .scan fun _ => .scan fun _ => .scan fun (scope, target) => ?_
  refine .scan fun _ => .scan fun _ => .scan fun _ => .scan fun _ => .scan fun _ => ?_
  refine .scan fun _ => .scan fun _ => .ite (.leaf trivial) ?_
  exact .step (makes_statementList h) fun body => .node (by simp) trivial

theorem makes_createOther (start : Nat) : Makes (createOther start) := by
  refine .scan fun kind => .scan fun name => .scan fun _ => ?_
  exact .leaf rfl

/-- Definitions of all kinds, told apart by the word after the verb. -/
theorem makes_definitionStatement (h : Descends parse) : Makes (definitionStatement parse) := by
  refine .scan fun start => .scan fun verb => .scan fun v => ?_
  split
  · exact makes_createTable h start
  · exact makes_alterTable h start
  · exact makes_createView h start _
  · exact makes_createProcedure h start _
  · exact makes_createProcedure h start _
  · exact makes_createFunction h start _
  · exact makes_createTrigger h start _
  · exact makes_createType h start
  · exact makes_createIndex h start
  · exact makes_createIndex h start
  · exact makes_createIndex h start
  · exact makes_createIndex h start
  · exact makes_createIndex h start
  · exact makes_createOther start
  · exact .scan fun _ => makes_otherStatement

end Portability.Parser
