import Portability.Proofs.Parsing.Query

/-! Definitions of tables use every node that they are made of once. -/
namespace Portability.Parser

variable {parse : Descent}

/-- Options of a table are read one by one, or as a list in parentheses. -/
theorem makes_tableOptions : MakesAll tableOptions := by
  refine .loop (fun options => options) (by simp) fun options => ?_
  refine .scan fun start => .scan fun v => .ite ?_ (.ite ?_ (.ret (by simp)))
  · refine .scan fun _ => .scan fun _ => .scan fun _ => ?_
    exact .step (.leaf trivial) fun n => .ret (by simp)
  · refine .scan fun _ => ?_
    exact .step (makes_wordMember .tableOption fun _ => trivial).parenMembers fun ns =>
      .ret (by simp)

/-! ### Constraints -/

theorem makes_checkCondition (h : Descends parse) : Makes (checkCondition parse) := by
  refine .step (h .expression) fun e => .scan fun _ => ?_
  exact .ret (by simp)

/-- A check stands over its condition, a default over its value, and keys over nothing. -/
theorem makes_constraint (h : Descends parse) (tableLevel : Bool) :
    Makes (constraint parse tableLevel) := by
  refine .scan fun start => .scan fun name => .scan fun kind => ?_
  cases kind with
  | primaryKey => exact .scan fun _ => .scan fun _ => .scan fun _ => .scan fun _ => .leaf trivial
  | unique => exact .scan fun _ => .scan fun _ => .scan fun _ => .scan fun _ => .leaf trivial
  | check =>
    refine .scan fun _ => .step (.itemAfter (makes_checkCondition h)) fun condition => ?_
    exact .node (by simp) trivial
  | default =>
    refine .step (h .expression) fun value => .scan fun _ => .scan fun _ => ?_
    exact .node (by simp) trivial
  | foreignKey => exact .scan fun _ => .leaf trivial

/-! ### Columns -/

/-- The attributes, collations and constraints of a column, in their order. -/
theorem makes_columnAttributes (h : Descends parse) : MakesAll (columnAttributes parse) := by
  refine .loop (fun parts => parts) (by simp) fun parts => .scan fun start => .scan fun v => ?_
  refine .ite (.ret (by simp)) (.scan fun _ => .ite ?_ (.ite ?_ (.scan fun text? => ?_)))
  · exact .scan fun _ => .step (.leaf trivial) fun n => .ret (by simp)
  · exact .step (makes_constraint h false) fun n => .ret (by simp)
  · split
    · exact .step (.leaf trivial) fun n => .ret (by simp)
    · exact .ret (by simp)

theorem makes_computedColumn (h : Descends parse) : Makes (computedColumn parse) := by
  refine .scan fun start => .step (h .expression) fun e => .scan fun _ => ?_
  exact .node (by simp) trivial

theorem makes_columnType (h : Descends parse) : MakesAll (columnType parse) := by
  refine .scan fun _ => .ite ?_ (.whenSees makes_dataType)
  exact .step (makes_computedColumn h) fun n => .ret (by simp)

/-- A column stands over its type, or its expression, and over its attributes. -/
theorem makes_columnDef (h : Descends parse) : Makes (columnDef parse) := by
  refine .scan fun start => .scan fun _ => .step (makes_columnType h) fun typed => ?_
  exact .step (makes_columnAttributes h) fun attributes => .node (by simp) trivial

theorem makes_period : Makes period := by
  refine .scan fun start => .scan fun _ => ?_
  exact .leaf trivial

/-- Between the parentheses of a table stand columns, constraints, indexes and a period. -/
theorem makes_tableElement (h : Descends parse) : Makes (tableElement parse) := by
  refine .scan fun start => .scan fun v => .ite (makes_constraint h true) ?_
  refine .scan fun _ => .ite ?_ (.ite makes_period (makes_columnDef h))
  exact .scan fun _ => .scan fun _ => .leaf trivial

theorem makes_tableElements (h : Descends parse) : MakesAll (tableElements parse) := by
  refine .scan fun _ => .ite ?_ (.ret (by simp))
  refine .seq ?_ fun elements => .scan fun _ => .ret (List.Sublist.refl elements)
  refine .loop (fun elements => elements.reverse) (by simp) fun elements => .scan fun v => ?_
  refine .ite (.ret (by simp)) (.scan fun before => ?_)
  exact .step (makes_tableElement h) fun n => .scan fun _ => .ret (by simp)

end Portability.Parser
