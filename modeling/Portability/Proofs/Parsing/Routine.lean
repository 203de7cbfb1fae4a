import Portability.Proofs.Parsing.Modification

/-! Statements of procedures use every node that they are made of once. -/
namespace Portability.Parser

variable {parse : Descent}

/-! ### Transactions, settings and permissions -/

theorem makes_beginTransaction (start : Nat) (action : String) :
    Makes (beginTransaction start action) := by
  refine .scan fun name => .scan fun _ => ?_
  exact .leaf trivial

theorem makes_transactionEnd : Makes transactionEnd := by
  refine .scan fun start => .scan fun verb => .scan fun _ => .ite ?_ ?_
  · exact .scan fun _ => .scan fun _ => .leaf trivial
  · exact .scan fun _ => .scan fun _ => .leaf trivial

theorem makes_settingStatement (start : Nat) : Makes (settingStatement start) := by
  refine .scan fun _ => .ite ?_ ?_
  · exact .scan fun _ => .leaf trivial
  · exact .scan fun _ => .scan fun _ => .leaf trivial

theorem makes_permissionStatement : Makes permissionStatement := by
  refine .scan fun start => .scan fun _ => .scan fun _ => .scan fun _ => .scan fun _ => ?_
  exact .scan fun _ => .scan fun _ => .leaf trivial

/-! ### Variables and cursors -/

/-- The query of a cursor; its options are words. -/
theorem builds_cursorTail (h : Descends parse) :
    Builds [] (cursorTail parse) fun tail => tail.2 := by
  refine .scan fun words => .step (.itemAfter (h .query)) fun query => .scan fun _ => ?_
  exact .ret (by simp)

/-- The query of a cursor stands below its declaration. -/
theorem makes_cursorDecl (h : Descends parse) : Makes (cursorDecl parse) := by
  refine .scan fun start => .scan fun _ => .scan fun _ => .scan fun _ => ?_
  exact .step (builds_cursorTail h) fun (options, query) => .node (by simp) trivial

/-- A variable stands over its type and value, a table variable over its columns. -/
theorem makes_variableDecl (h : Descends parse) {tableBody : Parser (List Node)}
    (hbody : MakesAll tableBody) (name : String) : Makes (variableDecl parse tableBody name) := by
  refine .scan fun start => .scan fun _ => .scan fun _ => .scan fun _ => .ite ?_ ?_
  · exact .step hbody fun elements => .scan fun _ => .node (by simp) trivial
  · refine .step makes_dataType fun type => ?_
    exact .step (.itemAfter (h .expression)) fun value => .node (by simp) trivial

theorem makes_perVariable {item : String → Parser Node} (h : ∀ name, Makes (item name)) :
    MakesAll (perVariable item) := by
  refine .loop (fun items => items.reverse) (by simp) fun items => .scan fun v => ?_
  split
  · exact .ret (by simp)
  · refine .step (h _) fun n => .scan fun more => ?_
    exact .ite (.ret (by simp)) (.ret (by simp))

/-- One statement declares a cursor or variables. -/
theorem makes_declareStatement (h : Descends parse) {tableBody : Parser (List Node)}
    (hbody : MakesAll tableBody) : Makes (declareStatement parse tableBody) := by
  refine .scan fun start => .scan fun _ => .scan fun v => .ite ?_ ?_
  · exact .step (makes_cursorDecl h) fun cursor => .node (by simp) trivial
  · refine .step (makes_perVariable (makes_variableDecl h hbody)) fun decls => ?_
    exact .node (by simp) trivial

theorem makes_cursorValue (h : Descends parse) (target : String) :
    Makes (cursorValue parse target) := by
  refine .scan fun start => .scan fun _ => ?_
  exact .step (builds_cursorTail h) fun (options, query) => .node (by simp) trivial

theorem makes_assignedValue (h : Descends parse) (target : String) :
    Makes (assignedValue parse target) := by
  refine .scan fun v => .ite ?_ ?_
  · exact makes_cursorValue h target
  · exact h .expression

/-- A value that is set stands below the variable; session options are texts. -/
theorem makes_setStatement (h : Descends parse) : Makes (setStatement parse) := by
  refine .scan fun start => .scan fun _ => ?_
  refine .scanOf yields_assignmentTarget? fun target? htarget => ?_
  split
  · rename_i target operator
    refine .step (makes_assignedValue h target) fun value => ?_
    exact .node (by simp) (htarget target operator rfl)
  · exact makes_settingStatement start

theorem makes_fetchOffset (h : Descends parse) : Makes (fetchOffset parse) := by
  refine .scan fun v => .ite ?_ (makes_primary h)
  refine .scan fun start => .scan fun _ => .step (makes_primary h) fun operand => ?_
  exact .node (by simp) trivial

theorem builds_fetchOrientation? (h : Descends parse) :
    Builds [] (fetchOrientation? parse) fun found => found.2 := by
  refine .scan fun v => .ite ?_ (.ret (by simp))
  refine .scan fun word => .step (.itemAfter (makes_fetchOffset h)) fun offset => ?_
  exact .ret (by simp)

/-- An operation on a cursor is one of the four; the offset of a fetch is its part. -/
theorem makes_cursorStatement (h : Descends parse) {op : String} (hop : op ∈ cursorStatements) :
    Makes (cursorStatement parse op) := by
  have hfits : op ∈ "CURRENT OF" :: cursorStatements := List.mem_cons_of_mem _ hop
  refine .scan fun start => .scan fun _ => .ite ?_ ?_
  · refine .step (builds_fetchOrientation? h) fun (orientation, offset) => ?_
    refine .scan fun _ => .scan fun _ => .scan fun cursor => ?_
    refine .step (.listAfter (makes_primary h).commaSeparated) fun targets => ?_
    exact .node (by simp) hfits
  · exact .scan fun _ => .scan fun cursor => .leaf hfits

/-! ### Control flow -/

/-- The statements up to the end of the block, without semicolons. -/
theorem makes_statementList (h : Descends parse) : MakesAll (statementList parse) := by
  refine .loop (fun found => found.reverse) (by simp) fun found => .scan fun v => .ite ?_ ?_
  · exact .scan fun _ => .ret (by simp)
  · exact .ite (.ret (by simp)) (.step (h .statement) fun n => .ret (by simp))

theorem makes_branch (h : Descends parse) : MakesAll (branch parse) := .whenSees (h .statement)

/-- The condition, the statement that follows it and the one after `ELSE`. -/
theorem makes_ifStatement (h : Descends parse) : Makes (ifStatement parse) := by
  refine .scan fun start => .scan fun _ => .step (h .expression) fun condition => ?_
  refine .step (makes_branch h) fun yes => ?_
  exact .step (.listAfter (makes_branch h)) fun no => .node (by simp) trivial

theorem makes_whileStatement (h : Descends parse) : Makes (whileStatement parse) := by
  refine .scan fun start => .scan fun _ => .step (h .expression) fun condition => ?_
  exact .step (makes_branch h) fun body => .node (by simp) trivial

/-- `BEGIN` opens a transaction, a dialog or a block of statements. -/
theorem makes_beginStatement (h : Descends parse) : Makes (beginStatement parse) := by
  refine .scan fun start => .scan fun v => .ite ?_ (.ite ?_ (.ite makes_otherStatement ?_))
  · exact .scan fun _ => makes_beginTransaction start _
  · exact .scan fun _ => .scan fun _ => .scan fun _ => makes_beginTransaction start _
  · refine .scan fun _ => .scan fun kind => ?_
    exact .step (makes_statementList h) fun found => .scan fun _ => .node (by simp) trivial

theorem makes_returnStatement (h : Descends parse) : Makes (returnStatement parse) := by
  refine .scan fun start => .scan fun _ => ?_
  exact .step (.whenSees (h .expression)) fun value => .node (by simp) trivial

theorem makes_returnQuery (h : Descends parse) : Makes (returnQuery parse) := by
  refine .scan fun start => .scan fun _ => ?_
  exact .step (.whenSees (h .query)) fun query => .node (by simp) trivial

theorem makes_waitForStatement (h : Descends parse) : Makes (waitForStatement parse) := by
  refine .scan fun start => .scan fun _ => .scan fun v => .ite ?_ ?_
  · refine .scan fun _ => .step (.itemAfter (makes_primary h)) fun timeout => ?_
    exact .node (by simp) trivial
  · exact .scan fun kind => .step (makes_primary h) fun time => .node (by simp) trivial

theorem makes_printStatement (h : Descends parse) : Makes (printStatement parse) := by
  refine .scan fun start => .scan fun _ => ?_
  exact .step (h .expression) fun text => .node (by simp) trivial

theorem makes_bareRaiserror (h : Descends parse) : MakesAll (bareRaiserror parse) := by
  refine .step (.whenSees (makes_primary h)) fun number => ?_
  exact .step (.whenSees (makes_primary h)) fun text => .ret (by simp)

/-- `RAISERROR` stands over its operands, with parentheses around them or without. -/
theorem makes_raiserrorStatement (h : Descends parse) : Makes (raiserrorStatement parse) := by
  refine .scan fun start => .scan fun _ => .scan fun v => .ite ?_ ?_
  · exact .step (makes_parenList h) fun operands => .scan fun _ => .node (by simp) trivial
  · exact .step (makes_bareRaiserror h) fun operands => .scan fun _ => .node (by simp) trivial

theorem makes_throwStatement (h : Descends parse) : Makes (throwStatement parse) := by
  refine .scan fun start => .scan fun _ => ?_
  exact .step (.listAfter (h .expression).commaSeparated) fun operands => .node (by simp) trivial

end Portability.Parser
