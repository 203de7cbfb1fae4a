import Portability.Proofs.Parsing.Builds

/-! Expressions use every node that they are made of once. -/
namespace Portability

/-- The parsers of all phrases give one node each. -/
def Descends (parse : Descent) : Prop := ∀ p, Makes (parse p)

namespace Parser

/-- A type has no parts: its length is a text. -/
theorem makes_dataType : Makes dataType := by
  refine .scan fun start => .scan fun full => .scan fun inside => .scan fun _ => ?_
  exact .leaf trivial

variable {parse : Descent}

theorem makes_orderItems (h : Descends parse) : MakesAll (orderItems parse) := by
  have hitem : Makes (do let item ← parse .expression; skipDirection; return item) :=
    .step (h _) fun item => .scan fun _ => .ret (by simp)
  exact hitem.commaSeparated

/-- The members that are known before come first. -/
theorem builds_argumentMembers {known : List Node} {member : Parser (List Node)}
    (h : MakesAll member) : Builds known (argumentMembers known member) fun ns => ns := by
  refine .seq ?_ fun members => .scan fun _ => .ret (List.Sublist.refl members)
  refine .loop (fun ns => ns) (by simp) fun members => .scan fun v => .ite (.ret (by simp)) ?_
  refine .scan fun before => .step h fun found => .scan fun more => .ite ?_ ?_
  · exact .ret (by simp)
  · exact .ret (by simp)

theorem makes_parenList (h : Descends parse) : MakesAll (parenList parse) := by
  refine .scan fun opened => .ite ?_ (.ret (by simp))
  refine builds_argumentMembers ?_
  exact .scan fun v => .step (h _) fun n => .ret (by simp)

/-- A window stands over its partition and its order. -/
theorem makes_overClause (h : Descends parse) : Makes (overClause parse) := by
  refine .scan fun start => .scan fun _ => .scan fun opened => .ite ?_ ?_
  · refine .step (.listAfter (h .expression).commaSeparated) fun partition => ?_
    refine .scan fun ordered => .step (.listAfter (makes_orderItems h)) fun order => ?_
    exact .scan fun frame => .scan fun _ => .node (by simp) trivial
  · exact .scan fun _ => .leaf trivial

theorem makes_overClause? (h : Descends parse) : MakesAll (overClause? parse) :=
  .whenSees (makes_overClause h)

/-- An argument is one expression, or none where the call ends. -/
theorem makes_callArgument (h : Descends parse) : MakesAll (callArgument parse) := by
  refine .step (h .expression) fun value => ?_
  refine .step (.itemAfter makes_dataType) fun type => ?_
  exact .step (.itemAfter (h .expression)) fun style => .ret (by simp)

/-- A call stands over its arguments, with a window as the last part. -/
theorem makes_functionCall (h : Descends parse) (name : String) (start : Nat) :
    Makes (functionCall parse name start) := by
  have hstar : Makes (do let pos ← position; advance; leaf .star pos) :=
    .scan fun _ => .scan fun _ => .leaf trivial
  refine .scan fun _ => .step (.whenSees hstar) fun star => .scan fun _ => ?_
  refine .seq (builds_argumentMembers (makes_callArgument h)) fun args => .scan fun _ => ?_
  exact .step (makes_overClause? h) fun window => .node (by simp) trivial

/-- `CAST` stands over the value and the type. -/
theorem makes_castCall (h : Descends parse) (name : String) : Makes (castCall parse name) := by
  refine .scan fun start => .scan fun _ => .step (h .expression) fun value => ?_
  refine .scan fun _ => .step makes_dataType fun target => ?_
  exact .scan fun _ => .node (by simp) trivial

/-- `CONVERT` stands over the type and its operands. -/
theorem makes_convertCall (h : Descends parse) (name : String) :
    Makes (convertCall parse name) := by
  have hrest : Makes (do advance; parse .expression) := .scan fun _ => h _
  refine .scan fun start => .scan fun _ => .step makes_dataType fun target => ?_
  exact .step hrest.manyWhile fun rest => .scan fun _ => .node (by simp) trivial

/-- `CASE` stands over its operand, the branches and the last value. -/
theorem makes_caseExpression (h : Descends parse) : Makes (caseExpression parse) := by
  have hbranch : MakesAll (do
      advance
      let condition ← parse .expression
      let _ ← eatWord "THEN"
      return [condition, ← parse .expression]) := by
    refine .scan fun _ => .step (h _) fun condition => .scan fun _ => ?_
    exact .step (h _) fun value => .ret (by simp)
  refine .scan fun start => .scan fun _ => .step (.whenSees (h _)) fun subject => ?_
  refine .step (.manyWhile hbranch) fun branches => ?_
  refine .step (.itemAfter (h _)) fun otherwise => .scan fun _ => ?_
  exact .node (by simp [List.flatMap_id']) trivial

theorem makes_existsQuery (h : Descends parse) : Makes (existsQuery parse) := by
  refine .scan fun start => .scan fun _ => .step (h .query) fun query => ?_
  exact .scan fun _ => .node (by simp) trivial

theorem makes_nextValue (h : Descends parse) : Makes (nextValue parse) := by
  refine .scan fun start => .scan fun _ => .scan fun sequence => ?_
  exact .step (makes_overClause? h) fun window => .node (by simp) trivial

/-- An operand that begins with a keyword of its own. -/
theorem makes_namedPrimary (h : Descends parse) (word : String) :
    Makes (namedPrimary parse word) := by
  refine .scan fun start => .scan fun name => .scan fun v => .ite ?_ (.ite ?_ ?_)
  · exact .scan fun _ => .leaf trivial
  · exact makes_functionCall h name start
  · exact .leaf trivial

theorem makes_wordPrimary (h : Descends parse) (value : String) (quote : Option Quote) :
    Makes (wordPrimary parse value quote) := by
  have hnamed := makes_namedPrimary h value
  refine .scan fun start => .scan fun v => ?_
  split
  · exact .scan fun _ => .leaf trivial
  · exact .scan fun _ => .leaf trivial
  · split
    · exact .scan fun _ => .leaf trivial
    · exact makes_caseExpression h
    · exact .ite (makes_existsQuery h) hnamed
    · exact .ite (makes_castCall h _) hnamed
    · exact .ite (makes_castCall h _) hnamed
    · exact .ite (makes_convertCall h _) hnamed
    · exact .ite (makes_convertCall h _) hnamed
    · exact .ite (makes_nextValue h) hnamed
    · exact hnamed
  · exact hnamed

/-- A query in parentheses is one operand. -/
theorem makes_parenQuery (h : Descends parse) : Makes (parenQuery parse) := by
  refine .scan fun _ => .seq (h .query) fun query => .scan fun _ => .scan fun stop => ?_
  exact .amend rfl rfl rfl

/-- The further members of a row are dropped. -/
theorem makes_parenExpression (h : Descends parse) : Makes (parenExpression parse) := by
  have hrest : Makes (do advance; parse .expression) := .scan fun _ => h _
  refine .scan fun _ => .step (h .expression) fun inner => ?_
  exact .step hrest.manyWhile fun rest => .scan fun _ => .ret (by simp)

/-- An operand without operators and suffixes. -/
theorem makes_primary (h : Descends parse) : Makes (primary parse) := by
  refine .scan fun start => .scan fun v => ?_
  split
  · exact .leaf rfl
  · split
    · exact .ite (makes_parenQuery h) (makes_parenExpression h)
    · exact .scan fun _ => .leaf trivial
    · exact .scan fun _ => .leaf trivial
    · exact .scan fun _ => .leaf trivial
    · exact .scan fun _ => .leaf trivial
    · exact .scan fun _ => .leaf trivial
    · exact .scan fun _ => .leaf trivial
    · exact .scan fun _ => .leaf trivial
    · exact makes_wordPrimary h _ _
    · exact .leaf rfl
    · exact .leaf rfl
    · exact .leaf rfl
    · exact .scan fun _ => .leaf rfl

/-- Each suffix takes what it follows as its first part. -/
theorem builds_suffixes (h : Descends parse) (first : Node) :
    Builds [first] (suffixes parse first) fun n => [n] := by
  refine .loop (fun left => [left]) (by simp) fun left => .scan fun v => .ite ?_ (.ite ?_ ?_)
  · refine .scan fun _ => .scan fun collation => ?_
    exact .seq (.node (by simp) trivial) fun n => .ret (by simp)
  · refine .scan fun _ => .scan fun method => .step (makes_parenList h) fun args => ?_
    exact .seq (.node (by simp) trivial) fun n => .ret (by simp)
  · exact .ret (by simp)

theorem makes_signedBody (h : Descends parse) : Makes (signedBody parse) := by
  have hsign : ∀ start, Makes (do
      let op := (← look).display
      advance
      let operand ← parse .signed
      node (.unaryOp op) start [operand]) := by
    intro start
    refine .scan fun v => .scan fun _ => .step (h .signed) fun operand => ?_
    exact .node (by simp) trivial
  refine .scan fun start => .scan fun v => ?_
  split
  · exact hsign start
  · exact hsign start
  · exact hsign start
  · exact .seq (makes_primary h) fun first => builds_suffixes h first

/-- An arithmetic operator asks nothing of its parts here. -/
theorem fits_binaryOp? {marks : List Mark} {v : View} {kind : Kind} {parts : List Node}
    (h : binaryOp? marks v = some kind) : kind.Fits parts := by
  unfold binaryOp? at h
  split at h
  · split at h
    · cases h
      trivial
    · cases h
  · cases h

theorem fits_logical? {op : String} {v : View} {kind : Kind} {parts : List Node}
    (h : logical? op v = some kind) : kind.Fits parts := by
  unfold logical? at h
  split at h
  · cases h
    trivial
  · cases h

theorem makes_multiplicative (h : Descends parse) : Makes (multiplicative parse) :=
  .chainLeft (h .signed) fun _ _ _ => fits_binaryOp?

/-- Sums over products over signed operands. -/
theorem makes_additive (h : Descends parse) : Makes (additive parse) :=
  .chainLeft (makes_multiplicative h) fun _ _ _ => fits_binaryOp?

theorem makes_comparand (h : Descends parse) : Makes (comparand parse) := by
  refine .scan fun v => .ite ?_ (makes_additive h)
  refine .scan fun start => .scan fun quantifier => ?_
  exact .step (makes_parenList h) fun args => .node (by simp) trivial

/-- A list or a query after `IN` takes the operand on its left as its first part. -/
theorem builds_membership (h : Descends parse) (left : Node) (negated : Bool) :
    Builds [left] (membership parse left negated) fun n => [n] := by
  refine .scan fun v => .ite ?_ ?_
  · refine .scan fun _ => .step (h .query) fun query => .scan fun _ => ?_
    exact .node (by simp) trivial
  · exact .step (makes_parenList h) fun members => .node (by simp) trivial

/-- A test takes the operand on its left as its first part. -/
theorem builds_testOf (h : Descends parse) (left : Node) :
    Builds [left] (testOf parse left) fun n => [n] := by
  have hadd := makes_additive h
  refine .scan fun negated => .scan fun _ => .ite (builds_membership h left negated) ?_
  refine .scan fun _ => .ite ?_ (.scan fun _ => .ite ?_ (.scan fun _ => .ite ?_ ?_))
  · exact .step hadd fun low => .scan fun _ => .step hadd fun high => .node (by simp) trivial
  · exact .step hadd fun pattern => .step (.itemAfter hadd) fun escape => .node (by simp) trivial
  · exact .scan fun negated => .scan fun _ => .node (by simp) trivial
  · exact .ret (by simp)

/-- An operand with the tests and comparisons behind it. -/
theorem makes_predicate (h : Descends parse) : Makes (predicate parse) := by
  refine .step (makes_additive h) fun left => .scan fun v => ?_
  split
  · refine .scan fun _ => .step (makes_comparand h) fun right => ?_
    exact .node (by simp) trivial
  · exact builds_testOf h left

theorem makes_negationBody (h : Descends parse) : Makes (negationBody parse) := by
  refine .scan fun v => .ite ?_ (makes_predicate h)
  refine .scan fun start => .scan fun _ => .step (h .negation) fun inner => ?_
  exact .node (by simp) trivial

/-- Disjunctions over conjunctions over negations. -/
theorem makes_expressionBody (h : Descends parse) : Makes (expressionBody parse) := by
  have hand : Makes (chainLeft (parse .negation) (logical? "AND")) :=
    .chainLeft (h .negation) fun _ _ _ => fits_logical?
  exact .chainLeft hand fun _ _ _ => fits_logical?

end Parser

end Portability
