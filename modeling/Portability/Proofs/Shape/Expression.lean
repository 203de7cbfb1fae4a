import Portability.Proofs.Shape.Rules

/-! Expressions have the parts that their kinds admit. -/
namespace Portability

/-- The kinds of nodes that a phrase is read as. -/
def Phrase.accepts : Phrase → Kind → Bool
  | .query => Kind.isQuery
  | .statement => Kind.isStatement
  | _ => Kind.isLoose

instance (p : Phrase) : LooseTest p.accepts := by
  cases p with
  | query => exact inferInstanceAs (LooseTest Kind.isQuery)
  | statement => exact inferInstanceAs (LooseTest Kind.isStatement)
  | _ => exact inferInstanceAs (LooseTest Kind.isLoose)

/-- The parsers of all phrases give nodes that conform. -/
def Conforming (parse : Descent) : Prop := ∀ p, Yields (parse p) (Node.Is p.accepts)

namespace Conforming

variable {parse : Descent} (h : Conforming parse)

include h

/-- What a phrase is read as may stand anywhere. -/
theorem loose (p : Phrase) : Yields (parse p) Node.Loose := (h p).imp fun _ hn => hn.loose

theorem expression : Yields (parse .expression) Node.Loose := h .expression

theorem query : Yields (parse .query) (Node.Is Kind.isQuery) := h .query

theorem statement : Yields (parse .statement) (Node.Is Kind.isStatement) := h .statement

end Conforming

namespace Parser

/-- A type is read as a node of its own kind. -/
theorem yields_dataType : Yields dataType (Node.Is Kind.isDataType) := by
  refine .step fun start => .step fun full => .step fun inside => .step fun _ => ?_
  exact .leaf trivial rfl

variable {parse : Descent}

theorem yields_orderItems (h : Conforming parse) : Yields (orderItems parse) AllLoose := by
  refine .commaSeparated (.seq h.expression fun item hitem => .step fun _ => ?_)
  exact .ret hitem

/-- The members known before come first, and all may stand anywhere. -/
theorem yields_argumentMembers {known : List Node} {member : Parser (List Node)}
    (hknown : AllLoose known) (h : Yields member AllLoose) :
    Yields (argumentMembers known member) AllLoose := by
  refine .seq ?_ fun members hmembers => .step fun _ => .ret hmembers
  refine .loop AllLoose hknown fun members hmembers => .step fun v => .ite (.ret hmembers) ?_
  refine .step fun before => .seq h fun found hfound => .step fun more => ?_
  have hall : AllLoose (members ++ found) := by simp [hmembers, hfound]
  exact .ite (.ret hall) (.ret hall)

theorem yields_parenList (h : Conforming parse) : Yields (parenList parse) AllLoose := by
  refine .step fun opened => .ite (yields_argumentMembers (by simp) ?_) (.ret (by simp))
  exact .step fun v => .seq (h.loose _) fun n hn => .ret (by simp [hn])

theorem yields_overClause (h : Conforming parse) : Yields (overClause parse) Node.Loose := by
  refine .step fun start => .step fun _ => .step fun opened => .ite ?_ ?_
  · refine .seq (.listAfter (.commaSeparated h.expression)) fun partition hpartition => ?_
    refine .step fun ordered => .seq (.listAfter (yields_orderItems h)) fun order horder => ?_
    refine .step fun frame => .step fun _ => .above trivial ?_ rfl
    exact allLoose_append.mpr ⟨hpartition, horder⟩
  · exact .step fun _ => .leaf trivial rfl

theorem yields_overClause? (h : Conforming parse) : Yields (overClause? parse) AllLoose := by
  refine (Yields.whenSees (yields_overClause h)).imp fun found hfound => ?_
  exact allLoose_of_item hfound

theorem yields_callArgument (h : Conforming parse) : Yields (callArgument parse) AllLoose := by
  refine .seq h.expression fun value hvalue => ?_
  refine .seq (.itemAfter yields_dataType) fun type htype => ?_
  refine .seq (.itemAfter h.expression) fun style hstyle => .ret ?_
  simp [hvalue, allLoose_of_item htype, allLoose_of_item hstyle]

theorem yields_functionCall (h : Conforming parse) (name : String) (start : Nat) :
    Yields (functionCall parse name start) Node.Loose := by
  have hstar : Yields (do let pos ← position; advance; leaf .star pos : Parser Node) Node.Loose :=
    .step fun _ => .step fun _ => .leaf trivial rfl
  refine .step fun _ => .seq (.whenSees hstar) fun star hstar => .step fun _ => ?_
  refine .seq (yields_argumentMembers hstar.2 (yields_callArgument h)) fun args hargs => ?_
  refine .step fun _ => .seq (yields_overClause? h) fun window hwindow => ?_
  exact .above trivial (by simp [hargs, hwindow]) rfl

theorem yields_castCall (h : Conforming parse) (name : String) :
    Yields (castCall parse name) Node.Loose := by
  refine .step fun start => .step fun _ => .seq h.expression fun value hvalue => ?_
  refine .step fun _ => .seq yields_dataType fun target htarget => .step fun _ => ?_
  exact .above trivial (by simp [hvalue, htarget.loose]) rfl

theorem yields_convertCall (h : Conforming parse) (name : String) :
    Yields (convertCall parse name) Node.Loose := by
  have hmore : Yields (do advance; parse .expression : Parser Node) Node.Loose :=
    .step fun _ => h.expression
  refine .step fun start => .step fun _ => .seq yields_dataType fun target htarget => ?_
  refine .seq (.manyWhile hmore) fun rest hrest => .step fun _ => ?_
  exact .above trivial (allLoose_cons.mpr ⟨htarget.loose, hrest⟩) rfl

theorem yields_caseExpression (h : Conforming parse) :
    Yields (caseExpression parse) Node.Loose := by
  have hbranch : Yields (do
      advance
      let condition ← parse .expression
      let _ ← eatWord "THEN"
      return [condition, ← parse .expression] : Parser (List Node)) AllLoose := by
    refine .step fun _ => .seq h.expression fun condition hcondition => .step fun _ => ?_
    exact .seq h.expression fun value hvalue => .ret (by simp [hcondition, hvalue])
  refine .step fun start => .step fun _ => .seq (.whenSees h.expression) fun subject hsubject => ?_
  refine .seq (.manyWhile hbranch) fun branches hbranches => ?_
  refine .seq (.itemAfter h.expression) fun otherwise hotherwise => .step fun _ => ?_
  have hbranches := allLoose_flatten.mpr hbranches
  refine .above trivial ?_ rfl
  rw [allLoose_append, allLoose_append]
  exact ⟨⟨allLoose_of_item hsubject, hbranches⟩, allLoose_of_item hotherwise⟩

/-- `EXISTS` holds exactly a query. -/
theorem yields_existsQuery (h : Conforming parse) : Yields (existsQuery parse) Node.Loose := by
  refine .step fun start => .step fun _ => .seq h.query fun query hquery => .step fun _ => ?_
  exact .above ⟨query, rfl, hquery.kind⟩ (by simp [hquery.loose]) rfl

theorem yields_nextValue (h : Conforming parse) : Yields (nextValue parse) Node.Loose := by
  refine .step fun start => .step fun _ => .step fun sequence => ?_
  exact .seq (yields_overClause? h) fun window hwindow => .above trivial hwindow rfl

theorem yields_namedPrimary (h : Conforming parse) (word : String) :
    Yields (namedPrimary parse word) Node.Loose := by
  refine .step fun start => .step fun name => .step fun v => .ite ?_ (.ite ?_ ?_)
  · exact .step fun _ => .leaf trivial rfl
  · exact yields_functionCall h name start
  · exact .leaf trivial rfl

theorem yields_wordPrimary (h : Conforming parse) (value : String) (quote : Option Quote) :
    Yields (wordPrimary parse value quote) Node.Loose := by
  have hnamed := yields_namedPrimary h value
  refine .step fun start => .step fun v => ?_
  split
  · exact .step fun _ => .leaf trivial rfl
  · exact .step fun _ => .leaf trivial rfl
  · split
    · exact .step fun _ => .leaf trivial rfl
    · exact yields_caseExpression h
    · exact .ite (yields_existsQuery h) hnamed
    · exact .ite (yields_castCall h _) hnamed
    · exact .ite (yields_castCall h _) hnamed
    · exact .ite (yields_convertCall h _) hnamed
    · exact .ite (yields_convertCall h _) hnamed
    · exact .ite (yields_nextValue h) hnamed
    · exact hnamed
  · exact hnamed

theorem yields_parenQuery (h : Conforming parse) : Yields (parenQuery parse) Node.Loose := by
  refine .step fun _ => .seq h.query fun query hquery => .step fun _ => .step fun stop => ?_
  exact .amend hquery.loose rfl rfl

theorem yields_parenExpression (h : Conforming parse) :
    Yields (parenExpression parse) Node.Loose := by
  refine .step fun _ => .seq h.expression fun inner hinner => .step fun _ => .step fun _ => ?_
  exact .ret hinner

/-- Whatever an operand begins with, its parts are those of its kind. -/
theorem yields_primary (h : Conforming parse) : Yields (primary parse) Node.Loose := by
  refine .step fun start => .step fun v => ?_
  split
  · exact .leaf trivial rfl
  · split
    · exact .ite (yields_parenQuery h) (yields_parenExpression h)
    · exact .step fun _ => .leaf trivial rfl
    · exact .step fun _ => .leaf trivial rfl
    · exact .step fun _ => .leaf trivial rfl
    · exact .step fun _ => .leaf trivial rfl
    · exact .step fun _ => .leaf trivial rfl
    · exact .step fun _ => .leaf trivial rfl
    · exact .step fun _ => .leaf trivial rfl
    · exact yields_wordPrimary h _ _
    · exact .leaf trivial rfl
    · exact .leaf trivial rfl
    · exact .leaf trivial rfl
    · exact .step fun _ => .leaf trivial rfl

/-- What has suffixes conforms if the operand in front of them does. -/
theorem yields_suffixes (h : Conforming parse) {first : Node} (hfirst : first.Loose) :
    Yields (suffixes parse first) Node.Loose := by
  refine .loop Node.Loose hfirst fun left hleft => .step fun v => .ite ?_ (.ite ?_ ?_)
  · refine .step fun _ => .step fun collation => ?_
    exact .seq (.above trivial (by simp [hleft]) rfl) fun n hn => .ret hn
  · refine .step fun _ => .step fun method => .seq (yields_parenList h) fun args hargs => ?_
    exact .seq (.above trivial (by simp [hleft, hargs]) rfl) fun n hn => .ret hn
  · exact .ret hleft

theorem yields_signedBody (h : Conforming parse) : Yields (signedBody parse) Node.Loose := by
  have hsign : ∀ start, Yields (do
      let op := (← look).display
      advance
      let operand ← parse .signed
      node (.unaryOp op) start [operand] : Parser Node) Node.Loose := by
    intro start
    refine .step fun v => .step fun _ => .seq (h.loose .signed) fun operand hoperand => ?_
    exact .above rfl (by simp [hoperand]) rfl
  refine .step fun start => .step fun v => ?_
  split
  · exact hsign start
  · exact hsign start
  · exact hsign start
  · exact .seq (yields_primary h) fun first hfirst => yields_suffixes h hfirst

/-- An arithmetic operator asks for two operands. -/
theorem admits_binaryOp? {marks : List Mark} (v : View) (kind : Kind)
    (h : binaryOp? marks v = some kind) :
    kind.isLoose = true ∧ ∀ parts : List Node, parts.length = 2 → kind.Admits parts := by
  unfold binaryOp? at h
  split at h
  · split at h
    · cases h
      exact ⟨rfl, fun _ hlength => hlength⟩
    · cases h
  · cases h

/-- `AND` and `OR` ask for two operands. -/
theorem admits_logical? {op : String} (v : View) (kind : Kind) (h : logical? op v = some kind) :
    kind.isLoose = true ∧ ∀ parts : List Node, parts.length = 2 → kind.Admits parts := by
  unfold logical? at h
  split at h
  · cases h
    exact ⟨rfl, fun _ hlength => hlength⟩
  · cases h

theorem yields_additive (h : Conforming parse) : Yields (additive parse) Node.Loose := by
  have hmul : Yields (multiplicative parse) Node.Loose :=
    .chainLeft admits_binaryOp? (h.loose .signed)
  exact .chainLeft admits_binaryOp? hmul

theorem yields_comparand (h : Conforming parse) : Yields (comparand parse) Node.Loose := by
  refine .step fun v => .ite ?_ (yields_additive h)
  refine .step fun start => .step fun quantifier => ?_
  exact .seq (yields_parenList h) fun args hargs => .above trivial hargs rfl

/-- A subquery after `IN` is the second of two parts, and it is a query. -/
theorem yields_membership (h : Conforming parse) {left : Node} (hleft : left.Loose)
    (negated : Bool) : Yields (membership parse left negated) Node.Loose := by
  refine .step fun v => .ite ?_ ?_
  · refine .step fun _ => .seq h.query fun query hquery => .step fun _ => ?_
    exact .above ⟨left, query, rfl, hquery.kind⟩ (by simp [hleft, hquery.loose]) rfl
  · exact .seq (yields_parenList h) fun members hmembers =>
      .above trivial (by simp [hleft, hmembers]) rfl

/-- `BETWEEN` has three operands, `LIKE` two or three with an escape, `IS NULL` one. -/
theorem yields_testOf (h : Conforming parse) {left : Node} (hleft : left.Loose) :
    Yields (testOf parse left) Node.Loose := by
  have hadd := yields_additive h
  refine .step fun negated => .step fun _ => .ite (yields_membership h hleft negated) ?_
  refine .step fun _ => .ite ?_ (.step fun _ => .ite ?_ (.step fun _ => .ite ?_ (.ret hleft)))
  · refine .seq hadd fun low hlow => .step fun _ => .seq hadd fun high hhigh => ?_
    exact .above rfl (by simp [hleft, hlow, hhigh]) rfl
  · refine .seq hadd fun pattern hpattern => .seq (.itemAfter hadd) fun escape hescape => ?_
    refine .above ?_ (by simp [hleft, hpattern, allLoose_of_item hescape]) rfl
    have := hescape.1
    simp only [Kind.Admits, List.length_cons]
    omega
  · exact .step fun negated => .step fun _ => .above rfl (by simp [hleft]) rfl

/-- Comparisons have two operands, whatever is tested before. -/
theorem yields_predicate (h : Conforming parse) : Yields (predicate parse) Node.Loose := by
  refine .seq (yields_additive h) fun left hleft => .step fun v => ?_
  split
  · refine .step fun _ => .seq (yields_comparand h) fun right hright => ?_
    exact .above rfl (by simp [hleft, hright]) rfl
  · exact yields_testOf h hleft

theorem yields_negationBody (h : Conforming parse) : Yields (negationBody parse) Node.Loose := by
  refine .step fun v => .ite ?_ (yields_predicate h)
  refine .step fun start => .step fun _ => .seq (h.loose .negation) fun inner hinner => ?_
  exact .above rfl (by simp [hinner]) rfl

/-- Conjunctions and disjunctions have two operands each. -/
theorem yields_expressionBody (h : Conforming parse) :
    Yields (expressionBody parse) Node.Loose := by
  have hand : Yields (chainLeft (parse .negation) (logical? "AND")) Node.Loose :=
    .chainLeft admits_logical? (h.loose .negation)
  exact .chainLeft admits_logical? hand

end Parser

end Portability
