import Portability.Proofs.Parsing.Expression
import Portability.Proofs.Text

/-! Queries use every node that they are made of once. -/
namespace Portability.Parser

/-! ### Words with a meaning of their own -/

/-- A word that is taken after a look for some words is one of them, in capitals. -/
theorem takeWord?_of_isOneOf {s : Source} {pos pos' : Nat} {words : List String}
    {word? : Option String} (h : takeWord? s pos = some (word?, pos'))
    (hsees : (View.mk s pos).isOneOf words) : ∀ w ∈ word?, w ∈ words.map Text.upper := by
  simp only [View.isOneOf, View.isOneOfAt] at hsees
  split at hsees
  · rename_i w hw
    simp only [takeWord?, look, bind, View.keyword?, hw, Option.map_some] at h
    cases h
    intro word hword
    cases hword
    exact Text.upper_mem_of_oneOf hsees
  · cases hsees

/-- A hint is read as one of the four words only. -/
theorem yields_joinHint? : Yields joinHint? fun hint? => ∀ hint ∈ hint?, hint ∈ joinHintWords := by
  intro s pos hint? pos' h
  obtain ⟨v, at', hv, h⟩ := Reading.bind_eq_some h
  cases hv
  by_cases hsees : ((View.mk s pos).isOneOf joinHintWords && (View.mk s pos).isWordAt 1 "JOIN")
  · rw [if_pos hsees] at h
    have hupper : joinHintWords.map Text.upper = joinHintWords := by
      rw [show Text.upper = _ from funext Text.upper_eq_ofList]
      decide +kernel
    have hmem := takeWord?_of_isOneOf h (Bool.and_eq_true_iff.mp hsees).1
    rwa [hupper] at hmem
  · rw [if_neg hsees] at h
    cases h
    simp

theorem yields_joinWords? :
    Yields joinWords? fun r => ∀ kind hint, r = some (kind, some hint) → hint ∈ joinHintWords := by
  refine .step fun start => .step fun _ => .ite (.ret (by simp)) ?_
  refine .step fun _ => .ite (.ret (by simp)) (.step fun _ => .ite (.ret (by simp)) ?_)
  refine .step fun kind => .seq yields_joinHint? fun hint? hhint => .step fun _ => .ite ?_ ?_
  · refine .ret fun k hint heq => ?_
    cases heq
    exact hhint hint rfl
  · exact .step fun _ => .ret (by simp)

theorem compound_mem : ∀ m ∈ [Mark.plus, .minus, .star, .slash, .percent, .amp, .pipe, .caret],
    m.text ++ "=" ∈ assignmentOperators := by
  decide

/-- What is read as an assignment operator is one. -/
theorem assignment?_mem {v : View} {offset width : Nat} {operator : String}
    (h : assignment? v offset = some (operator, width)) : operator ∈ assignmentOperators := by
  unfold assignment? at h
  split at h
  · cases h
    decide
  · split at h
    · rename_i hm
      simp only [Bool.and_eq_true, List.contains_iff_mem] at hm
      cases h
      exact compound_mem _ hm.1
    · cases h
  · cases h

theorem yields_assignmentTarget? :
    Yields assignmentTarget? fun r => ∀ t op, r = some (t, op) → op ∈ assignmentOperators := by
  refine .step fun v => ?_
  split
  · rename_i target operator width _ hop
    refine .step fun _ => .ret fun t op heq => ?_
    cases heq
    exact assignment?_mem hop
  · exact .ret (by simp)

/-! ### Parts of queries -/

theorem makes_otherStatement : Makes otherStatement := by
  refine .scan fun start => .scan fun v => .scan fun _ => .scan fun _ => ?_
  exact .leaf trivial

theorem makes_wordMember (make : String → Kind) (h : ∀ w, (make w).Fits []) :
    Makes (wordMember make) := by
  refine .scan fun start => .scan fun word => .scan fun _ => ?_
  exact .leaf (h word)

theorem makes_hintList : MakesAll hintList := by
  have hword : Makes (wordMember .tableHint) := makes_wordMember .tableHint fun _ => trivial
  exact hword.parenMembers

theorem makes_tableHints : MakesAll tableHints := by
  refine .scan fun v => .ite ?_ ?_
  · exact .scan fun _ => makes_hintList
  · exact .ret (by simp)

theorem makes_tableSample : Makes tableSample := by
  refine .scan fun start => .scan fun _ => .scan fun _ => .scan fun _ => .scan fun _ => ?_
  exact .leaf trivial

theorem makes_forClause : Makes forClause := by
  refine .scan fun start => .scan fun _ => .scan fun mode => .scan fun _ => .scan fun _ => ?_
  exact .leaf trivial

theorem makes_queryHint : Makes queryHint := by
  refine .scan fun start => .scan fun words => .scan fun _ => .scan fun text => ?_
  exact .leaf trivial

theorem makes_optionClause : Makes optionClause := by
  refine .scan fun start => .scan fun _ => .step makes_queryHint.parenMembers fun hints => ?_
  exact .node (by simp) trivial

theorem makes_optionClause? : MakesAll optionClause? := .whenSees makes_optionClause

theorem makes_intoClause : Makes intoClause := by
  refine .scan fun start => .scan fun _ => .scan fun target => ?_
  exact .leaf trivial

variable {parse : Descent}

/-- An item stands over its expression, and so does an assignment to a variable. -/
theorem makes_selectItem (h : Descends parse) : Makes (selectItem parse) := by
  refine .scan fun start => .scan fun v => .ite ?_ ?_
  · exact .scan fun _ => .leaf trivial
  refine .scanOf yields_assignmentTarget? fun target? htarget => ?_
  split
  · rename_i target operator
    exact .step (h .expression) fun value => .node (by simp) (htarget target operator rfl)
  · refine .ite ?_ ?_
    · refine .scan fun _ => .scan fun _ => .step (h .expression) fun value => ?_
      exact .node (by simp) trivial
    · exact .step (h .expression) fun value => .scan fun _ => .node (by simp) trivial

theorem makes_topCount (h : Descends parse) : Makes (topCount parse) := by
  refine .scan fun _ => .ite ?_ (makes_primary h)
  exact .step (h .expression) fun e => .scan fun _ => .ret (by simp)

/-- The count stands below `TOP`. -/
theorem makes_topClause (h : Descends parse) : Makes (topClause parse) := by
  refine .scan fun start => .scan fun _ => .step (makes_topCount h) fun count => ?_
  exact .scan fun _ => .scan fun _ => .node (by simp) trivial

theorem makes_topClause? (h : Descends parse) : MakesAll (topClause? parse) :=
  .whenSees (makes_topClause h)

/-! ### Table sources -/

/-- All values of all rows stand below `VALUES`, row after row. -/
theorem makes_valuesClause (h : Descends parse) : Makes (valuesClause parse) := by
  refine .scan fun start => .scan fun _ => .seq ?_ fun rows => .node (.refl _) trivial
  refine .loop (fun rows => rows.reverse.flatten) (by simp) fun rows => .scan fun v => .ite ?_ ?_
  · refine .step (makes_parenList h) fun row => .scan fun more => .ite ?_ ?_
    · exact .ret (by simp)
    · exact .ret (by simp)
  · exact .ret (by simp)

theorem builds_boundPair (h : Descends parse) (between : String) :
    Builds [] (boundPair parse between) fun _ => [] := by
  refine .step (makes_additive h) fun low => .scan fun _ => ?_
  exact .step (makes_additive h) fun high => .ret (by simp)

/-- The bounds of a time span are read and dropped. -/
theorem builds_temporalBounds (h : Descends parse) :
    Builds [] (temporalBounds parse) fun _ => [] := by
  refine .scan fun _ => .ite ?_ (.scan fun _ => .ite ?_ (.scan fun _ => .ite ?_ ?_))
  · exact .step (makes_additive h) fun bound => .ret (by simp)
  · exact builds_boundPair h "TO"
  · exact builds_boundPair h "AND"
  · exact .scan fun _ => .ite .scanned (.scan fun _ => .ret (by simp))

theorem makes_temporalClause (h : Descends parse) : Makes (temporalClause parse) := by
  refine .scan fun start => .scan fun _ => .step (builds_temporalBounds h) fun _ => ?_
  exact .leaf trivial

/-- A derived table stands over what it is made of, and its column names are skipped. -/
theorem makes_derivedTable {content : Parser Node} (h : Makes content) (start : Nat) :
    Makes (derivedTable start content) := by
  refine .step h fun content => .scan fun _ => .scan fun _ => .scan fun _ => ?_
  exact .node (by simp) trivial

theorem makes_parenSource (h : Descends parse) (start : Nat) : Makes (parenSource parse start) := by
  refine .scan fun v => .scan fun _ => .ite ?_ (.ite ?_ ?_)
  · exact makes_derivedTable (h .query) start
  · exact makes_derivedTable (makes_valuesClause h) start
  · exact .step (h .tableSource) fun inner => .scan fun _ => .ret (by simp)

/-- A table function stands over its arguments, a table over its clauses and hints. -/
theorem makes_namedSource (h : Descends parse) (name : String) (start : Nat) :
    Makes (namedSource parse name start) := by
  refine .scan fun v => .ite ?_ ?_
  · refine .step (makes_parenList h) fun args => .scan fun _ => .scan fun _ => ?_
    exact .node (by simp) trivial
  · refine .step makes_hintList fun bare => ?_
    refine .step (.whenSees (makes_temporalClause h)) fun temporal => .scan fun _ => ?_
    refine .step (.whenSees makes_tableSample) fun sample => ?_
    exact .step makes_tableHints fun hints => .node (by simp) trivial

theorem makes_plainSource (h : Descends parse) (start : Nat) : Makes (plainSource parse start) := by
  refine .scan fun v => .ite (makes_parenSource h start) (.scan fun name? => ?_)
  split
  · exact makes_namedSource h _ start
  · exact makes_primary h

theorem makes_tablePrimary (h : Descends parse) : Makes (tablePrimary parse) := by
  refine .scan fun start => .step (makes_plainSource h start) fun source => ?_
  refine .loop (fun source => [source]) (by simp) fun source => .scan fun v => .ite ?_ ?_
  · refine .scan fun _ => .scan fun _ => .scan fun _ => ?_
    exact .seq (.node (by simp) trivial) fun n => .ret (by simp)
  · exact .ret (by simp)

/-- Each join takes the sources so far as its left part. -/
theorem makes_tableSourceBody (h : Descends parse) : Makes (tableSourceBody parse) := by
  refine .step (makes_tablePrimary h) fun first => ?_
  refine .loop (fun left => [left]) (by simp) fun left => ?_
  refine .scanOf yields_joinWords? fun words? hwords => ?_
  split
  · rename_i kind hint
    have hfits : ∀ parts, (Kind.join kind hint).Fits parts := by
      intro parts
      cases hint with
      | none => trivial
      | some hint => exact hwords kind hint rfl
    refine .step (makes_tablePrimary h) fun right => ?_
    refine .step (.itemAfter (h .expression)) fun condition => ?_
    exact .seq (.node (by simp) (hfits _)) fun n => .ret (by simp)
  · exact .ret (by simp)

theorem makes_fromClause (h : Descends parse) : Makes (fromClause parse) := by
  refine .scan fun start => .scan fun _ => .step (h .tableSource).commaSeparated fun sources => ?_
  exact .node (by simp) trivial

theorem makes_fromClause? (h : Descends parse) : MakesAll (fromClause? parse) :=
  .whenSees (makes_fromClause h)

/-! ### Clauses -/

theorem makes_currentOf : Makes currentOf := by
  refine .scan fun start => .scan fun _ => .scan fun _ => .scan fun cursor => ?_
  exact .leaf List.mem_cons_self

/-- The condition of a clause, or the row of a cursor. -/
theorem makes_searchCondition (h : Descends parse) : Makes (searchCondition parse) := by
  refine .scan fun v => .ite ?_ ?_
  · exact makes_currentOf
  · exact h .expression

theorem makes_whereClause (h : Descends parse) : Makes (whereClause parse) := by
  refine .scan fun start => .scan fun _ => .step (makes_searchCondition h) fun condition => ?_
  exact .node (by simp) trivial

theorem makes_whereClause? (h : Descends parse) : MakesAll (whereClause? parse) :=
  .whenSees (makes_whereClause h)

/-- A member of `GROUP BY` gives a modifier, expressions, or both. -/
theorem builds_groupMember (h : Descends parse) :
    Builds [] (groupMember parse) fun member => member.2 := by
  refine .scan fun v => .ite ?_ (.scan fun _ => .ite ?_ ?_)
  · exact .scan fun _ => .step (makes_parenList h) fun members => .ret (by simp)
  · exact .scan fun _ => .ret (by simp)
  · exact .step (h .expression) fun n => .ret (by simp)

/-- The members of all groups stand below `GROUP BY`, one after the other. -/
theorem makes_groupBy (h : Descends parse) : Makes (groupBy parse) := by
  refine .scan fun start => .scan fun _ => .scan fun all => ?_
  refine .step (.commaSeparated (builds_groupMember h)) fun members => .scan fun _ => ?_
  exact .node (by simp [List.flatMap_def]) trivial

theorem makes_having (h : Descends parse) : Makes (having parse) := by
  refine .scan fun start => .scan fun _ => .step (h .expression) fun condition => ?_
  exact .node (by simp) trivial

theorem makes_fetchCount (h : Descends parse) : Makes (fetchCount parse) := by
  refine .scan fun _ => .scan fun _ => .step (h .expression) fun count => ?_
  exact .scan fun _ => .scan fun _ => .scan fun _ => .ret (by simp)

theorem makes_offsetFetch (h : Descends parse) : MakesAll (offsetFetch parse) := by
  refine .step (h .expression) fun offset => .scan fun _ => .scan fun _ => ?_
  exact .step (.itemAfter (makes_fetchCount h)) fun count => .ret (by simp)

/-- The page of an order follows its items. -/
theorem makes_orderBy (h : Descends parse) : Makes (orderBy parse) := by
  refine .scan fun start => .scan fun _ => .step (makes_orderItems h) fun items => ?_
  exact .scan fun _ => .step (.listAfter (makes_offsetFetch h)) fun pages => .node (by simp) trivial

/-! ### Queries -/

/-- The clauses of a query in the order of the text. -/
theorem makes_querySpec (h : Descends parse) : Makes (querySpec parse) := by
  refine .scan fun start => .scan fun _ => .scan fun distinct => ?_
  refine .step (makes_topClause? h) fun top => ?_
  refine .step (makes_selectItem h).commaSeparated fun items => ?_
  refine .step (.whenSees makes_intoClause) fun into => ?_
  refine .step (makes_fromClause? h) fun sources => ?_
  refine .step (makes_whereClause? h) fun condition => ?_
  refine .step (.whenSees (makes_groupBy h)) fun grouping => ?_
  exact .step (.whenSees (makes_having h)) fun having => .node (by simp) trivial

theorem makes_queryTerm (h : Descends parse) : Makes (queryTerm parse) := by
  refine .scan fun v => .ite ?_ (.ite (makes_querySpec h) makes_otherStatement)
  exact .scan fun _ => .step (h .query) fun inner => .scan fun _ => .ret (by simp)

/-- Each set operation takes the query so far as its left part. -/
theorem makes_queryExpression (h : Descends parse) : Makes (queryExpression parse) := by
  refine .step (makes_queryTerm h) fun first => ?_
  refine .loop (fun left => [left]) (by simp) fun left => .scan fun operator? => ?_
  split
  · refine .step (makes_queryTerm h) fun right => ?_
    exact .seq (.node (by simp) trivial) fun n => .ret (by simp)
  · exact .ret (by simp)

theorem makes_queryTail (h : Descends parse) : MakesAll (queryTail parse) := by
  refine .step (.whenSees (makes_orderBy h)) fun order => ?_
  refine .step (.whenSees makes_forClause) fun format => ?_
  exact .step makes_optionClause? fun options => .ret (by simp)

/-- The members of `WITH`: a namespace gives none, a common table expression one. -/
theorem builds_cte? (h : Descends parse) : Builds [] (cte? parse) fun ns? => ns?.getD [] := by
  refine .scan fun start => .scan fun _ => .ite ?_ (.scan fun name? => ?_)
  · exact .scan fun _ => .ret (by simp)
  split
  · exact .ret (by simp)
  · refine .scan fun _ => .scan fun _ => .ite (.scan fun _ => .ite ?_ ?_) (.ret (by simp))
    · refine .step (h .query) fun query => .scan fun _ => ?_
      exact .seq (.node (by simp) trivial) fun n => .ret (by simp)
    · exact .ret (by simp)

theorem builds_cteMembers? (h : Descends parse) :
    Builds [] (cteMembers? parse) fun ns? => ns?.getD [] := by
  refine .loop (fun members => members) (by simp) fun members => ?_
  refine .step (builds_cte? h) fun found? => ?_
  split
  · exact .ret (by simp)
  · exact .scan fun more => .ite (.ret (by simp)) (.ret (by simp))

/-- `WITH` stands over its members, unless one of them cannot be read. -/
theorem builds_withClause? (h : Descends parse) :
    Builds [] (withClause? parse) fun n? => n?.toList := by
  refine .scan fun start => .scan fun _ => .ite ?_ (.ret (by simp))
  refine .step (builds_cteMembers? h) fun members? => ?_
  split
  · exact .seq (.node (by simp) trivial) fun n => .ret (by simp)
  · exact .ret (by simp)

theorem makes_leadingCtes (h : Descends parse) : MakesAll (leadingCtes parse) := by
  refine .scan fun v => .ite ?_ ?_
  · exact .step (builds_withClause? h) fun ctes => .ret (by simp)
  · exact .ret (by simp)

/-- A query stands over its common table expressions, its core and its clauses. -/
theorem makes_queryBody (h : Descends parse) : Makes (queryBody parse) := by
  refine .scan fun start => .step (makes_leadingCtes h) fun ctes => ?_
  refine .step (makes_queryExpression h) fun body => ?_
  exact .step (makes_queryTail h) fun tail => .node (by simp) trivial

theorem makes_queryStatement (h : Descends parse) : Makes (queryStatement parse) := by
  refine .scan fun v => .ite ?_ ?_
  · exact makes_otherStatement
  · exact h .query

end Portability.Parser
