import Portability.Proofs.Shape.Expression

/-! Queries have the parts that their kinds admit. -/
namespace Portability

namespace Kind

variable {kind : Kind}

/-- A query may hold every core, also a specification. -/
theorem query_hosts_core (h : kind.isQueryCore = true) : Kind.query.hosts kind = true := by
  cases kind <;> first | rfl | cases h

/-- A set operation may hold every core, also a specification. -/
theorem setOperation_hosts_core (operator : SetOperator) (h : kind.isQueryCore = true) :
    (Kind.setOperation operator).hosts kind = true := by
  cases kind <;> first | rfl | cases h

theorem isRows_of_isQuery (h : kind.isQuery = true) : kind.isRows = true := by
  cases kind <;> first | rfl | cases h

theorem isQueryCore_of_isQuery (h : kind.isQuery = true) : kind.isQueryCore = true := by
  cases kind <;> first | rfl | cases h

theorem isStatement_of_isQuery (h : kind.isQuery = true) : kind.isStatement = true := by
  cases kind <;> first | rfl | cases h

end Kind

/-- At most one node of a kind is what an optional clause is. -/
theorem optionally_of_item {test : Kind → Bool} {ns : List Node}
    (h : ns.length ≤ 1 ∧ ∀ n ∈ ns, n.Is test) : Optionally test ns := by
  obtain ⟨hlength, hall⟩ := h
  exact ⟨hlength, fun c hc => (hall c hc).kind⟩

/-- The clauses that follow a query. -/
structure QueryClauses (tail : List Node) : Prop where
  split : ∃ order format options : List Node, tail = order ++ format ++ options ∧
    Optionally Kind.isOrderBy order ∧ Optionally Kind.isForClause format ∧
    Optionally Kind.isOptionClause options
  loose : AllLoose tail

namespace Parser

/-- What is not understood may be read as any phrase that accepts it. -/
theorem yields_otherStatement {test : Kind → Bool}
    (h : ∀ words, test (.otherStatement words) = true) : Yields otherStatement (Node.Is test) := by
  refine .step fun start => .step fun v => .step fun _ => .step fun _ => ?_
  exact .leaf trivial (h _)

theorem yields_wordMember {make : String → Kind} (hadmits : ∀ word, (make word).Admits [])
    (hloose : ∀ word, (make word).isLoose = true) : Yields (wordMember make) Node.Loose := by
  refine .step fun start => .step fun word => .step fun _ => ?_
  exact .leaf (hadmits word) (hloose word)

theorem yields_hintList : Yields hintList AllLoose := by
  have hword : Yields (wordMember .tableHint) Node.Loose :=
    yields_wordMember (fun _ => trivial) fun _ => rfl
  exact .parenMembers hword

theorem yields_tableHints : Yields tableHints AllLoose := by
  refine .step fun v => .ite ?_ ?_
  · exact .step fun _ => yields_hintList
  · exact .ret (by simp)

theorem yields_tableSample : Yields tableSample Node.Loose := by
  refine .step fun start => .step fun _ => .step fun _ => .step fun _ => .step fun _ => ?_
  exact .leaf trivial rfl

theorem yields_forClause : Yields forClause (Node.Is Kind.isForClause) := by
  refine .step fun start => .step fun _ => .step fun mode => .step fun _ => .step fun _ => ?_
  exact .leaf trivial rfl

theorem yields_queryHint : Yields queryHint Node.Loose := by
  refine .step fun start => .step fun words => .step fun _ => .step fun text => ?_
  exact .leaf trivial rfl

theorem yields_optionClause : Yields optionClause (Node.Is Kind.isOptionClause) := by
  refine .step fun start => .step fun _ => ?_
  exact .seq (.parenMembers yields_queryHint) fun hints hhints => .above trivial hhints rfl

theorem yields_optionClause? : Yields optionClause? AllLoose := by
  refine (Yields.whenSees yields_optionClause).imp fun found hfound => ?_
  exact allLoose_of_item hfound

theorem yields_intoClause : Yields intoClause Node.Loose := by
  refine .step fun start => .step fun _ => .step fun target => ?_
  exact .leaf trivial rfl

variable {parse : Descent}

/-! ### Select lists -/

theorem yields_selectItem (h : Conforming parse) : Yields (selectItem parse) Node.Loose := by
  refine .step fun start => .step fun v => .ite (.step fun _ => .leaf trivial rfl) ?_
  refine .step fun target? => ?_
  split
  · exact .seq h.expression fun value hvalue => .above rfl (by simp [hvalue]) rfl
  · refine .ite ?_ ?_
    · refine .step fun _ => .step fun _ => .seq h.expression fun value hvalue => ?_
      exact .above trivial (by simp [hvalue]) rfl
    · refine .seq h.expression fun value hvalue => .step fun _ => ?_
      exact .above trivial (by simp [hvalue]) rfl

theorem yields_topCount (h : Conforming parse) : Yields (topCount parse) Node.Loose := by
  refine .step fun _ => .ite ?_ (yields_primary h)
  exact .seq h.expression fun count hcount => .step fun _ => .ret hcount

/-- `TOP` has exactly one count. -/
theorem yields_topClause (h : Conforming parse) : Yields (topClause parse) Node.Loose := by
  refine .step fun start => .step fun _ => .seq (yields_topCount h) fun count hcount => ?_
  exact .step fun percent => .step fun ties => .above rfl (by simp [hcount]) rfl

theorem yields_topClause? (h : Conforming parse) : Yields (topClause? parse) AllLoose := by
  refine (Yields.whenSees (yields_topClause h)).imp fun found hfound => ?_
  exact allLoose_of_item hfound

/-! ### Table sources -/

/-- Values stand below `VALUES`, which may be what a derived table is made of. -/
theorem yields_valuesClause {test : Kind → Bool} (h : Conforming parse)
    (htest : ∀ rows, test (.values rows) = true) : Yields (valuesClause parse) (Node.Is test) := by
  refine .step fun start => .step fun _ => ?_
  have hrows : Yields (loop [] fun rows => do
      if (← look).isMark .lparen then
        let rows := (← parenList parse) :: rows
        if ← eatMark .comma then return .again rows else return .done rows.reverse
      else return .done rows.reverse : Parser (List (List Node)))
      fun rows => ∀ row ∈ rows, AllLoose row := by
    refine .loop (fun rows => ∀ row ∈ rows, AllLoose row) (by simp) fun rows hrows => ?_
    refine .step fun v => .ite (.seq (yields_parenList h) fun row hrow => ?_) ?_
    · have hall : ∀ other ∈ row :: rows, AllLoose other := by simpa using ⟨hrow, hrows⟩
      exact .step fun _ => .ite (.ret hall) (.ret fun r hr => hall r (List.mem_reverse.mp hr))
    · exact .ret fun r hr => hrows r (List.mem_reverse.mp hr)
  exact .seq hrows fun rows hrows => .above trivial (allLoose_flatten.mpr hrows) (htest _)

theorem yields_temporalClause : Yields (temporalClause parse) Node.Loose := by
  refine .step fun start => .step fun _ => .step fun _ => ?_
  exact .leaf trivial rfl

/-- A derived table has exactly one part, a query or values. -/
theorem yields_derivedTable {start : Nat} {content : Parser Node}
    (h : Yields content (Node.Is Kind.isRows)) :
    Yields (derivedTable start content) Node.Loose := by
  refine .seq h fun rows hrows => .step fun _ => .step fun knownAs => .step fun _ => ?_
  exact .above ⟨rows, rfl, hrows.kind⟩ (by simp [hrows.loose]) rfl

/-- A query or values in parentheses are a derived table, anything else is a source by itself. -/
theorem yields_parenSource (h : Conforming parse) (start : Nat) :
    Yields (parenSource parse start) Node.Loose := by
  have hquery : Yields (parse .query) (Node.Is Kind.isRows) :=
    h.query.imp fun n hn => ⟨hn.conforms, Kind.isRows_of_isQuery hn.kind⟩
  refine .step fun v => .step fun _ => .ite (yields_derivedTable hquery) (.ite ?_ ?_)
  · exact yields_derivedTable (yields_valuesClause h fun _ => rfl)
  · exact .seq (h.loose .tableSource) fun inner hinner => .step fun _ => .ret hinner

theorem yields_namedSource (h : Conforming parse) (name : String) (start : Nat) :
    Yields (namedSource parse name start) Node.Loose := by
  refine .step fun v => .ite ?_ ?_
  · refine .seq (yields_parenList h) fun args hargs => .step fun knownAs => .step fun _ => ?_
    exact .above trivial hargs rfl
  · refine .seq yields_hintList fun bare hbare => ?_
    refine .seq (.whenSees yields_temporalClause) fun temporal htemporal => .step fun knownAs => ?_
    refine .seq (.whenSees yields_tableSample) fun sample hsample => ?_
    refine .seq yields_tableHints fun hints hhints => .above trivial ?_ rfl
    simp [hbare, allLoose_of_item htemporal, allLoose_of_item hsample, hhints]

theorem yields_plainSource (h : Conforming parse) (start : Nat) :
    Yields (plainSource parse start) Node.Loose := by
  refine .step fun v => .ite (yields_parenSource h start) (.step fun name? => ?_)
  split
  · exact yields_namedSource h _ start
  · exact yields_primary h

/-- A pivot stands over exactly one source. -/
theorem yields_tablePrimary (h : Conforming parse) : Yields (tablePrimary parse) Node.Loose := by
  refine .step fun start => .seq (yields_plainSource h start) fun source hsource => ?_
  refine .loop Node.Loose hsource fun source hsource => .step fun v => .ite ?_ (.ret hsource)
  refine .step fun _ => .step fun _ => .step fun _ => ?_
  exact .seq (.above rfl (by simp [hsource]) rfl) fun n hn => .ret hn

/-- A join has two sources and perhaps a condition. -/
theorem yields_tableSourceBody (h : Conforming parse) :
    Yields (tableSourceBody parse) Node.Loose := by
  refine .seq (yields_tablePrimary h) fun first hfirst => ?_
  refine .loop Node.Loose hfirst fun left hleft => .step fun words? => ?_
  split
  · refine .seq (yields_tablePrimary h) fun right hright => ?_
    refine .seq (.itemAfter h.expression) fun condition hcondition => ?_
    have hall : AllLoose (left :: right :: condition) := by
      simp [hleft, hright, allLoose_of_item hcondition]
    refine .seq (.above ?_ hall rfl) fun n hn => .ret hn
    have := hcondition.1
    simp only [Kind.Admits, List.length_cons]
    omega
  · exact .ret hleft

theorem yields_fromClause (h : Conforming parse) : Yields (fromClause parse) Node.Loose := by
  refine .step fun start => .step fun _ => ?_
  refine .seq (.commaSeparated (h.loose .tableSource)) fun sources hsources => ?_
  exact .above trivial hsources rfl

theorem yields_fromClause? (h : Conforming parse) : Yields (fromClause? parse) AllLoose := by
  refine (Yields.whenSees (yields_fromClause h)).imp fun found hfound => ?_
  exact allLoose_of_item hfound

/-! ### Clauses -/

theorem yields_searchCondition (h : Conforming parse) :
    Yields (searchCondition parse) Node.Loose := by
  refine .step fun v => .ite ?_ h.expression
  exact .step fun _ => .step fun _ => .step fun _ => .step fun _ => .leaf trivial rfl

/-- `WHERE` has exactly one condition. -/
theorem yields_whereClause (h : Conforming parse) : Yields (whereClause parse) Node.Loose := by
  refine .step fun start => .step fun _ => .seq (yields_searchCondition h) fun cond hcond => ?_
  exact .above rfl (by simp [hcond]) rfl

theorem yields_whereClause? (h : Conforming parse) : Yields (whereClause? parse) AllLoose := by
  refine (Yields.whenSees (yields_whereClause h)).imp fun found hfound => ?_
  exact allLoose_of_item hfound

theorem yields_groupMember (h : Conforming parse) :
    Yields (groupMember parse) fun member => AllLoose member.2 := by
  refine .step fun v => .ite (.step fun modifier => ?_) (.step fun _ => .ite ?_ ?_)
  · exact .seq (yields_parenList h) fun members hmembers => .ret hmembers
  · exact .step fun _ => .ret (by simp)
  · exact .seq h.expression fun n hn => .ret (by simp [hn])

theorem yields_groupBy (h : Conforming parse) : Yields (groupBy parse) Node.Loose := by
  refine .step fun start => .step fun _ => .step fun all => ?_
  refine .seq (.commaSeparated (yields_groupMember h)) fun members hmembers => .step fun _ => ?_
  refine .above trivial (allLoose_flatten.mpr fun row hrow => ?_) rfl
  obtain ⟨member, hmember, rfl⟩ := List.mem_map.mp hrow
  exact hmembers member hmember

/-- `HAVING` has exactly one condition. -/
theorem yields_having (h : Conforming parse) : Yields (having parse) Node.Loose := by
  refine .step fun start => .step fun _ => .seq h.expression fun condition hcond => ?_
  exact .above rfl (by simp [hcond]) rfl

theorem yields_fetchCount (h : Conforming parse) : Yields (fetchCount parse) Node.Loose := by
  refine .step fun _ => .step fun _ => .seq h.expression fun count hcount => ?_
  exact .step fun _ => .step fun _ => .step fun _ => .ret hcount

theorem yields_offsetFetch (h : Conforming parse) : Yields (offsetFetch parse) AllLoose := by
  refine .seq h.expression fun offset hoffset => .step fun _ => .step fun _ => ?_
  refine .seq (.itemAfter (yields_fetchCount h)) fun count hcount => .ret ?_
  exact allLoose_cons.mpr ⟨hoffset, allLoose_of_item hcount⟩

/-- An order is read as a node of its own kind. -/
theorem yields_orderBy (h : Conforming parse) :
    Yields (orderBy parse) (Node.Is Kind.isOrderBy) := by
  refine .step fun start => .step fun _ => .seq (yields_orderItems h) fun items hitems => ?_
  refine .step fun paged => .seq (.listAfter (yields_offsetFetch h)) fun pages hpages => ?_
  exact .above trivial (allLoose_append.mpr ⟨hitems, hpages⟩) rfl

/-! ### Queries -/

/-- A specification is read as one, so it stands in queries and set operations only. -/
theorem yields_querySpec (h : Conforming parse) :
    Yields (querySpec parse) (Node.Is Kind.isQueryCore) := by
  refine .step fun start => .step fun _ => .step fun distinct => ?_
  refine .seq (yields_topClause? h) fun top htop => ?_
  refine .seq (.commaSeparated (yields_selectItem h)) fun items hitems => ?_
  refine .seq (.whenSees yields_intoClause) fun into hinto => ?_
  refine .seq (yields_fromClause? h) fun sources hsources => ?_
  refine .seq (yields_whereClause? h) fun condition hcondition => ?_
  refine .seq (.whenSees (yields_groupBy h)) fun grouping hgrouping => ?_
  refine .seq (.whenSees (yields_having h)) fun having hhaving => ?_
  have hitems : AllLoose items := hitems
  refine .above trivial ?_ rfl
  simp [htop, hitems, allLoose_of_item hinto, hsources, hcondition, allLoose_of_item hgrouping,
    allLoose_of_item hhaving]

theorem yields_queryTerm (h : Conforming parse) :
    Yields (queryTerm parse) (Node.Is Kind.isQueryCore) := by
  refine .step fun v => .ite (.step fun _ => ?_) (.ite (yields_querySpec h) ?_)
  · refine .seq h.query fun inner hinner => .step fun _ => ?_
    exact .ret ⟨hinner.conforms, Kind.isQueryCore_of_isQuery hinner.kind⟩
  · exact yields_otherStatement fun _ => rfl

/-- A set operation has two operands, and both are cores of queries. -/
theorem yields_queryExpression (h : Conforming parse) :
    Yields (queryExpression parse) (Node.Is Kind.isQueryCore) := by
  refine .seq (yields_queryTerm h) fun first hfirst => ?_
  refine .loop (Node.Is Kind.isQueryCore) hfirst fun left hleft => .step fun operator? => ?_
  split
  · refine .seq (yields_queryTerm h) fun right hright => ?_
    refine .seq (.build rfl ?_ ?_ rfl) fun n hn => .ret hn
    · have hhosts := fun {n : Node} (hn : n.Is Kind.isQueryCore) operator =>
        Kind.setOperation_hosts_core operator hn.kind
      simpa using ⟨hhosts hleft _, hhosts hright _⟩
    · simpa using ⟨hleft.conforms, hright.conforms⟩
  · exact .ret hleft

/-- The clauses behind a query: an order, a format and options, each at most once. -/
theorem yields_queryTail (h : Conforming parse) : Yields (queryTail parse) QueryClauses := by
  refine .seq (.whenSees (yields_orderBy h)) fun order horder => ?_
  refine .seq (.whenSees yields_forClause) fun format hformat => ?_
  refine .seq (.whenSees yields_optionClause) fun options hoptions => .ret ⟨?_, ?_⟩
  · exact ⟨order, format, options, rfl, optionally_of_item horder, optionally_of_item hformat,
      optionally_of_item hoptions⟩
  · simp [allLoose_of_item horder, allLoose_of_item hformat, allLoose_of_item hoptions]

/-- What `WITH` lists may stand behind `WITH`: common table expressions, each over one query. -/
theorem yields_cte? (h : Conforming parse) :
    Yields (cte? parse) fun found? => ∀ found ∈ found?, ∀ n ∈ found,
      n.Is (Kind.hosts .withClause) := by
  refine .step fun start => .step fun _ => .ite (.step fun _ => .ret (by simp)) ?_
  refine .step fun name? => ?_
  split
  · exact .ret (by simp)
  · refine .step fun _ => .step fun _ => .ite ?_ (.ret (by simp))
    refine .step fun _ => .ite ?_ (.ret (by simp))
    refine .seq h.query fun query hquery => .step fun _ => ?_
    have hnode : ∀ name,
        Yields (node (.cte name) start [query]) (Node.Is (Kind.hosts .withClause)) :=
      fun name => .above ⟨query, rfl, hquery.kind⟩ (by simp [hquery.loose]) rfl
    refine .seq (hnode _) fun n hn => .ret ?_
    simpa using hn

theorem yields_cteMembers? (h : Conforming parse) :
    Yields (cteMembers? parse) fun found? => ∀ found ∈ found?, ∀ n ∈ found,
      n.Is (Kind.hosts .withClause) := by
  refine .loop (fun members => ∀ n ∈ members, n.Is (Kind.hosts .withClause)) (by simp)
    fun members hmembers => .seq (yields_cte? h) fun found? hfound => ?_
  split
  · exact .ret (by simp [Round.All])
  · rename_i found
    have hall : ∀ n ∈ members ++ found, n.Is (Kind.hosts .withClause) := by
      intro n hn
      rcases List.mem_append.mp hn with hn | hn
      · exact hmembers n hn
      · exact hfound found rfl n hn
    exact .step fun _ => .ite (.ret hall) (.ret (by simpa [Round.All] using hall))

/-- `WITH` holds what it lists, and nothing else holds common table expressions. -/
theorem yields_withClause? (h : Conforming parse) :
    Yields (withClause? parse) fun found? => ∀ n ∈ found?, n.Is Kind.isWithClause := by
  refine .step fun start => .step fun _ => .ite ?_ (.ret (by simp))
  refine .seq (yields_cteMembers? h) fun members? hmembers => ?_
  split
  · rename_i members
    have hall := hmembers members rfl
    have hnode : Yields (node .withClause start members) (Node.Is Kind.isWithClause) :=
      .build trivial (fun c hc => (hall c hc).kind) (fun c hc => (hall c hc).conforms) rfl
    refine .seq hnode fun n hn => .ret ?_
    simpa using hn
  · exact .ret (by simp)

/-- A query with its clauses, perhaps behind common table expressions. -/
theorem yields_query {ctes : List Node} {core : Node} {tail : List Node} {start : Nat}
    {test : Kind → Bool} (hctes : ctes.length ≤ 1 ∧ ∀ n ∈ ctes, n.Is Kind.isWithClause)
    (hcore : core.Is Kind.isQueryCore) (htail : QueryClauses tail) (htest : test .query = true) :
    Yields (node .query start (ctes ++ core :: tail)) (Node.Is test) := by
  obtain ⟨⟨order, format, options, rfl, horder, hformat, hoptions⟩, hloose⟩ := htail
  refine .build ⟨ctes, core, order, format, options, by simp, ?_, hcore.kind, horder, hformat,
    hoptions⟩ (fun c hc => ?_) (fun c hc => ?_) htest
  · exact optionally_of_item hctes
  · rcases List.mem_append.mp hc with hc | hc
    · exact Kind.hosts_of_isLoose _ (hctes.2 c hc).loose.kind
    · rcases List.mem_cons.mp hc with rfl | hc
      · exact Kind.query_hosts_core hcore.kind
      · exact Kind.hosts_of_isLoose _ (hloose c hc).kind
  · rcases List.mem_append.mp hc with hc | hc
    · exact (hctes.2 c hc).conforms
    · rcases List.mem_cons.mp hc with rfl | hc
      · exact hcore.conforms
      · exact (hloose c hc).conforms

theorem yields_leadingCtes (h : Conforming parse) :
    Yields (leadingCtes parse) fun ctes =>
      ctes.length ≤ 1 ∧ ∀ n ∈ ctes, n.Is Kind.isWithClause := by
  refine .step fun v => .ite ?_ (.ret (by simp))
  refine .seq (yields_withClause? h) fun found? hfound => .ret ?_
  cases found? with
  | none => simp
  | some n => simpa using hfound n rfl

/-- Common table expressions, core and clauses stand in the order of the text. -/
theorem yields_queryBody (h : Conforming parse) :
    Yields (queryBody parse) (Node.Is Kind.isQuery) := by
  refine .step fun start => .seq (yields_leadingCtes h) fun ctes hctes => ?_
  refine .seq (yields_queryExpression h) fun core hcore => ?_
  exact .seq (yields_queryTail h) fun tail htail => yields_query hctes hcore htail rfl

/-- A query is a statement. -/
theorem yields_queryStatement (h : Conforming parse) :
    Yields (queryStatement parse) (Node.Is Kind.isStatement) := by
  refine .step fun v => .ite (yields_otherStatement fun _ => rfl) ?_
  exact h.query.imp fun n hn => ⟨hn.conforms, Kind.isStatement_of_isQuery hn.kind⟩

end Parser

end Portability
