import Portability.Proofs.Layout.Expression

/-! Queries lay out their clauses in the order in which they are written. -/
namespace Portability.Parser

variable {s : Source} {parse : Descent} {lo pos : Nat}

/-! ### Scans -/

instance : Onward tableAlias? := by
  unfold tableAlias?
  refine .step fun hasAs => .either inferInstance ?_
  exact .step fun v => .either inferInstance inferInstance

instance : Onward columnAlias? := by
  refine .seq inferInstance fun marked => .seq inferInstance fun v => ?_
  split <;> infer_instance

instance : Onward skipColumnList := inferInstanceAs (Onward skipParens)

/-- One token is read, whatever it is. -/
theorem moves_takeAny (h : pos < s.size) : Moves s pos takeAny fun _ q => pos < q := by
  refine .take fun word? q hq hlt => ?_
  split
  · exact .ret (by simp) (hlt rfl)
  · refine .look (.run moves_advance fun _ q' _ hq' => .ret (by simp) ?_)
    split at hq' <;> omega

instance : Onward skipRepeatable := by
  unfold skipRepeatable
  exact .step fun repeatable => .either inferInstance inferInstance

instance : Onward formatWords := by
  refine .seq inferInstance fun kind => .seq inferInstance fun v => ?_
  split <;> infer_instance

instance : Onward skipFormatSettings := by
  refine .seq (.manyWhile fun s pos hcomma => ?_) inferInstance
  refine .advance (View.lt_of_isMark hcomma) ?_
  exact (Onward.moves s (pos + 1)).last (by omega) fun _ q hq _ => by omega

instance : Onward hintWords := by
  refine .loop fun s pos words => .look ?_
  split
  · rename_i w hw
    refine .ite (fun _ => .ret (by simp) trivial) fun _ => ?_
    exact .advance (View.lt_of_word? hw) (.ret (by simp) ⟨fun _ => by omega, trivial⟩)
  · exact .ret (by simp) trivial

instance : Onward joinKind := by
  refine .seq inferInstance fun _ => .either inferInstance (.seq inferInstance fun _ => ?_)
  refine .either inferInstance (.seq inferInstance fun _ => ?_)
  infer_instance

instance : Onward joinHint? := by
  unfold joinHint?
  exact .step fun v => .either inferInstance inferInstance

/-- The words of a join are there or the position is put back. -/
instance : Takes joinWords? (·.isSome = true) := by
  refine ⟨fun s pos => .position (.fork (fun q hq => .ret (by simp) fun _ => hq) fun q hq => ?_)⟩
  refine .fork (fun q₁ h₁ => .ret (by simp) fun _ => by omega) fun q₁ h₁ => ?_
  refine .fork (fun q₂ h₂ => .ret (by simp) fun _ => by omega) fun q₂ h₂ => ?_
  refine .scan fun kind q₃ h₃ => .scan fun hint q₄ h₄ => ?_
  refine .fork (fun q₅ h₅ => .ret (by simp) fun _ => by omega) fun q₅ h₅ => ?_
  exact .rewind rfl (by omega) (Nat.le_refl pos) (.ret (by simp) (by simp))

instance : Takes assignmentTarget? (·.isSome = true) := by
  refine ⟨fun s pos => .look ?_⟩
  split
  · rename_i target operator width htarget hop
    have hlt : pos + 0 < s.size := by
      apply View.lt_of_token? (v := ⟨s, pos⟩)
      intro hnone
      simp [View.variableName?, View.word?, hnone] at htarget
    rw [Nat.add_comm 1 width]
    exact .run (moves_advanceBy hlt) fun _ q _ hq => .ret (by simp) fun _ => hq
  · exact .ret (by simp) (by simp)

instance : Onward groupAll? := by
  unfold groupAll?
  exact .step fun hasAll => .either inferInstance inferInstance

instance {known : Option String} : Onward (trailingModifier known) := by
  unfold trailingModifier
  refine .step fun found => .either ?_ inferInstance
  refine .step fun word => ?_
  infer_instance

instance : Onward distinctWord := by
  unfold distinctWord
  refine .step fun hasDistinct => .either inferInstance ?_
  refine .step fun _ => ?_
  infer_instance

instance : Takes setOperator? (·.isSome = true) := by
  refine ⟨fun s pos => .fork (fun q hq => .ret (by simp) fun _ => hq) fun q hq => ?_⟩
  refine .fork (fun q₁ h₁ => .ret (by simp) fun _ => by omega) fun q₁ h₁ => ?_
  refine .fork (fun q₂ h₂ => .ret (by simp) fun _ => by omega) fun q₂ h₂ => ?_
  refine .fork (fun q₃ h₃ => .ret (by simp) fun _ => by omega) fun q₃ h₃ => ?_
  exact .ret (by simp) (by simp)

/-! ### Hints and options -/

/-- A member of a list of words reads at least one token. -/
theorem spans_wordMember {make : String → Kind} (hmake : ∀ word, (make word).Free)
    (hpos : pos < s.size) :
    Lays s pos pos [] (wordMember make) (fun n => [n]) fun n q => n.Exact pos q ∧ pos < q := by
  refine .position (.lifted (moves_takeAny hpos) fun word q _ hq => .scan fun _ q' hq' => ?_)
  exact .place (by simp) (hmake word _ _ _ _) fun n hn _ => ⟨hn, by omega⟩

theorem lays_wordMembers {make : String → Kind} (hmake : ∀ word, (make word).Free) :
    LaysAll s pos (parenMembers (wordMember make)) := by
  refine .parenNodes fun q hq hlt _ => ?_
  refine (spans_wordMember hmake hlt).imp fun n q' hn heq => ?_
  omega

theorem lays_hintList : LaysAll s pos hintList := lays_wordMembers fun _ _ _ _ _ => trivial

theorem lays_tableHints : LaysAll s pos tableHints := by
  refine .look (.ite (fun hwith => ?_) fun _ => .ret (by simp) trivial)
  exact .advance (View.lt_of_isCall hwith) (lays_hintList.drop (by omega))

theorem spans_tableSample : Spans s pos tableSample := by
  refine .position (.scan fun _ q hq => .scan fun _ q₁ h₁ => .scan fun _ q₂ h₂ => ?_)
  exact .scan fun _ q₃ h₃ => .leaf trivial

theorem spans_forClause : Spans s pos forClause := by
  refine .position (.scan fun _ q hq => .scan fun mode q₁ h₁ => .scan fun _ q₂ h₂ => ?_)
  exact .scan fun _ q₃ h₃ => .leaf trivial

/-- A hint that reads nothing stands before the end of a member. -/
theorem lays_queryHint (hpos : pos < s.size) (hopen : (View.mk s pos).isMark .rparen = false) :
    Lays s pos pos [] queryHint (fun n => [n]) fun _ q =>
      q = pos → (View.mk s pos).isMark .comma = true := by
  refine .position (.scan fun words q hq => .lifted moves_skipUntil fun _ q₁ h₁ hstop => ?_)
  refine .scan fun text q₂ h₂ => .place (by simp) trivial fun n _ _ heq => ?_
  have hat : q₁ = pos := by omega
  rw [hat] at hstop
  simpa [hopen] using hstop hpos

theorem spans_optionClause : Spans s pos optionClause := by
  refine .position (.scan fun _ q hq => .step (.parenNodes fun r _ => lays_queryHint) ?_)
  exact fun hints q' hq' _ => .node (by simp) trivial

theorem lays_optionClause? : LaysAll s pos optionClause? := .whenSees fun _ => spans_optionClause

theorem spans_intoClause : Spans s pos intoClause := by
  refine .position (.scan fun _ q hq => .scan fun target q₁ h₁ => ?_)
  exact .leaf trivial

/-! ### Select lists -/

/-- An item spans its expression with the name behind or in front of it. -/
theorem spans_selectItem (h : AllFrom s parse pos) : Spans s pos (selectItem parse) := by
  refine .position (.look (.ite (fun _ => .scan fun _ q hq => .leaf trivial) fun _ => ?_))
  refine .scan fun target? q hq => ?_
  split
  · refine .step (h.one .expression hq) fun value q' hq' _ => ?_
    exact .node (by simp) trivial
  · refine .ite (fun _ => ?_) fun _ => ?_
    · refine .scan fun knownAs q₁ h₁ => .scan fun _ q₂ h₂ => ?_
      refine .step (h.one .expression (by omega)) fun value q₃ h₃ _ => ?_
      exact .node (by simp) trivial
    · refine .step (h.one .expression hq) fun value q₁ h₁ _ => .scan fun knownAs q₂ h₂ => ?_
      exact .node (by simp) trivial

theorem lays_selectItems (h : AllFrom s parse pos) :
    LaysAll s pos (commaSeparated (selectItem parse)) := by
  have hitem : ∀ q, pos ≤ q → Spans s q (selectItem parse) :=
    fun q hq => spans_selectItem (h.mono hq)
  exact .commaNodes hitem

theorem lays_topCount (h : AllFrom s parse (pos + 1)) : LaysOne s pos (topCount parse) := by
  refine .eat (fun _ _ => ?_) fun _ => lays_primary h
  refine .step (h.one .expression (Nat.le_refl _)) fun e q hq _ => .scan fun _ q' hq' => ?_
  exact .ret (by simp) trivial

theorem spans_topClause (h : AllFrom s parse (pos + 1)) : Spans s pos (topClause parse) := by
  refine .position (.scan fun _ q hq => ?_)
  refine .step (lays_topCount (h.mono (by omega))) fun count q₁ h₁ _ => ?_
  exact .scan fun percent q₂ h₂ => .scan fun withTies q₃ h₃ => .node (by simp) trivial

theorem lays_topClause? (h : AllFrom s parse (pos + 1)) : LaysAll s pos (topClause? parse) :=
  .whenSees fun _ => spans_topClause h

/-! ### Table sources -/

theorem spans_valuesClause (h : AllFrom s parse (pos + 1)) : Spans s pos (valuesClause parse) := by
  refine .position (.scan fun _ q hq => ?_)
  refine .seq (show Lays s pos q [] _ List.flatten fun _ _ => True from ?_) fun rows q' _ =>
    .node (List.Sublist.refl _) trivial
  refine .loop (fun rows => rows.reverse.flatten) (by simp) fun rows r hr => ?_
  refine .look (.ite (fun _ => ?_) fun _ => .ret (by simp) trivial)
  refine .step (lays_parenList (h.mono (by omega))) fun row r' hr' _ => ?_
  exact .again (by simp) (by simp) hr' (fun _ => trivial) fun _ => trivial

/-- Bounds are read and dropped. -/
theorem moves_boundPair (h : AllFrom s parse pos) (between : String) :
    Moves s pos (boundPair parse between) fun _ _ => True := by
  refine .step (lays_operand h (Nat.le_refl pos)) fun _ q hq _ => .scan fun _ q₁ h₁ => ?_
  refine .step (lays_operand h (by omega)) fun _ q₂ h₂ _ => ?_
  exact .ret (by simp) trivial

theorem moves_temporalBounds (h : AllFrom s parse pos) :
    Moves s pos (temporalBounds parse) fun _ _ => True := by
  refine .fork (fun q hq => ?_) fun q hq => .fork (fun q₁ h₁ => ?_) fun q₁ h₁ =>
    .fork (fun q₂ h₂ => ?_) fun q₂ h₂ => .fork (fun q₃ h₃ => ?_) fun q₃ h₃ => ?_
  · exact .step (lays_operand h (by omega)) fun _ _ _ _ => .ret (by simp) trivial
  · exact (moves_boundPair (h.mono (by omega)) "TO").drop (by omega)
  · exact (moves_boundPair (h.mono (by omega)) "AND").drop (by omega)
  · exact (Onward.moves s q₃).drop (by omega)
  · exact .scan fun _ _ _ => .ret (by simp) trivial

theorem spans_temporalClause (h : AllFrom s parse (pos + 1)) (hpos : pos < s.size) :
    Spans s pos (temporalClause parse) := by
  refine .position (.lifted (moves_advanceBy hpos) fun _ q _ hq => ?_)
  exact .run (moves_temporalBounds (h.mono hq)) fun _ q' hq' _ => .leaf trivial

/-- A derived table begins at its parenthesis, before what it is made of. -/
theorem lays_derivedTable {start : Nat} {content : Parser Node} (h : LaysOne s pos content) :
    Lays s start pos [] (derivedTable start content) (fun n => [n]) fun _ _ => True := by
  refine .step h fun content q hq _ => .scan fun _ q₁ h₁ => .scan fun knownAs q₂ h₂ => ?_
  exact .scan fun _ q₃ h₃ => Lays.one (.node (by simp) trivial)

theorem lays_parenSource (h : AllFrom s parse (pos + 1)) (hpos : pos < s.size) :
    LaysOne s pos (parenSource parse pos) := by
  refine .look (.advance hpos (.ite (fun _ => ?_) fun _ => .ite (fun _ => ?_) fun _ => ?_))
  · exact lays_derivedTable (h.one .query (Nat.le_refl _))
  · exact lays_derivedTable (spans_valuesClause (h.mono (by omega))).one
  · refine .step (h.one .tableSource (Nat.le_refl _)) fun inner q hq _ => .scan fun _ q' hq' => ?_
    exact .ret (by simp) trivial

/-- The name of the source has been read from `start` on. -/
theorem lays_namedSource {start : Nat} (h : AllFrom s parse (pos + 1)) (name : String) :
    Lays s start pos [] (namedSource parse name start) (fun n => [n]) fun _ _ => True := by
  refine .look (.ite (fun _ => ?_) fun _ => ?_)
  · refine .step (lays_parenList h) fun args q hq _ => .scan fun knownAs q₁ h₁ => ?_
    exact .scan fun _ q₂ h₂ => Lays.one (.node (by simp) trivial)
  · refine .step lays_hintList fun bare q hq _ => ?_
    have htemporal : (View.mk s q).isWords ["FOR", "SYSTEM_TIME"] = true →
        Spans s q (temporalClause parse) :=
      fun hfor => spans_temporalClause (h.mono (by omega)) (View.lt_of_isWords hfor)
    refine .step (.whenSees htemporal) fun temporal q₁ h₁ _ => .scan fun knownAs q₂ h₂ => ?_
    refine .step (.whenSees fun _ => spans_tableSample) fun sample q₃ h₃ _ => ?_
    refine .step lays_tableHints fun hints q₄ h₄ _ => ?_
    exact Lays.one (.node (by simp) trivial)

theorem lays_plainSource (h : AllFrom s parse (pos + 1)) :
    LaysOne s pos (plainSource parse pos) := by
  refine .look (.ite (fun hopen => lays_parenSource h (View.lt_of_isMark hopen)) fun _ => ?_)
  refine .scan fun name? q hq => ?_
  split
  · exact lays_namedSource (h.mono (by omega)) _
  · exact (lays_primary (h.mono (by omega))).drop hq

theorem lays_tablePrimary (h : AllFrom s parse (pos + 1)) : LaysOne s pos (tablePrimary parse) := by
  refine .position (.step (lays_plainSource h) fun source q hq _ => ?_)
  refine .loop (fun source => [source]) (by simp) fun source q' hq' => .look ?_
  refine .ite (fun hpivot => ?_) fun _ => .ret (by simp) trivial
  refine .advance (View.lt_of_isOneOf hpivot) (.scan fun _ q₁ h₁ => .scan fun _ q₂ h₂ => ?_)
  exact .build (by simp) trivial fun n _ => .ret (by simp) ⟨fun _ => by omega, trivial⟩

/-- A join begins with its left source and ends with its condition. -/
theorem lays_tableSourceBody (h : AllFrom s parse (pos + 1)) :
    LaysOne s pos (tableSourceBody parse) := by
  refine .step (lays_tablePrimary h) fun first q hq _ => ?_
  refine .loop (fun left => [left]) (by simp) fun left q' hq' => .take fun words? q₁ h₁ hlt => ?_
  split
  · have hread : q' < q₁ := hlt rfl
    refine .step (lays_tablePrimary (h.mono (by omega))) fun right q₂ h₂ _ => ?_
    refine .step (.itemAfter fun r hr => h.one .expression (by omega)) fun condition q₃ h₃ _ => ?_
    refine .buildFrom (by simp) trivial fun n _ => .ret (by simp) ?_
    exact ⟨fun _ => by omega, trivial⟩
  · exact .ret (by simp) trivial

theorem spans_fromClause (h : AllFrom s parse (pos + 1)) (hpos : pos < s.size) :
    Spans s pos (fromClause parse) := by
  refine .position (.advance hpos ?_)
  refine .step (.commaNodes fun q hq => h.one .tableSource hq) fun sources q hq _ => ?_
  exact .node (by simp) trivial

theorem lays_fromClause? (h : AllFrom s parse (pos + 1)) : LaysAll s pos (fromClause? parse) := by
  have hspans (hfrom : (View.mk s pos).isWord "FROM" = true) : Spans s pos (fromClause parse) :=
    spans_fromClause h (View.lt_of_isWord hfrom)
  exact .whenSees hspans

/-! ### Clauses -/

theorem spans_currentOf : Spans s pos currentOf := by
  refine .position (.scan fun _ q hq => .scan fun _ q₁ h₁ => .scan fun cursor q₂ h₂ => ?_)
  exact .leaf trivial

theorem lays_searchCondition (h : AllFrom s parse pos) :
    LaysOne s pos (searchCondition parse) := by
  refine .look (.ite (fun _ => ?_) fun _ => ?_)
  · exact spans_currentOf.one
  · exact h.one .expression (Nat.le_refl pos)

theorem spans_whereClause (h : AllFrom s parse (pos + 1)) (hpos : pos < s.size) :
    Spans s pos (whereClause parse) := by
  refine .position (.advance hpos (.step (lays_searchCondition h) fun condition q hq _ => ?_))
  exact .node (by simp) trivial

theorem lays_whereClause? (h : AllFrom s parse (pos + 1)) : LaysAll s pos (whereClause? parse) := by
  have hspans (hwhere : (View.mk s pos).isWord "WHERE" = true) : Spans s pos (whereClause parse) :=
    spans_whereClause h (View.lt_of_isWord hwhere)
  exact .whenSees hspans

/-- A member of `GROUP BY` gives its expressions in the order of the text. -/
theorem lays_groupMember (h : AllFrom s parse pos) :
    Lays s pos pos [] (groupMember parse) (·.2) fun _ _ => True := by
  refine .look (.ite (fun _ => ?_) fun _ => .fork (fun q hq => ?_) fun q hq => ?_)
  · refine .scan fun modifier q hq => .step (lays_parenList (h.mono (by omega))) ?_
    exact fun members q' hq' _ => .ret (by simp) trivial
  · exact .scan fun _ q' hq' => .ret (by simp) trivial
  · exact .step (h.one .expression hq) fun e q' hq' _ => .ret (by simp) trivial

theorem spans_groupBy (h : AllFrom s parse (pos + 1)) (hpos : pos < s.size) :
    Spans s pos (groupBy parse) := by
  refine .position (.lifted (moves_advanceBy hpos) fun _ q _ hq => .scan fun all q₁ h₁ => ?_)
  refine .step (.commaSeparated fun r hr => lays_groupMember (h.mono (by omega))) ?_
  refine fun members q₂ h₂ _ => .scan fun trailing q₃ h₃ => ?_
  exact .node (by simp [List.flatMap_def]) trivial

theorem spans_having (h : AllFrom s parse (pos + 1)) (hpos : pos < s.size) :
    Spans s pos (having parse) := by
  refine .position (.advance hpos ?_)
  refine .step (h.one .expression (Nat.le_refl _)) fun condition q hq _ => ?_
  exact .node (by simp) trivial

theorem lays_fetchCount (h : AllFrom s parse pos) : LaysOne s pos (fetchCount parse) := by
  refine .scan fun _ q hq => .scan fun _ q₁ h₁ => ?_
  refine .step (h.one .expression (by omega)) fun count q₂ h₂ _ => ?_
  refine .scan fun _ q₃ h₃ => .scan fun _ q₄ h₄ => .scan fun _ q₅ h₅ => ?_
  exact .ret (by simp) trivial

theorem lays_offsetFetch (h : AllFrom s parse pos) : LaysAll s pos (offsetFetch parse) := by
  refine .step (h.one .expression (Nat.le_refl pos)) fun offset q hq _ => ?_
  refine .scan fun _ q₁ h₁ => .scan fun _ q₂ h₂ => ?_
  refine .step (.itemAfter fun r hr => lays_fetchCount (h.mono (by omega))) fun count q₃ h₃ _ => ?_
  exact .ret (by simp) trivial

theorem spans_orderBy (h : AllFrom s parse (pos + 1)) (hpos : pos < s.size) :
    Spans s pos (orderBy parse) := by
  refine .position (.lifted (moves_advanceBy hpos) fun _ q _ hq => ?_)
  refine .step (lays_orderItems h (by omega)) fun items q₁ h₁ _ => .scan fun paged q₂ h₂ => ?_
  refine .step (.listAfter fun r hr => lays_offsetFetch (h.mono (by omega))) fun pages q₃ h₃ _ => ?_
  exact .node (by simp) trivial

/-! ### Queries -/

/-- The clauses of a query are its parts in the order of the text. -/
theorem spans_querySpec (h : AllFrom s parse (pos + 1)) (hpos : pos < s.size) :
    Spans s pos (querySpec parse) := by
  refine .position (.advance hpos (.scan fun distinct q hq => ?_))
  refine .step (lays_topClause? (h.mono (by omega))) fun top q₁ h₁ _ => ?_
  refine .step (lays_selectItems (h.mono (by omega))) fun items q₂ h₂ _ => ?_
  refine .step (.whenSees fun _ => spans_intoClause) fun into q₃ h₃ _ => ?_
  refine .step (lays_fromClause? (h.mono (by omega))) fun sources q₄ h₄ _ => ?_
  refine .step (lays_whereClause? (h.mono (by omega))) fun condition q₅ h₅ _ => ?_
  refine .step (.whenSees fun hgroup => spans_groupBy (h.mono (by omega))
    (View.lt_of_isWords hgroup)) fun grouping q₆ h₆ _ => ?_
  refine .step (.whenSees fun hhaving => spans_having (h.mono (by omega))
    (View.lt_of_isWord hhaving)) fun having q₇ h₇ _ => ?_
  exact .node (by simp) trivial

theorem lays_queryTerm (h : AllFrom s parse (pos + 1)) : LaysOne s pos (queryTerm parse) := by
  refine .look (.ite (fun hopen => ?_) fun _ => .ite (fun hselect => ?_) fun _ => ?_)
  · refine .advance (View.lt_of_isMark hopen) ?_
    refine .step (h.one .query (Nat.le_refl _)) fun inner q hq _ => .scan fun _ q' hq' => ?_
    exact .ret (by simp) trivial
  · exact (spans_querySpec h (View.lt_of_isWord hselect)).one
  · exact spans_otherStatement.one

/-- A set operation begins with its left query and ends with its right one. -/
theorem lays_queryExpression (h : AllFrom s parse (pos + 1)) :
    LaysOne s pos (queryExpression parse) := by
  refine .step (lays_queryTerm h) fun first q hq _ => ?_
  refine .loop (fun left => [left]) (by simp) fun left q' hq' => .take fun op? q₁ h₁ hlt => ?_
  split
  · have hread : q' < q₁ := hlt rfl
    refine .step (lays_queryTerm (h.mono (by omega))) fun right q₂ h₂ _ => ?_
    refine .buildFrom (by simp) trivial fun n _ => .ret (by simp) ?_
    exact ⟨fun _ => by omega, trivial⟩
  · exact .ret (by simp) trivial

theorem lays_queryTail (h : AllFrom s parse (pos + 1)) : LaysAll s pos (queryTail parse) := by
  refine .step (.whenSees fun horder => spans_orderBy h (View.lt_of_isWords horder)) ?_
  refine fun order q hq _ => .step (.whenSees fun _ => spans_forClause) fun format q₁ h₁ _ => ?_
  exact .step lays_optionClause? fun options q₂ h₂ _ => .ret (by simp) trivial

theorem lays_cte? (h : AllFrom s parse (pos + 1)) :
    Lays s pos pos [] (cte? parse) (·.getD []) fun _ _ => True := by
  refine .position (.fork (fun q hq => .scan fun _ q' hq' => .ret (by simp) trivial) fun q hq => ?_)
  refine .scan fun name? q₁ h₁ => ?_
  split
  · exact .ret (by simp) trivial
  · refine .scan fun _ q₂ h₂ => .fork (fun q₃ h₃ => ?_) fun q₃ h₃ => .ret (by simp) trivial
    refine .fork (fun q₄ h₄ => ?_) fun q₄ h₄ => .ret (by simp) trivial
    refine .step (h.query (by omega)) fun query q₅ h₅ _ => .scan fun _ q₆ h₆ => ?_
    exact .build (by simp) trivial fun n _ => .ret (by simp) trivial

theorem lays_cteMembers? (h : AllFrom s parse pos) :
    Lays s pos pos [] (cteMembers? parse) (·.getD []) fun _ _ => True := by
  refine .loop (fun members => members) (by simp) fun members q hq => ?_
  refine .step (lays_cte? (h.mono (by omega))) fun found? q₁ h₁ _ => ?_
  split
  · exact .ret (by simp) trivial
  · exact .again (by simp) (by simp) h₁ (fun _ => trivial) fun _ => trivial

/-- The node begins here, and its first token has been read. -/
theorem lays_withClause? (h : AllFrom s parse (pos + 1)) :
    Lays s pos pos [] (withClause? parse) Option.toList
      fun n? q => ∀ n ∈ n?, n.Exact pos q ∧ pos < q := by
  refine .position (.fork (fun q hq => ?_) fun q hq => .ret (by simp) (by simp))
  refine .step (lays_cteMembers? (h.mono hq)) fun members? q₁ h₁ _ => ?_
  split
  · refine .build (by simp) trivial fun n hn => .ret (by simp) ?_
    rintro n' ⟨⟩
    exact ⟨hn, by omega⟩
  · exact .ret (by simp) (by simp)

theorem lays_leadingCtes (h : AllFrom s parse (pos + 1)) : LaysAll s pos (leadingCtes parse) := by
  refine .look (.ite (fun _ => ?_) fun _ => .ret (by simp) trivial)
  exact .step (lays_withClause? h) fun n? q hq _ => .ret (by simp) trivial

/-- A query spans all from `WITH` to the options behind it. -/
theorem spans_queryBody (h : AllFrom s parse (pos + 1)) : SpansFree s pos (queryBody parse) := by
  refine .position (.step (lays_leadingCtes h) fun ctes q hq _ => ?_)
  refine .step (lays_queryExpression (h.mono (by omega))) fun body q₁ h₁ _ => ?_
  refine .step (lays_queryTail (h.mono (by omega))) fun tail q₂ h₂ _ => ?_
  exact .free (by simp) fun _ _ _ _ => trivial

theorem spans_queryStatement (hquery : ParsesFrom s parse .query pos) :
    Spans s pos (queryStatement parse) := by
  refine .look (.ite (fun _ => spans_otherStatement) fun _ => ?_)
  exact (hquery pos (Nat.le_refl pos)).imp fun _ _ hn => hn.1

end Portability.Parser
