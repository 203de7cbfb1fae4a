import Portability.Proofs.Layout.Query

/-! Statements that change data lay out their parts in the order in which they are written. -/
namespace Portability.Parser

variable {s : Source} {parse : Descent} {lo pos : Nat}

/-! ### Scans -/

instance {name : String} : Onward (withArguments name) := by
  unfold withArguments
  refine .step fun start => .step fun _ => .step fun text => ?_
  infer_instance

instance : Onward changeTarget := by
  unfold changeTarget
  exact .step fun name => .step fun v => .either inferInstance inferInstance

instance : Onward executeWithOptions := by
  unfold executeWithOptions
  refine .step fun groups => ?_
  infer_instance

instance : Onward executeOptions := by
  refine .loop fun s pos options => .look (.ite (fun hwith => ?_) fun _ => .ite (fun has => ?_) ?_)
  · simp only [Bool.and_eq_true] at hwith
    refine .advance (View.lt_of_isWord hwith.1) (.scan fun more q hq => .ret (by simp) ?_)
    exact ⟨fun _ => by omega, trivial⟩
  · simp only [Bool.and_eq_true] at has
    refine .advance (View.lt_of_isWord has.1) (.scan fun principal q hq => .scan fun _ q₁ h₁ => ?_)
    exact .scan fun _ q₂ h₂ => .ret (by simp) ⟨fun _ => by omega, trivial⟩
  · refine fun _ => .fork (fun q hq => ?_) fun q hq => .ret (by simp) trivial
    refine .scan fun _ q₁ h₁ => .scan fun _ q₂ h₂ => .ret (by simp) ?_
    exact ⟨fun _ => by omega, trivial⟩

instance : Onward outputTarget? := by
  unfold outputTarget?
  refine .step fun hasInto => .either ?_ inferInstance
  refine .step fun target => .step fun _ => ?_
  infer_instance

instance : Onward argumentName? := by
  unfold argumentName?
  refine .step fun v => ?_
  infer_instance

instance : Onward outputMark := by
  unfold outputMark
  exact .step fun hasOutput => .either inferInstance inferInstance

instance {before : Nat} : Takes (argumentFollows before) (· = true) := by
  refine ⟨fun s pos => .fork (fun q hq => .ret (by simp) fun _ => hq) fun q hq => ?_⟩
  exact .scan fun _ q' hq' => .ret (by simp) (by simp)

instance : Onward skipProcedureNumber := by
  refine .seq inferInstance fun v => ?_
  split <;> infer_instance

instance : Onward insertTarget := by
  unfold insertTarget
  exact .step fun table => .step fun v => .either inferInstance inferInstance

instance : Onward skipInsertColumns := by
  unfold skipInsertColumns
  infer_instance

theorem spans_defaultValues : Spans s pos defaultValues := by
  refine .position (.scan fun _ q hq => ?_)
  exact .leaf trivial

theorem spans_truncateStatement : Spans s pos truncateStatement := by
  refine .position (.scan fun _ q hq => .scan fun table q₁ h₁ => .scan fun _ q₂ h₂ => ?_)
  exact .leaf trivial

/-! ### Output -/

/-- Each clause reads its word at least, so the clauses come to an end. -/
theorem lays_outputClause (h : AllFrom s parse (pos + 1)) (hpos : pos < s.size) :
    Lays s pos pos [] (outputClause parse) (fun n => [n]) fun _ q => pos < q := by
  refine .position (.advance hpos (.step (lays_selectItems h) fun items q hq _ => ?_))
  exact .scan fun target q' hq' => .place (by simp) trivial fun _ _ _ => by omega

theorem lays_outputClauses (h : AllFrom s parse (pos + 1)) :
    LaysAll s pos (outputClauses parse) := by
  refine .nodesWhile fun q hq houtput => ?_
  exact lays_outputClause (h.mono (by omega)) (View.lt_of_isWord houtput)

/-! ### Execution -/

theorem spans_executeArgument (h : AllFrom s parse pos) : Spans s pos (executeArgument parse) := by
  refine .position (.scan fun name q hq => .scan fun isDefault q₁ h₁ => ?_)
  refine .step (.itemAfter fun r hr => h.one .expression (by omega)) fun value q₂ h₂ _ => ?_
  exact .scan fun output q₃ h₃ => .node (by simp) trivial

/-- The arguments follow one another up to the end of the statement. -/
theorem lays_executeArguments (h : AllFrom s parse pos) :
    LaysAll s pos (executeArguments parse) := by
  refine .loop (fun args => args.reverse) (by simp) fun args q hq => .look ?_
  refine .ite (fun _ => .ret (by simp) trivial) fun _ => .position ?_
  refine .step (spans_executeArgument (h.mono hq)) fun arg q' hq' _ => ?_
  exact .again (by simp) (by simp) hq' (fun _ => trivial) fun _ => trivial

theorem lays_dynamicTexts (h : AllFrom s parse pos) : LaysAll s pos (dynamicTexts parse) := by
  have htext : ∀ q, pos ≤ q → (!(View.mk s q).atEnd && !(View.mk s q).isMark .rparen) = true →
      Lays s q q [] (do
        let before ← position
        let text ← parse .expression
        separate before
        return text : Parser Node) (fun n => [n]) fun _ q' => q < q' := by
    intro q hq htest
    simp only [Bool.and_eq_true, Bool.not_eq_true'] at htest
    have hlt : q < s.size := View.lt_of_not_atEnd htest.1
    refine .position (.step (h.one .expression hq) fun text q₁ h₁ _ => ?_)
    exact .lifted (moves_separate hlt h₁) fun _ q₂ _ hread => .ret (by simp) hread
  refine .step (.nodesWhile htext) fun texts q hq _ => .scan fun _ q' hq' => ?_
  exact .ret (by simp) trivial

/-- The name of a variable is a word with one sign in front. -/
theorem View.denotes_of_variableName? {v : View} {name : String} (h : v.variableName? = some name) :
    v.token? 0 = some (.word name none) ∧
      (Token.word name none).Denotes (.localVariable name) := by
  unfold View.variableName? at h
  split at h
  · next word hword =>
    have htoken : v.token? 0 = some (.word word none) := by
      unfold View.word? at hword
      split at hword
      · next value htoken => rwa [← Option.some.inj hword]
      · cases hword
    split at h
    · cases h
    · next rest hlocal hvalue =>
      cases h
      refine ⟨htoken, .localVariable hvalue ?_⟩
      intro hhead
      obtain ⟨more, rfl⟩ := List.head?_eq_some_iff.mp hhead
      exact hlocal more rfl
    · cases h
  · cases h

theorem lays_resultVariable? : LaysAll s pos resultVariable? := by
  refine .look ?_
  split
  · next result hresult =>
    refine .ite (fun heq => .position ?_) fun _ => .ret (by simp) trivial
    obtain ⟨hword, hdenotes⟩ := View.denotes_of_variableName? hresult
    refine .advance (View.lt_of_token?_eq hword) ?_
    refine .build (by simp) ⟨rfl, _, hword, hdenotes⟩ fun n _ => .scan fun _ q' hq' => ?_
    exact .ret (by simp) trivial
  · exact .ret (by simp) trivial

/-- An execution spans its procedure, its arguments and its options. -/
theorem spans_executeStatement (h : AllFrom s parse (pos + 1)) (hpos : pos < s.size) :
    Spans s pos (executeStatement parse) := by
  refine .position (.look (.ite (fun _ => spans_otherStatement) fun _ => .advance hpos ?_))
  refine .fork (fun q hq => ?_) fun q hq => ?_
  · refine .step (lays_dynamicTexts (h.mono (by omega))) fun texts q₁ h₁ _ => ?_
    exact .scan fun options q₂ h₂ => .node (by simp) trivial
  · refine .step lays_resultVariable? fun result q₁ h₁ _ => .scan fun procedure q₂ h₂ => ?_
    refine .scan fun _ q₃ h₃ => ?_
    refine .step (lays_executeArguments (h.mono (by omega))) fun args q₄ h₄ _ => ?_
    exact .scan fun options q₅ h₅ => .node (by simp) trivial

/-! ### Changes -/

theorem lays_insertRows (h : AllFrom s parse pos) : LaysAll s pos (insertRows parse) := by
  refine .look (.ite (fun _ => ?_) fun _ => .ite (fun _ => ?_) fun _ => .ite (fun hexec => ?_) ?_)
  · exact .single (spans_valuesClause (h.mono (by omega)))
  · exact .single spans_defaultValues
  · exact .single (spans_executeStatement (h.mono (by omega)) (View.lt_of_isOneOf hexec))
  · refine fun _ => .ite (fun _ => ?_) fun _ => .ret (by simp) trivial
    exact .single (h.query (Nat.le_refl pos))

/-- The rows of an insertion come last. -/
theorem spans_insertStatement (h : AllFrom s parse (pos + 1)) (hpos : pos < s.size) :
    SpansFree s pos (insertStatement parse) := by
  refine .position (.advance hpos ?_)
  refine .step (lays_topClause? (h.mono (by omega))) fun top q hq _ => ?_
  refine .scan fun _ q₁ h₁ => .scan fun target q₂ h₂ => ?_
  refine .step lays_tableHints fun hints q₃ h₃ _ => .scan fun _ q₄ h₄ => ?_
  refine .step (lays_outputClauses (h.mono (by omega))) fun outputs q₅ h₅ _ => ?_
  refine .step (lays_insertRows (h.mono (by omega))) fun rows q₆ h₆ _ => ?_
  exact .free (by simp) fun _ _ _ _ => trivial

/-- The call of a method is read from the beginning again. -/
theorem spans_columnAssignment (h : AllFrom s parse pos) :
    Spans s pos (columnAssignment parse) := by
  refine .position (.scan fun column q hq => .look (.ite (fun _ => ?_) fun _ => ?_))
  · refine .rewind rfl hq (Nat.le_refl pos) ?_
    refine .step (h.one .expression (Nat.le_refl pos)) fun call q' hq' _ => ?_
    exact .node (by simp) trivial
  · refine .scan fun _ q₁ h₁ => .step (h.one .expression (by omega)) fun value q₂ h₂ _ => ?_
    exact .node (by simp) trivial

theorem lays_memberValue (h : AllFrom s parse pos) : LaysOne s pos (memberValue parse) := by
  refine .look (.ite (fun _ => ?_) fun _ => ?_)
  · exact (spans_columnAssignment h).one
  · exact h.one .expression (Nat.le_refl pos)

theorem lays_setMember (h : AllFrom s parse pos) : LaysOne s pos (setMember parse) := by
  refine .position (.scan fun target? q hq => ?_)
  split
  · refine .step (lays_memberValue (h.mono hq)) fun value q' hq' _ => ?_
    exact Lays.one (.node (by simp) trivial)
  · exact (spans_columnAssignment (h.mono hq)).one.drop hq

theorem lays_setMembers (h : AllFrom s parse pos) :
    LaysAll s pos (commaSeparated (setMember parse)) := by
  have hmember : ∀ q, pos ≤ q → LaysOne s q (setMember parse) :=
    fun q hq => lays_setMember (h.mono hq)
  exact .commaNodes hmember

/-- The clauses of an update are its parts in the order of the text. -/
theorem spans_updateStatement (h : AllFrom s parse (pos + 1)) (hpos : pos < s.size) :
    SpansFree s pos (updateStatement parse) := by
  refine .position (.advance hpos ?_)
  refine .step (lays_topClause? (h.mono (by omega))) fun top q hq _ => .scan fun target q₁ h₁ => ?_
  refine .step lays_tableHints fun hints q₂ h₂ _ => ?_
  refine .step (.listAfter fun r hr => lays_setMembers (h.mono (by omega))) ?_
  intro changes q₃ h₃ _
  refine .step (lays_outputClauses (h.mono (by omega))) fun outputs q₄ h₄ _ => ?_
  refine .step (lays_fromClause? (h.mono (by omega))) fun sources q₅ h₅ _ => ?_
  refine .step (lays_whereClause? (h.mono (by omega))) fun condition q₆ h₆ _ => ?_
  refine .step lays_optionClause? fun options q₇ h₇ _ => ?_
  exact .free (by simp) fun _ _ _ _ => trivial

theorem spans_deleteStatement (h : AllFrom s parse (pos + 1)) (hpos : pos < s.size) :
    SpansFree s pos (deleteStatement parse) := by
  refine .position (.advance hpos ?_)
  refine .step (lays_topClause? (h.mono (by omega))) fun top q hq _ => .scan fun _ q₁ h₁ => ?_
  refine .scan fun target q₂ h₂ => .step lays_tableHints fun hints q₃ h₃ _ => ?_
  refine .step (lays_outputClauses (h.mono (by omega))) fun outputs q₄ h₄ _ => ?_
  refine .step (lays_fromClause? (h.mono (by omega))) fun sources q₅ h₅ _ => ?_
  refine .step (lays_whereClause? (h.mono (by omega))) fun condition q₆ h₆ _ => ?_
  refine .step lays_optionClause? fun options q₇ h₇ _ => ?_
  exact .free (by simp) fun _ _ _ _ => trivial

/-! ### Merges -/

/-- Words are read one by one, the first of them at least. -/
theorem lays_whenWords (h : AllFrom s parse (pos + 1))
    (hwhen : (View.mk s pos).isWord "WHEN" = true) :
    Lays s pos pos [] (whenWords parse) (·.2) fun _ q => pos < q := by
  refine .loop (·.2) (by simp) ?_
  rintro ⟨words, conditions⟩ q hq
  refine .lifted moves_takeWord? fun word? q₁ h₁ hword => ?_
  obtain ⟨hkeyword, hread⟩ := hword
  split
  · refine .ret (by simp) (show pos < q₁ from ?_)
    by_contra hle
    have heq : q = pos := by omega
    rw [heq] at hkeyword
    exact View.keyword?_of_isWord hwhen hkeyword.symm
  · have hlt : q < q₁ := hread rfl
    refine .step (.itemAfter fun r hr => h.one .expression (by omega)) fun found q₂ h₂ _ => ?_
    refine .ite (fun _ => .ret (by simp) (show pos < q₂ by omega)) fun _ => .ret (by simp) ?_
    exact ⟨fun _ => by omega, trivial⟩

theorem lays_mergeRows (h : AllFrom s parse pos) : LaysAll s pos (mergeRows parse) := by
  refine .scan fun _ q hq => .look (.ite (fun _ => ?_) fun _ => .ite (fun _ => ?_) fun _ => ?_)
  · exact (Lays.single (spans_valuesClause (h.mono (by omega)))).drop hq
  · exact (Lays.single spans_defaultValues).drop hq
  · exact .ret (by simp) trivial

theorem lays_mergeChange (h : AllFrom s parse pos) :
    Lays s pos pos [] (mergeChange parse) (·.2) fun _ _ => True := by
  refine .fork (fun q hq => ?_) fun q hq => .fork (fun q₁ h₁ => .ret (by simp) trivial) fun q₁ h₁ =>
    .fork (fun q₂ h₂ => ?_) fun q₂ h₂ => .ret (by simp) trivial
  · refine .scan fun _ q' hq' => .step (lays_setMembers (h.mono (by omega))) ?_
    exact fun changes r hr _ => .ret (by simp) trivial
  · exact .step (lays_mergeRows (h.mono (by omega))) fun rows r hr _ => .ret (by simp) trivial

/-- Each action reads its word at least, so the actions come to an end. -/
theorem lays_mergeAction (h : AllFrom s parse (pos + 1))
    (hwhen : (View.mk s pos).isWord "WHEN" = true) :
    Lays s pos pos [] (mergeAction parse) (fun n => [n]) fun _ q => pos < q := by
  refine .position (.step (lays_whenWords h hwhen) fun clause q hq hlt => ?_)
  refine .step (lays_mergeChange (h.mono hlt)) fun change q' hq' _ => ?_
  exact .place (by simp) trivial fun _ _ _ => by omega

theorem spans_mergeStatement (h : AllFrom s parse (pos + 1)) (hpos : pos < s.size) :
    SpansFree s pos (mergeStatement parse) := by
  refine .position (.advance hpos ?_)
  refine .step (lays_topClause? (h.mono (by omega))) fun top q hq _ => .scan fun _ q₁ h₁ => ?_
  refine .scan fun target q₂ h₂ => .step lays_tableHints fun hints q₃ h₃ _ => ?_
  refine .scan fun _ q₄ h₄ => ?_
  refine .step (.itemAfter fun r hr => h.one .tableSource (by omega)) fun source q₅ h₅ _ => ?_
  refine .step (.itemAfter fun r hr => h.one .expression (by omega)) fun condition q₆ h₆ _ => ?_
  refine .step (.nodesWhile fun r hr => lays_mergeAction (h.mono (by omega)))
    fun actions q₇ h₇ _ => ?_
  refine .step (lays_outputClauses (h.mono (by omega))) fun outputs q₈ h₈ _ => ?_
  refine .step lays_optionClause? fun options q₉ h₉ _ => ?_
  exact .free (by simp) fun _ _ _ _ => trivial

end Portability.Parser
