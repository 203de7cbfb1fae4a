import Portability.Proofs.Layout.Modification

/-! Statements of procedures lay out their parts in the order in which they are written, and blocks
hold every token between their opening words and their end. -/
namespace Portability.Parser

variable {s : Source} {parse : Descent} {lo pos : Nat}

/-! ### Scans -/

instance : Onward transactionName? := by
  unfold transactionName?
  exact .step fun v => .either inferInstance inferInstance

instance : Onward skipMark := by
  refine .seq inferInstance fun _ => .either (.seq inferInstance fun v => ?_) inferInstance
  split <;> infer_instance

instance : Onward transactionWord := by
  unfold transactionWord
  exact .step fun hasTran => .either inferInstance inferInstance

instance : Onward settingValue := by
  unfold settingValue
  refine .step fun v => .either inferInstance ?_
  refine .step fun negative => .step fun start => .step fun v => .either inferInstance ?_
  refine .step fun _ => .step fun text => ?_
  infer_instance

instance {word : String} : Onward (settingName word) := by
  unfold settingName
  split <;> infer_instance

instance : Onward settingNames := by
  refine .loop fun s pos names => .scan fun word? q hq => ?_
  split
  · exact .ret (by simp) trivial
  · refine .scan fun name q' hq' => ?_
    exact .again (by simp) (by simp) (by omega) (fun _ => trivial) fun _ => trivial

instance : Onward isolationLevel := .manyWhile fun _ _ => moves_takeWord

instance : Onward skipPrincipals := by
  unfold skipPrincipals
  refine .step fun found => .either ?_ inferInstance
  refine .step fun _ => ?_
  infer_instance

instance : Onward skipGrantor := by
  unfold skipGrantor
  refine .step fun found => .either ?_ inferInstance
  refine .step fun _ => ?_
  infer_instance

instance : Onward earlyCursorWords := .manyWhile fun _ _ => moves_takeWord

instance : Onward cursorWords := by
  refine .loop fun s pos words => .look (.ite (fun _ => .ret (by simp) trivial) fun _ => ?_)
  refine .take fun word? q hq hlt => ?_
  split
  · exact .ret (by simp) ⟨fun _ => hlt rfl, trivial⟩
  · exact .ret (by simp) trivial

instance : Onward cursorPurpose? := by
  unfold cursorPurpose?
  refine .step fun hasForReadOnly => .either inferInstance ?_
  refine .step fun hasForUpdate => .either ?_ ?_
  · refine .step fun hasOf => .either ?_ inferInstance
    refine .step fun _ => ?_
    infer_instance
  · infer_instance

instance : Onward eatElse := by
  unfold eatElse
  refine .step fun _ => ?_
  infer_instance

instance : Onward eatTimeout := by
  unfold eatTimeout
  exact .step fun hasComma => .either inferInstance inferInstance

instance : Onward wordList := by
  refine .loop fun s pos words => .scan fun word? q hq => ?_
  split
  · exact .ret (by simp) trivial
  · exact .again (by simp) (by simp) hq (fun _ => trivial) fun _ => trivial

instance : Onward raiserrorOptions := by
  unfold raiserrorOptions
  exact .step fun hasWith => .either inferInstance inferInstance

/-! ### Transactions, settings and permissions -/

theorem lays_beginTransaction {start : Nat} (action : String) :
    Lays s start pos [] (beginTransaction start action) (fun n => [n]) (Node.Exact start) := by
  refine .scan fun name q hq => .scan fun _ q₁ h₁ => ?_
  exact .leaf trivial

theorem spans_transactionEnd : Spans s pos transactionEnd := by
  refine .position (.scan fun verb q hq => .scan fun long q₁ h₁ => .ite (fun _ => ?_) fun _ => ?_)
  · exact .scan fun name q₂ h₂ => .scan fun _ q₃ h₃ => .leaf trivial
  · exact .scan fun work q₂ h₂ => .scan fun _ q₃ h₃ => .leaf trivial

theorem lays_settingStatement {start : Nat} :
    Lays s start pos [] (settingStatement start) (fun n => [n]) (Node.Exact start) := by
  refine .fork (fun q hq => .scan fun words q' hq' => .leaf trivial) fun q hq => ?_
  exact .scan fun names q₁ h₁ => .scan fun value q₂ h₂ => .leaf trivial

theorem spans_permissionStatement : Spans s pos permissionStatement := by
  refine .position (.scan fun action q hq => .scan fun _ q₁ h₁ => .scan fun _ q₂ h₂ => ?_)
  refine .scan fun _ q₃ h₃ => .scan fun _ q₄ h₄ => .scan fun _ q₅ h₅ => ?_
  exact .leaf trivial

/-! ### Variables and cursors -/

/-- The query of a cursor is the only node that its tail gives. -/
theorem lays_cursorTail (h : AllFrom s parse pos) :
    Lays s pos pos [] (cursorTail parse) (·.2) fun _ _ => True := by
  refine .scan fun words q hq => .step (.itemAfter fun r hr => h.query (by omega)) ?_
  exact fun query q₁ h₁ _ => .scan fun purpose q₂ h₂ => .ret (by simp) trivial

theorem spans_cursorDecl (h : AllFrom s parse pos) : Spans s pos (cursorDecl parse) := by
  refine .position (.scan fun name q hq => .scan fun early q₁ h₁ => .scan fun _ q₂ h₂ => ?_)
  refine .step (lays_cursorTail (h.mono (by omega))) fun tail q₃ h₃ _ => ?_
  exact .node (by simp) trivial

theorem spans_variableDecl {tableBody : Parser (List Node)} (h : AllFrom s parse pos)
    (hbody : ∀ q, pos ≤ q → LaysAll s q tableBody) (name : String) :
    Spans s pos (variableDecl parse tableBody name) := by
  refine .position (.scan fun _ q hq => .scan fun _ q₁ h₁ => ?_)
  refine .fork (fun q₂ h₂ => ?_) fun q₂ h₂ => ?_
  · refine .step (hbody q₂ (by omega)) fun elements q₃ h₃ _ => .scan fun _ q₄ h₄ => ?_
    exact .node (by simp) trivial
  · refine .step spans_dataType fun type q₃ h₃ _ => ?_
    refine .step (.itemAfter fun r hr => h.one .expression (by omega)) fun value q₄ h₄ _ => ?_
    exact .node (by simp) trivial

/-- The items of variables follow one another; each begins with its variable. -/
theorem lays_perVariable {item : String → Parser Node}
    (h : ∀ q, pos ≤ q → ∀ name, Spans s q (item name)) : LaysAll s pos (perVariable item) := by
  refine .loop (fun items => items.reverse) (by simp) fun items q hq => .look ?_
  split
  · exact .ret (by simp) trivial
  · refine .step (h q hq _) fun n q' hq' _ => ?_
    exact .again (by simp) (by simp) hq' (fun _ => trivial) fun _ => trivial

theorem spans_declareStatement {tableBody : Parser (List Node)} (h : AllFrom s parse (pos + 1))
    (hpos : pos < s.size) (hbody : ∀ q, pos ≤ q → LaysAll s q tableBody) :
    Spans s pos (declareStatement parse tableBody) := by
  refine .position (.advance hpos (.look (.ite (fun _ => ?_) fun _ => ?_)))
  · refine .step (spans_cursorDecl h) fun cursor q hq _ => ?_
    exact .node (by simp) trivial
  · have hdecl : ∀ q, pos + 1 ≤ q → ∀ name, Spans s q (variableDecl parse tableBody name) :=
      fun q hq name => spans_variableDecl (h.mono hq) (fun r hr => hbody r (by omega)) name
    refine .step (lays_perVariable hdecl) fun decls q hq _ => ?_
    exact .node (by simp) trivial

theorem spans_cursorValue (h : AllFrom s parse pos) (target : String) :
    Spans s pos (cursorValue parse target) := by
  refine .position (.scan fun _ q hq => .step (lays_cursorTail (h.mono hq)) fun tail q' hq' _ => ?_)
  exact .node (by simp) trivial

theorem lays_assignedValue (h : AllFrom s parse pos) (target : String) :
    LaysOne s pos (assignedValue parse target) := by
  refine .look (.ite (fun _ => ?_) fun _ => ?_)
  · exact (spans_cursorValue h target).one
  · exact h.one .expression (Nat.le_refl pos)

theorem spans_setStatement (h : AllFrom s parse (pos + 1)) (hpos : pos < s.size) :
    Spans s pos (setStatement parse) := by
  refine .position (.advance hpos (.scan fun target? q hq => ?_))
  split
  · refine .step (lays_assignedValue (h.mono hq) _) fun value q' hq' _ => ?_
    exact .node (by simp) trivial
  · exact lays_settingStatement

theorem lays_fetchOffset (h : AllFrom s parse (pos + 1)) : LaysOne s pos (fetchOffset parse) := by
  refine .look (.ite (fun _ => .position (.scan fun _ q hq => ?_)) fun _ => lays_primary h)
  refine .step (lays_primary (h.mono (by omega))) fun operand q' hq' _ => ?_
  exact Lays.one (.node (by simp) trivial)

theorem lays_fetchOrientation? (h : AllFrom s parse (pos + 1)) :
    Lays s pos pos [] (fetchOrientation? parse) (·.2) fun _ _ => True := by
  refine .look (.ite (fun _ => .scan fun word q hq => ?_) fun _ => .ret (by simp) trivial)
  refine .step (.itemAfter fun r hr => lays_fetchOffset (h.mono (by omega))) ?_
  exact fun offset q' hq' _ => .ret (by simp) trivial

theorem spans_cursorStatement (h : AllFrom s parse (pos + 1)) (op : String) :
    Spans s pos (cursorStatement parse op) := by
  refine .position (.scan fun _ q hq => .ite (fun _ => ?_) fun _ => ?_)
  · refine .step (lays_fetchOrientation? (h.mono (by omega))) fun fetch q₁ h₁ _ => ?_
    refine .scan fun _ q₂ h₂ => .scan fun _ q₃ h₃ => .scan fun cursor q₄ h₄ => ?_
    have htargets : ∀ r, q₄ ≤ r → LaysAll s r (commaSeparated (primary parse)) :=
      fun r hr => .commaNodes fun r' hr' => lays_primary (h.mono (by omega))
    refine .step (.listAfter htargets) fun targets q₅ h₅ _ => ?_
    exact .node (by simp) trivial
  · exact .scan fun _ q₁ h₁ => .scan fun cursor q₂ h₂ => .leaf trivial

/-! ### Control flow -/

/-- The statements up to the end of a block or of the batch leave out semicolons only. -/
theorem lays_statementList (h : AllFrom s parse pos) :
    Lays s pos pos [] (statementList parse) (fun ns => ns) fun ns q =>
      Tiled s pos ns q ∧ (s.size ≤ q ∨ (View.mk s q).atBlockEnd = true) := by
  refine .loopWith (fun found => found.reverse) (fun found q => Tiled s pos found.reverse q)
    (by simp) .nil fun found q hq htiled => .look (.ite (fun hmark => ?_) fun _ => ?_)
  · refine .advance (View.lt_of_isMark hmark) (.ret (by simp) ?_)
    exact ⟨fun _ => by omega, htiled.semicolon hmark⟩
  refine .ite (fun hend => ?_) fun hgo => ?_
  · refine .ret (by simp) ⟨by simpa using htiled, ?_⟩
    simpa [View.atEnd] using hend
  · have hlt : q < s.size := View.lt_of_not_atEnd (by simp_all)
    refine .step (h .statement q hq) fun n q' hq' hn => .ret (by simp) ?_
    have hread : q < q' := hn.2 hlt
    refine ⟨fun _ => hread, ?_⟩
    simpa using htiled.statement hq hn.1.1 hn.1.2 hread

theorem lays_branch (h : AllFrom s parse pos) : LaysAll s pos (branch parse) :=
  .whenSees fun _ => h.one .statement (Nat.le_refl pos)

/-- A condition, a statement and perhaps another one follow one another. -/
theorem spans_ifStatement (h : AllFrom s parse (pos + 1)) (hpos : pos < s.size) :
    Spans s pos (ifStatement parse) := by
  refine .position (.advance hpos ?_)
  refine .step (h.one .expression (Nat.le_refl _)) fun condition q hq _ => ?_
  refine .step (lays_branch (h.mono (by omega))) fun yes q₁ h₁ _ => ?_
  refine .step (.listAfter fun r hr => lays_branch (h.mono (by omega))) fun no q₂ h₂ _ => ?_
  exact .node (by simp) trivial

theorem spans_whileStatement (h : AllFrom s parse (pos + 1)) (hpos : pos < s.size) :
    Spans s pos (whileStatement parse) := by
  refine .position (.advance hpos ?_)
  refine .step (h.one .expression (Nat.le_refl _)) fun condition q hq _ => ?_
  refine .step (lays_branch (h.mono (by omega))) fun body q₁ h₁ _ => ?_
  exact .node (by simp) trivial

/-- The words behind `BEGIN` tell a block for errors from a plain one. -/
theorem moves_blockKind (hbegin : (View.mk s pos).isWord "BEGIN" = true) :
    Moves s (pos + 1) blockKind fun kind q => BlockOpening s kind pos q := by
  refine .eat (fun hword _ => .ret (by simp) (.named rfl hbegin hword)) fun htry => ?_
  refine .eat (fun hword _ => .ret (by simp) (.named rfl hbegin hword)) fun hcatch => ?_
  refine .eat (fun hatomic _ => ?_) fun hatomic => .ret (by simp) (.plain hbegin ?_)
  · refine .eat (fun hwith _ => ?_) fun hbare => .ret (by simp) (.atomic hbegin hatomic hbare)
    refine .run moves_skipParens fun _ q _ hgroup => .ret (by simp) ?_
    by_cases hopen : (View.mk s (pos + 1 + 1 + 1)).isMark .lparen = true
    · exact .options hbegin hatomic hwith (hgroup.1 hopen)
    · have hbare : (View.mk s (pos + 1 + 1 + 1)).isMark .lparen = false := by simpa using hopen
      rw [hgroup.2 hbare]
      exact .atomicWith hbegin hatomic hwith hbare
  · by_contra hone
    obtain ⟨word, hmem, hword⟩ := View.isWord_of_isOneOf (by simpa using hone)
    simp only [List.mem_cons, List.not_mem_nil, or_false] at hmem
    rcases hmem with rfl | rfl | rfl <;> simp_all

/-- The name behind `END` is read if it is there. -/
theorem moves_blockName {kind : BlockKind} {word : String} (hkind : kind.word? = some word)
    (hend : (View.mk s pos).atBlockEnd = true) :
    Moves s (pos + 1) (do let _ ← eatWord word) fun _ q => BlockClosing s kind pos q := by
  refine .run (Eats.moves s (pos + 1)) fun b q _ hb => .ret (by simp) ?_
  obtain ⟨hword, rfl⟩ := hb
  cases b with
  | true => exact .named hkind hend hword.symm
  | false =>
    refine .closed hend fun word' hmem => ?_
    obtain rfl : word = word' := by simpa [hkind] using hmem
    exact hword.symm

/-- The words that close a block are read if they are there. -/
theorem moves_blockEnd {kind : BlockKind} (hpos : pos ≤ s.size)
    (h : s.size ≤ pos ∨ (View.mk s pos).atBlockEnd = true) :
    Moves s pos (blockEnd kind) fun _ q => BlockClosing s kind pos q := by
  refine .eat (fun _ hlt => ?_) fun hopen => .ret (by simp) ?_
  · have hend : (View.mk s pos).atBlockEnd = true := h.resolve_left (by omega)
    cases kind with
    | plain => exact .ret (by simp) (.closed hend (by simp [BlockKind.word?]))
    | tryBody => exact (moves_blockName rfl hend).drop (by omega)
    | catchBody => exact (moves_blockName rfl hend).drop (by omega)
  · have hlast : pos = s.size := by
      rcases h with hle | hblock
      · omega
      · simp [View.atBlockEnd, hopen] at hblock
    rw [hlast]
    exact .unclosed kind

/-- The statements of a block reach from its opening words to its end. -/
theorem spans_beginStatement (h : AllFrom s parse (pos + 1))
    (hbegin : (View.mk s pos).isWord "BEGIN" = true) : Spans s pos (beginStatement parse) := by
  refine .position (.look (.ite (fun _ => ?_) fun _ => .ite (fun _ => ?_) fun _ => ?_))
  · exact .scan fun _ q hq => lays_beginTransaction _
  · refine .scan fun _ q hq => .scan fun _ q₁ h₁ => .scan fun _ q₂ h₂ => ?_
    exact lays_beginTransaction _
  refine .ite (fun _ => spans_otherStatement) fun _ => .advance (View.lt_of_isWord hbegin) ?_
  refine .lifted (moves_blockKind hbegin) fun kind q hq hopening => ?_
  refine .step (lays_statementList (h.mono hq)) fun statements q₁ h₁ hbody => .given fun hl => ?_
  refine .lifted (moves_blockEnd hl.bound hbody.2) fun _ q₂ h₂ hclosing => ?_
  exact .node (by simp) ⟨q, q₁, hopening, hbody.1, hclosing⟩

theorem spans_returnStatement (h : AllFrom s parse (pos + 1)) (hpos : pos < s.size) :
    Spans s pos (returnStatement parse) := by
  refine .position (.advance hpos ?_)
  refine .step (.whenSees fun _ => h.one .expression (Nat.le_refl _)) fun value q hq _ => ?_
  exact .node (by simp) trivial

theorem spans_returnQuery (h : AllFrom s parse (pos + 1)) (hpos : pos < s.size) :
    Spans s pos (returnQuery parse) := by
  refine .position (.advance hpos ?_)
  refine .step (.whenSees fun _ => h.query (Nat.le_refl _)) fun query q hq _ => ?_
  exact .node (by simp) trivial

theorem spans_waitForStatement (h : AllFrom s parse (pos + 1)) :
    Spans s pos (waitForStatement parse) := by
  refine .position (.scan fun _ q hq => .look (.ite (fun _ => ?_) fun _ => ?_))
  · refine .scan fun _ q₁ h₁ => ?_
    refine .step (.itemAfter fun r hr => lays_primary (h.mono (by omega))) fun timeout q₂ h₂ _ => ?_
    exact .node (by simp) trivial
  · refine .scan fun kind q₁ h₁ => .step (lays_primary (h.mono (by omega))) fun time q₂ h₂ _ => ?_
    exact .node (by simp) trivial

theorem spans_printStatement (h : AllFrom s parse (pos + 1)) (hpos : pos < s.size) :
    Spans s pos (printStatement parse) := by
  refine .position (.advance hpos ?_)
  refine .step (h.one .expression (Nat.le_refl _)) fun text q hq _ => ?_
  exact .node (by simp) trivial

theorem lays_bareRaiserror (h : AllFrom s parse (pos + 1)) :
    LaysAll s pos (bareRaiserror parse) := by
  refine .step (.whenSees fun _ => lays_primary h) fun number q hq _ => ?_
  refine .step (.whenSees fun _ => lays_primary (h.mono (by omega))) fun text q' hq' _ => ?_
  exact .ret (by simp) trivial

theorem spans_raiserrorStatement (h : AllFrom s parse (pos + 1)) :
    Spans s pos (raiserrorStatement parse) := by
  refine .position (.scan fun _ q hq => .look (.ite (fun _ => ?_) fun _ => ?_))
  · refine .step (lays_parenList (h.mono (by omega))) fun operands q₁ h₁ _ => ?_
    exact .scan fun options q₂ h₂ => .node (by simp) trivial
  · refine .step (lays_bareRaiserror (h.mono (by omega))) fun operands q₁ h₁ _ => ?_
    exact .scan fun options q₂ h₂ => .node (by simp) trivial

theorem spans_throwStatement (h : AllFrom s parse (pos + 1)) (hpos : pos < s.size) :
    Spans s pos (throwStatement parse) := by
  have hoperands : ∀ q, pos + 1 ≤ q → LaysAll s q (commaSeparated (parse .expression)) :=
    fun q hq => .commaNodes fun r hr => h.one .expression (by omega)
  refine .position (.advance hpos (.step (.listAfter hoperands) fun operands q hq _ => ?_))
  exact .node (by simp) trivial

end Portability.Parser
