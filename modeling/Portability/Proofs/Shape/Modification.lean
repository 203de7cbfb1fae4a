import Portability.Proofs.Shape.Query

/-! Statements that change data and statements of procedures have the parts that their kinds
admit. -/
namespace Portability.Parser

variable {parse : Descent}

theorem yields_outputClauses (h : Conforming parse) : Yields (outputClauses parse) AllLoose := by
  refine .manyWhile (.step fun start => .step fun _ => ?_)
  refine .seq (.commaSeparated (yields_selectItem h)) fun items hitems => .step fun _ => ?_
  exact .above trivial hitems rfl

/-! ### Execution -/

theorem yields_executeArgument (h : Conforming parse) :
    Yields (executeArgument parse) Node.Loose := by
  refine .step fun start => .step fun name? => .step fun isDefault => ?_
  refine .seq (.itemAfter h.expression) fun value hvalue => .step fun _ => ?_
  exact .above trivial (allLoose_of_item hvalue) rfl

theorem yields_executeArguments (h : Conforming parse) :
    Yields (executeArguments parse) AllLoose := by
  refine .loop AllLoose (by simp) fun args hargs => .step fun v => .ite ?_ ?_
  · exact .ret fun n hn => hargs n (List.mem_reverse.mp hn)
  · refine .step fun before => .seq (yields_executeArgument h) fun arg harg => .step fun more => ?_
    have hall : AllLoose (arg :: args) := by simp [harg, hargs]
    exact .ite (.ret hall) (.ret fun n hn => hall n (List.mem_reverse.mp hn))

theorem yields_dynamicTexts (h : Conforming parse) : Yields (dynamicTexts parse) AllLoose := by
  have htext : Yields (do
      let before ← position
      let text ← parse .expression
      separate before
      return text : Parser Node) Node.Loose :=
    .step fun _ => .seq h.expression fun _ htext => .step fun _ => .ret htext
  exact .seq (.manyWhile htext) fun texts htexts => .step fun _ => .ret htexts

theorem yields_resultVariable? : Yields resultVariable? AllLoose := by
  refine .step fun v => ?_
  split
  · refine .ite (.step fun start => .step fun _ => ?_) (.ret (by simp))
    have hleaf : ∀ name, Yields (leaf (.localVariable name) start) Node.Loose :=
      fun name => .leaf trivial rfl
    exact .seq (hleaf _) fun target htarget => .step fun _ => .ret (by simp [htarget])
  · exact .ret (by simp)

theorem yields_executeStatement (h : Conforming parse) :
    Yields (executeStatement parse) (Node.Is Kind.isStatement) := by
  refine .step fun start => .step fun v => .ite (yields_otherStatement fun _ => rfl) ?_
  refine .step fun _ => .step fun _ => .ite ?_ ?_
  · exact .seq (yields_dynamicTexts h) fun texts htexts => .step fun _ => .above trivial htexts rfl
  · refine .seq yields_resultVariable? fun result hresult => .step fun _ => .step fun _ => ?_
    refine .seq (yields_executeArguments h) fun args hargs => .step fun _ => ?_
    exact .above trivial (by simp [hresult, hargs]) rfl

/-! ### Changes -/

theorem yields_defaultValues : Yields defaultValues Node.Loose := by
  refine .step fun start => .step fun _ => ?_
  exact .leaf trivial rfl

/-- All forms of rows may stand anywhere. -/
theorem yields_insertRows (h : Conforming parse) : Yields (insertRows parse) AllLoose := by
  have hvalues : Yields (valuesClause parse) Node.Loose := yields_valuesClause h fun _ => rfl
  refine .step fun v => .ite ?_ (.ite ?_ (.ite ?_ (.ite ?_ (.ret (by simp)))))
  · exact .seq hvalues fun n hn => .ret (by simp [hn])
  · exact .seq yields_defaultValues fun n hn => .ret (by simp [hn])
  · exact .seq (yields_executeStatement h) fun n hn => .ret (by simp [hn.loose])
  · exact .seq h.query fun n hn => .ret (by simp [hn.loose])

/-- An insertion is what it is read as, also behind common table expressions. -/
theorem yields_insertStatement {test : Kind → Bool} (h : Conforming parse)
    (htest : ∀ table, test (.insert table) = true) :
    Yields (insertStatement parse) (Node.Is test) := by
  refine .step fun start => .step fun _ => .seq (yields_topClause? h) fun top htop => ?_
  refine .step fun _ => .step fun target => .seq yields_tableHints fun hints hhints => ?_
  refine .step fun _ => .seq (yields_outputClauses h) fun outputs houtputs => ?_
  refine .seq (yields_insertRows h) fun rows hrows => ?_
  exact .above trivial (by simp [htop, hhints, houtputs, hrows]) (htest target)

/-- A column is given one value. -/
theorem yields_columnAssignment (h : Conforming parse) :
    Yields (columnAssignment parse) Node.Loose := by
  refine .step fun start => .step fun column => .step fun v => .ite (.step fun _ => ?_) ?_
  · exact .seq h.expression fun call hcall => .above rfl (by simp [hcall]) rfl
  · refine .step fun _ => .seq h.expression fun value hvalue => ?_
    exact .above rfl (by simp [hvalue]) rfl

/-- A column or a variable is given one value. -/
theorem yields_setMember (h : Conforming parse) : Yields (setMember parse) Node.Loose := by
  have hvalue : Yields (memberValue parse) Node.Loose :=
    .step fun _ => .ite (yields_columnAssignment h) h.expression
  refine .step fun start => .step fun target? => ?_
  split
  · exact .seq hvalue fun value hvalue => .above rfl (by simp [hvalue]) rfl
  · exact yields_columnAssignment h

/-- An update is what it is read as, also behind common table expressions. -/
theorem yields_updateStatement {test : Kind → Bool} (h : Conforming parse)
    (htest : ∀ table, test (.update table) = true) :
    Yields (updateStatement parse) (Node.Is test) := by
  refine .step fun start => .step fun _ => .seq (yields_topClause? h) fun top htop => ?_
  refine .step fun target => .seq yields_tableHints fun hints hhints => ?_
  refine .seq (.listAfter (.commaSeparated (yields_setMember h))) fun changes hchanges => ?_
  refine .seq (yields_outputClauses h) fun outputs houtputs => ?_
  refine .seq (yields_fromClause? h) fun sources hsources => ?_
  refine .seq (yields_whereClause? h) fun condition hcondition => ?_
  refine .seq yields_optionClause? fun options hoptions => ?_
  have hchanges : AllLoose changes := hchanges
  refine .above trivial ?_ (htest target)
  simp [htop, hhints, hchanges, houtputs, hsources, hcondition, hoptions]

/-- A deletion is what it is read as, also behind common table expressions. -/
theorem yields_deleteStatement {test : Kind → Bool} (h : Conforming parse)
    (htest : ∀ table, test (.delete table) = true) :
    Yields (deleteStatement parse) (Node.Is test) := by
  refine .step fun start => .step fun _ => .seq (yields_topClause? h) fun top htop => ?_
  refine .step fun _ => .step fun target => .seq yields_tableHints fun hints hhints => ?_
  refine .seq (yields_outputClauses h) fun outputs houtputs => ?_
  refine .seq (yields_fromClause? h) fun sources hsources => ?_
  refine .seq (yields_whereClause? h) fun condition hcondition => ?_
  refine .seq yields_optionClause? fun options hoptions => .above trivial ?_ (htest target)
  simp [htop, hhints, houtputs, hsources, hcondition, hoptions]

theorem yields_whenWords (h : Conforming parse) :
    Yields (whenWords parse) fun found => AllLoose found.2 := by
  refine .loop (fun found => AllLoose found.2) (by simp) fun found hfound => .step fun word? => ?_
  split
  · exact .ret hfound
  · refine .seq (.itemAfter h.expression) fun condition hcondition => ?_
    have hall : AllLoose (found.2 ++ condition) := by
      simp [hfound, allLoose_of_item hcondition]
    exact .ite (.ret hall) (.ret hall)

theorem yields_mergeRows (h : Conforming parse) : Yields (mergeRows parse) AllLoose := by
  have hvalues : Yields (valuesClause parse) Node.Loose := yields_valuesClause h fun _ => rfl
  refine .step fun _ => .step fun v => .ite ?_ (.ite ?_ (.ret (by simp)))
  · exact .seq hvalues fun n hn => .ret (by simp [hn])
  · exact .seq yields_defaultValues fun n hn => .ret (by simp [hn])

theorem yields_mergeChange (h : Conforming parse) :
    Yields (mergeChange parse) fun change => AllLoose change.2 := by
  refine .step fun _ => .ite (.step fun _ => ?_) (.step fun _ => .ite (.ret (by simp)) ?_)
  · exact .seq (.commaSeparated (yields_setMember h)) fun changes hchanges => .ret hchanges
  · refine .step fun _ => .ite ?_ (.ret (by simp))
    exact .seq (yields_mergeRows h) fun rows hrows => .ret hrows

theorem yields_mergeAction (h : Conforming parse) : Yields (mergeAction parse) Node.Loose := by
  refine .step fun start => .seq (yields_whenWords h) fun (_, conditions) hconditions => ?_
  refine .seq (yields_mergeChange h) fun (_, parts) hparts => ?_
  exact .above trivial (allLoose_append.mpr ⟨hconditions, hparts⟩) rfl

/-- `MERGE` is what it is read as, also behind common table expressions. -/
theorem yields_mergeStatement {test : Kind → Bool} (h : Conforming parse)
    (htest : ∀ table, test (.merge table) = true) :
    Yields (mergeStatement parse) (Node.Is test) := by
  refine .step fun start => .step fun _ => .seq (yields_topClause? h) fun top htop => ?_
  refine .step fun _ => .step fun target => .seq yields_tableHints fun hints hhints => ?_
  refine .step fun _ => .seq (.itemAfter (h.loose .tableSource)) fun source hsource => ?_
  refine .seq (.itemAfter h.expression) fun condition hcondition => ?_
  refine .seq (.manyWhile (yields_mergeAction h)) fun actions hactions => ?_
  refine .seq (yields_outputClauses h) fun outputs houtputs => ?_
  refine .seq yields_optionClause? fun options hoptions => .above trivial ?_ (htest target)
  have hactions : AllLoose actions := hactions
  simp [htop, hhints, allLoose_of_item hsource, allLoose_of_item hcondition, hactions, houtputs,
    hoptions]

/-! ### Transactions, settings and permissions -/

theorem yields_beginTransaction (start : Nat) (action : String) :
    Yields (beginTransaction start action) (Node.Is Kind.isStatement) := by
  refine .step fun name => .step fun _ => ?_
  exact .leaf trivial rfl

theorem yields_transactionEnd : Yields transactionEnd (Node.Is Kind.isStatement) := by
  refine .step fun start => .step fun verb => .step fun _ => .ite ?_ ?_
  · exact .step fun _ => .step fun _ => .leaf trivial rfl
  · exact .step fun _ => .step fun _ => .leaf trivial rfl

theorem yields_settingStatement (start : Nat) :
    Yields (settingStatement start) (Node.Is Kind.isStatement) := by
  refine .step fun _ => .ite ?_ ?_
  · exact .step fun _ => .leaf trivial rfl
  · exact .step fun _ => .step fun _ => .leaf trivial rfl

theorem yields_permissionStatement : Yields permissionStatement (Node.Is Kind.isStatement) := by
  refine .step fun start => .step fun action => .step fun _ => .step fun _ => ?_
  exact .step fun _ => .step fun _ => .step fun _ => .leaf trivial rfl

/-! ### Variables and cursors -/

theorem yields_cursorTail (h : Conforming parse) :
    Yields (cursorTail parse) fun tail => AllLoose tail.2 := by
  refine .step fun words => .seq (.itemAfter h.query) fun query hquery => .step fun _ => ?_
  exact .ret (allLoose_of_item hquery)

theorem yields_cursorDecl (h : Conforming parse) : Yields (cursorDecl parse) Node.Loose := by
  refine .step fun start => .step fun name => .step fun early => .step fun _ => ?_
  exact .seq (yields_cursorTail h) fun (_, query) hquery => .above trivial hquery rfl

/-- The first part of a variable is its type. -/
theorem yields_variableDecl {tableBody : Parser (List Node)} (h : Conforming parse)
    (hbody : Yields tableBody AllLoose) (name : String) :
    Yields (variableDecl parse tableBody name) Node.Loose := by
  refine .step fun start => .step fun _ => .step fun _ => .step fun _ => .ite ?_ ?_
  · exact .seq hbody fun elements helements => .step fun _ => .above trivial helements rfl
  · refine .seq yields_dataType fun type htype => ?_
    refine .seq (.itemAfter h.expression) fun value hvalue => ?_
    exact .above ⟨type, value, rfl, htype.kind⟩ (by simp [htype.loose, allLoose_of_item hvalue]) rfl

theorem yields_perVariable {item : String → Parser Node}
    (h : ∀ name, Yields (item name) Node.Loose) :
    Yields (perVariable item) AllLoose := by
  refine .loop AllLoose (by simp) fun items hitems => .step fun v => ?_
  split
  · exact .ret fun n hn => hitems n (List.mem_reverse.mp hn)
  · refine .seq (h _) fun n hn => .step fun _ => ?_
    have hall : AllLoose (n :: items) := by simp [hn, hitems]
    exact .ite (.ret hall) (.ret fun m hm => hall m (List.mem_reverse.mp hm))

/-- Declarations of cursors and variables are statements. -/
theorem yields_declareStatement {tableBody : Parser (List Node)} (h : Conforming parse)
    (hbody : Yields tableBody AllLoose) :
    Yields (declareStatement parse tableBody) (Node.Is Kind.isStatement) := by
  refine .step fun start => .step fun _ => .step fun v => .ite ?_ ?_
  · exact .seq (yields_cursorDecl h) fun cursor hcursor => .above trivial (by simp [hcursor]) rfl
  · exact .seq (yields_perVariable (yields_variableDecl h hbody)) fun decls hdecls =>
      .above trivial hdecls rfl

theorem yields_assignedValue (h : Conforming parse) (target : String) :
    Yields (assignedValue parse target) Node.Loose := by
  refine .step fun v => .ite (.step fun start => .step fun _ => ?_) h.expression
  exact .seq (yields_cursorTail h) fun (_, query) hquery => .above trivial hquery rfl

/-- A setting and an assignment are statements; a variable is given one value. -/
theorem yields_setStatement (h : Conforming parse) :
    Yields (setStatement parse) (Node.Is Kind.isStatement) := by
  refine .step fun start => .step fun _ => .step fun target? => ?_
  split
  · exact .seq (yields_assignedValue h _) fun value hvalue => .above rfl (by simp [hvalue]) rfl
  · exact yields_settingStatement start

theorem yields_fetchOffset (h : Conforming parse) : Yields (fetchOffset parse) Node.Loose := by
  refine .step fun v => .ite (.step fun start => .step fun _ => ?_) (yields_primary h)
  exact .seq (yields_primary h) fun operand hoperand => .above rfl (by simp [hoperand]) rfl

theorem yields_fetchOrientation? (h : Conforming parse) :
    Yields (fetchOrientation? parse) fun found => AllLoose found.2 := by
  refine .step fun v => .ite (.step fun word => ?_) (.ret (by simp))
  exact .seq (.itemAfter (yields_fetchOffset h)) fun offset hoffset =>
    .ret (allLoose_of_item hoffset)

/-- Operations on cursors are statements. -/
theorem yields_cursorStatement (h : Conforming parse) (op : String) :
    Yields (cursorStatement parse op) (Node.Is Kind.isStatement) := by
  refine .step fun start => .step fun _ => .ite ?_ ?_
  · refine .seq (yields_fetchOrientation? h) fun (_, offset) hoffset => ?_
    refine .step fun _ => .step fun _ => .step fun cursor => ?_
    refine .seq (.listAfter (.commaSeparated (yields_primary h))) fun targets htargets => ?_
    exact .above trivial (allLoose_append.mpr ⟨hoffset, htargets⟩) rfl
  · exact .step fun _ => .step fun _ => .leaf trivial rfl

/-! ### Control flow -/

/-- The statements of a block. -/
theorem yields_statementList (h : Conforming parse) :
    Yields (statementList parse) fun ns => ∀ n ∈ ns, n.Is Kind.isStatement := by
  refine .loop (fun ns => ∀ n ∈ ns, n.Is Kind.isStatement) (by simp) fun ns hns => ?_
  refine .step fun v => .ite (.step fun _ => .ret hns) (.ite ?_ ?_)
  · exact .ret fun n hn => hns n (List.mem_reverse.mp hn)
  · exact .seq h.statement fun n hn => .ret (by simpa [Round.All] using ⟨hn, hns⟩)

/-- A branch is at most one statement. -/
theorem yields_branch (h : Conforming parse) :
    Yields (branch parse) fun ns => ns.length ≤ 1 ∧ ∀ n ∈ ns, n.Is Kind.isStatement :=
  .whenSees h.statement

/-- A condition comes first, then at most two statements. -/
theorem yields_ifStatement (h : Conforming parse) :
    Yields (ifStatement parse) (Node.Is Kind.isStatement) := by
  have helse : Yields (listAfter eatElse (branch parse)) fun ns =>
      ns.length ≤ 1 ∧ ∀ n ∈ ns, n.Is Kind.isStatement :=
    .step fun _ => .ite (yields_branch h) (.ret (by simp))
  refine .step fun start => .step fun _ => .seq h.expression fun condition hcondition => ?_
  refine .seq (yields_branch h) fun yes hyes => .seq helse fun no hno => .above ?_ ?_ rfl
  · have hyes := hyes.1
    have hno := hno.1
    simp only [Kind.Admits, List.cons_append, List.length_cons, List.length_append]
    omega
  · simp [hcondition, allLoose_of_item hyes, allLoose_of_item hno]

/-- A condition comes first, then at most one statement. -/
theorem yields_whileStatement (h : Conforming parse) :
    Yields (whileStatement parse) (Node.Is Kind.isStatement) := by
  refine .step fun start => .step fun _ => .seq h.expression fun condition hcondition => ?_
  refine .seq (yields_branch h) fun body hbody => .above ?_ ?_ rfl
  · have hbody := hbody.1
    simp only [Kind.Admits, List.length_cons]
    omega
  · simp [hcondition, allLoose_of_item hbody]

/-- A block holds statements only. -/
theorem yields_beginStatement (h : Conforming parse) :
    Yields (beginStatement parse) (Node.Is Kind.isStatement) := by
  refine .step fun start => .step fun v => .ite ?_ (.ite ?_ (.ite ?_ ?_))
  · exact .step fun _ => yields_beginTransaction start _
  · exact .step fun _ => .step fun _ => .step fun _ => yields_beginTransaction start _
  · exact yields_otherStatement fun _ => rfl
  · refine .step fun _ => .step fun kind => .seq (yields_statementList h) fun ns hns => ?_
    exact .step fun _ => .above (fun c hc => (hns c hc).kind) (allLoose_of_is hns) rfl

theorem yields_returnStatement (h : Conforming parse) :
    Yields (returnStatement parse) (Node.Is Kind.isStatement) := by
  refine .step fun start => .step fun _ => .seq (.whenSees h.expression) fun value hvalue => ?_
  exact .above trivial (allLoose_of_item hvalue) rfl

theorem yields_returnQuery (h : Conforming parse) : Yields (returnQuery parse) Node.Loose := by
  refine .step fun start => .step fun _ => .seq (.whenSees h.query) fun query hquery => ?_
  exact .above trivial (allLoose_of_item hquery) rfl

theorem yields_waitForStatement (h : Conforming parse) :
    Yields (waitForStatement parse) (Node.Is Kind.isStatement) := by
  refine .step fun start => .step fun _ => .step fun v => .ite (.step fun _ => ?_) ?_
  · exact .seq (.itemAfter (yields_primary h)) fun timeout htimeout =>
      .above trivial (allLoose_of_item htimeout) rfl
  · refine .step fun kind => .seq (yields_primary h) fun time htime => ?_
    exact .above trivial (by simp [htime]) rfl

theorem yields_printStatement (h : Conforming parse) :
    Yields (printStatement parse) (Node.Is Kind.isStatement) := by
  refine .step fun start => .step fun _ => .seq h.expression fun text htext => ?_
  exact .above trivial (by simp [htext]) rfl

theorem yields_bareRaiserror (h : Conforming parse) : Yields (bareRaiserror parse) AllLoose := by
  refine .seq (.whenSees (yields_primary h)) fun number hnumber => ?_
  refine .seq (.whenSees (yields_primary h)) fun text htext => .ret ?_
  simp [allLoose_of_item hnumber, allLoose_of_item htext]

theorem yields_raiserrorStatement (h : Conforming parse) :
    Yields (raiserrorStatement parse) (Node.Is Kind.isStatement) := by
  refine .step fun start => .step fun _ => .step fun v => .ite ?_ ?_
  · exact .seq (yields_parenList h) fun operands hoperands => .step fun _ =>
      .above trivial hoperands rfl
  · exact .seq (yields_bareRaiserror h) fun operands hoperands => .step fun _ =>
      .above trivial hoperands rfl

theorem yields_throwStatement (h : Conforming parse) :
    Yields (throwStatement parse) (Node.Is Kind.isStatement) := by
  refine .step fun start => .step fun _ => ?_
  refine .seq (.listAfter (.commaSeparated h.expression)) fun operands hoperands => ?_
  exact .above trivial hoperands rfl

end Portability.Parser
