import Portability.Proofs.Shape.Modification

/-! Definitions of tables, views and routines have the parts that their kinds admit. -/
namespace Portability.Parser

variable {parse : Descent}

/-! ### Tables -/

theorem yields_tableOptions : Yields tableOptions AllLoose := by
  have hmembers : Yields (parenMembers (wordMember .tableOption)) AllLoose :=
    .parenMembers (yields_wordMember (fun _ => trivial) fun _ => rfl)
  refine .loop AllLoose (by simp) fun options hoptions => .step fun start => .step fun v => ?_
  refine .ite (.step fun option => .step fun _ => .step fun _ => ?_) (.ite (.step fun _ => ?_) ?_)
  · have hleaf : Yields (leaf (.tableOption option) start) Node.Loose := .leaf trivial rfl
    exact .seq hleaf fun n hn => .ret (by simpa [Round.All] using ⟨hoptions, hn⟩)
  · exact .seq hmembers fun ns hns => .ret (by simpa [Round.All] using ⟨hoptions, hns⟩)
  · exact .ret hoptions

theorem yields_constraint (h : Conforming parse) (tableLevel : Bool) :
    Yields (constraint parse tableLevel) Node.Loose := by
  have hcheck : Yields (checkCondition parse) Node.Loose :=
    .seq h.expression fun _ he => .step fun _ => .ret he
  refine .step fun start => .step fun name => .step fun kind => ?_
  split
  · exact .step fun _ => .step fun _ => .step fun _ => .step fun _ => .leaf trivial rfl
  · exact .step fun _ => .step fun _ => .step fun _ => .step fun _ => .leaf trivial rfl
  · refine .step fun options => .seq (.itemAfter hcheck) fun condition hcondition => ?_
    exact .above trivial (allLoose_of_item hcondition) rfl
  · refine .seq h.expression fun value hvalue => .step fun _ => .step fun _ => ?_
    exact .above trivial (by simp [hvalue]) rfl
  · exact .step fun _ => .leaf trivial rfl

theorem yields_columnAttributes (h : Conforming parse) :
    Yields (columnAttributes parse) AllLoose := by
  refine .loop AllLoose (by simp) fun parts hparts => .step fun start => .step fun v => ?_
  have hadd : ∀ {kind : Kind}, kind.Admits [] → kind.isLoose = true →
      Yields (do return .again (parts ++ [← leaf kind start]) : Parser (Round _ (List Node)))
        (Round.All AllLoose AllLoose) := by
    intro kind hadmits hloose
    exact .seq (.leaf hadmits hloose) fun n hn => .ret (by simpa [Round.All] using ⟨hparts, hn⟩)
  refine .ite (.ret hparts) (.step fun _ => .ite (.step fun _ => hadd trivial rfl) (.ite ?_ ?_))
  · exact .seq (yields_constraint h false) fun n hn =>
      .ret (by simpa [Round.All] using ⟨hparts, hn⟩)
  · refine .step fun text? => ?_
    split
    · exact hadd trivial rfl
    · exact .ret hparts

/-- A column has a type, or is computed from one expression. -/
theorem yields_columnType (h : Conforming parse) : Yields (columnType parse) AllLoose := by
  have hcomputed : Yields (computedColumn parse) Node.Loose :=
    .step fun _ => .seq h.expression fun _ he => .step fun _ => .above rfl (by simp [he]) rfl
  refine .step fun _ => .ite ?_ ?_
  · exact .seq hcomputed fun n hn => .ret (by simp [hn])
  · exact (Yields.whenSees yields_dataType).imp fun _ => allLoose_of_item

theorem yields_columnDef (h : Conforming parse) : Yields (columnDef parse) Node.Loose := by
  refine .step fun start => .step fun name => .seq (yields_columnType h) fun typed htyped => ?_
  refine .seq (yields_columnAttributes h) fun attributes hattributes => ?_
  exact .above trivial (by simp [htyped, hattributes]) rfl

theorem yields_period : Yields period Node.Loose := by
  refine .step fun start => .step fun _ => ?_
  exact .leaf trivial rfl

theorem yields_tableElement (h : Conforming parse) : Yields (tableElement parse) Node.Loose := by
  refine .step fun start => .step fun v => .ite (yields_constraint h true) (.step fun _ => ?_)
  refine .ite (.step fun _ => .step fun _ => .leaf trivial rfl) (.ite yields_period ?_)
  exact yields_columnDef h

theorem yields_tableElements (h : Conforming parse) : Yields (tableElements parse) AllLoose := by
  refine .step fun _ => .ite (.seq ?_ fun ns hns => .step fun _ => .ret hns) (.ret (by simp))
  refine .loop AllLoose (by simp) fun elements helements => .step fun v => .ite ?_ ?_
  · exact .ret fun n hn => helements n (List.mem_reverse.mp hn)
  · refine .step fun before => .seq (yields_tableElement h) fun n hn => .step fun _ => ?_
    exact .ret (by simpa [Round.All] using ⟨hn, helements⟩)

/-- Columns, constraints and options stand below a table in any number. -/
theorem yields_createTable (h : Conforming parse) (start : Nat) :
    Yields (createTable parse start) (Node.Is Kind.isStatement) := by
  refine .step fun _ => .step fun name => .seq (yields_tableElements h) fun elements helements => ?_
  refine .seq yields_tableOptions fun options hoptions => ?_
  exact .above trivial (by simp [helements, hoptions]) rfl

theorem yields_addedElement (h : Conforming parse) : Yields (addedElement parse) Node.Loose := by
  refine .step fun v => .ite (yields_constraint h true) (.ite yields_period ?_)
  exact yields_columnDef h

theorem yields_addedElements (h : Conforming parse) : Yields (addedElements parse) AllLoose := by
  refine .loop AllLoose (by simp) fun parts hparts => .seq (yields_addedElement h) fun n hn => ?_
  have hall : AllLoose (parts ++ [n]) := by simp [hparts, hn]
  exact .step fun _ => .ite (.ret hall) (.ret hall)

/-- The parts of an action on a table may stand anywhere. -/
theorem yields_tableAction (h : Conforming parse) (start : Nat) :
    Yields (tableAction parse start) fun action => AllLoose action.2 := by
  refine .step fun v => .step fun _ => .ite ?_ (.step fun _ => .ite ?_ (.step fun _ => .ite ?_ ?_))
  · exact .seq (yields_addedElements h) fun parts hparts => .ret hparts
  · exact .seq (yields_columnDef h) fun n hn => .ret (by simp [hn])
  · exact .step fun _ => .ret (by simp)
  · refine .ite (.step fun _ => .ret (by simp)) (.ite (.step fun _ => .ret (by simp)) ?_)
    exact .step fun _ => .ret (by simp)

theorem yields_alterTable (h : Conforming parse) (start : Nat) :
    Yields (alterTable parse start) (Node.Is Kind.isStatement) := by
  have haction : Yields (alterTableAction parse) Node.Loose := by
    refine .step fun start => .step fun checked => ?_
    exact .seq (yields_tableAction h start) fun (_, parts) hparts => .above trivial hparts rfl
  refine .step fun _ => .step fun table => .seq (.whenSees haction) fun action haction => ?_
  exact .above trivial (allLoose_of_item haction) rfl

theorem yields_createIndex (h : Conforming parse) (start : Nat) :
    Yields (createIndex parse start) (Node.Is Kind.isStatement) := by
  refine .step fun _ => .step fun _ => .step fun _ => .step fun _ => .step fun _ => ?_
  refine .step fun _ => .step fun _ => .step fun _ => .step fun _ => ?_
  refine .seq (yields_whereClause? h) fun filter hfilter => .step fun options => ?_
  exact .above trivial hfilter rfl

theorem yields_createType (h : Conforming parse) (start : Nat) :
    Yields (createType parse start) (Node.Is Kind.isStatement) := by
  refine .step fun _ => .step fun name => .step fun _ => .ite ?_ (.step fun _ => .ite ?_ ?_)
  · refine .seq yields_dataType fun base hbase => .step fun _ => .step fun _ => ?_
    exact .above trivial (by simp [hbase.loose]) rfl
  · refine .seq (yields_tableElements h) fun elements helements => .step fun _ => ?_
    exact .above trivial helements rfl
  · exact .step fun _ => .leaf trivial rfl

/-! ### Views and routines -/

/-- A view holds exactly its query. -/
theorem yields_createView (h : Conforming parse) (start : Nat) (verb : Verb) :
    Yields (createView parse start verb) (Node.Is Kind.isStatement) := by
  refine .step fun _ => .step fun name => .step fun _ => .step fun options => .step fun _ => ?_
  refine .seq h.query fun query hquery => .step fun _ => ?_
  exact .above ⟨query, rfl, hquery.kind⟩ (by simp [hquery.loose]) rfl

/-- A parameter has a second part if it has a default. -/
theorem yields_parameter (h : Conforming parse) (name : String) :
    Yields (parameter parse name) Node.Loose := by
  refine .step fun start => .step fun _ => .step fun _ => .seq yields_dataType fun type htype => ?_
  refine .step fun _ => .step fun _ => .seq (.itemAfter h.expression) fun value hvalue => ?_
  refine .step fun (output, readonly) => .above ⟨type, value, rfl, htype.kind, ?_⟩ ?_ rfl
  · have hlength := hvalue.1
    match value, hlength with
    | [], _ => rfl
    | [_], _ => rfl
  · simp [htype.loose, allLoose_of_item hvalue]

theorem yields_parameters (h : Conforming parse) : Yields (parameters parse) AllLoose := by
  refine .step fun enclosed => .seq (yields_perVariable (yields_parameter h)) fun ns hns => ?_
  exact .step fun _ => .ret hns

/-- Statements may stand anywhere. -/
theorem yields_body (h : Conforming parse) : Yields (statementList parse) AllLoose := by
  refine (yields_statementList h).imp fun statements hall => ?_
  exact allLoose_of_is hall

theorem yields_createProcedure (h : Conforming parse) (start : Nat) (verb : Verb) :
    Yields (createProcedure parse start verb) (Node.Is Kind.isStatement) := by
  refine .step fun _ => .step fun name => .step fun number => ?_
  refine .seq (yields_parameters h) fun params hparams => .step fun _ => .step fun _ => ?_
  refine .step fun _ => .step fun _ => .ite (.above trivial hparams rfl) ?_
  exact .seq (yields_body h) fun body hbody => .above trivial (by simp [hparams, hbody]) rfl

/-- What a function returns may stand anywhere. -/
theorem yields_functionResult (h : Conforming parse) :
    Yields (functionResult parse) fun result => AllLoose result.2 := by
  refine .step fun _ => .ite (.step fun v => ?_) (.ret (by simp))
  split
  · refine .step fun start => .step fun _ => .step fun _ => ?_
    refine .seq (yields_tableElements h) fun columns hcolumns => ?_
    have hnode : ∀ name, Yields (node (.returnTable name) start columns) Node.Loose :=
      fun name => .above trivial hcolumns rfl
    exact .seq (hnode _) fun n hn => .ret (by simp [hn])
  · refine .step fun _ => .ite (.ret (by simp)) ?_
    exact .seq yields_dataType fun n hn => .ret (by simp [hn.loose])

theorem yields_functionBody (h : Conforming parse) (kind : FunctionKind) :
    Yields (functionBody parse kind) AllLoose := by
  refine .ite (.step fun v => .ite ?_ (.ite ?_ (.ret (by simp)))) (yields_body h)
  · exact .seq (yields_returnQuery h) fun n hn => .ret (by simp [hn])
  · exact .seq h.query fun n hn => .ret (by simp [hn.loose])

/-- A function is a statement over its parameters, what it returns and its body. -/
theorem yields_createFunction (h : Conforming parse) (start : Nat) (verb : Verb) :
    Yields (createFunction parse start verb) (Node.Is Kind.isStatement) := by
  refine .step fun _ => .step fun name => .seq (yields_parameters h) fun params hparams => ?_
  refine .seq (yields_functionResult h) fun (kind, result) hresult => ?_
  have hresult : AllLoose result := hresult
  refine .step fun options => .step fun _ => .step fun _ => .ite ?_ ?_
  · exact .above trivial (by simp [hparams, hresult]) rfl
  · refine .seq (yields_functionBody h kind) fun body hbody => ?_
    exact .above trivial (by simp [hparams, hresult, hbody]) rfl

theorem yields_createTrigger (h : Conforming parse) (start : Nat) (verb : Verb) :
    Yields (createTrigger parse start verb) (Node.Is Kind.isStatement) := by
  refine .step fun _ => .step fun name => .step fun _ => .step fun (scope, target) => ?_
  refine .step fun _ => .step fun _ => .step fun _ => .step fun _ => .step fun _ => ?_
  refine .step fun _ => .step fun _ => .ite (.leaf trivial rfl) ?_
  exact .seq (yields_body h) fun body hbody => .above trivial hbody rfl

theorem yields_createOther (start : Nat) :
    Yields (createOther start) (Node.Is Kind.isStatement) := by
  refine .step fun kind => .step fun name => .step fun _ => ?_
  exact .leaf trivial rfl

/-- Every definition is a statement. -/
theorem yields_definitionStatement (h : Conforming parse) :
    Yields (definitionStatement parse) (Node.Is Kind.isStatement) := by
  refine .step fun start => .step fun verb => .step fun v => ?_
  split
  · exact yields_createTable h start
  · exact yields_alterTable h start
  · exact yields_createView h start _
  · exact yields_createProcedure h start _
  · exact yields_createProcedure h start _
  · exact yields_createFunction h start _
  · exact yields_createTrigger h start _
  · exact yields_createType h start
  · exact yields_createIndex h start
  · exact yields_createIndex h start
  · exact yields_createIndex h start
  · exact yields_createIndex h start
  · exact yields_createIndex h start
  · exact yields_createOther start
  · exact .step fun _ => yields_otherStatement fun _ => rfl

end Portability.Parser
