import Portability.Grammar.Routine
import Portability.Proofs.Casing.Modification

/-! Statements of procedures, on two sources that differ in case. -/
namespace Portability.Parser

/-! ### Transactions, settings and permissions -/

instance : Echo transactionName? transactionName? (Option.map Text.lower) := .of <| by
  unfold transactionName?
  exact .seq fun v => .fork inferInstance inferInstance

instance : Echo skipMark skipMark id := .of <| by
  unfold skipMark
  refine .step fun marked => .fork (.seq fun x => ?_) inferInstance
  refine Agree.token (x.left.token? 0) (x.right.token? 0) (fun w => ?_) (fun w => ?_) fun o => ?_
  · infer_instance
  · infer_instance
  · split <;> infer_instance

instance {start : Nat} {action : String} :
    Echo (beginTransaction start action) (beginTransaction start action) Node.fold := .of <| by
  unfold beginTransaction
  refine .seq fun name => .step fun _ => ?_
  infer_instance

instance : Echo transactionWord transactionWord id := .of <| by
  unfold transactionWord
  exact .step fun hasTran => .fork inferInstance inferInstance

instance : Echo transactionEnd transactionEnd Node.fold := .of <| by
  unfold transactionEnd
  refine .step fun start => .step fun verb => .step fun found => .fork ?_ ?_
  · refine .seq fun name => .step fun _ => ?_
    infer_instance
  · refine .step fun work => .step fun _ => ?_
    infer_instance

/-- A value that begins with a character without case is neither `ON` nor `OFF`. -/
theorem foldSetting_eq {a a' : String} {c : Char} (hc : Text.IsCaseless c)
    (h : Text.lower a = Text.lower a') (ha : a.toList.head? = some c) :
    foldSetting a = foldSetting a' := by
  have ha' : a'.toList.head? = some c := by
    rwa [← Text.head?_lower_eq_iff hc, ← h, Text.head?_lower_eq_iff hc]
  have hne : ∀ s : String, s.toList.head? = some c → ¬(s = "ON" ∨ s = "OFF") := by
    rintro s hs (rfl | rfl)
    all_goals
      cases (Option.some.inj hs : 'O' = c)
      revert hc
      decide
  rw [foldSetting, if_neg (hne a ha), foldSetting, if_neg (hne a' ha'), h]

theorem foldSetting_minus {a a' : String} (h : foldSetting a = foldSetting a') :
    foldSetting ("-" ++ a) = foldSetting ("-" ++ a') := by
  have hlower : ∀ s, Text.lower (foldSetting s) = Text.lower s := by
    intro s
    unfold foldSetting
    split <;> simp
  refine foldSetting_eq (c := '-') (by decide) ?_ (by simp)
  rw [Text.lower_append, ← hlower a, h, hlower, Text.lower_append]

/-- What is read with one token is the text of that token. -/
theorem textFrom_advance_eq {α : Type} (f : View → String → α) (d : α) :
    (do
      let start ← position
      let v ← look
      if v.atEnd then return d
      else
        advance
        return f v (← textFrom start)) =
    (do
      let v ← look
      if v.atEnd then return d
      else
        advance
        return f v (((v.token? 0).map Token.sourceText).getD "") : Scan α) := by
  funext s pos
  simp only [bind, position, look]
  by_cases hend : s.size ≤ pos
  · simp [View.atEnd, hend, pure]
  · simp [View.atEnd, hend, pure, advance, textFrom, Nat.lt_of_not_le hend,
      Source.textBetween_succ, View.token?]

/-- The value that a token gives a session setting. -/
theorem foldSetting_token (x : Twins View.fold) :
    foldSetting
      (match x.left.word? 0 with
        | some w => if w.toList.head? == some '@' then
            ((x.left.token? 0).map Token.sourceText).getD "" else Text.upper w
        | none => ((x.left.token? 0).map Token.sourceText).getD "") =
    foldSetting
      (match x.right.word? 0 with
        | some w => if w.toList.head? == some '@' then
            ((x.right.token? 0).map Token.sourceText).getD "" else Text.upper w
        | none => ((x.right.token? 0).map Token.sourceText).getD "") := by
  unfold View.word?
  refine Agree.token (x.left.token? 0) (x.right.token? 0) (fun w => ?_) (fun w => ?_) fun o => rfl
  · have hat : (w.left.toList.head? == some '@') = (w.right.toList.head? == some '@') :=
      Agree.eq (φ := id)
    have hupper : Text.upper w.left = Text.upper w.right := Text.upper_eq_of_lower w.eq
    simp only [Option.map_some, Option.getD_some, ← hat, hupper]
    split
    · rename_i hhead
      exact foldSetting_eq Text.isCaseless_at w.eq (beq_iff_eq.mp hhead)
    · rfl
  · refine foldSetting_eq (c := '0') (by decide) ?_ (by simp [Token.sourceText])
    simp [Token.sourceText, w.eq]

instance : Echo settingValue settingValue foldSetting := .of <| by
  unfold settingValue
  refine .seq fun x => .fork inferInstance (.step fun negative => ?_)
  rw [textFrom_advance_eq]
  refine .seq fun y => .fork inferInstance (.step fun _ => ?_)
  have hvalue := foldSetting_token y
  cases negative with
  | false => exact ⟨.ret hvalue⟩
  | true => exact ⟨.ret (foldSetting_minus hvalue)⟩

instance {word : String} : Echo (settingName word) (settingName word) id := .of <| by
  unfold settingName
  split <;> infer_instance

instance : Echo settingNames settingNames id := .of <| by
  unfold settingNames
  refine .loop id fun names => .step fun word? => ?_
  cases word? <;> dsimp only <;> infer_instance

instance : Echo isolationLevel isolationLevel id := by
  unfold isolationLevel
  exact sameWhile_echo

instance {start : Nat} : Echo (settingStatement start) (settingStatement start) Node.fold :=
  .of <| by
    unfold settingStatement
    refine .step fun hasTransaction => .fork ?_ ?_
    · refine .step fun words => ?_
      infer_instance
    · refine .step fun names => .seq fun value => ?_
      infer_instance

instance : Echo skipPrincipals skipPrincipals id := .of <| by
  unfold skipPrincipals
  refine .step fun found => .fork ?_ inferInstance
  refine .seq fun _ => ?_
  infer_instance

instance : Echo skipGrantor skipGrantor id := .of <| by
  unfold skipGrantor
  refine .step fun found => .fork ?_ inferInstance
  refine .seq fun _ => ?_
  infer_instance

instance : Echo permissionStatement permissionStatement Node.fold := .of <| by
  unfold permissionStatement
  refine .step fun start => .step fun action => .step fun _ => .step fun _ => .step fun _ => ?_
  refine .step fun _ => .step fun _ => ?_
  infer_instance

/-! ### Variables and cursors -/

instance : Echo earlyCursorWords earlyCursorWords id := by
  unfold earlyCursorWords
  exact sameWhile_echo

instance : Echo cursorWords cursorWords id := .of <| by
  unfold cursorWords
  refine .loop id fun words => .seq fun x => .fork inferInstance (.step fun word? => ?_)
  cases word? <;> infer_instance

instance : Echo cursorPurpose? cursorPurpose? id := .of <| by
  unfold cursorPurpose?
  refine .step fun hasForReadOnly => .fork inferInstance ?_
  refine .step fun hasForUpdate => .fork ?_ ?_
  · refine .step fun hasOf => .fork ?_ inferInstance
    refine .seq fun _ => ?_
    infer_instance
  · infer_instance

section

variable {parse : Descent} [∀ ph, Echo (parse ph) (parse ph) Node.fold]

instance : Echo (cursorTail parse) (cursorTail parse) (Prod.map id (List.map Node.fold)) :=
  .of <| by
    unfold cursorTail
    refine .step fun words => .seq fun query => .step fun purpose => ?_
    infer_instance

instance : Echo (cursorDecl parse) (cursorDecl parse) Node.fold := .of <| by
  unfold cursorDecl
  refine .step fun start => .seq fun name => .step fun early => .step fun _ => .seq fun tail => ?_
  cases tail using Twins.pair with | _ options query =>
  dsimp only
  infer_instance

instance {tableBody : Parser (List Node)} [Echo tableBody tableBody (List.map Node.fold)]
    {name name' : String} [Agree Text.lower name name'] :
    Echo (variableDecl parse tableBody name) (variableDecl parse tableBody name') Node.fold :=
  .of <| by
    unfold variableDecl
    refine .step fun start => .step fun _ => .step fun _ => .step fun hasTable => .fork ?_ ?_
    · refine .seq fun elements => .step fun _ => ?_
      infer_instance
    · refine .seq fun x => .seq fun value => ?_
      infer_instance

omit [∀ ph, Echo (parse ph) (parse ph) Node.fold] in
instance {item : String → Parser Node}
    [∀ x : Twins Text.lower, Echo (item x.left) (item x.right) Node.fold] :
    Echo (perVariable item) (perVariable item) (List.map Node.fold) := .of <| by
  unfold perVariable
  refine .loop (List.map Node.fold) fun items => .seq fun x => ?_
  refine Agree.option (φ := Text.lower) x.left.variableName? x.right.variableName? ?_ fun name => ?_
  all_goals
    dsimp only
    infer_instance

instance {tableBody : Parser (List Node)} [Echo tableBody tableBody (List.map Node.fold)] :
    Echo (declareStatement parse tableBody) (declareStatement parse tableBody) Node.fold :=
  .of <| by
    unfold declareStatement
    refine .step fun start => .step fun _ => .seq fun v => .fork ?_ ?_
    · refine .seq fun cursor => ?_
      infer_instance
    · refine .seq fun decls => ?_
      infer_instance

instance {target target' : String} [Agree Text.lower target target'] :
    Echo (cursorValue parse target) (cursorValue parse target') Node.fold := .of <| by
  unfold cursorValue
  refine .step fun start => .step fun _ => .seq fun tail => ?_
  cases tail using Twins.pair with | _ options query =>
  dsimp only
  infer_instance

instance {target target' : String} [Agree Text.lower target target'] :
    Echo (assignedValue parse target) (assignedValue parse target') Node.fold := .of <| by
  unfold assignedValue
  exact .seq fun v => .fork inferInstance inferInstance

instance : Echo (setStatement parse) (setStatement parse) Node.fold := .of <| by
  unfold setStatement
  refine .step fun start => .step fun _ => .seq fun o => ?_
  refine Agree.option (φ := Prod.map Text.lower id) o.left o.right ?_ fun y => ?_
  · infer_instance
  · cases y using Twins.pair with | _ target operator =>
    dsimp only
    infer_instance

instance : Echo (fetchOffset parse) (fetchOffset parse) Node.fold := .of <| by
  unfold fetchOffset
  refine .seq fun x => ?_
  unfold View.display View.isMark View.isMarkAt
  refine Agree.token (x.left.token? 0) (x.right.token? 0) (fun w => ?_) (fun w => ?_) fun o => ?_
  · simp only [Bool.or_self, Bool.false_eq_true, if_false]
    infer_instance
  · simp only [Bool.or_self, Bool.false_eq_true, if_false]
    infer_instance
  · infer_instance

instance : Echo (fetchOrientation? parse) (fetchOrientation? parse)
    (Prod.map id (List.map Node.fold)) := .of <| by
  unfold fetchOrientation?
  refine .seq fun v => .fork ?_ inferInstance
  refine .step fun word => .seq fun offset => ?_
  infer_instance

instance {op : String} : Echo (cursorStatement parse op) (cursorStatement parse op) Node.fold :=
  .of <| by
    unfold cursorStatement
    refine .step fun start => .step fun _ => .fork (.seq fun y => ?_) inferInstance
    cases y using Twins.pair with | _ orientation offset =>
    dsimp only
    infer_instance

/-! ### Control flow -/

instance : Echo (statementList parse) (statementList parse) (List.map Node.fold) := .of <| by
  unfold statementList
  refine .loop (List.map Node.fold) fun statements => .seq fun v => .fork ?_ ?_
  · refine .step fun _ => ?_
    infer_instance
  · refine .fork inferInstance ?_
    refine .seq fun statement => ?_
    infer_instance

instance : Echo (branch parse) (branch parse) (List.map Node.fold) := by
  unfold branch
  exact whenSees_echo

omit [∀ ph, Echo (parse ph) (parse ph) Node.fold] in
instance : Echo eatElse eatElse id := .of <| by
  unfold eatElse
  refine .step fun _ => ?_
  infer_instance

instance : Echo (ifStatement parse) (ifStatement parse) Node.fold := .of <| by
  unfold ifStatement
  refine .step fun start => .step fun _ => .seq fun condition => .seq fun yes => ?_
  refine .seq fun no => ?_
  infer_instance

instance : Echo (whileStatement parse) (whileStatement parse) Node.fold := .of <| by
  unfold whileStatement
  refine .step fun start => .step fun _ => .seq fun condition => .seq fun body => ?_
  infer_instance

omit [∀ ph, Echo (parse ph) (parse ph) Node.fold] in
instance : Echo blockKind blockKind id := .of <| by
  unfold blockKind
  dsimp only
  refine .step fun hasTry => .fork inferInstance ?_
  exact .step fun hasCatch => .fork inferInstance inferInstance

omit [∀ ph, Echo (parse ph) (parse ph) Node.fold] in
instance {kind : BlockKind} : Echo (blockEnd kind) (blockEnd kind) id := .of <| by
  unfold blockEnd
  cases kind <;> infer_instance

instance : Echo (beginStatement parse) (beginStatement parse) Node.fold := .of <| by
  unfold beginStatement
  refine .step fun start => .seq fun v => .fork ?_ ?_
  · refine .step fun _ => ?_
    infer_instance
  · refine .fork ?_ ?_
    · refine .step fun _ => .step fun _ => .step fun _ => ?_
      infer_instance
    · refine .fork inferInstance ?_
      refine .step fun _ => .step fun kind => .seq fun statements => .step fun _ => ?_
      infer_instance

instance : Echo (returnStatement parse) (returnStatement parse) Node.fold := .of <| by
  unfold returnStatement
  refine .step fun start => .step fun _ => .seq fun value => ?_
  infer_instance

instance : Echo (returnQuery parse) (returnQuery parse) Node.fold := .of <| by
  unfold returnQuery
  refine .step fun start => .step fun _ => .seq fun query => ?_
  infer_instance

omit [∀ ph, Echo (parse ph) (parse ph) Node.fold] in
instance : Echo eatTimeout eatTimeout id := .of <| by
  unfold eatTimeout
  exact .step fun hasComma => .fork inferInstance inferInstance

instance : Echo (waitForStatement parse) (waitForStatement parse) Node.fold := .of <| by
  unfold waitForStatement
  dsimp only
  refine .step fun start => .step fun _ => .seq fun v => .fork ?_ ?_
  · refine .step fun _ => .seq fun timeout => ?_
    infer_instance
  · refine .step fun kind => .seq fun time => ?_
    infer_instance

instance : Echo (printStatement parse) (printStatement parse) Node.fold := .of <| by
  unfold printStatement
  refine .step fun start => .step fun _ => .seq fun text => ?_
  infer_instance

instance : Echo (bareRaiserror parse) (bareRaiserror parse) (List.map Node.fold) := .of <| by
  unfold bareRaiserror
  refine .seq fun number => .seq fun text => ?_
  infer_instance

omit [∀ ph, Echo (parse ph) (parse ph) Node.fold] in
instance : Echo wordList wordList id := .of <| by
  unfold wordList
  refine .loop id fun words => .step fun word? => ?_
  cases word? <;> infer_instance

omit [∀ ph, Echo (parse ph) (parse ph) Node.fold] in
instance : Echo raiserrorOptions raiserrorOptions id := .of <| by
  unfold raiserrorOptions
  exact .step fun hasWith => .fork inferInstance inferInstance

instance : Echo (raiserrorStatement parse) (raiserrorStatement parse) Node.fold := .of <| by
  unfold raiserrorStatement
  refine .step fun start => .step fun _ => .seq fun v => .fork ?_ ?_
  · refine .seq fun operands => .step fun options => ?_
    infer_instance
  · refine .seq fun operands => .step fun options => ?_
    infer_instance

instance : Echo (throwStatement parse) (throwStatement parse) Node.fold := .of <| by
  unfold throwStatement
  refine .step fun start => .step fun _ => .seq fun operands => ?_
  infer_instance

end

end Portability.Parser
