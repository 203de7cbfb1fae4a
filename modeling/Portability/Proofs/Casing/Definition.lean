import Portability.Grammar.Definition
import Portability.Proofs.Casing.Routine
import Portability.Proofs.Casing.Table

/-! Statements that define, change and drop objects, on two sources that differ in case. -/
namespace Portability.Parser

/-! ### Kinds, names and actions -/

instance : Echo objectKind objectKind id := .of <| by
  unfold objectKind
  refine .step fun word? => ?_
  cases word? <;> infer_instance

instance : Echo skipDropOwner skipDropOwner id :=
  .of <| by
    unfold skipDropOwner
    dsimp only
    refine .step fun hasOn => .fork (.step fun allServer => .fork ?_ inferInstance) inferInstance
    refine .seq fun _ => ?_
    infer_instance

instance : Echo dropNames dropNames (List.map Text.lower) := .of <| by
  unfold dropNames
  refine .loop (List.map Text.lower) fun names => .seq fun o => ?_
  refine Agree.option (φ := foldCall) o.left o.right ?_ fun name => ?_
  all_goals
    dsimp only
    infer_instance

instance : Echo dropStatement dropStatement Node.fold := .of <| by
  unfold dropStatement
  refine .step fun start => .step fun _ => .step fun kind => .step fun ifExists => ?_
  refine .seq fun names => ?_
  infer_instance

instance : Echo triggerScope triggerScope (Prod.map id Text.lower) := .of <| by
  unfold triggerScope
  refine .step fun hasAll => .fork inferInstance ?_
  refine .step fun hasDatabase => .fork inferInstance ?_
  refine .seq fun name => ?_
  infer_instance

instance : Echo triggerTiming triggerTiming id := .of <| by
  unfold triggerTiming
  exact .step fun hasInstead => .fork inferInstance inferInstance

instance : Echo triggerEvents triggerEvents id := .of <| by
  unfold triggerEvents
  refine .loop id fun events => .seq fun x => .fork inferInstance (.step fun event? => ?_)
  cases event? <;> infer_instance

instance : Echo externalName externalName id := .of <| by
  unfold externalName
  refine .step fun hasExternal => .fork ?_ inferInstance
  refine .seq fun _ => ?_
  infer_instance

instance : Echo procedureNumber? procedureNumber? id := .of <| by
  unfold procedureNumber?
  refine .step fun numbered => .fork (.seq fun x => ?_) inferInstance
  refine Agree.token (x.left.token? 0) (x.right.token? 0) (fun w => ?_) (fun w => ?_) fun o => ?_
  · infer_instance
  · infer_instance
  · split
    · split <;> infer_instance
    · infer_instance

instance : Echo droppedNames droppedNames id := .of <| by
  unfold droppedNames
  refine .round fun _ => .seq fun _ => .step fun _ => .seq fun v => .fork ?_ inferInstance
  refine .step fun _ => ?_
  infer_instance

instance : Echo droppedKind droppedKind id := .of <| by
  unfold droppedKind
  refine .step fun hasColumn => .fork inferInstance ?_
  refine .step fun hasConstraint => .fork inferInstance ?_
  refine .step fun hasPeriod => .fork ?_ inferInstance
  refine .step fun _ => ?_
  infer_instance

instance : Echo droppedElement droppedElement id := .of <| by
  unfold droppedElement
  refine .step fun target => .step fun _ => .step fun _ => ?_
  infer_instance

instance : Echo switchNames switchNames id := .of <| by
  unfold switchNames
  refine .step fun word => .step fun object => .seq fun _ => ?_
  infer_instance

instance {start : Nat} : Echo (otherAction start) (otherAction start) id := .of <| by
  unfold otherAction
  refine .step fun word => .seq fun x => ?_
  refine Agree.option (φ := Text.lower) (x.left.word? 0) (x.right.word? 0) ?_ fun next => ?_
  all_goals
    dsimp only
    infer_instance

instance : Echo checkWords checkWords id := .of <| by
  unfold checkWords
  refine .step fun found => .fork ?_ inferInstance
  refine .step fun word => ?_
  infer_instance

instance : Echo indexKind? indexKind? id := .of <| by
  unfold indexKind?
  exact .step fun hasColumnstore => .fork inferInstance inferInstance

instance : Echo includedColumns includedColumns id := .of <| by
  unfold includedColumns
  refine .step fun hasInclude => .fork ?_ inferInstance
  refine .step fun _ => ?_
  infer_instance

section

variable {parse : Descent} [∀ ph, Echo (parse ph) (parse ph) Node.fold] {start : Nat} {verb : Verb}

/-! ### Tables, types and indexes -/

instance : Echo (createTable parse start) (createTable parse start) Node.fold := .of <| by
  unfold createTable
  refine .step fun _ => .seq fun name => .seq fun elements => .seq fun options => ?_
  infer_instance

instance : Echo (addedElement parse) (addedElement parse) Node.fold := .of <| by
  unfold addedElement
  refine .seq fun v => .fork inferInstance ?_
  exact .fork inferInstance inferInstance

instance : Echo (addedElements parse) (addedElements parse) (List.map Node.fold) := .of <| by
  unfold addedElements
  refine .loop (List.map Node.fold) fun parts => .seq fun element => ?_
  dsimp only
  refine .step fun hasComma => ?_
  infer_instance

instance : Echo (tableAction parse start) (tableAction parse start)
    (Prod.map id (List.map Node.fold)) := .of <| by
  unfold tableAction
  refine .seq fun v => .step fun hasAdd => .fork ?_ ?_
  · refine .seq fun added => ?_
    infer_instance
  · refine .step fun hasAlter => .fork ?_ ?_
    · refine .seq fun column => ?_
      infer_instance
    · refine .step fun hasDrop => .fork ?_ ?_
      · refine .step fun dropped => ?_
        infer_instance
      · refine .fork ?_ ?_
        · refine .step fun switched => ?_
          infer_instance
        · refine .fork ?_ ?_
          · refine .step fun switched => ?_
            infer_instance
          · refine .step fun action => ?_
            infer_instance

instance : Echo (alterTableAction parse) (alterTableAction parse) Node.fold := .of <| by
  unfold alterTableAction
  refine .step fun start => .step fun checked => .seq fun action => ?_
  cases action using Twins.pair with | _ action parts =>
  dsimp only
  infer_instance

instance : Echo (alterTable parse start) (alterTable parse start) Node.fold := .of <| by
  unfold alterTable
  refine .step fun _ => .seq fun table => .seq fun action => ?_
  infer_instance

instance : Echo (createIndex parse start) (createIndex parse start) Node.fold := .of <| by
  unfold createIndex
  refine .step fun unique => .step fun clustered => .step fun kind => .step fun _ => ?_
  refine .seq fun name => .step fun _ => .seq fun table => .step fun _ => ?_
  refine .step fun included => .seq fun filter => .step fun options => ?_
  infer_instance

omit [∀ ph, Echo (parse ph) (parse ph) Node.fold] in
instance {kind kind' : Kind} [h : Agree Kind.fold kind kind'] :
    Agree (Option.map Text.lower) (typeName? kind) (typeName? kind') := by
  have hfold : ∀ kind : Kind, typeName? kind.fold = (typeName? kind).map Text.lower := by
    intro kind
    cases kind <;> rfl
  exact ⟨by rw [← hfold, h.eq, hfold]⟩

instance : Echo (createType parse start) (createType parse start) Node.fold := .of <| by
  unfold createType
  refine .step fun _ => .seq fun name => .step fun hasFrom => .fork ?_ ?_
  · refine .seq fun base => .step fun _ => .step fun _ => ?_
    infer_instance
  · refine .step fun hasAs => .fork ?_ ?_
    · refine .seq fun elements => .step fun _ => ?_
      infer_instance
    · refine .step fun _ => ?_
      infer_instance

/-! ### Views and routines -/

instance : Echo (createView parse start verb) (createView parse start verb) Node.fold := .of <| by
  unfold createView
  refine .step fun _ => .seq fun name => .step fun _ => .step fun options => .step fun _ => ?_
  refine .seq fun query => .step fun checkOption => ?_
  infer_instance

omit [∀ ph, Echo (parse ph) (parse ph) Node.fold] in
instance : Echo parameterModes parameterModes id := .of <| by
  unfold parameterModes
  refine .round fun modes => .step fun hasOutput => .fork inferInstance ?_
  exact .step fun hasReadonly => .fork inferInstance inferInstance

instance {name name' : String} [Agree Text.lower name name'] :
    Echo (parameter parse name) (parameter parse name') Node.fold := .of <| by
  unfold parameter
  refine .step fun start => .step fun _ => .step fun _ => .seq fun x => .step fun _ => ?_
  refine .step fun _ => .seq fun value => ?_
  infer_instance

instance : Echo (parameters parse) (parameters parse) (List.map Node.fold) := .of <| by
  unfold parameters
  refine .step fun enclosed => .seq fun params => .step fun _ => ?_
  infer_instance

instance : Echo (createProcedure parse start verb) (createProcedure parse start verb) Node.fold :=
  .of <| by
    unfold createProcedure
    refine .step fun _ => .seq fun name => .step fun number => .seq fun params => ?_
    refine .step fun options => .step fun replication => .step fun _ => .step fun found => ?_
    refine .fork inferInstance ?_
    refine .seq fun body => ?_
    infer_instance

instance : Echo (functionResult parse) (functionResult parse)
    (Prod.map id (List.map Node.fold)) := .of <| by
  unfold functionResult
  refine .step fun returns => .fork (.seq fun x => ?_) inferInstance
  refine Agree.option (φ := Text.lower) x.left.variableName? x.right.variableName? ?_ fun name => ?_
  all_goals
    dsimp only
    infer_instance

instance : Echo (inlineBody parse) (inlineBody parse) (List.map Node.fold) := .of <| by
  unfold inlineBody
  refine .seq fun v => .fork ?_ ?_
  · refine .seq fun query => ?_
    infer_instance
  · refine .fork ?_ inferInstance
    refine .seq fun value => ?_
    infer_instance

instance {kind : FunctionKind} :
    Echo (functionBody parse kind) (functionBody parse kind) (List.map Node.fold) := .of <| by
  unfold functionBody
  exact .fork inferInstance inferInstance

instance : Echo (createFunction parse start verb) (createFunction parse start verb) Node.fold :=
  .of <| by
    unfold createFunction
    refine .step fun _ => .seq fun name => .seq fun params => .seq fun returned => ?_
    cases returned using Twins.pair with | _ kind result =>
    cases kind with | mk kind _ same =>
    cases (same : kind = _)
    dsimp only
    infer_instance

instance : Echo (createTrigger parse start verb) (createTrigger parse start verb) Node.fold :=
  .of <| by
    unfold createTrigger
    refine .step fun _ => .seq fun name => .step fun _ => .seq fun watched => ?_
    cases watched using Twins.pair with | _ scope target =>
    cases scope with | mk scope _ same =>
    cases (same : scope = _)
    dsimp only
    infer_instance

omit [∀ ph, Echo (parse ph) (parse ph) Node.fold] in
instance : Echo (createOther start) (createOther start) Node.fold := .of <| by
  unfold createOther
  refine .step fun kind => .seq fun name => .step fun _ => ?_
  infer_instance

omit [∀ ph, Echo (parse ph) (parse ph) Node.fold] in
instance : Echo definitionVerb definitionVerb id := .of <| by
  unfold definitionVerb
  refine .step fun hasCreate => .fork inferInstance ?_
  refine .step fun hasAlter => .fork inferInstance ?_
  refine .step fun _ => ?_
  infer_instance

instance : Echo (definitionStatement parse) (definitionStatement parse) Node.fold := .of <| by
  unfold definitionStatement
  refine .step fun start => .step fun verb => .seq fun x => ?_
  refine Agree.elim x.left.keyword? x.right.keyword? fun o => ?_
  split <;> infer_instance

end

end Portability.Parser
