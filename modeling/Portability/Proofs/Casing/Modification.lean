import Portability.Grammar.Modification
import Portability.Proofs.Casing.Query

/-! Statements that change data and executions, on two sources that differ in case. -/
namespace Portability.Parser

instance {name name' : String} [Agree Text.lower name name'] :
    Echo (withArguments name) (withArguments name') Text.lower := .of <| by
  unfold withArguments
  refine .step fun start => .step fun _ => .seq fun text => ?_
  infer_instance

instance : Echo changeTarget changeTarget Text.lower := .of <| by
  unfold changeTarget
  exact .seq fun name => .seq fun v => .fork inferInstance inferInstance

instance : Echo defaultValues defaultValues Node.fold := .of <| by
  unfold defaultValues
  refine .step fun start => .step fun _ => ?_
  infer_instance

instance : Echo truncateStatement truncateStatement Node.fold := .of <| by
  unfold truncateStatement
  refine .step fun start => .step fun _ => .seq fun table => .step fun _ => ?_
  infer_instance

instance : Echo executeWithOptions executeWithOptions id := .of <| by
  unfold executeWithOptions
  dsimp only
  refine .step fun groups => ?_
  infer_instance

instance : Echo executeOptions executeOptions id := .of <| by
  unfold executeOptions
  refine .round fun options => .seq fun v => .fork ?_ ?_
  · refine .step fun _ => .step fun listed => ?_
    infer_instance
  · refine .fork ?_ ?_
    · refine .step fun _ => .step fun principal => .step fun _ => .step fun _ => ?_
      infer_instance
    · refine .step fun hasAt => .fork ?_ inferInstance
      refine .step fun _ => .seq fun _ => ?_
      infer_instance

instance : Echo outputTarget? outputTarget? (Option.map Text.lower) := .of <| by
  unfold outputTarget?
  refine .step fun hasInto => .fork ?_ inferInstance
  refine .seq fun target => .step fun _ => ?_
  infer_instance

instance : Echo argumentName? argumentName? (Option.map Text.lower) := .of <| by
  unfold argumentName?
  dsimp only
  refine .seq fun v => ?_
  infer_instance

instance : Echo outputMark outputMark id := .of <| by
  unfold outputMark
  exact .step fun hasOutput => .fork inferInstance inferInstance

instance {before : Nat} : Echo (argumentFollows before) (argumentFollows before) id := .of <| by
  unfold argumentFollows
  refine .step fun hasComma => .fork inferInstance ?_
  refine .step fun _ => ?_
  infer_instance

instance : Echo skipProcedureNumber skipProcedureNumber id := .of <| by
  unfold skipProcedureNumber
  refine .seq fun x => ?_
  refine Agree.elim (x.left.isMark .semicolon) (x.right.isMark .semicolon) fun b => ?_
  refine Agree.token (x.left.token? 1) (x.right.token? 1) (fun w => ?_) (fun w => ?_) fun o => ?_
  · cases b <;> infer_instance
  · cases b <;> infer_instance
  · split <;> infer_instance

instance : Echo insertTarget insertTarget Text.lower := .of <| by
  unfold insertTarget
  exact .seq fun table => .seq fun v => .fork inferInstance inferInstance

instance : Echo skipInsertColumns skipInsertColumns id := .of <| by
  unfold skipInsertColumns
  exact .seq fun v => .fork inferInstance inferInstance

section

variable {parse : Descent} [∀ ph, Echo (parse ph) (parse ph) Node.fold]

instance : Echo (outputClause parse) (outputClause parse) Node.fold := .of <| by
  unfold outputClause
  refine .step fun start => .step fun _ => .seq fun items => .seq fun target => ?_
  infer_instance

instance : Echo (outputClauses parse) (outputClauses parse) (List.map Node.fold) := by
  unfold outputClauses
  exact manyWhile_echo

/-! ### Execution -/

instance : Echo (executeArgument parse) (executeArgument parse) Node.fold := .of <| by
  unfold executeArgument
  refine .step fun start => .seq fun name => .step fun isDefault => .seq fun value => ?_
  refine .step fun output => ?_
  infer_instance

instance : Echo (executeArguments parse) (executeArguments parse) (List.map Node.fold) := .of <| by
  unfold executeArguments
  refine .loop (List.map Node.fold) fun args => .seq fun v => .fork inferInstance ?_
  dsimp only
  refine .step fun before => .seq fun arg => .step fun follows => ?_
  infer_instance

instance : Echo (dynamicTexts parse) (dynamicTexts parse) (List.map Node.fold) := .of <| by
  unfold dynamicTexts
  refine .seq fun texts => .step fun _ => ?_
  infer_instance

omit [∀ ph, Echo (parse ph) (parse ph) Node.fold] in
instance : Echo resultVariable? resultVariable? (List.map Node.fold) := .of <| by
  unfold resultVariable?
  refine .seq fun x => ?_
  refine Agree.option (φ := Text.lower) x.left.variableName? x.right.variableName? ?_ fun w => ?_
  all_goals
    dsimp only
    infer_instance

instance : Echo (executeStatement parse) (executeStatement parse) Node.fold := .of <| by
  unfold executeStatement
  refine .step fun start => .seq fun v => .fork inferInstance ?_
  refine .step fun _ => .step fun hasLparen => .fork ?_ ?_
  · refine .seq fun texts => .step fun options => ?_
    infer_instance
  · refine .seq fun result => .seq fun procedure => .step fun _ => .seq fun args => ?_
    refine .step fun options => ?_
    infer_instance

/-! ### Changes -/

instance : Echo (insertRows parse) (insertRows parse) (List.map Node.fold) := .of <| by
  unfold insertRows
  refine .seq fun v => .fork ?_ ?_
  · refine .seq fun values => ?_
    infer_instance
  · refine .fork ?_ ?_
    · refine .seq fun values => ?_
      infer_instance
    · refine .fork ?_ ?_
      · refine .seq fun execution => ?_
        infer_instance
      · refine .fork ?_ inferInstance
        refine .seq fun value => ?_
        infer_instance

instance : Echo (insertStatement parse) (insertStatement parse) Node.fold := .of <| by
  unfold insertStatement
  refine .step fun start => .step fun _ => .seq fun top => .step fun _ => .seq fun target => ?_
  refine .seq fun hints => .step fun _ => .seq fun outputs => .seq fun rows => ?_
  infer_instance

instance : Echo (columnAssignment parse) (columnAssignment parse) Node.fold := .of <| by
  unfold columnAssignment
  refine .step fun start => .seq fun column => .seq fun x => .fork inferInstance ?_
  refine Agree.elim (assignment? x.left 0) (assignment? x.right 0) fun o => ?_
  infer_instance

instance : Echo (memberValue parse) (memberValue parse) Node.fold := .of <| by
  unfold memberValue
  exact .seq fun v => .fork inferInstance inferInstance

instance : Echo (setMember parse) (setMember parse) Node.fold := .of <| by
  unfold setMember
  refine .step fun start => .seq fun o => ?_
  refine Agree.option (φ := Prod.map Text.lower id) o.left o.right ?_ fun y => ?_
  · infer_instance
  · cases y using Twins.pair with | _ target operator =>
    dsimp only
    infer_instance

instance : Echo (updateStatement parse) (updateStatement parse) Node.fold := .of <| by
  unfold updateStatement
  refine .step fun start => .step fun _ => .seq fun top => .seq fun target => ?_
  refine .seq fun hints => .seq fun changes => .seq fun outputs => .seq fun sources => ?_
  refine .seq fun condition => .seq fun options => ?_
  infer_instance

instance : Echo (deleteStatement parse) (deleteStatement parse) Node.fold := .of <| by
  unfold deleteStatement
  refine .step fun start => .step fun _ => .seq fun top => .step fun _ => .seq fun target => ?_
  refine .seq fun hints => .seq fun outputs => .seq fun sources => .seq fun condition => ?_
  refine .seq fun options => ?_
  infer_instance

instance : Echo (whenWords parse) (whenWords parse) (Prod.map id (List.map Node.fold)) := .of <| by
  unfold whenWords
  refine .loop (Prod.map id (List.map Node.fold)) fun st => ?_
  cases st using Twins.pair with | _ words conditions =>
  refine .step fun word? => ?_
  cases word? <;> dsimp only <;> infer_instance

instance : Echo (mergeRows parse) (mergeRows parse) (List.map Node.fold) := .of <| by
  unfold mergeRows
  refine .step fun _ => .seq fun v => .fork ?_ ?_
  · refine .seq fun values => ?_
    infer_instance
  · refine .fork ?_ inferInstance
    refine .seq fun values => ?_
    infer_instance

instance : Echo (mergeChange parse) (mergeChange parse) (Prod.map id (List.map Node.fold)) :=
  .of <| by
    unfold mergeChange
    refine .step fun hasUpdate => .fork ?_ ?_
    · refine .step fun _ => .seq fun items => ?_
      infer_instance
    · refine .step fun hasDelete => .fork inferInstance ?_
      refine .step fun hasInsert => .fork ?_ inferInstance
      refine .seq fun rows => ?_
      infer_instance

instance : Echo (mergeAction parse) (mergeAction parse) Node.fold := .of <| by
  unfold mergeAction
  refine .step fun start => .seq fun st => ?_
  cases st using Twins.pair with | _ words conditions =>
  refine .seq fun change => ?_
  cases change using Twins.pair with | _ action parts =>
  dsimp only
  infer_instance

instance : Echo (mergeStatement parse) (mergeStatement parse) Node.fold := .of <| by
  unfold mergeStatement
  refine .step fun start => .step fun _ => .seq fun top => .step fun _ => .seq fun target => ?_
  refine .seq fun hints => .seq fun _ => .seq fun source => .seq fun condition => ?_
  refine .seq fun actions => .seq fun outputs => .seq fun options => ?_
  infer_instance

end

end Portability.Parser
