import Portability.Grammar.Query
import Portability.Proofs.Casing.Expression

/-! Queries of two sources that differ in case. -/
namespace Portability.Parser

/-! ### Words, aliases and hints -/

section

variable {v v' : View} [h : Agree View.fold v v']

instance : Agree id (startsBareHints v) (startsBareHints v') := by
  unfold startsBareHints
  infer_instance

instance : Agree id (isAlias v) (isAlias v') := by
  unfold isAlias
  refine Agree.token (v.token? 0) (v'.token? 0) (fun w => ?_) (fun w => .refl) fun o => .refl
  dsimp only
  infer_instance

end

instance : Echo tableAlias? tableAlias? (Option.map Text.lower) := .of <| by
  unfold tableAlias?
  refine .step fun hasAs => .fork inferInstance ?_
  exact .seq fun v => .fork inferInstance inferInstance

instance : Echo columnAlias? columnAlias? (Option.map Text.lower) := .of <| by
  unfold columnAlias?
  refine .step fun marked => .seq fun x => ?_
  refine Agree.token (x.left.token? 0) (x.right.token? 0) (fun w => ?_) (fun w => ?_) fun o => ?_
  · cases marked <;> infer_instance
  · cases marked <;> infer_instance
  · split <;> infer_instance

instance : Echo skipColumnList skipColumnList id := .of (by unfold skipColumnList; infer_instance)

instance : Echo takeAny takeAny id := .of <| by
  unfold takeAny
  refine .step fun word? => ?_
  cases word? with
  | none =>
    dsimp only
    infer_instance
  | some w => infer_instance

instance {make : String → Kind} : Echo (wordMember make) (wordMember make) Node.fold := .of <| by
  unfold wordMember
  refine .step fun start => .step fun word => .step fun _ => ?_
  infer_instance

instance : Echo hintList hintList (List.map Node.fold) := by
  unfold hintList
  exact parenMembers_echo

instance : Echo tableHints tableHints (List.map Node.fold) := .of <| by
  unfold tableHints
  refine .seq fun v => .fork ?_ inferInstance
  refine .step fun _ => ?_
  infer_instance

instance : Echo skipRepeatable skipRepeatable id := .of <| by
  unfold skipRepeatable
  exact .step fun repeatable => .fork inferInstance inferInstance

instance : Echo tableSample tableSample Node.fold := .of <| by
  unfold tableSample
  refine .step fun start => .step fun _ => .step fun _ => .step fun _ => .step fun _ => ?_
  infer_instance

instance : Echo formatWords formatWords id := .of <| by
  unfold formatWords
  refine .step fun kind => .seq fun x => ?_
  refine Agree.option (φ := Text.lower) (x.left.word? 0) (x.right.word? 0) ?_ fun w => ?_
  all_goals
    dsimp only
    infer_instance

instance : Echo skipFormatSettings skipFormatSettings id := .of <| by
  unfold skipFormatSettings
  refine .step fun _ => ?_
  infer_instance

instance : Echo forClause forClause Node.fold := .of <| by
  unfold forClause
  refine .step fun start => .step fun _ => .step fun mode => .step fun _ => .step fun _ => ?_
  infer_instance

instance : Echo hintWords hintWords id := .of <| by
  unfold hintWords
  refine .loop id fun words => .seq fun x => ?_
  refine Agree.option (φ := Text.lower) (x.left.word? 0) (x.right.word? 0) ?_ fun w => ?_
  all_goals
    dsimp only
    infer_instance

instance : Echo queryHint queryHint Node.fold := .of <| by
  unfold queryHint
  refine .step fun start => .step fun words => .step fun _ => .seq fun text => ?_
  infer_instance

instance : Echo optionClause optionClause Node.fold := .of <| by
  unfold optionClause
  refine .step fun start => .step fun _ => .seq fun hints => ?_
  infer_instance

instance : Echo optionClause? optionClause? (List.map Node.fold) := by
  unfold optionClause?
  exact whenSees_echo

instance : Echo intoClause intoClause Node.fold := .of <| by
  unfold intoClause
  refine .step fun start => .step fun _ => .seq fun target => ?_
  infer_instance

instance : Echo joinKind joinKind id := .of <| by
  unfold joinKind
  refine .step fun hasInner => .fork inferInstance ?_
  refine .step fun hasLeft => .fork ?_ ?_
  · refine .step fun _ => ?_
    infer_instance
  · refine .step fun hasRight => .fork ?_ ?_
    · refine .step fun _ => ?_
      infer_instance
    · refine .step fun hasFull => .fork ?_ inferInstance
      refine .step fun _ => ?_
      infer_instance

instance : Echo joinHint? joinHint? id := .of <| by
  unfold joinHint?
  exact .seq fun v => .fork inferInstance inferInstance

instance : Echo joinWords? joinWords? id := .of <| by
  unfold joinWords?
  refine .step fun start => .step fun hasCrossJoin => .fork inferInstance ?_
  refine .step fun hasCrossApply => .fork inferInstance ?_
  refine .step fun hasOuterApply => .fork inferInstance ?_
  refine .step fun kind => .step fun hint => .step fun hasJoin => .fork inferInstance ?_
  refine .step fun _ => ?_
  infer_instance

instance : Echo assignmentTarget? assignmentTarget? (Option.map (Prod.map Text.lower id)) :=
  .of <| by
    unfold assignmentTarget?
    refine .seq fun x => ?_
    refine Agree.option (φ := Text.lower) x.left.variableName? x.right.variableName? ?_ fun w => ?_
    · infer_instance
    · refine Agree.elim (assignment? x.left 1) (assignment? x.right 1) fun o => ?_
      cases o <;> infer_instance

section

variable {parse : Descent} [∀ ph, Echo (parse ph) (parse ph) Node.fold]

/-! ### Select lists -/

instance : Echo (selectItem parse) (selectItem parse) Node.fold := .of <| by
  unfold selectItem
  refine .step fun start => .seq fun x => .fork inferInstance (.seq fun o => ?_)
  refine Agree.option (φ := Prod.map Text.lower id) o.left o.right ?_ fun y => ?_
  · dsimp only
    infer_instance
  · cases y using Twins.pair with | _ target operator =>
    dsimp only
    infer_instance

instance : Echo (topCount parse) (topCount parse) Node.fold := .of <| by
  unfold topCount
  refine .step fun hasLparen => .fork ?_ inferInstance
  refine .seq fun e => .step fun _ => ?_
  infer_instance

instance : Echo (topClause parse) (topClause parse) Node.fold := .of <| by
  unfold topClause
  refine .step fun start => .step fun _ => .seq fun count => .step fun percent => ?_
  refine .step fun withTies => ?_
  infer_instance

instance : Echo (topClause? parse) (topClause? parse) (List.map Node.fold) := by
  unfold topClause?
  exact whenSees_echo

/-! ### Table sources -/

instance : Echo (valuesClause parse) (valuesClause parse) Node.fold := .of <| by
  unfold valuesClause
  refine .step fun start => .step fun _ => ?_
  refine .thread (List.map (List.map Node.fold)) (.loop (List.map (List.map Node.fold)) ?_) ?_
  · dsimp only
    infer_instance
  intro rows
  have : Agree Kind.fold (.values rows.left.length) (.values rows.right.length) :=
    ⟨congrArg Kind.values (eq_of_fold (f := List.length) (fun _ => List.length_map _) rows.eq)⟩
  infer_instance

instance {between : String} : Echo (boundPair parse between) (boundPair parse between) id :=
  .of <| by
    unfold boundPair
    refine .seq fun _ => .step fun _ => .seq fun _ => ?_
    infer_instance

instance : Echo (temporalBounds parse) (temporalBounds parse) id := .of <| by
  unfold temporalBounds
  refine .step fun hasAs => .fork ?_ ?_
  · refine .seq fun _ => ?_
    infer_instance
  · refine .step fun hasFrom => .fork inferInstance ?_
    refine .step fun hasBetween => .fork inferInstance ?_
    refine .step fun hasContained => .fork inferInstance ?_
    refine .step fun _ => ?_
    infer_instance

instance : Echo (temporalClause parse) (temporalClause parse) Node.fold := .of <| by
  unfold temporalClause
  refine .step fun start => .step fun _ => .step fun _ => ?_
  infer_instance

omit [∀ ph, Echo (parse ph) (parse ph) Node.fold] in
instance {start : Nat} {content content' : Parser Node} [Echo content content' Node.fold] :
    Echo (derivedTable start content) (derivedTable start content') Node.fold := .of <| by
  unfold derivedTable
  refine .seq fun content => .step fun _ => .seq fun knownAs => .step fun _ => ?_
  infer_instance

instance {start : Nat} : Echo (parenSource parse start) (parenSource parse start) Node.fold :=
  .of <| by
    unfold parenSource
    refine .seq fun v => .step fun _ => .fork inferInstance ?_
    refine .fork inferInstance ?_
    refine .seq fun inner => .step fun _ => ?_
    infer_instance

instance {name name' : String} {start : Nat} [Agree Text.lower name name'] :
    Echo (namedSource parse name start) (namedSource parse name' start) Node.fold := .of <| by
  unfold namedSource
  refine .seq fun v => .fork ?_ ?_
  · refine .seq fun args => .seq fun knownAs => .step fun _ => ?_
    infer_instance
  · refine .seq fun bare => .seq fun temporal => .seq fun knownAs => .seq fun sample => ?_
    refine .seq fun hints => ?_
    infer_instance

instance {start : Nat} : Echo (plainSource parse start) (plainSource parse start) Node.fold :=
  .of <| by
    unfold plainSource
    refine .seq fun x => .fork inferInstance (.seq fun o => ?_)
    refine Agree.option (φ := foldCall) o.left o.right ?_ fun name => ?_
    all_goals
      dsimp only
      infer_instance

instance : Echo (tablePrimary parse) (tablePrimary parse) Node.fold := .of <| by
  unfold tablePrimary
  refine .step fun start => .seq fun source => ?_
  infer_instance

instance : Echo (tableSourceBody parse) (tableSourceBody parse) Node.fold := .of <| by
  unfold tableSourceBody
  refine .seq fun first => .loop Node.fold fun left => .step fun words => ?_
  cases words <;> infer_instance

instance : Echo (fromClause parse) (fromClause parse) Node.fold := .of <| by
  unfold fromClause
  refine .step fun start => .step fun _ => .seq fun sources => ?_
  infer_instance

instance : Echo (fromClause? parse) (fromClause? parse) (List.map Node.fold) := by
  unfold fromClause?
  exact whenSees_echo

/-! ### Clauses -/

omit [∀ ph, Echo (parse ph) (parse ph) Node.fold] in
instance : Echo currentOf currentOf Node.fold := .of <| by
  unfold currentOf
  refine .step fun start => .step fun _ => .step fun _ => .seq fun cursor => ?_
  infer_instance

instance : Echo (searchCondition parse) (searchCondition parse) Node.fold := .of <| by
  unfold searchCondition
  exact .seq fun v => .fork inferInstance inferInstance

instance : Echo (whereClause parse) (whereClause parse) Node.fold := .of <| by
  unfold whereClause
  refine .step fun start => .step fun _ => .seq fun condition => ?_
  infer_instance

instance : Echo (whereClause? parse) (whereClause? parse) (List.map Node.fold) := by
  unfold whereClause?
  exact whenSees_echo

instance : Echo (groupMember parse) (groupMember parse) (Prod.map id (List.map Node.fold)) :=
  .of <| by
    unfold groupMember
    refine .seq fun v => .fork ?_ ?_
    · refine .step fun modifier => .seq fun args => ?_
      infer_instance
    · refine .step fun hasGrouping => .fork ?_ ?_
      · refine .step fun _ => ?_
        infer_instance
      · refine .seq fun value => ?_
        infer_instance

omit [∀ ph, Echo (parse ph) (parse ph) Node.fold] in
instance : Echo groupAll? groupAll? id := .of <| by
  unfold groupAll?
  exact .step fun hasAll => .fork inferInstance inferInstance

omit [∀ ph, Echo (parse ph) (parse ph) Node.fold] in
instance {known known' : Option String} [Agree id known known'] :
    Echo (trailingModifier known) (trailingModifier known') id := .of <| by
  unfold trailingModifier
  refine .step fun found => .fork ?_ inferInstance
  refine .step fun word => ?_
  infer_instance

instance : Echo (groupBy parse) (groupBy parse) Node.fold := .of <| by
  unfold groupBy
  refine .step fun start => .step fun _ => .step fun all => .seq fun members => ?_
  -- The modifiers are the same; only the expressions differ in case.
  have : Agree id
      (members.left.foldl (fun m member => member.1.orElse fun _ => m) all)
      (members.right.foldl (fun m member => member.1.orElse fun _ => m) all) :=
    ⟨eq_of_fold
      (f := List.foldl (fun m (x : Option String × List Node) => x.1.orElse fun _ => m) all)
      (fun _ => by rw [List.foldl_map]; rfl) members.eq⟩
  have : Agree (List.map (List.map Node.fold)) (members.left.map (·.2)) (members.right.map (·.2)) :=
    ⟨by simpa [Function.comp_def] using congrArg (List.map Prod.snd) members.eq⟩
  infer_instance

instance : Echo (having parse) (having parse) Node.fold := .of <| by
  unfold having
  refine .step fun start => .step fun _ => .seq fun condition => ?_
  infer_instance

instance : Echo (fetchCount parse) (fetchCount parse) Node.fold := .of <| by
  unfold fetchCount
  refine .step fun _ => .step fun _ => .seq fun count => .step fun _ => .step fun _ => ?_
  refine .step fun _ => ?_
  infer_instance

instance : Echo (offsetFetch parse) (offsetFetch parse) (List.map Node.fold) := .of <| by
  unfold offsetFetch
  refine .seq fun offset => .step fun _ => .step fun _ => .seq fun count => ?_
  infer_instance

instance : Echo (orderBy parse) (orderBy parse) Node.fold := .of <| by
  unfold orderBy
  refine .step fun start => .step fun _ => .seq fun items => .step fun paged => ?_
  refine .seq fun pages => ?_
  infer_instance

/-! ### Queries -/

omit [∀ ph, Echo (parse ph) (parse ph) Node.fold] in
instance : Echo distinctWord distinctWord id := .of <| by
  unfold distinctWord
  refine .step fun hasDistinct => .fork inferInstance ?_
  refine .step fun _ => ?_
  infer_instance

instance : Echo (querySpec parse) (querySpec parse) Node.fold := .of <| by
  unfold querySpec
  refine .step fun start => .step fun _ => .step fun distinct => .seq fun top => ?_
  refine .seq fun items => .seq fun into => .seq fun sources => .seq fun condition => ?_
  refine .seq fun grouping => .seq fun having => ?_
  infer_instance

instance : Echo (queryTerm parse) (queryTerm parse) Node.fold := .of <| by
  unfold queryTerm
  refine .seq fun v => .fork ?_ ?_
  · refine .step fun _ => .seq fun inner => .step fun _ => ?_
    infer_instance
  · exact .fork inferInstance inferInstance

omit [∀ ph, Echo (parse ph) (parse ph) Node.fold] in
instance : Echo setOperator? setOperator? id := .of <| by
  unfold setOperator?
  refine .step fun hasUnionAll => .fork inferInstance ?_
  refine .step fun hasUnion => .fork inferInstance ?_
  refine .step fun hasExcept => .fork inferInstance ?_
  exact .step fun hasIntersect => .fork inferInstance inferInstance

instance : Echo (queryExpression parse) (queryExpression parse) Node.fold := .of <| by
  unfold queryExpression
  refine .seq fun first => .loop Node.fold fun left => .step fun operator? => ?_
  cases operator? <;> infer_instance

instance : Echo (queryTail parse) (queryTail parse) (List.map Node.fold) := .of <| by
  unfold queryTail
  refine .seq fun order => .seq fun format => .seq fun options => ?_
  infer_instance

instance : Echo (cte? parse) (cte? parse) (Option.map (List.map Node.fold)) := .of <| by
  unfold cte?
  refine .step fun start => .step fun named => .fork inferInstance (.seq fun o => ?_)
  refine Agree.option (φ := Text.lower) o.left o.right ?_ fun name => ?_
  · infer_instance
  · refine .step fun _ => .step fun hasAs => .fork ?_ inferInstance
    refine .step fun hasLparen => .fork ?_ inferInstance
    refine .seq fun query => .step fun _ => ?_
    infer_instance

instance : Echo (cteMembers? parse) (cteMembers? parse) (Option.map (List.map Node.fold)) :=
  .of <| by
    unfold cteMembers?
    refine .loop (List.map Node.fold) fun members => .seq fun o => ?_
    refine Agree.option (φ := List.map Node.fold) o.left o.right ?_ fun found => ?_
    all_goals
      dsimp only
      infer_instance

instance : Echo (withClause? parse) (withClause? parse) (Option.map Node.fold) := .of <| by
  unfold withClause?
  refine .step fun start => .step fun found => .fork (.seq fun o => ?_) inferInstance
  refine Agree.option (φ := List.map Node.fold) o.left o.right ?_ fun members => ?_
  all_goals
    dsimp only
    infer_instance

instance : Echo (leadingCtes parse) (leadingCtes parse) (List.map Node.fold) := .of <| by
  unfold leadingCtes
  refine .seq fun v => .fork ?_ inferInstance
  refine .seq fun ctes => ?_
  infer_instance

instance : Echo (queryBody parse) (queryBody parse) Node.fold := .of <| by
  unfold queryBody
  refine .step fun start => .seq fun ctes => .seq fun body => .seq fun tail => ?_
  infer_instance

instance : Echo (queryStatement parse) (queryStatement parse) Node.fold := .of <| by
  unfold queryStatement
  exact .seq fun v => .fork inferInstance inferInstance

end

end Portability.Parser
