import Portability.Grammar.Table
import Portability.Proofs.Casing.Query

/-! Columns, constraints and options of tables, on two sources that differ in case. -/
namespace Portability.Parser

/-! ### Options -/

/-- Commas and parentheses have no case, so a list of options is split at the same places. -/
theorem splitTopLevel_toLower (depth : Int) (part cs : List Char) :
    splitTopLevel depth (part.map Char.toLower) (cs.map Char.toLower) =
      (splitTopLevel depth part cs).map (List.map Char.toLower) := by
  have hcomma : ∀ c : Char, c.toLower = ',' ↔ c = ',' := fun _ => Text.toLower_eq_iff (by decide)
  have hopen : ∀ c : Char, c.toLower = '(' ↔ c = '(' := fun _ => Text.toLower_eq_iff (by decide)
  have hclose : ∀ c : Char, c.toLower = ')' ↔ c = ')' := fun _ => Text.toLower_eq_iff (by decide)
  induction cs generalizing depth part with
  | nil => simp [splitTopLevel]
  | cons c rest ih =>
    simp only [List.map_cons, splitTopLevel, hcomma, hopen, hclose]
    split
    · simpa using ih 0 []
    · exact ih _ (c :: part)

/-- The names of options are in capitals. -/
theorem optionNames_lower (text : String) : optionNames (Text.lower text) = optionNames text := by
  have hequals : ∀ c : Char, c.toLower = '=' ↔ c = '=' := fun _ => Text.toLower_eq_iff (by decide)
  have hsplit := splitTopLevel_toLower 0 [] text.toList
  rw [List.map_nil] at hsplit
  rw [optionNames, Text.toList_lower, hsplit, List.filterMap_map, optionNames]
  refine List.filterMap_congr fun part _ => ?_
  simp only [Function.comp_apply, Text.trimChars_toLower, List.takeWhile_map, Function.comp_def,
    Text.isBlank_toLower, ne_eq, hequals, List.isEmpty_map]
  rw [← Text.lower_ofList, Text.upper_eq_of_lower (Text.lower_lower _)]

instance {text text' : String} [h : Agree Text.lower text text'] :
    Agree id (optionNames text) (optionNames text') :=
  ⟨eq_of_fold (f := optionNames) optionNames_lower h.eq⟩

instance : Echo indexOptions indexOptions id := .of <| by
  unfold indexOptions
  dsimp only
  refine .round fun options => .seq fun v => .fork ?_ ?_
  · refine .step fun _ => .seq fun inside => ?_
    infer_instance
  · refine .step fun hasWith => .fork ?_ ?_
    · refine .step fun _ => .step fun _ => ?_
      infer_instance
    · refine .fork ?_ inferInstance
      refine .step fun _ => .seq fun _ => .step fun _ => ?_
      infer_instance

instance : Echo tableOptions tableOptions (List.map Node.fold) := .of <| by
  unfold tableOptions
  refine .loop (List.map Node.fold) fun options => .step fun start => .seq fun v => .fork ?_ ?_
  · refine .step fun option => .seq fun _ => .step fun _ => .seq fun node => ?_
    infer_instance
  · refine .fork ?_ inferInstance
    refine .step fun _ => .seq fun members => ?_
    infer_instance

/-! ### Constraints -/

instance : Echo rowAction rowAction id := .of <| by
  unfold rowAction
  refine .step fun hasNoAction => .fork inferInstance ?_
  refine .step fun hasSetNull => .fork inferInstance ?_
  exact .step fun hasSetDefault => .fork inferInstance inferInstance

instance : Echo referentialAction referentialAction id := .of <| by
  unfold referentialAction
  refine .step fun _ => .step fun event => .step fun action => ?_
  infer_instance

instance {words : List String} : Echo (wordsOption? words) (wordsOption? words) id := .of <| by
  unfold wordsOption?
  exact .step fun found => .fork inferInstance inferInstance

instance : Echo notForReplication? notForReplication? id :=
  .of (by unfold notForReplication?; infer_instance)

instance : Echo clustered? clustered? id := .of <| by
  unfold clustered?
  refine .step fun hasClustered => .fork inferInstance ?_
  exact .step fun hasNonclustered => .fork inferInstance inferInstance

instance : Echo constraintKind constraintKind id := .of <| by
  unfold constraintKind
  refine .step fun hasPrimary => .fork inferInstance ?_
  refine .step fun hasUnique => .fork inferInstance ?_
  refine .step fun hasCheck => .fork inferInstance ?_
  refine .step fun hasDefault => .fork inferInstance ?_
  refine .step fun _ => ?_
  infer_instance

instance : Echo skipReferences skipReferences id := .of (by unfold skipReferences; infer_instance)

instance {tableLevel : Bool} :
    Echo (foreignKeyOptions tableLevel) (foreignKeyOptions tableLevel) id := .of <| by
  unfold foreignKeyOptions
  dsimp only
  cases tableLevel with
  | false =>
    refine .step fun _ => .step fun actions => .step fun replication => ?_
    infer_instance
  | true =>
    refine .step fun _ => .step fun _ => .step fun actions => .step fun replication => ?_
    infer_instance

instance : Echo constraintName? constraintName? (Option.map Text.lower) := .of <| by
  unfold constraintName?
  exact .step fun hasConstraint => .fork inferInstance inferInstance

instance : Echo skipForColumn skipForColumn id := .of <| by
  unfold skipForColumn
  refine .step fun hasFor => .fork ?_ inferInstance
  refine .seq fun _ => ?_
  infer_instance

section

variable {parse : Descent} [∀ ph, Echo (parse ph) (parse ph) Node.fold]

instance : Echo (checkCondition parse) (checkCondition parse) Node.fold := .of <| by
  unfold checkCondition
  refine .seq fun e => .step fun _ => ?_
  infer_instance

instance {tableLevel : Bool} :
    Echo (constraint parse tableLevel) (constraint parse tableLevel) Node.fold := .of <| by
  unfold constraint
  refine .step fun start => .seq fun name => .step fun kind => ?_
  cases kind <;> infer_instance

/-! ### Columns -/

omit [∀ ph, Echo (parse ph) (parse ph) Node.fold] in
instance : Echo columnAttribute? columnAttribute? id := .of <| by
  unfold columnAttribute?
  dsimp only
  refine .seq fun v => .step fun hasNotNull => .fork inferInstance ?_
  refine .step fun hasNotForReplication => .fork inferInstance ?_
  refine .step fun hasNull => .fork inferInstance ?_
  refine .step fun hasIdentity => .fork inferInstance ?_
  refine .fork inferInstance (.fork ?masked ?_)
  case masked =>
    refine .step fun word => .step fun hasWith => ?_
    infer_instance
  refine .step fun hasIndex => .fork inferInstance ?_
  refine .step fun word? => ?_
  cases word? <;> infer_instance

instance {parts parts' : List Node} [Agree (List.map Node.fold) parts parts'] :
    Tracks (Round.map (List.map Node.fold) (List.map Node.fold)) (columnPart parse parts)
      (columnPart parse parts') := by
  unfold columnPart
  refine .step fun start => .seq fun x => .fork inferInstance (.step fun collated => ?_)
  refine .fork inferInstance (.fork inferInstance (.step fun attribute? => ?_))
  cases attribute? <;> infer_instance

instance : Echo (columnAttributes parse) (columnAttributes parse) (List.map Node.fold) :=
  .of (by unfold columnAttributes; infer_instance)

instance : Echo (computedColumn parse) (computedColumn parse) Node.fold := .of <| by
  unfold computedColumn
  refine .step fun start => .seq fun e => .step fun persisted => ?_
  infer_instance

instance : Echo (columnType parse) (columnType parse) (List.map Node.fold) := .of <| by
  unfold columnType
  refine .step fun hasAs => .fork ?_ inferInstance
  refine .seq fun column => ?_
  infer_instance

instance : Echo (columnDef parse) (columnDef parse) Node.fold := .of <| by
  unfold columnDef
  refine .step fun start => .seq fun name => .seq fun typed => .seq fun attributes => ?_
  infer_instance

omit [∀ ph, Echo (parse ph) (parse ph) Node.fold] in
instance : Echo period period Node.fold := .of <| by
  unfold period
  refine .step fun start => .step fun _ => ?_
  infer_instance

instance : Echo (tableElement parse) (tableElement parse) Node.fold := .of <| by
  unfold tableElement
  refine .step fun start => .seq fun v => .fork inferInstance ?_
  refine .step fun hasIndex => .fork ?_ ?_
  · refine .seq fun _ => .step fun _ => ?_
    infer_instance
  · exact .fork inferInstance inferInstance

instance : Echo (tableElements parse) (tableElements parse) (List.map Node.fold) := .of <| by
  unfold tableElements
  dsimp only
  refine .step fun hasLparen => .fork ?_ inferInstance
  refine .seq fun elements => .step fun _ => ?_
  infer_instance

end

end Portability.Parser
