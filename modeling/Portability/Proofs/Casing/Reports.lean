import Portability.Proofs.Casing.Context
import Portability.Survey

/-! Reports on constructs that are the same up to case are the same up to case: they ask the same
questions of the matrix, on the same lines. -/
namespace Portability

/-! ### Reports -/

/-- The argument with its texts in lower case. -/
def CallArgument.fold (a : CallArgument) : CallArgument :=
  { a with value? := a.value?.map Text.lower, detail := Text.lower a.detail }

/-- The question with the items that it names in lower case. -/
def Question.fold : Question → Question
  | .item name lookup => .item name (lookup.map Text.lower)
  | .ruled name lookup status => .ruled name (lookup.map Text.lower) status
  | .argument name option position value? =>
    .argument name (Text.lower option) position (value?.map Text.lower)
  | .call function argument? inComputedColumn =>
    .call (Text.lower function) (argument?.map CallArgument.fold) inComputedColumn

/-- The handled code with what is compared in lower case. -/
def HandledCode.fold (c : HandledCode) : HandledCode := { c with via := Text.lower c.via }

/-- The report with its texts in lower case. -/
def Report.fold (r : Report) : Report where
  question := r.question.fold
  display := Text.lower r.display
  detail := Text.lower r.detail
  line := r.line
  handled? := r.handled?.map HandledCode.fold

namespace Report

@[simp] theorem fold_item (t : Topic) (name detail : String) (line : Nat) :
    (item t name detail line).fold = item t (Text.lower name) (Text.lower detail) line := rfl

@[simp] theorem fold_itemAs (t : Topic) (lookup display detail : String) (line : Nat) :
    (itemAs t lookup display detail line).fold =
      itemAs t (Text.lower lookup) (Text.lower display) (Text.lower detail) line := rfl

@[simp] theorem fold_topic (t : Topic) (display detail : String) (line : Nat) :
    (topic t display detail line).fold = topic t (Text.lower display) (Text.lower detail) line :=
  rfl

@[simp] theorem map_fold_onlyIf (condition : Bool) (r : Report) :
    (onlyIf condition r).map fold = onlyIf condition r.fold := by cases condition <;> rfl

end Report

/-! ### What a walk knows -/

/-- The scope of the folded tree. -/
def Scope.fold (s : Scope) : Scope := { s with tree := s.tree.fold }

namespace Scope

variable (s : Scope)

@[simp] theorem matrix_fold : s.fold.matrix = s.matrix := rfl

@[simp] theorem schema_fold : s.fold.schema = s.schema := rfl

@[simp] theorem limits_fold : s.fold.limits = s.limits := rfl

@[simp] theorem symbols_fold : s.fold.symbols = s.symbols := rfl

@[simp] theorem quotedIdentifier_fold : s.fold.quotedIdentifier = s.quotedIdentifier := rfl

@[simp] theorem tree_fold : s.fold.tree = s.tree.fold := rfl

@[simp] theorem text_fold (n : Node) : Text.lower (s.fold.text n.fold) = Text.lower (s.text n) := by
  simp [text, s.tree.lower_text_fold]

@[simp] theorem key_fold (raw : String) : s.fold.key (Text.lower raw) = s.key raw := by simp [key]

@[simp] theorem category_fold (n : Node) : s.fold.category n.fold = s.category n :=
  Category.ofNode_fold _ n

@[simp] theorem knows_fold (t : Topic) (item : String) : s.fold.knows t item = s.knows t item := rfl

end Scope

/-- The object with its description in lower case. -/
def OpenObject.fold (o : OpenObject) : OpenObject :=
  { o with description := Text.lower o.description }

/-- The part with its description in lower case. -/
def OpenPart.fold (p : OpenPart) : OpenPart := { p with description := Text.lower p.description }

/-- The open objects and parts with their descriptions in lower case. -/
def ObjectStack.fold (o : ObjectStack) : ObjectStack :=
  ⟨o.objects.map OpenObject.fold, o.parts.map OpenPart.fold⟩

/-- The two walks have met the same up to case. -/
structure Walk.Alike (w w' : Walk) : Prop where
  objects : w.objects.fold = w'.objects.fold
  queries : w.queries = w'.queries
  errors : w.errors = w'.errors
  database : Text.lower w.database = Text.lower w'.database

/-- Whether the trigger has several events does not depend on names. -/
theorem ObjectStack.isMultiEvent_fold (o : ObjectStack) : o.fold.isMultiEvent = o.isMultiEvent := by
  simp only [isMultiEvent, fold, List.head?_map, Option.any_map]
  rfl

/-- Walks that are alike stand in a trigger of several events together. -/
theorem Walk.Alike.isMultiEvent {w w' : Walk} (h : w.Alike w') :
    w.objects.isMultiEvent = w'.objects.isMultiEvent := by
  rw [← ObjectStack.isMultiEvent_fold, h.objects, ObjectStack.isMultiEvent_fold]

/-! ### Names -/

section

variable {s : Scope} {w w' : Walk} {n : Node} {site : Site} {line : Nat}

@[simp] theorem NameLimits.isSpecial_lower (l : NameLimits) (column : String) :
    l.isSpecial (Text.lower column) = l.isSpecial column := by simp [isSpecial]

/-- The length of a name does not depend on case. -/
@[simp] theorem NameLimits.lengthReports_lower (l : NameLimits) (identifier : String) :
    (l.lengthReports (Text.lower identifier) line).map Report.fold =
      (l.lengthReports identifier line).map Report.fold := by
  simp [lengthReports]

@[simp] theorem Scope.lengthReports_fold (identifier : String) :
    (s.fold.lengthReports (Text.lower identifier) line).map Report.fold =
      (s.lengthReports identifier line).map Report.fold :=
  s.limits.lengthReports_lower identifier

/-- A name reaches out of the database in both sources or in neither. -/
theorem NameLimits.reachReports_fold {database database' : String}
    (h : Text.lower database = Text.lower database') (raw : String) (name : Name) :
    (reachReports database (Text.lower raw) name.fold line).map Report.fold =
      (reachReports database' raw name line).map Report.fold := by
  have hempty : database.isEmpty = database'.isEmpty := by
    rw [← Text.isEmpty_lower, h, Text.isEmpty_lower]
  simp only [reachReports, Name.isRemote_fold, Name.isCrossDatabase_fold, hempty, name.isIn_fold h]
  split
  · simp
  · split <;> simp

/-- All reports on a name: its length, how far it reaches and what it is. -/
theorem Scope.nameReports_fold (h : w.Alike w') (raw : String) :
    (s.fold.nameReports w (Text.lower raw) line).map Report.fold =
      (s.nameReports w' raw line).map Report.fold := by
  have hreach := @NameLimits.reachReports_fold line _ _ h.database raw (Name.resolve raw)
  simp [nameReports, NameLimits.nameReports, hreach]

end

end Portability
