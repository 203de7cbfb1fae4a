import Portability.ErrorCode
import Portability.Status
import Portability.Topic

/-! What a walk over a script reports: constructs that call for a verdict, before the verdict. -/
namespace Portability

/-- An argument on which the verdict on a built-in function depends. -/
structure CallArgument where
  /-- Counted from 1. -/
  position : Nat
  /-- The value, where it is constant. -/
  value? : Option String
  /-- The argument as the report shows it. -/
  detail : String
  deriving DecidableEq, Repr

/-- What the feature matrix is asked about a construct. -/
inductive Question where
  /-- The status of an item of a section, or of the section itself. -/
  | item (sectionName : String) (lookup : Option String)
  /-- Only whether the item is known: its status is given. -/
  | ruled (sectionName : String) (lookup : Option String) (status : Status)
  /-- The status of the value of an argument of an item. -/
  | argument (sectionName item : String) (position : Nat) (value? : Option String)
  /-- The status of a call of a built-in function, perhaps in a computed column. -/
  | call (function : String) (argument? : Option CallArgument) (inComputedColumn : Bool)
  deriving DecidableEq, Repr

/-- A construct that calls for a verdict. -/
structure Report where
  question : Question
  display : String
  detail : String
  /-- The line of the batch. -/
  line : Nat
  /-- The error code that the construct handles. -/
  handled? : Option HandledCode := none
  deriving DecidableEq, Repr

namespace Report

def item (topic : Topic) (name detail : String) (line : Nat) : Report :=
  { question := .item topic.name (some name), display := name, detail, line }

/-- A report of an item under another name than that by which it is looked up. -/
def itemAs (topic : Topic) (lookup display detail : String) (line : Nat) : Report :=
  { question := .item topic.name (some lookup), display, detail, line }

def topic (topic : Topic) (display detail : String) (line : Nat) : Report :=
  { question := .item topic.name none, display, detail, line }

def onlyIf (condition : Bool) (r : Report) : List Report := if condition then [r] else []

@[simp] theorem mem_onlyIf {condition : Bool} {r r' : Report} :
    r' ∈ onlyIf condition r ↔ condition = true ∧ r' = r := by
  cases condition <;> simp [onlyIf]

end Report

/-- A report in its surroundings. -/
structure Sighting where
  report : Report
  object : String
  part : String
  /-- The verdict is held back until the batch is finished. -/
  isQueued : Bool
  deriving DecidableEq, Repr

end Portability
