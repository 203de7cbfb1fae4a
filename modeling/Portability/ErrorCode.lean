import Portability.Text.Numeric
import Portability.Tree

/-! Error codes that a script branches on. A variable that was set from `@@ERROR` or
`ERROR_NUMBER()`, or from such a variable, holds an error code until it is set otherwise. -/
namespace Portability

structure HandledCode where
  code : Int
  /-- The variable or expression that is compared. -/
  via : String
  line : Nat
  deriving DecidableEq, Repr

/-- What one operand compared with an error value is. -/
inductive CodeCheck where
  | code (code : Int) (via : String)
  /-- The operand is no integer constant. -/
  | indeterminate (text via : String)
  deriving DecidableEq, Repr

/-- The variables that hold an error code, in upper case. -/
structure ErrorTracker where
  tracked : List String := []
  deriving Repr

def Node.isErrorSource (n : Node) : Bool :=
  match n.kind with
  | .systemVariable name => Text.same name "@@ERROR"
  | .functionCall name => Text.same name "ERROR_NUMBER"
  | _ => false

def Tree.integer? (t : Tree) : Node → Option Int
  | ⟨_, .literal .number, _, start, stop, _⟩ =>
    Text.parseInt64? (Text.trim (t.source.textBetween start stop))
  | ⟨_, .unaryOp op, _, _, _, operand :: _⟩ =>
    if op = "-" then (t.integer? operand).map fun n => -n
    else if op = "+" then t.integer? operand
    else none
  | _ => none

namespace ErrorTracker

def isTracked (e : ErrorTracker) (name : String) : Bool := e.tracked.contains (Text.upper name)

/-- The variable holds no error code any more. -/
def forget (e : ErrorTracker) (name : String) : ErrorTracker :=
  { tracked := e.tracked.filter (· != Text.upper name) }

def yieldsCode (e : ErrorTracker) (value : Node) : Bool :=
  value.isErrorSource ||
    match value.kind with
    | .localVariable name => e.isTracked name
    | _ => false

def note (e : ErrorTracker) (name : String) (value : Node) : ErrorTracker :=
  if e.yieldsCode value then { tracked := Text.upper name :: (e.forget name).tracked }
  else e.forget name

def subject? (e : ErrorTracker) (t : Tree) (n : Node) : Option String :=
  match n.kind with
  | .localVariable name => if e.isTracked name then some name else none
  | _ => if n.isErrorSource then some (Text.collapse (t.text n)) else none

/-- The check of an operand; zero means that there was no error. -/
def check? (t : Tree) (via : String) (operand : Node) : Option CodeCheck :=
  match t.integer? operand with
  | some 0 => none
  | some code => some (.code code via)
  | none => some (.indeterminate (Text.collapse (t.text operand)) via)

def examine (e : ErrorTracker) (t : Tree) (n : Node) : List CodeCheck :=
  match n.kind, n.children with
  | .comparison op, left :: right :: _ =>
    if op = "=" ∨ op = "<>" ∨ op = "!=" then
      match e.subject? t left, e.subject? t right with
      | some via, _ => [right].filterMap (check? t via)
      | none, some via => [left].filterMap (check? t via)
      | none, none => []
    else []
  | .inList _, subject :: operands | .between _, subject :: operands =>
    match e.subject? t subject with
    | some via => operands.filterMap (check? t via)
    | none => []
  | _, _ => []

end ErrorTracker

end Portability
