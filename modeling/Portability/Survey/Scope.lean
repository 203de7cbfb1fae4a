import Portability.Category.Expression
import Portability.NameLimits
import Portability.ObjectStack
import Portability.Query.Place
import Portability.QuotedIdentifier

/-! What a walk knows from the start, and what it learns on its way. -/
namespace Portability

/-- What is fixed while a batch is walked. -/
structure Scope where
  matrix : Matrix
  schema : String
  limits : NameLimits
  symbols : SymbolTable
  quotedIdentifier : Bool
  tree : Tree

namespace Scope

def text (s : Scope) (n : Node) : String := Text.collapse (s.tree.text n)

def key (s : Scope) (raw : String) : String := (Name.resolve raw).key s.schema

def category (s : Scope) (n : Node) : Category :=
  Category.ofNode ⟨s.symbols, s.schema, s.quotedIdentifier⟩ n

def knows (s : Scope) (topic : Topic) (item : String) : Bool :=
  s.matrix.defines topic.name (some item)

def lengthReports (s : Scope) (identifier : String) (line : Nat) : List Report :=
  s.limits.lengthReports identifier line

end Scope

/-- What a walk has met so far. -/
structure Walk where
  objects : ObjectStack := {}
  queries : QueryStack := {}
  errors : ErrorTracker := {}
  /-- The database in use. -/
  database : String

def Scope.nameReports (s : Scope) (w : Walk) (raw : String) (line : Nat) : List Report :=
  s.limits.nameReports w.database raw line

def Site.isInSpec (s : Site) : Bool :=
  match s.parentKind? with
  | some (.querySpec _) => true
  | _ => false

end Portability
