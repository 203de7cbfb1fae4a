import Portability.Matrix
import Portability.Name
import Portability.Report

/-! What the target engine allows in names, and the reports on names that ask for more. -/
namespace Portability

structure NameLimits where
  /-- The most characters of an identifier. -/
  length : Int
  /-- Column names with a meaning of their own. -/
  special : List String
  deriving Repr

namespace NameLimits

def ofMatrix (m : Matrix) : Except Error NameLimits := do
  let length ← m.limit Topic.identifierLength.name
  let special ← m.items Topic.specialColumnNames.name
  return { length, special }

def isSpecial (l : NameLimits) (column : String) : Bool := l.special.any (Text.same · column)

def lengthReports (l : NameLimits) (identifier : String) (line : Nat) : List Report :=
  Report.onlyIf (decide (l.length < identifier.length)) <|
    .topic .identifierLength "Identifier too long"
      (identifier ++ " (" ++ toString identifier.length ++ " characters)") line

def reachReports (database raw : String) (name : Name) (line : Nat) : List Report :=
  if name.isRemote then [.item .remoteObjectReferences "Four-part name" raw line]
  else if name.isCrossDatabase then
    let item := if !database.isEmpty && name.isIn database
      then "Three-part name to current database" else "Three-part name"
    [.item .crossDatabaseReferences item raw line]
  else []

/-- The reports of an object name: a leading dot, its reach and the length of its last part. -/
def nameReports (l : NameLimits) (database raw : String) (line : Nat) : List Report :=
  let name := Name.resolve raw
  Report.onlyIf name.leadingDot (.item .identifiers "Leading dot identifier" raw line) ++
    reachReports database raw name line ++ l.lengthReports name.object line

end NameLimits

end Portability
