import Portability.Identifier
import Portability.Text.Ascii

/-! Object names of up to four parts: server, database, schema and object. -/
namespace Portability

/-- The parts of a name, unquoted, and whether a dot stands before the first one. Empty parts are
kept: the number of parts says how far the name reaches. -/
structure Name where
  parts : List String
  leadingDot : Bool

namespace Name

/-- The name that a text spells; of more than four parts the last four count. -/
def resolve (raw : String) : Name :=
  let trimmed := Text.trim raw
  let parts := Identifier.parts trimmed
  { parts := parts.drop (parts.length - 4)
    leadingDot := trimmed.toList.head? == some '.' }

def partCount (n : Name) : Nat := n.parts.length

/-- The part that many places before the last, unless it is absent or empty. -/
def partFromRight? (n : Name) (offset : Nat) : Option String :=
  n.parts.reverse[offset]?.filter fun p => !p.isEmpty

def object (n : Name) : String := n.parts.getLastD ""

def schema? (n : Name) : Option String := n.partFromRight? 1

def database? (n : Name) : Option String := n.partFromRight? 2

def server? (n : Name) : Option String := n.partFromRight? 3

/-- A name of exactly three parts. -/
def isCrossDatabase (n : Name) : Bool := n.partCount == 3

/-- A name of exactly four parts. -/
def isRemote (n : Name) : Bool := n.partCount == 4

def isTemporary (n : Name) : Bool := n.object.toList.head? == some '#'

def isGlobalTemporary (n : Name) : Bool := ['#', '#'].isPrefixOf n.object.toList

/-- The name means an object of the given database on this server. -/
def isIn (n : Name) (database : String) : Bool :=
  n.server?.isNone &&
    match n.database? with
    | some db => Text.same db database
    | none => true

/-- The key of the object in a symbol table. Temporary objects have no schema. -/
def key (n : Name) (defaultSchema : String) : String :=
  if n.isTemporary then Text.upper n.object
  else Text.upper (n.schema?.getD defaultSchema ++ "." ++ n.object)

def same (a b : Name) : Bool :=
  a.leadingDot == b.leadingDot && a.partCount == b.partCount &&
    (a.parts.zip b.parts).all fun p => Text.same p.1 p.2

/-- The name with brackets only where a part needs them; empty parts are left empty. -/
def display (n : Name) : String :=
  String.intercalate "." (n.parts.map fun p => if p.isEmpty then "" else Identifier.quoted p)

end Name

end Portability
