import Portability.Matrix.Format

/-! Verdicts that the user puts in place of those of the matrix. -/
namespace Portability

/-- Verdicts for items of sections, both given in upper case. No pair occurs twice. -/
structure Overrides where
  entries : List ((String × String) × Status) := []
  deriving Repr

namespace Overrides

def isEmpty (o : Overrides) : Bool := o.entries.isEmpty

def size (o : Overrides) : Nat := o.entries.length

/-- The table with one verdict set; the last one for an item counts. -/
def insert (o : Overrides) (name item : String) (status : Status) : Overrides :=
  let key := (Text.upper name, Text.upper item)
  { entries := (key, status) :: o.entries.filter (·.1 != key) }

def find? (o : Overrides) (name item : String) : Option Status :=
  o.entries.lookup (Text.upper name, Text.upper item)

/-- The verdict that replaces `status`, if there is one that differs. A supported construct stays
supported. -/
def replacement? (o : Overrides) (name item : String) (status : Status) : Option Status :=
  if status = .supported then none else (o.find? name item).filter (· ≠ status)

/-- The lines from the given number on; `current` is the section they are in. -/
def parseLines (o : Overrides) (current : Option String) (line : Nat) :
    List String → Except Matrix.Located Overrides
  | [] => .ok o
  | text :: rest =>
    let trimmed := Text.trim text
    if Matrix.isIdle trimmed then parseLines o current (line + 1) rest
    else
      match Matrix.headerName? trimmed with
      | some name => parseLines o (some name) (line + 1) rest
      | none =>
        match current with
        | none => .error (line, .overrideOutsideSection)
        | some name =>
          match Matrix.splitAtLast? '=' trimmed with
          | none => .error (line, .missingStatus trimmed)
          | some (item, status) =>
            match Status.parse? status with
            | none => .error (line, .unknownStatus status)
            | some status =>
              parseLines (o.insert name (Text.trim item) status) current (line + 1) rest

/-- The overrides that a text lists; `origin` names the text in errors. -/
def parse (origin text : String) : Except Error Overrides :=
  match parseLines {} none 1 (Text.lines text) with
  | .ok o => .ok o
  | .error (line, fault) => .error (.matrixMalformed origin line fault)

end Overrides

end Portability
