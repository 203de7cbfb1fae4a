import Portability.Error
import Portability.Status
import Portability.Version

/-! The feature matrix: which construct is supported since which version of the target engine. -/
namespace Portability

namespace Matrix

/-- The item that stands for every item. -/
def wildcard : String := "*"

structure Rule where
  status : Status
  since : Version
  /-- In upper case; no item at all means the section itself. -/
  items : List String
  deriving Repr

/-- The rule speaks about an item given in upper case, or about the section itself. -/
def Rule.appliesTo (r : Rule) (item : Option String) : Bool :=
  r.items.contains wildcard ||
    match item with
    | some item => r.items.contains item
    | none => r.items.isEmpty

structure Section where
  name : String
  /-- The items of a closed section, in upper case; an open section takes any item. -/
  items : Option (List String) := none
  rules : List Rule := []
  fallback : Option Status := none
  group : Option String := none
  /-- Report groups of single items given in upper case; the first entry for an item counts. -/
  itemGroups : List (String × String) := []
  limit : Option Int := none
  deriving Repr

def Section.key (s : Section) : String := Text.upper s.name

/-- The section takes the item, given in upper case. -/
def Section.takes (s : Section) (item : String) : Bool :=
  match s.items with
  | none => true
  | some items => items.contains item

/-- Of two rules the newer one; of equally old ones the first. -/
def Rule.pick (best : Option Rule) (r : Rule) : Option Rule :=
  match best with
  | none => some r
  | some b => if r.since.newer b.since then some r else some b

/-- The newest rule that is in force at a version and speaks about an item given in upper case; of
equally new ones the first. -/
def Section.rule? (s : Section) (version : Version) (item : Option String) : Option Rule :=
  (s.rules.filter fun r => !r.since.newer version && r.appliesTo item).foldl Rule.pick none

/-- The verdict of a section on an item given in upper case, or on the section itself. -/
def Section.verdict (s : Section) (version : Version) (item : Option String) : Status :=
  match s.rule? version item with
  | some r => r.status
  | none => s.fallback.getD .notSupported

end Matrix

/-- A feature matrix: the known versions in order of declaration and the sections. -/
structure Matrix where
  origin : String
  versions : List Version
  sections : List Matrix.Section
  deriving Repr

namespace Matrix

/-- The section of a name, in any case. -/
def find? (m : Matrix) (name : String) : Option Section :=
  m.sections.find? fun s => s.key == Text.upper name

/-- The section of a name; `item` only serves the error. -/
def find (m : Matrix) (name : String) (item : Option String) : Except Error Section :=
  match m.find? name with
  | some s => .ok s
  | none => .error (.drift name item)

def defines (m : Matrix) (name : String) (item : Option String) : Bool :=
  match m.find? name with
  | some s => item.all fun i => s.takes (Text.upper i)
  | none => false

/-- The verdict on an item of a section, or on the section itself. -/
def status (m : Matrix) (version : Version) (name : String) (item : Option String) :
    Except Error Status := do
  let s ← m.find name item
  match item with
  | none => return s.verdict version none
  | some i =>
    if s.takes (Text.upper i) then return s.verdict version (some (Text.upper i))
    else throw (.drift name item)

/-- The name of the section that judges an argument of an item; arguments count from 1. -/
def argumentSection (name item : String) (argument : Nat) : String :=
  name ++ ":" ++ item ++ ":arg" ++ toString argument

/-- The verdict on an item also depends on one of its arguments. -/
def hasArgumentRule (m : Matrix) (name item : String) (argument : Nat) : Bool :=
  (m.find? (argumentSection name item argument)).isSome

/-- The verdict on the value of an argument. A value that is no literal needs a manual review. -/
def argumentStatus (m : Matrix) (version : Version) (name item : String) (argument : Nat)
    (value : Option String) : Except Error Status := do
  match value with
  | some value => m.status version (argumentSection name item argument) (some value)
  | none =>
    let _ ← m.find (argumentSection name item argument) none
    return .reviewManually

def limit (m : Matrix) (name : String) : Except Error Int := do
  match (← m.find name none).limit with
  | some n => return n
  | none => throw (.drift name (some "limit"))

/-- The items of a closed section, in upper case. -/
def items (m : Matrix) (name : String) : Except Error (List String) := do
  match (← m.find name none).items with
  | some items => return items
  | none => throw (.drift name (some "list"))

/-- The report group of an item: its own, or that of its section, or the name of the section. -/
def group (m : Matrix) (name : String) (item : Option String) : Except Error String := do
  let s ← m.find name item
  let own := item.bind fun i => s.itemGroups.lookup (Text.upper i)
  return own.getD (s.group.getD s.name)

/-- The version that is assumed when none is asked for: the one declared last. -/
def defaultVersion? (m : Matrix) : Option Version := m.versions.getLast?

def resolveVersion (m : Matrix) (wanted : Option String) : Except Error Version :=
  let found := match wanted with
    | none => m.defaultVersion?
    | some text => (Version.parse? text).bind fun w => m.versions.find? (·.same w)
  match found with
  | some v => .ok v
  | none => .error (.unknownVersion (wanted.getD "") (m.versions.map (·.text)))

end Matrix

end Portability
