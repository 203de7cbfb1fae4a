import Portability.Batch
import Portability.Overrides
import Portability.Report
import Portability.Text.Blank

/-! Reports with their verdicts. -/
namespace Portability

/-- A construct with its verdict. -/
structure Finding where
  item : String
  detail : String
  group : String
  status : Status
  /-- The line of the batch. -/
  line : Nat
  /-- The number of the batch. -/
  batch : Nat
  /-- The line of the script. -/
  fileLine : Nat
  object : String
  part : String
  misc : String
  deriving DecidableEq, Repr

/-- What the matrix says to a question. -/
structure Ruling where
  sectionName : String
  lookup : Option String
  status : Status
  /-- Shown in place of the detail of the report. -/
  detail? : Option String := none
  deriving Repr

namespace Matrix

def require (m : Matrix) (name : String) (item : Option String) : Except Error Unit :=
  if m.defines name item then .ok () else .error (.drift name item)

/-- The status of a call of a built-in function. The verdict on an argument takes the place of that
on the function. -/
def callStatus (m : Matrix) (version : Version) (function : String)
    (argument? : Option CallArgument) : Except Error Status := do
  let name := Topic.builtInFunctions.name
  let own ← m.status version name (some function)
  match argument? with
  | some a => m.argumentStatus version name function a.position a.value?
  | none => return own

/-- The ruling on a call of a built-in function. A supported function is judged anew inside a
computed column. -/
def ruleCall (m : Matrix) (version : Version) (function : String)
    (argument? : Option CallArgument) (inComputedColumn : Bool) : Except Error Ruling := do
  let name := Topic.builtInFunctions.name
  let status ← m.callStatus version function argument?
  if inComputedColumn ∧ status = .supported then
    let name := Topic.functionsInComputedColumn.name
    let lookup := if m.defines name (some function) then some function else none
    return { sectionName := name, lookup, status := ← m.status version name lookup }
  else
    m.require name (some function)
    return { sectionName := name, lookup := some function, status,
             detail? := argument?.map (·.detail) }

def rule (m : Matrix) (version : Version) : Question → Except Error Ruling
  | .item name lookup => do
    return { sectionName := name, lookup, status := ← m.status version name lookup }
  | .ruled name lookup status => do
    m.require name lookup
    return { sectionName := name, lookup, status }
  | .argument name item position value? => do
    let status ← m.argumentStatus version name item position value?
    m.require name (some item)
    return { sectionName := name, lookup := some item, status }
  | .call function argument? inComputedColumn =>
    m.ruleCall version function argument? inComputedColumn

end Matrix

def Finding.detailLimit : Nat := 200

structure Judge where
  matrix : Matrix
  version : Version
  overrides : Overrides

/-- Where a batch stands in its script. -/
structure BatchPlace where
  number : Nat := 0
  startLine : Nat := 1
  deriving DecidableEq, Repr

def Batch.place (b : Batch) : BatchPlace := ⟨b.number, b.startLine⟩

def BatchPlace.fileLine (p : BatchPlace) (line : Nat) : Nat := p.startLine + max line 1 - 1

namespace Judge

/-- The status and the remark once the overrides had their say. -/
def relabel (j : Judge) (sectionName key : String) (status : Status) : Status × String :=
  match j.overrides.replacement? sectionName key status with
  | some replacement => (replacement, "Overridden from " ++ status.label)
  | none => (status, "")

def finding (j : Judge) (place : BatchPlace) (s : Sighting) : Except Error Finding := do
  let r := s.report
  let ruling ← j.matrix.rule j.version r.question
  let group ← j.matrix.group ruling.sectionName ruling.lookup
  let (status, misc) :=
    j.relabel ruling.sectionName (ruling.lookup.getD r.display) ruling.status
  return {
    item := Text.collapse r.display
    detail := Text.truncate (Text.collapse (ruling.detail?.getD r.detail)) Finding.detailLimit
    group, status, misc
    line := r.line
    batch := place.number
    fileLine := place.fileLine r.line
    object := Text.collapse s.object
    part := Text.collapse s.part }

/-- The findings of a batch. Those that are held back come after the others. -/
def findings (j : Judge) (place : BatchPlace) (sightings : List Sighting) :
    Except Error (List Finding) := do
  let all ← sightings.mapM fun s => return (s.isQueued, ← j.finding place s)
  let (queued, prompt) := all.partition (·.1)
  return (prompt ++ queued).map (·.2)

end Judge

end Portability
