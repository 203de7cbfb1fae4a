import Portability.Analysis
import Portability.Discovery
import Portability.Matrix.Default
import Portability.Record
import Portability.Summary

/-! A whole run: from inputs to records and a summary. -/
namespace Portability

structure Request where
  inputs : List String
  /-- Named in every record. -/
  application : String := ""
  version : Option String := none
  database : String := ""
  schema : String := "dbo"
  quotedIdentifier : Bool := true
  /-- The built-in matrix is used where no file is given. -/
  matrixPath? : Option String := none
  overridesPath? : Option String := none
  deriving Repr

structure Plan where
  matrix : Matrix
  overrides : Overrides
  version : Version
  scripts : List Script

structure Outcome where
  /-- One line for each finding. -/
  records : List String := []
  summary : Summary

def Outcome.text (o : Outcome) : String := String.join (o.records.map (· ++ "\n"))

namespace Run

def readConfig (root : Entry) (path : String) : Except Error String :=
  match Project.readText? root path with
  | some text => .ok text
  | none => .error (.matrixUnreadable path)

def loadMatrix (root : Entry) : Option String → Except Error Matrix
  | some path => do Matrix.parse path (← readConfig root path)
  | none => .ok Matrix.default

def loadOverrides (root : Entry) : Option String → Except Error Overrides
  | some path => do Overrides.parse path (← readConfig root path)
  | none => .ok {}

def plan (root : Entry) (r : Request) : Except Error Plan := do
  let matrix ← loadMatrix root r.matrixPath?
  let overrides ← loadOverrides root r.overridesPath?
  let version ← matrix.resolveVersion r.version
  let scripts ← Discovery.discover root r.inputs
  return { matrix, overrides, version, scripts }

/-- The settings for a script; a project has the last word on some of them. -/
def settings (r : Request) (overrides : Overrides) (s : Script) : Settings where
  version := r.version
  database := r.database
  schema := (s.defaults?.map (·.schema)).getD r.schema
  quotedIdentifier := (s.defaults?.map (·.quotedIdentifier)).getD r.quotedIdentifier
  overrides := overrides

/-- The analysis of a script; nothing if it would never be finished. -/
def analyze? (root : Entry) (r : Request) (p : Plan) (s : Script) :
    Option (Except Error Analysis) :=
  match (root.at? s.path).bind Entry.bytes? with
  | none => some (.error (.sourceUnreadable s.path))
  | some bytes =>
    Analysis.ofScript? p.matrix (settings r p.overrides s) (Encoding.decode bytes)

def records (application path : String) (a : Analysis) : Except Error (List String) :=
  a.findings.mapM (Record.encode application path)

/-- The outcome with that of one more script. A script that fails leaves no records. -/
def add (application : String) (o : Outcome) (script : Script × Except Error Analysis) : Outcome :=
  let path := script.1.path
  let encoded := do
    let a ← script.2
    return (a, ← records application path a)
  match encoded with
  | .ok (a, lines) =>
    let codes := a.handled.map fun h => toString h.code
    { records := o.records ++ lines
      summary := o.summary.addSuccess path a.batches a.findings codes }
  | .error e => { o with summary := o.summary.addFailure path e.message }

/-- The outcome of a run over the scripts of its plan; nothing if it would never be finished. -/
def carryOut? (root : Entry) (r : Request) (p : Plan) : Option Outcome := do
  let analyses ← p.scripts.mapM fun s => (analyze? root r p s).map (s, ·)
  return analyses.foldl (add r.application) { summary := { version := p.version.text } }

end Run

end Portability
