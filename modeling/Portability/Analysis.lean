import Portability.Declaration
import Portability.Finding
import Portability.Survey

/-! The analysis of a script. -/
namespace Portability

structure Settings where
  /-- The version of the target engine; the newest where none is given. -/
  version : Option String := none
  database : String := ""
  schema : String := "dbo"
  quotedIdentifier : Bool := true
  overrides : Overrides := {}

structure BatchOutcome where
  findings : List Finding
  handled : List HandledCode
  deriving DecidableEq, Repr

structure Analysis where
  outcomes : List BatchOutcome
  version : String
  deriving Repr

structure ParsedBatch where
  batch : Batch
  tree : Tree

def Judge.outcome (j : Judge) (place : BatchPlace) (sightings : List Sighting) :
    Except Error BatchOutcome := do
  return {
    findings := ← j.findings place sightings
    handled := sightings.filterMap (·.report.handled?) }

def Judge.outcomes (j : Judge) (surveyed : List (BatchPlace × List Sighting)) :
    Except Error (List BatchOutcome) :=
  surveyed.mapM fun (place, sightings) => j.outcome place sightings

namespace Analysis

def findings (a : Analysis) : List Finding := a.outcomes.flatMap (·.findings)

def handled (a : Analysis) : List HandledCode := a.outcomes.flatMap (·.handled)

def batches (a : Analysis) : Nat := a.outcomes.length

/-- The batches of a script with their trees; nothing if a tree would never be finished. -/
def parse? (script : String) : Option (List ParsedBatch) :=
  (Batch.split script).mapM fun b => (Tree.ofText? b.content).map (⟨b, ·⟩)

def directiveReports (b : Batch) : List Report :=
  (b.directives.map fun d =>
    Report.item .directives d.command d.text (d.line - b.startLine + 1)) ++
    match b.repetitions with
    | some count =>
      [.itemAs .directives "GO <count>" ("GO " ++ toString count)
        ("batch repeated " ++ toString count ++ " times") ((Text.lines b.content).length + 1)]
    | none => []

/-- What the walk over a batch knows from the start. -/
def scope (m : Matrix) (limits : NameLimits) (settings : Settings) (d : Declarations) (index : Nat)
    (tree : Tree) : Scope where
  matrix := m
  schema := settings.schema
  limits := limits
  symbols := d.symbols.forBatch index
  quotedIdentifier := (d.quoted.resume index).isOn
  tree := tree

/-- The sightings of a batch, the directives first, and the database in use after it. -/
def surveyBatch (s : Scope) (database : String) (b : Batch) : List Sighting × String :=
  let (below, database) := Survey.ofBatch s database
  ((directiveReports b).map (⟨·, "", "", false⟩) ++ below, database)

/-- The sightings of batches in a row, each with the place of its batch. `index` is the place of the
first one among all batches. -/
def surveyFrom (scopeOf : Nat → Tree → Scope) (index : Nat) (database : String) :
    List ParsedBatch → List (BatchPlace × List Sighting)
  | [] => []
  | p :: rest =>
    let (sightings, database) := surveyBatch (scopeOf index p.tree) database p.batch
    (p.batch.place, sightings) :: surveyFrom scopeOf (index + 1) database rest

def survey (m : Matrix) (limits : NameLimits) (settings : Settings) (batches : List ParsedBatch) :
    List (BatchPlace × List Sighting) :=
  let declarations :=
    Declarations.ofTrees settings.schema settings.quotedIdentifier (batches.map (·.tree))
  surveyFrom (scope m limits settings declarations) 0 settings.database batches

def ofBatches (m : Matrix) (settings : Settings) (version : Version) (batches : List ParsedBatch) :
    Except Error Analysis := do
  let limits ← NameLimits.ofMatrix m
  let judge : Judge := ⟨m, version, settings.overrides⟩
  let outcomes ← judge.outcomes (survey m limits settings batches)
  return { outcomes, version := version.text }

/-- The analysis of a script; nothing if a tree would never be finished. -/
def ofScript? (m : Matrix) (settings : Settings) (script : String) :
    Option (Except Error Analysis) :=
  match m.resolveVersion settings.version with
  | .error e => some (.error e)
  | .ok version => (parse? script).map (ofBatches m settings version)

end Analysis

end Portability
