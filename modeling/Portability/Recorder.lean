import Portability.Finding
import Portability.NameLimits
import Portability.ObjectStack

/-! A stock of findings that grows report by report, for callers that make their reports
themselves. -/
namespace Portability

/-- The findings so far and what the next one depends on. -/
structure Recorder where
  judge : Judge
  limits : NameLimits
  schema : String
  database : String
  objects : ObjectStack := {}
  place : BatchPlace := {}
  findings : List Finding := []
  /-- Findings that wait for the end of the batch. -/
  held : List Finding := []

namespace Recorder

/-- A recorder without findings. -/
def start (m : Matrix) (overrides : Overrides) (version : Option String)
    (database schema : String) : Except Error Recorder := do
  let version ← m.resolveVersion version
  let limits ← NameLimits.ofMatrix m
  return { judge := ⟨m, version, overrides⟩, limits, schema, database }

def beginBatch (r : Recorder) (place : BatchPlace) : Recorder :=
  { r with place, objects := {} }

/-- A batch ends: the findings that waited join the others. -/
def finishBatch (r : Recorder) : Recorder :=
  { r with findings := r.findings ++ r.held, held := [] }

def record (r : Recorder) (isQueued : Bool) (report : Report) : Except Error Recorder := do
  let finding ← r.judge.finding r.place ⟨report, r.objects.object, r.objects.part, isQueued⟩
  if isQueued then return { r with held := r.held ++ [finding] }
  else return { r with findings := r.findings ++ [finding] }

/-- The recorder with more findings. At an error it keeps those before it. -/
def recordAll (r : Recorder) : List Report → Recorder × Option Error
  | [] => (r, none)
  | report :: rest =>
    match r.record false report with
    | .ok next => next.recordAll rest
    | .error e => (r, some e)

end Recorder

end Portability
