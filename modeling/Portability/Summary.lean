import Portability.Finding

/-! The totals of a run over several scripts. -/
namespace Portability

/-- What became of one script. -/
structure UnitOutcome where
  path : String
  batches : Nat := 0
  findings : Nat := 0
  /-- Why the script has no findings. -/
  failure? : Option String := none
  deriving Repr

/-- The outcomes of a run in order, the verdicts of all findings with their groups, and the error
codes that the scripts handle, in order and without repetition. -/
structure Summary where
  version : String
  units : List UnitOutcome := []
  verdicts : List (String × Status) := []
  codes : List String := []
  deriving Repr

namespace Summary

/-- The sorted list with a text put in its place, unless it is there. -/
def insertText (s : String) : List String → List String
  | [] => [s]
  | t :: rest =>
    if s < t then s :: t :: rest else if s = t then t :: rest else t :: insertText s rest

/-- The texts in order, each once. -/
def sortTexts (texts : List String) : List String := texts.foldl (fun l s => insertText s l) []

def addSuccess (s : Summary) (path : String) (batches : Nat) (findings : List Finding)
    (codes : List String) : Summary :=
  { s with
    units := s.units ++ [{ path, batches, findings := findings.length }]
    verdicts := s.verdicts ++ findings.map fun f => (f.group, f.status)
    codes := sortTexts (s.codes ++ codes) }

/-- The summary with a script that could not be analysed. -/
def addFailure (s : Summary) (path reason : String) : Summary :=
  { s with units := s.units ++ [{ path, failure? := some reason }] }

/-- The number of scripts that could not be analysed. -/
def failed (s : Summary) : Nat := s.units.countP (·.failure?.isSome)

def total (s : Summary) : Nat := s.units.foldr (fun u n => u.findings + n) 0

def statusTotal (s : Summary) (status : Status) : Nat := s.verdicts.countP (·.2 == status)

def count (s : Summary) (group : String) (status : Status) : Nat :=
  s.verdicts.countP (· == (group, status))

def groups (s : Summary) : List String := sortTexts (s.verdicts.map (·.1))

/-- The line of a group: the statuses that occur, with their numbers. -/
def groupLine (s : Summary) (group : String) : String :=
  let counts := (Status.all.map fun status => (status, s.count group status)).filter (0 < ·.2)
  "  " ++ group ++ ": " ++
    String.intercalate ", " (counts.map fun (status, n) => status.label ++ "=" ++ toString n)

/-- The first line, but for the time. -/
def heading (s : Summary) : String :=
  "Assessment of " ++ toString s.units.length ++ " unit(s) for target " ++ s.version

def lines (s : Summary) : List String :=
  ["Findings: " ++ toString s.total ++ " (" ++ toString s.failed ++ " unit(s) failed)"] ++
    s.groups.map s.groupLine ++
    (if s.codes.isEmpty then []
      else ["Handled error codes: " ++ String.intercalate ", " s.codes]) ++
    s.units.filterMap fun u => u.failure?.map fun reason => "FAILED " ++ u.path ++ ": " ++ reason

def render (s : Summary) (afterHeading : String) : String :=
  String.join (((s.heading ++ afterHeading) :: s.lines).map (· ++ "\n"))

end Summary

end Portability
