import Portability.Project

/-! From the inputs of a run to the scripts it is about. -/
namespace Portability

/-- What a project gives to its scripts. -/
structure ProjectDefaults where
  project : String
  schema : String
  quotedIdentifier : Bool
  deriving DecidableEq, Repr

structure Script where
  path : String
  /-- For a script that was found through a project. -/
  defaults? : Option ProjectDefaults := none
  deriving DecidableEq, Repr

namespace Discovery

def isPattern (input : String) : Bool :=
  input.toList.any fun c => c == '*' || c == '?' || c == '['

def paths (root : Entry) (input : String) : List String :=
  if isPattern input then Glob.expand root input else [input]

def scriptsIn (path : String) (folder : Entry) : List Script :=
  ((folder.walk Path.join (fun _ _ => true) path).filter fun (below, e) =>
    !e.isFolder && Project.isScript below).map fun (below, _) => { path := below }

def scriptsOf (p : Project) : List Script :=
  p.scripts.map fun path => ⟨path, some ⟨p.name, p.schema, p.quotedIdentifier⟩⟩

def scriptsAt (root : Entry) (path : String) : Except Error (List Script) :=
  match root.at? path with
  | some (.folder entries) => .ok (scriptsIn path (.folder entries))
  | found =>
    if Path.hasExtension path "sqlproj" then (Project.load root path).map scriptsOf
    else if found.isSome then .ok [{ path }]
    else .error (.sourceUnreadable path)

/-- The scripts with more of them; a path that is there already is left out. -/
def addNew (found : List Script) (more : List Script) : List Script :=
  more.foldl
    (fun found s => if found.any (Path.same ·.path s.path) then found else found ++ [s]) found

/-- The scripts that the inputs of a run stand for, in order, each path once. -/
def discover (root : Entry) (inputs : List String) : Except Error (List Script) :=
  (inputs.flatMap (paths root)).foldlM
    (fun found path => do return addNew found (← scriptsAt root path)) []

end Discovery

end Portability
