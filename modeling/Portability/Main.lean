import Portability.CommandLine

/-! The command line. The files of the working directory are read first; all else is computed from
them. -/
namespace Portability.Main

partial def readFolder (found : Array IO.FS.DirEntry) : IO Entry := do
  let mut entries := []
  for e in found do
    let child ← if ← e.path.isDir then readFolder (← e.path.readDir)
      else pure (Entry.file (← IO.FS.readBinFile e.path).toList)
    entries := Entry.updateChild e.fileName (fun _ => child) entries
  return .folder entries

def readFiles : IO Entry := do readFolder (← (← IO.currentDir).readDir)

def fail (message : String) : IO UInt32 := do
  IO.eprintln ("Error: " ++ message)
  return 1

def analyze (request : Request) (output? : Option String) : IO UInt32 := do
  let root ← readFiles
  match Run.plan root request with
  | .error e => fail e.message
  | .ok plan =>
    match Run.carryOut? root request plan with
    | none => fail "a script cannot be parsed to its end"
    | some outcome =>
      match output? with
      | some path => IO.FS.writeFile path outcome.text
      | none => IO.print outcome.text
      IO.eprint (outcome.summary.render "")
      return if outcome.summary.failed = 0 then 0 else 1

def versions (matrixPath? : Option String) : IO UInt32 := do
  match Run.loadMatrix (← readFiles) matrixPath? with
  | .error e => fail e.message
  | .ok m =>
    for line in m.versionLines do
      IO.println line
    return 0

end Portability.Main

def main (args : List String) : IO UInt32 :=
  match Portability.Command.parse args with
  | .error message => do
    IO.eprintln message
    return 2
  | .ok (.analyze request output?) => Portability.Main.analyze request output?
  | .ok (.versions matrixPath?) => Portability.Main.versions matrixPath?
