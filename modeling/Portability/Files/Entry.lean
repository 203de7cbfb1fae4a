import Portability.Files.Path

/-! A directory tree in memory. -/
namespace Portability

inductive Entry where
  | file (bytes : List UInt8)
  | folder (entries : List (String × Entry))

namespace Entry

def isFolder : Entry → Bool
  | folder _ => true
  | file _ => false

def bytes? : Entry → Option (List UInt8)
  | file bytes => some bytes
  | folder _ => none

def child? (name : String) : Entry → Option Entry
  | folder entries => entries.lookup name
  | file _ => none

/-- The entries with that of a name changed, or put in its place. -/
def updateChild (name : String) (change : Option Entry → Entry) :
    List (String × Entry) → List (String × Entry)
  | [] => [(name, change none)]
  | (other, e) :: rest =>
    if name < other then (name, change none) :: (other, e) :: rest
    else if name = other then (name, change (some e)) :: rest
    else (other, e) :: updateChild name change rest

def put (bytes : List UInt8) : List String → Option Entry → Entry
  | [], _ => file bytes
  | name :: rest, some (folder entries) => folder (updateChild name (put bytes rest) entries)
  | name :: rest, _ => folder [(name, put bytes rest none)]

def ofFiles (files : List (String × List UInt8)) : Entry :=
  files.foldl (fun tree (path, bytes) => put bytes (Path.parts path) (some tree)) (folder [])

/-- The entry that is reached over the parts of a path. `trail` holds the entries on the way, the
last one first. -/
def follow (trail : List Entry) : List String → Option Entry
  | [] => trail.head?
  | part :: rest =>
    match trail with
    | [] => none
    | here :: above =>
      if !here.isFolder then none
      else if part = "" ∨ part = "." then follow trail rest
      else if part = ".." then follow above rest
      else
        match here.child? part with
        | some e => follow (e :: trail) rest
        | none => none

def at? (root : Entry) (path : String) : Option Entry :=
  if path.isEmpty || Path.isAbsolute path then none else follow [root] (Path.split path)

mutual

/-- Everything below an entry with its path, each folder before its entries. `child` gives the
path of an entry of a folder; what `keep` refuses is left out, with all below it. -/
def walk (child : String → String → String) (keep : String → Entry → Bool) (path : String) :
    Entry → List (String × Entry)
  | file _ => []
  | folder entries => walkAll child keep path entries

def walkAll (child : String → String → String) (keep : String → Entry → Bool) (path : String) :
    List (String × Entry) → List (String × Entry)
  | [] => []
  | (name, e) :: rest =>
    (if keep name e then (child path name, e) :: walk child keep (child path name) e else []) ++
      walkAll child keep path rest

end

end Entry

end Portability
