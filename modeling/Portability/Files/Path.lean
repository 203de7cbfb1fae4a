import Portability.Text.Ascii

/-! Paths of files as texts, with parts divided by slashes. -/
namespace Portability.Path

/-- The parts between slashes; `part` is the one being read, backwards. -/
def splitFrom (part : List Char) : List Char → List (List Char)
  | [] => [part.reverse]
  | c :: rest => if c = '/' then part.reverse :: splitFrom [] rest else splitFrom (c :: part) rest

/-- The texts between slashes, empty ones too. -/
def split (path : String) : List String := (splitFrom [] path.toList).map String.ofList

def isAbsolute (path : String) : Bool := path.toList.head? == some '/'

/-- The parts that count: empty ones do not, and `.` does only in front. -/
def parts (path : String) : List String :=
  match (split path).filter (!·.isEmpty) with
  | [] => []
  | first :: rest =>
    let rest := rest.filter (· ≠ ".")
    if first = "." ∧ isAbsolute path then rest else first :: rest

/-- The two paths are spelled alike, but for slashes and dots without effect. -/
def same (a b : String) : Bool := isAbsolute a == isAbsolute b && parts a == parts b

def isCurrent (path : String) : Bool := same path "."

/-- A path taken from a directory. An absolute path stays as it is. -/
def join (directory path : String) : String :=
  if isAbsolute path then path
  else
    match directory.toList.getLast? with
    | none | some '/' => directory ++ path
    | some _ => directory ++ "/" ++ path

def fileName? (path : String) : Option String :=
  (parts path).getLast?.filter fun part => part ≠ "." && part ≠ ".."

/-- A name before and after its last dot; a dot in front does not count. -/
def splitName (name : String) : String × Option String :=
  let after := name.toList.reverse.takeWhile (· ≠ '.')
  match name.toList.reverse.drop after.length with
  | [] | [_] => (name, none)
  | _ :: before => (String.ofList before.reverse, some (String.ofList after.reverse))

/-- The last part without its extension. -/
def stem? (path : String) : Option String := (fileName? path).map (splitName · |>.1)

/-- The path has the extension, in any case of letters. -/
def hasExtension (path wanted : String) : Bool :=
  ((fileName? path).bind (splitName · |>.2)).any (Text.same · wanted)

/-- The text, backwards, without the slashes and dots at its end that have no effect. -/
def trimBack : List Char → List Char
  | '/' :: [] => ['/']
  | '/' :: rest => trimBack rest
  | '.' :: '/' :: rest => trimBack ('/' :: rest)
  | text => text

/-- The path without its last part, as it is spelled. -/
def parent? (path : String) : Option String :=
  match parts path with
  | [] => none
  | _ =>
    let back := trimBack path.toList.reverse
    some (String.ofList (trimBack (back.dropWhile (· ≠ '/'))).reverse)

end Portability.Path
