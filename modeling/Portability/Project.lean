import Portability.Encoding
import Portability.Error
import Portability.Files.Glob
import Portability.Text.Blank
import Portability.Xml.Document

/-! Database projects: which scripts they hold, and the session settings they give them. -/
namespace Portability

structure Project where
  name : String
  directory : String
  schema : String := "dbo"
  quotedIdentifier : Bool := true
  /-- Scripts in the order of the build. -/
  files : List String := []
  before? : Option String := none
  after? : Option String := none
  deriving Repr

namespace Project

/-- Every script: the one before the deployment, those of the build, the one after. -/
def scripts (p : Project) : List String := p.before?.toList ++ p.files ++ p.after?.toList

def property? (nodes : List Xml) (name : String) : Option String :=
  ((nodes.find? (·.name == name)).bind Xml.text?).map Text.trim

/-- A path of a project file with slashes between its parts. -/
def withSlashes (path : String) : String :=
  String.ofList (path.toList.map fun c => if c = '\\' then '/' else c)

def listed (nodes : List Xml) (name key : String) : List String :=
  ((nodes.filter (·.name == name)).filterMap (·.attribute? key)).map withSlashes

/-- The path is a pattern, not a name. -/
def isPattern (path : String) : Bool := path.toList.contains '*'

def isScript (path : String) : Bool := Path.hasExtension path "sql"

def included (root : Entry) (directory item : String) : List String :=
  let path := Path.join directory item
  if isPattern item then (Glob.expand root path).filter isScript
  else if ".sql".toList.isSuffixOf (Text.lower item).toList && (root.at? path).isSome then [path]
  else []

/-- The path is taken out of the build by one of the items. -/
def isRemoved (directory : String) (items : List String) (path : String) : Bool :=
  items.any fun item =>
    let full := Path.join directory item
    if isPattern item then Glob.stands full path else Path.same path full

def isOutput (name : String) (e : Entry) : Bool := e.isFolder && (name == "bin" || name == "obj")

/-- Everything in the directory of the project, the directory itself first, but for build output. -/
def everything (root : Entry) (directory : String) : List String :=
  match root.at? directory with
  | none => []
  | some e =>
    if isOutput ((Path.fileName? directory).getD directory) e then []
    else directory :: (e.walk Path.join (fun name e => !isOutput name e) directory).map (·.1)

/-- The scripts of the build. A project that lists none holds every script in its directory. -/
def buildFiles (root : Entry) (directory : String) (nodes : List Xml) : List String :=
  let items := listed nodes "Build" "Include"
  let removed := listed nodes "Build" "Remove"
  let candidates := if items.isEmpty then (everything root directory).filter isScript
    else items.flatMap (included root directory)
  candidates.filter fun path => !isRemoved directory removed path

/-- The first script of a kind that exists. -/
def deployment? (root : Entry) (directory : String) (nodes : List Xml) (name : String) :
    Option String :=
  ((listed nodes name "Include").map (Path.join directory)).find? fun path => (root.at? path).isSome

def ofDocument (root : Entry) (path document : String) : Except Error Project :=
  match Xml.parse? document with
  | none => .error (.projectMalformed path)
  | some xml =>
    let nodes := xml.nodes
    let directory := (Path.parent? path).getD "."
    .ok {
      name := (Path.stem? path).getD "Database"
      directory
      schema := (property? nodes "DefaultSchema").getD "dbo"
      quotedIdentifier := (property? nodes "QuotedIdentifier").all (Text.same · "true")
      files := buildFiles root directory nodes
      before? := deployment? root directory nodes "PreDeploy"
      after? := deployment? root directory nodes "PostDeploy" }

def readText? (root : Entry) (path : String) : Option String :=
  ((root.at? path).bind Entry.bytes?).bind Encoding.utf8Text?

def load (root : Entry) (path : String) : Except Error Project :=
  match readText? root path with
  | some document => ofDocument root path document
  | none => .error (.projectUnreadable path)

end Project

end Portability
