/-! What can go wrong outside the constructs that are assessed. -/
namespace Portability

inductive ConfigFault where
  | strayContinuation
  | openHeader (line : String)
  | missingEquals (line : String)
  | keyOutsideSection
  | duplicateSection (name : String)
  | unknownKey (key : String)
  | unknownStatusKey (key : String)
  | unknownStatus (text : String)
  | invalidLimit (text : String)
  | invalidVersion (text : String)
  | missingVersions
  | undeclaredVersion (sectionName version : String)
  | overrideOutsideSection
  | missingStatus (line : String)
  deriving DecidableEq, Repr

def ConfigFault.message : ConfigFault → String
  | strayContinuation => "continuation line without a key"
  | openHeader line => "unterminated section header '" ++ line ++ "'"
  | missingEquals line => "expected key = value: '" ++ line ++ "'"
  | keyOutsideSection => "key outside of a section"
  | duplicateSection name => "duplicate section [" ++ name ++ "]"
  | unknownKey key => "unknown key '" ++ key ++ "'"
  | unknownStatusKey key => "unknown status key '" ++ key ++ "'"
  | unknownStatus text => "Unknown status: " ++ text
  | invalidLimit text => "invalid limit '" ++ text ++ "'"
  | invalidVersion text => "Invalid version: " ++ text
  | missingVersions => "missing [Versions] list"
  | undeclaredVersion sectionName version =>
    "section [" ++ sectionName ++ "] refers to undeclared version " ++ version
  | overrideOutsideSection => "override outside of a section"
  | missingStatus line => "expected ITEM = status: '" ++ line ++ "'"

inductive Error where
  | sourceUnreadable (path : String)
  | projectUnreadable (path : String)
  | projectMalformed (path : String)
  | matrixUnreadable (path : String)
  | matrixMalformed (origin : String) (line : Nat) (fault : ConfigFault)
  | unknownVersion (version : String) (known : List String)
  /-- The matrix does not define what was looked up. -/
  | drift (sectionName : String) (item : Option String)
  /-- A field of a record would break the record stream. -/
  | brokenRecord (field record : String)
  | unwritable (path : String)
  deriving DecidableEq, Repr

namespace Error

def message : Error → String
  | sourceUnreadable path => "Failed to read source file: " ++ path
  | projectUnreadable path => "Failed to read project file: " ++ path
  | projectMalformed path => "Failed to parse project file: " ++ path
  | matrixUnreadable path => "Failed to read feature matrix: " ++ path
  | matrixMalformed origin line fault =>
    "Feature matrix parse error in " ++ origin ++ " at line " ++ toString line ++ ": " ++
      fault.message
  | unknownVersion version known =>
    "Unknown target version '" ++ version ++ "' (known: " ++ String.intercalate ", " known ++ ")"
  | drift sectionName item =>
    "Feature matrix out of sync: section [" ++ sectionName ++ "]" ++
      match item with
      | some item => ", item '" ++ item ++ "'"
      | none => ""
  | brokenRecord field record =>
    "Finding record integrity violation in field '" ++ field ++ "': " ++ record
  | unwritable path => "Failed to write findings to " ++ path

def isFatal : Error → Bool
  | drift .. | brokenRecord .. => true
  | _ => false

end Error

end Portability
