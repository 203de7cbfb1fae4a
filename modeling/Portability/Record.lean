import Portability.Finding

/-! Findings as lines of text: twelve fields with a bar between neighbours. -/
namespace Portability

namespace Record

def delimiter : Char := '|'

def escapeMark : Char := '~'

def delimiterEscape : List Char := ['~', 'p', '~']

def markEscape : List Char := ['~', 't', '~']

/-- A field without delimiters. -/
def escapeChars : List Char → List Char
  | [] => []
  | c :: rest =>
    if c = escapeMark then markEscape ++ escapeChars rest
    else if c = delimiter then delimiterEscape ++ escapeChars rest
    else c :: escapeChars rest

/-- The characters of a field with its escapes resolved. -/
def unescapeChars : List Char → List Char
  | [] => []
  | '~' :: 't' :: '~' :: rest => escapeMark :: unescapeChars rest
  | '~' :: 'p' :: '~' :: rest => delimiter :: unescapeChars rest
  | c :: rest => c :: unescapeChars rest

/-- A field without delimiters. -/
def escape (field : String) : String := String.ofList (escapeChars field.toList)

def unescape (field : String) : String := String.ofList (unescapeChars field.toList)

def isBreak (c : Char) : Bool := c == '\n' || c == '\r'

def showBreaks (s : String) : String :=
  String.ofList (s.toList.flatMap fun c => if isBreak c then ['\\', 'n'] else [c])

def fields (application file : String) (f : Finding) : List (String × String) :=
  [("item", f.item), ("detail", f.detail), ("report group", f.group), ("status", f.status.label),
   ("line", toString f.line), ("application", application), ("file", file),
   ("batch", toString f.batch), ("file line", toString f.fileLine), ("object context", f.object),
   ("sub-object context", f.part), ("misc", f.misc)]

/-- The record of a finding. A line break in a field has no place in a record. -/
def encode (application file : String) (f : Finding) : Except Error String :=
  let fields := fields application file f
  match fields.find? fun field => field.2.toList.any isBreak with
  | some (name, value) => .error (.brokenRecord name (showBreaks value))
  | none => .ok (String.intercalate (String.singleton delimiter) (fields.map (escape ·.2)))

/-- The parts between delimiters; `part` is the one being read, backwards. -/
def splitFrom (part : List Char) : List Char → List (List Char)
  | [] => [part.reverse]
  | c :: rest =>
    if c = delimiter then part.reverse :: splitFrom [] rest else splitFrom (c :: part) rest

/-- The fields of a record. -/
def decode (record : String) : List String :=
  (splitFrom [] record.toList).map fun part => String.ofList (unescapeChars part)

end Record

end Portability
