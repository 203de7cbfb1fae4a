import Portability.Matrix
import Portability.Text.Lines

/-! The text format of a feature matrix: sections with keys and values. An indented line goes on
with the value of the key before it; `#` and `;` begin comments. -/
namespace Portability.Matrix

abbrev Located := Nat × ConfigFault

structure Entry where
  key : String
  value : String
  line : Nat

structure RawSection where
  name : String
  line : Nat
  entries : List Entry

/-- A line without meaning: blank or a comment. -/
def isIdle (trimmed : String) : Bool :=
  match trimmed.toList with
  | [] => true
  | c :: _ => c == '#' || c == ';'

def headerName? (trimmed : String) : Option String :=
  match trimmed.toList with
  | '[' :: rest =>
    if rest.getLast? = some ']' then some (Text.trim (String.ofList rest.dropLast)) else none
  | _ => none

def splitAtFirst? (mark : Char) (s : String) : Option (String × String) :=
  match s.toList.span (· ≠ mark) with
  | (before, _ :: after) => some (String.ofList before, String.ofList after)
  | (_, []) => none

def splitAtLast? (mark : Char) (s : String) : Option (String × String) :=
  match s.toList.reverse.span (· ≠ mark) with
  | (after, _ :: before) => some (String.ofList before.reverse, String.ofList after.reverse)
  | (_, []) => none

def continueValue (line : Nat) (text : String) : List RawSection → Except Located (List RawSection)
  | s :: done =>
    match s.entries with
    | e :: es =>
      .ok ({ s with entries := { e with value := e.value ++ " " ++ text } :: es } :: done)
    | [] => .error (line, .strayContinuation)
  | [] => .error (line, .strayContinuation)

/-- One more line read. Sections and entries are kept last one first. -/
def readLine (done : List RawSection) (text : String) (line : Nat) :
    Except Located (List RawSection) :=
  let trimmed := Text.trim text
  if isIdle trimmed then .ok done
  else
    match text.toList.head?, trimmed.toList.head? with
    | some ' ', _ | some '\t', _ => continueValue line trimmed done
    | _, some '[' =>
      match headerName? trimmed with
      | some name => .ok (⟨name, line, []⟩ :: done)
      | none => .error (line, .openHeader trimmed)
    | _, _ =>
      match splitAtFirst? '=' trimmed, done with
      | none, _ => .error (line, .missingEquals trimmed)
      | some _, [] => .error (line, .keyOutsideSection)
      | some (key, value), s :: rest =>
        .ok ({ s with entries := ⟨Text.trim key, Text.trim value, line⟩ :: s.entries } :: rest)

def readLines (done : List RawSection) (line : Nat) : List String → Except Located (List RawSection)
  | [] => .ok done
  | text :: rest =>
    match readLine done text line with
    | .ok done => readLines done (line + 1) rest
    | .error e => .error e

/-- The sections of a text in order, with their entries in order. -/
def rawSections (text : String) : Except Located (List RawSection) :=
  (readLines [] 1 (Text.lines text)).map fun done =>
    done.reverse.map fun s => { s with entries := s.entries.reverse }

/-- The non-empty members of a list with commas. -/
def listMembers (value : String) : List String :=
  ((value.toList.splitOn ',').map fun m => Text.trim (String.ofList m)).filter (!·.isEmpty)

/-- The non-empty members of a list with commas, in upper case. -/
def upperMembers (value : String) : List String := (listMembers value).map Text.upper

def ruleOf (e : Entry) : Except Located Rule :=
  match splitAtLast? '-' (Text.lower e.key) with
  | none => .error (e.line, .unknownKey e.key)
  | some (statusKey, version) =>
    match Status.all.find? (·.key == statusKey) with
    | none => .error (e.line, .unknownStatusKey e.key)
    | some status =>
      match Version.parse? version with
      | none => .error (e.line, .invalidVersion version)
      | some since => .ok ⟨status, since, upperMembers e.value⟩

def itemGroupStart : String := "report_group."

def Section.put (s : Section) (e : Entry) : Except Located Section :=
  let key := Text.lower e.key
  if key = "list" then
    let items := upperMembers e.value
    .ok { s with items := if items.contains wildcard then none else some items }
  else if key = "report_group" then .ok { s with group := some (Text.trim e.value) }
  else if key = "default_classification" then
    match Status.parse? e.value with
    | some status => .ok { s with fallback := some status }
    | none => .error (e.line, .unknownStatus e.value)
  else if key = "limit" then
    match Text.parseInt64? (Text.trim e.value) with
    | some n => .ok { s with limit := some n }
    | none => .error (e.line, .invalidLimit e.value)
  else if Text.startsWith key itemGroupStart then
    let item := String.ofList (e.key.toList.drop itemGroupStart.length)
    .ok { s with itemGroups := (Text.upper (Text.trim item), Text.trim e.value) :: s.itemGroups }
  else (ruleOf e).map fun r => { s with rules := s.rules ++ [r] }

def declaredVersions (entries : List Entry) : Except Located (List Version) := do
  let groups ← entries.mapM fun e => do
    if !Text.same e.key "list" then throw (e.line, ConfigFault.unknownKey e.key)
    (listMembers e.value).mapM fun v =>
      match Version.parse? v with
      | some version => .ok version
      | none => .error (e.line, .invalidVersion v)
  return groups.flatten

/-- The name of the section that declares versions, in upper case. -/
def versionsKey : String := "VERSIONS"

/-- One more section interpreted; sections are kept last one first. -/
def addSection (acc : List Version × List Section) (raw : RawSection) :
    Except Located (List Version × List Section) := do
  if acc.2.any (·.key == Text.upper raw.name) then
    throw (raw.line, ConfigFault.duplicateSection raw.name)
  if Text.upper raw.name == versionsKey then
    return (acc.1 ++ (← declaredVersions raw.entries), acc.2)
  let s ← raw.entries.foldlM Section.put { name := raw.name }
  return (acc.1, s :: acc.2)

/-- The first rule, with sections in order of their keys, whose version is not declared. -/
def undeclared? (versions : List Version) (sections : List Section) :
    Option (Section × Version) :=
  (sections.mergeSort fun a b => a.key ≤ b.key).findSome? fun s =>
    (s.rules.find? fun r => !versions.any (·.same r.since)).map fun r => (s, r.since)

def parseLocated (origin text : String) : Except Located Matrix := do
  let raw ← rawSections text
  let (versions, sections) ← raw.foldlM addSection ([], [])
  if versions.isEmpty then throw (0, ConfigFault.missingVersions)
  match undeclared? versions sections with
  | some (s, version) => throw (0, ConfigFault.undeclaredVersion s.name version.text)
  | none => return { origin, versions, sections := sections.reverse }

/-- The matrix that a text describes; `origin` names the text in errors. -/
def parse (origin text : String) : Except Error Matrix :=
  match parseLocated origin text with
  | .ok m => .ok m
  | .error (line, fault) => .error (.matrixMalformed origin line fault)

end Portability.Matrix
