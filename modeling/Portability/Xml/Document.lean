import Portability.Xml
import Portability.Xml.Reference

/-! Reading a document. A document type is refused, and every namespace that is used has to be
declared. -/
namespace Portability.Xml

/-- The name of a namespace that the standard itself fixes. -/
def standardName (path : List String) : String :=
  String.intercalate "/" (["http:", "", "www.w3.org"] ++ path)

def xmlNamespace : String := standardName ["XML", "1998", "namespace"]

def declarationNamespace : String := standardName ["2000", "xmlns", ""]

structure RawAttribute where
  name : QName
  value : String
  deriving Repr

/-- Whether a tag has an end of its own. -/
inductive TagEnd where
  | opens
  | closed
  deriving DecidableEq, Repr

def quotedValue? (text : List Char) : Option (List Char × List Char) :=
  match skipSpaces text with
  | '=' :: rest =>
    match skipSpaces rest with
    | quote :: rest =>
      if quote ≠ '"' ∧ quote ≠ '\x27' then none
      else
        match scanUntil (fun t => t.head? == some quote || t.head? == some '<') rest with
        | some (value, close :: after) => if close = quote then some (value, after) else none
        | _ => none
    | [] => none
  | _ => none

def attributePair? (text : List Char) : Option (RawAttribute × List Char) := do
  let (name, rest) ← qualifiedName? text
  let (value, rest) ← quotedValue? rest
  return (⟨name, ← attributeValue? value⟩, rest)

/-- The attributes of a tag, its end and what follows it. White space stands before each
attribute. -/
def tagRest? (fuel : Nat) (text : List Char) :
    Option (List RawAttribute × TagEnd × List Char) :=
  match fuel, skipSpaces text with
  | _, '/' :: '>' :: rest => some ([], .closed, rest)
  | _, '>' :: rest => some ([], .opens, rest)
  | 0, _ => none
  | fuel + 1, inner =>
    if !text.head?.any isSpace then none
    else do
      let (a, rest) ← attributePair? inner
      let (more, tagEnd, rest) ← tagRest? fuel rest
      return (a :: more, tagEnd, rest)

/-- Namespaces by their qualifiers, the innermost declaration first. -/
abbrev Namespaces := List (String × String)

/-- The attribute declares a namespace; its qualifier, or none for the default one. -/
def declared? (a : RawAttribute) : Option String :=
  if a.name.qualifier = "xmlns" then some a.name.localName
  else if a.name.qualifier = "" ∧ a.name.localName = "xmlns" then some ""
  else none

/-- The declaration is allowed: nothing may touch the two namespaces that are fixed. -/
def isSound (qualifier uri : String) : Bool :=
  uri != declarationNamespace && ((qualifier == "xml") == (uri == xmlNamespace))

def declarations? (attributes : List RawAttribute) : Option Namespaces :=
  attributes.foldlM
    (fun found a =>
      match declared? a with
      | none => some found
      | some qualifier =>
        if !isSound qualifier a.value then none
        else if qualifier = "xml" then some found
        else if qualifier ≠ "" ∧ (found.lookup qualifier).isSome then none
        else some (found ++ [(qualifier, a.value)]))
    []

/-- The namespace of an attribute; one without a qualifier has none. -/
def attributeNamespace? (spaces : Namespaces) (qualifier : String) : Option (Option String) :=
  if qualifier = "" then some none
  else if qualifier = "xml" then some (some xmlNamespace)
  else (spaces.lookup qualifier).map some

/-- The attributes by namespace and local name, with their values. Nothing if one is repeated. -/
def expandedNames? (spaces : Namespaces) (attributes : List RawAttribute) :
    Option (List ((Option String × String) × String)) :=
  (attributes.filter fun a => (declared? a).isNone).foldlM
    (fun found a =>
      match attributeNamespace? spaces a.name.qualifier with
      | none => none
      | some space =>
        let key := (space, a.name.localName)
        if (found.lookup key).isSome then none else some (found ++ [(key, a.value)]))
    []

/-- An element whose end was not read yet. -/
structure OpenElement where
  name : QName
  attributes : List (String × String)
  spaces : Namespaces
  /-- The last one first. -/
  children : List Xml := []

def OpenElement.close (e : OpenElement) : Xml :=
  .element e.name.localName e.attributes e.children.reverse

def OpenElement.add (e : OpenElement) (child : Xml) : OpenElement :=
  { e with children := addChild e.children child }

def tag? (spaces : Namespaces) (text : List Char) :
    Option (OpenElement × TagEnd × List Char) := do
  let (name, rest) ← qualifiedName? text
  let (raw, tagEnd, rest) ← tagRest? rest.length rest
  let spaces := (← declarations? raw) ++ spaces
  guard (name.qualifier = "" || (name.qualifier ≠ "xmlns" && (spaces.lookup name.qualifier).isSome))
  let named ← expandedNames? spaces raw
  let attributes := named.filterMap fun ((space, localName), value) =>
    if space.isNone then some (localName, value) else none
  return ({ name, attributes, spaces }, tagEnd, rest)

def occurs (mark : List Char) : List Char → Bool
  | [] => mark.isEmpty
  | c :: rest => mark.isPrefixOf (c :: rest) || occurs mark rest

def skipComment? (text : List Char) : Option (List Char) :=
  match scanTo "-->".toList text with
  | some (inside, rest) =>
    if occurs "--".toList inside || inside.getLast? == some '-' then none else some rest
  | none => none

/-- What follows a processing instruction, given the text after its opening. A declaration is
none. -/
def skipInstruction? (text : List Char) : Option (List Char) :=
  if "xml ".toList.isPrefixOf text then none
  else
    match plainName? text with
    | some (_, rest) => (scanTo "?>".toList (skipSpaces rest)).map (·.2)
    | none => none

def skipEnd? (name : QName) (text : List Char) : Option (List Char) :=
  match qualifiedName? text with
  | some (found, rest) =>
    match skipSpaces rest with
    | '>' :: rest => if found = name then some rest else none
    | _ => none
  | none => none

def charData? (text : List Char) : Option (Xml × List Char) := do
  let (data, rest) ← scanUntil (fun t => t.head? == some '<') text
  guard (!occurs "]]>".toList data)
  let value ← textValue? data
  return (.text value, rest)

/-- The element that is read to its end, and what follows it. `outer` are the elements around it,
the innermost first. -/
def content? (fuel : Nat) (e : OpenElement) (outer : List OpenElement) (text : List Char) :
    Option (Xml × List Char) :=
  match fuel, text with
  | 0, _ | _, [] => none
  | fuel + 1, '<' :: '!' :: '-' :: '-' :: rest => do
    content? fuel (e.add .aside) outer (← skipComment? rest)
  | fuel + 1, '<' :: '!' :: '[' :: 'C' :: 'D' :: 'A' :: 'T' :: 'A' :: '[' :: rest => do
    let (data, rest) ← scanTo "]]>".toList rest
    content? fuel (e.add (.text (plainText data))) outer rest
  | _ + 1, '<' :: '!' :: _ => none
  | fuel + 1, '<' :: '?' :: rest => do
    content? fuel (e.add .aside) outer (← skipInstruction? rest)
  | fuel + 1, '<' :: '/' :: rest => do
    let rest ← skipEnd? e.name rest
    match outer with
    | [] => return (e.close, rest)
    | parent :: above => content? fuel (parent.add e.close) above rest
  | fuel + 1, '<' :: rest => do
    let (child, tagEnd, rest) ← tag? e.spaces rest
    match tagEnd with
    | .closed => content? fuel (e.add child.close) outer rest
    | .opens => content? fuel child (e :: outer) rest
  | fuel + 1, text => do
    let (data, rest) ← charData? text
    content? fuel (e.add data) outer rest

def skipMisc? (fuel : Nat) (text : List Char) : Option (List Char) :=
  match fuel, skipSpaces text with
  | 0, rest => some rest
  | fuel + 1, '<' :: '!' :: '-' :: '-' :: rest => (skipComment? rest).bind (skipMisc? fuel)
  | fuel + 1, '<' :: '?' :: rest => (skipInstruction? rest).bind (skipMisc? fuel)
  | _, rest => some rest

/-- White space, unless a declaration ends here. -/
def declarationGap? (text : List Char) : Option (List Char) :=
  if text.head?.any isSpace then some (skipSpaces text)
  else if text.isEmpty || "?>".toList.isPrefixOf text then some text
  else none

def skipDeclared? (name : String) (text : List Char) : Option (List Char) :=
  if name.toList.isPrefixOf text then do
    let (_, rest) ← qualifiedName? text
    let (_, rest) ← quotedValue? rest
    return rest
  else some text

def skipDeclaration? (text : List Char) : Option (List Char) := do
  let text ← declarationGap? text
  guard ("version".toList.isPrefixOf text)
  let text ← declarationGap? (← skipDeclared? "version" text)
  let text ← if "encoding".toList.isPrefixOf text
    then declarationGap? (← skipDeclared? "encoding" text) else some text
  let text ← skipDeclared? "standalone" text
  match skipSpaces text with
  | '?' :: '>' :: rest => return rest
  | _ => none

/-- The text without a byte order mark in front. -/
def skipMark : List Char → List Char
  | c :: rest => if c.toNat = 0xFEFF then rest else c :: rest
  | [] => []

/-- The root element of a document; nothing if the document is malformed. -/
def parse? (document : String) : Option Xml := do
  let text := skipMark document.toList
  let text ← if "<?xml ".toList.isPrefixOf text then skipDeclaration? (text.drop 5) else some text
  match ← skipMisc? text.length text with
  | '<' :: rest =>
    let (e, tagEnd, rest) ← tag? [] rest
    let (root, rest) ← match tagEnd with
      | .closed => some (e.close, rest)
      | .opens => content? rest.length e [] rest
    guard ((← skipMisc? rest.length rest).isEmpty)
    return root
  | _ => none

end Portability.Xml
