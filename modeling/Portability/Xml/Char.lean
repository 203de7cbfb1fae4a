/-! The characters that XML allows, and names made of them. -/
namespace Portability.Xml

def nameStartRanges : List (Nat × Nat) :=
  [(0xC0, 0xD6), (0xD8, 0xF6), (0xF8, 0x2FF), (0x370, 0x37D), (0x37F, 0x1FFF), (0x200C, 0x200D),
   (0x2070, 0x218F), (0x2C00, 0x2FEF), (0x3001, 0xD7FF), (0xF900, 0xFDCF), (0xFDF0, 0xFFFD),
   (0x10000, 0xEFFFF)]

def nameOnlyRanges : List (Nat × Nat) := [(0xB7, 0xB7), (0x300, 0x36F), (0x203F, 0x2040)]

def within (ranges : List (Nat × Nat)) (c : Char) : Bool :=
  ranges.any fun r => r.1 ≤ c.toNat && c.toNat ≤ r.2

def isSpace (c : Char) : Bool := c == ' ' || c == '\t' || c == '\n' || c == '\r'

def isAllowed (c : Char) : Bool :=
  if c.toNat < 0x20 then isSpace c else c.toNat ≠ 0xFFFE && c.toNat ≠ 0xFFFF

def isNameStart (c : Char) : Bool :=
  c.isAlpha || c == ':' || c == '_' || within nameStartRanges c

def isNameChar (c : Char) : Bool :=
  isNameStart c || c.isDigit || c == '-' || c == '.' || within nameOnlyRanges c

def skipSpaces (text : List Char) : List Char := text.dropWhile isSpace

/-- The text before and after the first place that `stop` accepts, or the whole text. Nothing if a
character before that place is not allowed. -/
def scanUntil (stop : List Char → Bool) : List Char → Option (List Char × List Char)
  | [] => some ([], [])
  | c :: rest =>
    if !isAllowed c then none
    else if stop (c :: rest) then some ([], c :: rest)
    else (scanUntil stop rest).map fun (before, after) => (c :: before, after)

def scanTo (mark : List Char) (text : List Char) : Option (List Char × List Char) :=
  match scanUntil mark.isPrefixOf text with
  | some (before, after) =>
    if mark.isPrefixOf after then some (before, after.drop mark.length) else none
  | none => none

def plainName? (text : List Char) : Option (String × List Char) :=
  match text with
  | c :: _ =>
    if isNameStart c then
      some (String.ofList (text.takeWhile isNameChar), text.dropWhile isNameChar)
    else none
  | [] => none

/-- A name with the part before its colon, which may be empty. -/
structure QName where
  qualifier : String
  localName : String
  deriving DecidableEq, Repr

/-- The characters are empty or begin like a name. -/
def startsName (text : List Char) : Bool := text.head?.all isNameStart

def qualifiedName? (text : List Char) : Option (QName × List Char) :=
  let whole := text.takeWhile isNameChar
  let rest := text.dropWhile isNameChar
  let before := whole.takeWhile (· ≠ ':')
  match whole.drop before.length with
  | [] =>
    if startsName before && !before.isEmpty then some (⟨"", String.ofList before⟩, rest) else none
  | _ :: after =>
    if startsName before && startsName after && !after.isEmpty && !after.contains ':' then
      some (⟨String.ofList before, String.ofList after⟩, rest)
    else none

end Portability.Xml
