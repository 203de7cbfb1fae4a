import Portability.Text.Blank
import Portability.Token

/-! Identifiers as scripts write them: bare, in brackets or in double quotes, joined by dots. -/
namespace Portability.Identifier

/-- A character that would not read back as part of a bare identifier. -/
def isSpecial (c : Char) : Bool :=
  c == '.' || c == '[' || c == ']' || c == '"' || Text.isBlank c

/-- A bare part that has to stand in brackets to be read back as one part. -/
def needsBrackets (part : String) : Bool := part.isEmpty || part.toList.any isSpecial

def bracketed (part : String) : String := "[" ++ Text.double ']' part ++ "]"

/-- The part in brackets only where it needs them. -/
def quoted (part : String) : String := if needsBrackets part then bracketed part else part

def within? (quote : Quote) : List Char → Option (List Char)
  | [] => none
  | c :: rest =>
    if c = quote.opener ∧ rest.getLast? = some quote.closer then some rest.dropLast else none

/-- One level of brackets or double quotes taken off, doubled closing marks resolved. -/
def bareChars (ident : List Char) : List Char :=
  let trimmed := Text.trimChars ident
  match within? .bracket trimmed with
  | some inner => Text.undoubleMark ']' inner
  | none =>
    match within? .double trimmed with
    | some inner => Text.undoubleMark '"' inner
    | none => trimmed

/-- The identifier without its quoting. -/
def bare (ident : String) : String := String.ofList (bareChars ident.toList)

def closerOf? (c : Char) : Option Char :=
  if c = '[' then some ']' else if c = '"' then some '"' else none

/-- The dotted parts of a name. `part` holds the characters of the current part, backwards, and
`closer` the mark that ends the quoting the scan is in. Blanks outside quotes are dropped. -/
def partsFrom (closer : Option Char) (part : List Char) : List Char → List (List Char)
  | [] => [bareChars part.reverse]
  | c :: rest =>
    match closer with
    | some close =>
      if c = close then
        match rest with
        | [] => partsFrom none (c :: part) []
        | d :: more =>
          if d = close then partsFrom closer (d :: c :: part) more
          else partsFrom none (c :: part) (d :: more)
      else partsFrom closer (c :: part) rest
    | none =>
      if c = '.' then bareChars part.reverse :: partsFrom none [] rest
      else if Text.isBlank c then partsFrom none part rest
      else partsFrom (closerOf? c) (c :: part) rest

/-- The parts of a dotted name without their quoting; empty parts are kept. -/
def parts (name : String) : List String :=
  (partsFrom none [] (Text.trimChars name.toList)).map String.ofList

end Portability.Identifier
