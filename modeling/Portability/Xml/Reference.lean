import Portability.Text.Numeric
import Portability.Xml.Char

/-! References to characters, and what becomes of line ends in text and in attributes. -/
namespace Portability.Xml

def hexValue? (c : Char) : Option Nat :=
  if c.isDigit then some (c.toNat - '0'.toNat)
  else if 'a' ≤ c ∧ c ≤ 'f' then some (c.toNat - 'a'.toNat + 10)
  else if 'A' ≤ c ∧ c ≤ 'F' then some (c.toNat - 'A'.toNat + 10)
  else none

def number? (base : Nat) (digits : List Char) : Option Nat :=
  if digits.isEmpty then none
  else digits.foldlM (fun n c => (hexValue? c).map fun d => n * base + d) 0

/-- The character of a number. Numbers of no character give the replacement character. -/
def charOf? (n : Nat) : Option Char :=
  let c := if n.isValidChar then Char.ofNat n else Char.ofNat 0xFFFD
  if Text.maxWord32 < n || !isAllowed c then none else some c

def namedChars : List (String × Char) :=
  [("quot", '"'), ("amp", '&'), ("apos", '\x27'), ("lt", '<'), ("gt", '>')]

def digits (test : Char → Bool) (text : List Char) : List Char × List Char :=
  (text.takeWhile test, text.dropWhile test)

def reference? (text : List Char) : Option (Char × List Char) :=
  let found := match text with
    | '#' :: 'x' :: rest =>
      let (ds, after) := digits (fun c => (hexValue? c).isSome) rest
      ((number? 16 ds).bind charOf?).map fun c => (c, after)
    | '#' :: rest =>
      let (ds, after) := digits Char.isDigit rest
      ((number? 10 ds).bind charOf?).map fun c => (c, after)
    | _ =>
      (plainName? text).bind fun (name, after) => (namedChars.lookup name).map fun c => (c, after)
  match found with
  | some (c, ';' :: after) => some (c, after)
  | _ => none

/-- A character of a document, and whether it was written as a reference. -/
structure Spelled where
  char : Char
  isReference : Bool
  deriving DecidableEq, Repr

def resolve (fuel : Nat) (text : List Char) : Option (List Spelled) :=
  match fuel, text with
  | _, [] => some []
  | 0, _ => none
  | fuel + 1, '&' :: rest =>
    match reference? rest with
    | some (c, after) => (resolve fuel after).map (⟨c, true⟩ :: ·)
    | none => none
  | fuel + 1, c :: rest => (resolve fuel rest).map (⟨c, false⟩ :: ·)

/-- The value of an attribute: line ends and tabs become spaces, unless they are references. -/
def attributeChars : List Spelled → List Char
  | [] => []
  | s :: rest =>
    if s.isReference then s.char :: attributeChars rest
    else if s.char = '\r' ∧ (rest.head?.any fun n => n == ⟨'\n', false⟩) then attributeChars rest
    else if s.char = '\r' ∨ s.char = '\n' ∨ s.char = '\t' then ' ' :: attributeChars rest
    else s.char :: attributeChars rest

def attributeValue? (text : List Char) : Option String :=
  (resolve text.length text).map fun cs => String.ofList (attributeChars cs)

/-- The text so far, backwards, with one more character. A carriage return before it turns into a
line feed, and a line feed after that is dropped. -/
def pushText (out : List Char) (c : Char) (isLast : Bool) : List Char :=
  match out with
  | '\r' :: before =>
    if isLast && c == '\r' then '\n' :: '\n' :: before
    else if c = '\n' then '\n' :: before
    else c :: '\n' :: before
  | _ => if isLast && c == '\r' then '\n' :: out else c :: out

/-- Text with its line ends made line feeds. `asIs` holds behind a reference: references and the
character behind one are taken as they are. -/
def textChars (out : List Char) (asIs : Bool) : List Spelled → List Char
  | [] => out.reverse
  | s :: rest =>
    if s.isReference then textChars (s.char :: out) true rest
    else if asIs then textChars (s.char :: out) false rest
    else textChars (pushText out s.char rest.isEmpty) false rest

def textValue? (text : List Char) : Option String :=
  (resolve text.length text).map fun cs => String.ofList (textChars [] false cs)

/-- Text without references as it is meant. -/
def plainText (text : List Char) : String :=
  String.ofList (textChars [] false (text.map (⟨·, false⟩)))

end Portability.Xml
