import Portability.Files.Entry

/-! Patterns for paths: `?` stands for a character, `*` for any run of them, `[…]` for one of a
class, and `**` as a whole part for any number of folders. -/
namespace Portability.Glob

structure CharRange where
  first : Char
  last : Char
  deriving DecidableEq, Repr

def CharRange.holds (r : CharRange) (c : Char) : Bool :=
  r.first.toNat ≤ c.toNat && c.toNat ≤ r.last.toNat

inductive Token where
  | char (c : Char)
  | anyChar
  | anyRun
  /-- Any number of whole parts. -/
  | anyParts
  | oneOf (ranges : List CharRange)
  | noneOf (ranges : List CharRange)
  deriving DecidableEq, Repr

def ranges : List Char → List CharRange
  | first :: '-' :: last :: rest => ⟨first, last⟩ :: ranges rest
  | c :: rest => ⟨c, c⟩ :: ranges rest
  | [] => []

/-- The inside of a class and what follows it. The first character never closes the class. -/
def classBody? : List Char → Option (List Char × List Char)
  | [] => none
  | first :: rest =>
    let inside := rest.takeWhile (· ≠ ']')
    match rest.drop inside.length with
    | [] => none
    | _ :: after => some (first :: inside, after)

def charClass? : List Char → Option (Token × List Char)
  | '!' :: rest => (classBody? rest).map fun (inside, after) => (.noneOf (ranges inside), after)
  | rest => (classBody? rest).map fun (inside, after) => (.oneOf (ranges inside), after)

/-- The tokens of a pattern. `atStart` holds where a part of the path begins; `**` has to be a whole
part, and there is no longer run of stars. -/
def tokensFrom (fuel : Nat) (atStart : Bool) (text : List Char) : Option (List Token) :=
  match fuel, text with
  | _, [] => some []
  | 0, _ => none
  | fuel + 1, '?' :: rest => (tokensFrom fuel false rest).map (.anyChar :: ·)
  | fuel + 1, '*' :: '*' :: rest =>
    if !atStart then none
    else
      match rest with
      | [] => some [.anyParts]
      | '/' :: rest => (tokensFrom fuel true rest).map (.anyParts :: ·)
      | _ => none
  | fuel + 1, '*' :: rest => (tokensFrom fuel false rest).map (.anyRun :: ·)
  | fuel + 1, '[' :: rest =>
    match charClass? rest with
    | some (token, after) => (tokensFrom fuel false after).map (token :: ·)
    | none => none
  | fuel + 1, c :: rest => (tokensFrom fuel (c == '/') rest).map (.char c :: ·)

def tokens? (pattern : String) : Option (List Token) :=
  tokensFrom pattern.length true pattern.toList

def Token.accepts (c : Char) : Token → Bool
  | char wanted => c == wanted
  | anyChar => true
  | oneOf ranges => ranges.any (·.holds c)
  | noneOf ranges => !ranges.any (·.holds c)
  | anyRun | anyParts => false

/-- The places where the rest of a text can begin after any run of its characters. -/
def suffixes : List Char → List (List Char)
  | [] => [[]]
  | c :: rest => (c :: rest) :: suffixes rest

/-- The places where the rest of a text can begin after whole parts: those behind a slash and the
end. -/
def partSuffixes : List Char → List (List Char)
  | [] => [[]]
  | c :: rest => if c = '/' then rest :: partSuffixes rest else partSuffixes rest

def accepts : List Token → List Char → Bool
  | [], text => text.isEmpty
  | .anyRun :: more, text => (suffixes text).any (accepts more)
  | .anyParts :: more, text => (text :: partSuffixes text).any (accepts more)
  | token :: more, text =>
    match text with
    | [] => false
    | c :: rest => token.accepts c && accepts more rest

/-- The pattern stands for the text; a text that is no pattern stands for none. -/
def stands (pattern text : String) : Bool :=
  (tokens? pattern).any (accepts · text.toList)

/-- The text of tokens that are characters only. -/
def literal? : List Token → Option (List Char)
  | [] => some []
  | .char c :: rest => (literal? rest).map (c :: ·)
  | _ => none

/-- The path of an entry of a folder; one of the current folder goes by its name. -/
def childPath (path name : String) : String :=
  if Path.isCurrent path then name else Path.join path name

/-- The special entries that each folder has and that a pattern with a dot in front can stand for,
in the order in which they are looked at. -/
def specialEntries (pattern : List Token) : List String :=
  match pattern with
  | .char '.' :: _ => ["..", "."].filter fun name => accepts pattern name.toList
  | _ => []

/-- What the patterns for the parts of a path stand for, from a path on. -/
def expandFrom (root : Entry) : List (List Token) → String → List String
  | [], path => [path]
  | [.anyParts] :: rest, path =>
    match root.at? path with
    | none => []
    | some e =>
      (e.walk childPath (fun _ _ => true) path).flatMap fun (below, entry) =>
        match rest with
        | [] => if entry.isFolder then [below] else []
        | next :: more =>
          if accepts next ((Path.fileName? below).getD "").toList then expandFrom root more below
          else []
  | pattern :: rest, path =>
    match literal? pattern with
    | some name =>
      let name := String.ofList name
      let next := childPath path name
      let isThere := if name = "." ∨ name = ".." then (root.at? path).any (·.isFolder)
        else (root.at? next).isSome
      if isThere then expandFrom root rest next else []
    | none =>
      match root.at? path with
      | some (.folder entries) =>
        let special := (specialEntries pattern).map (Path.join path)
        let named := (entries.filter fun e => accepts pattern e.1.toList).map (childPath path ·.1)
        (special ++ named).flatMap (expandFrom root rest)
      | _ => []

/-- Only one of several neighbouring patterns for any number of parts is kept. -/
def collapse : List (List Token) → List (List Token)
  | [.anyParts] :: [.anyParts] :: rest => collapse ([.anyParts] :: rest)
  | pattern :: rest => pattern :: collapse rest
  | [] => []

/-- The parts of a pattern; a slash at the end begins no further part. -/
def patternParts (pattern : String) : List String :=
  let parts := Path.split pattern
  if parts.getLast? == some "" then parts.dropLast else parts

/-- The paths in a tree that a pattern stands for, folder by folder in order of names. Only
folders if the pattern ends in a slash, and none if it is no pattern. -/
def expand (root : Entry) (pattern : String) : List String :=
  match tokens? pattern, (patternParts pattern).mapM tokens? with
  | some _, some (first :: more) =>
    if Path.isAbsolute pattern then []
    else
      let found := expandFrom root (collapse (first :: more)) "."
      if pattern.toList.getLast? == some '/' then
        found.filter fun path => (root.at? path).any (·.isFolder)
      else found
  | _, _ => []

end Portability.Glob
