import Portability.Token.Merge

/-! The token stream of one batch. White space and comments are kept, so that the text of any part
can be rebuilt, but positions count significant tokens only. -/
namespace Portability

/-- All lexemes of a batch and the indices of the significant ones, in order. -/
structure Source where
  lexemes : Array Lexeme
  significant : Array Nat

namespace Source

/-- The stream of a list of lexemes, joined where they belong together. -/
def ofLexemes (xs : List Lexeme) : Source :=
  let merged := mergeLexemes xs
  { lexemes := merged.toArray
    significant :=
      (merged.zipIdx.filter fun x => x.1.token.isSignificant).map (·.2) |>.toArray }

/-- The stream of a text, or why the text has none. -/
def ofText (text : String) : Except LexError Source := (Portability.lexemes text).map ofLexemes

def size (s : Source) : Nat := s.significant.size

def lexemeAt? (s : Source) (pos : Nat) : Option Lexeme :=
  s.significant[pos]?.bind fun i => s.lexemes[i]?

def tokenAt? (s : Source) (pos : Nat) : Option Token := (s.lexemeAt? pos).map (·.token)

/-- The line of the token at a position, or of the last token past the end, or 1. -/
def lineAt (s : Source) (pos : Nat) : Nat :=
  match (s.lexemeAt? (min pos (s.size - 1))) with
  | some x => max x.position.line 1
  | none => 1

/-- No white space or comment stands between the token at a position and the next one. -/
def adjacentAt (s : Source) (pos : Nat) : Bool :=
  match s.significant[pos]?, s.significant[pos + 1]? with
  | some i, some j => j == i + 1
  | _, _ => false

/-- The text from the significant token at `start` up to the one before `stop`, with the white
space and comments between them. -/
def textBetween (s : Source) (start stop : Nat) : String :=
  if start ≥ stop then ""
  else
    match s.significant[start]?, s.significant[min (stop - 1) (s.size - 1)]? with
    | some first, some last =>
      String.join <| (s.lexemes.extract first (last + 1)).toList.map (·.token.sourceText)
    | _, _ => ""

end Source

end Portability
