import Portability.Token.Lexer

/-! Joining tokens that belong together: a variable, system variable or temporary name is one word,
and `0X…` is one hexadecimal literal. -/
namespace Portability

/-- The token is made only of `@` and `#` and is no word yet. -/
def Token.isSigil : Token → Bool
  | .word .. => false
  | t => !t.display.isEmpty && t.display.all fun c => c == '@' || c == '#'

def hexTail? (value : String) : Option String :=
  match value.toList with
  | c :: digits =>
    if (c = 'x' || c = 'X') && digits.all Lexer.isHexDigit then some (String.ofList digits)
    else none
  | [] => none

/-- A lexeme put before merged lexemes. A sigil joins the bare word right after it, or becomes a
word of its own; a `0` joins the word that makes it hexadecimal. A joined token stands where its
first part stood. -/
def Lexeme.join (x : Lexeme) (rest : List Lexeme) : List Lexeme :=
  if x.token.isSigil then
    match rest with
    | ⟨.word value none, _⟩ :: more =>
      ⟨.word (x.token.display ++ value) none, x.position⟩ :: more
    | _ => ⟨.word x.token.display none, x.position⟩ :: rest
  else
    match x.token, rest with
    | .number digits _, ⟨.word value none, _⟩ :: more =>
      match hexTail? value with
      | some tail => if digits = "0" then ⟨.hex tail, x.position⟩ :: more else x :: rest
      | none => x :: rest
    | _, _ => x :: rest

/-- All lexemes joined with what they belong to. -/
def mergeLexemes (xs : List Lexeme) : List Lexeme := xs.foldr Lexeme.join []

end Portability
