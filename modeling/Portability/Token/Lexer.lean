import Portability.Text.Blank
import Portability.Text.Letter
import Portability.Text.Numeral
import Portability.Token

/-! Dividing the text of a batch into tokens. Every scan says which characters it read, so the
characters of all lexemes together are the text. -/
namespace Portability

/-- Why a text cannot be divided into tokens. -/
inductive LexFault where
  | openString
  | openEscapedString
  | openIdentifier (quote : Quote)
  | openDollarString
  | openTaggedString
  | openComment
  deriving DecidableEq, Repr

structure LexError where
  fault : LexFault
  position : Position
  deriving DecidableEq, Repr

def LexFault.message : LexFault → String
  | openString => "Unterminated string literal"
  | openEscapedString => "Unterminated encoded string literal"
  | openIdentifier q => "Expected close delimiter '" ++ q.closer.toString ++ "' before EOF."
  | openDollarString => "Unterminated dollar-quoted string"
  | openTaggedString => "Unterminated dollar-quoted, expected $"
  | openComment => "Unexpected EOF while in a multi-line comment"

def LexError.message (e : LexError) : String :=
  e.fault.message ++ " at Line: " ++ toString e.position.line ++ ", Column: " ++
    toString e.position.column

namespace Lexer

/-- A token, the characters it was read from, and what follows them. -/
structure Scan where
  token : Token
  read : List Char
  rest : List Char

/-! ### Character classes -/

def isWordStart (c : Char) : Bool := Text.isLetter c || c == '_'

def isWordPart (c : Char) : Bool :=
  Text.isLetter c || c.isDigit || c == '@' || c == '$' || c == '#' || c == '_'

def isHexDigit (c : Char) : Bool :=
  c.isDigit || ('a' ≤ c && c ≤ 'f') || ('A' ≤ c && c ≤ 'F')

def isOctalDigit (c : Char) : Bool := '0' ≤ c && c ≤ '7'

def hexValue (c : Char) : Nat :=
  if c.isDigit then c.toNat - '0'.toNat
  else if 'a' ≤ c then c.toNat - 'a'.toNat + 10
  else c.toNat - 'A'.toNat + 10

def valueInBase (base : Nat) (digits : List Char) : Nat :=
  digits.foldl (fun n c => base * n + hexValue c) 0

/-! ### Quoted texts -/

/-- The characters up to `close` and those after it; a doubled `close` belongs to the text. -/
def readDelimited (close : Char) : List Char → Option (List Char × List Char)
  | [] => none
  | [c] => if c = close then some ([], []) else none
  | c :: d :: rest =>
    if c = close then
      if d = close then (readDelimited close rest).map fun r => (c :: d :: r.1, r.2)
      else some ([], d :: rest)
    else (readDelimited close (d :: rest)).map fun r => (c :: r.1, r.2)

/-- The characters up to the closing quote and those after it; a doubled quote and any character
after a backslash belong to the text. -/
def readBackslashed : List Char → Option (List Char × List Char)
  | [] => none
  | [c] => if c = '\x27' then some ([], []) else none
  | c :: d :: rest =>
    if c = '\\' then (readBackslashed rest).map fun r => (c :: d :: r.1, r.2)
    else if c = '\x27' then
      if d = '\x27' then (readBackslashed rest).map fun r => (c :: d :: r.1, r.2)
      else some ([], d :: rest)
    else (readBackslashed (d :: rest)).map fun r => (c :: r.1, r.2)

def controlEscape (c : Char) : Char :=
  if c = '0' then '\x00' else if c = 'a' then '\x07' else if c = 'b' then '\x08'
  else if c = 'f' then '\x0c' else if c = 'n' then '\n' else if c = 'r' then '\r'
  else if c = 't' then '\t' else if c = 'Z' then '\x1a' else c

/-- The text of a national or hexadecimal string: doubled quotes and backslashes resolved. -/
def decodeNational : List Char → List Char
  | [] => []
  | [c] => [c]
  | c :: d :: rest =>
    if c = '\\' then controlEscape d :: decodeNational rest
    else if c = '\x27' ∧ d = '\x27' then c :: decodeNational rest
    else c :: decodeNational (d :: rest)

/-- The character of a code point given by hexadecimal digits, perhaps after a `+`. -/
def codePoint? (digits : List Char) : Option Char :=
  let digits := match digits with
    | '+' :: more => more
    | ds => ds
  if digits.isEmpty || !digits.all isHexDigit then none
  else
    let n := valueInBase 16 digits
    if n.isValidChar then some (Char.ofNat n) else none

/-- The character of a byte value: only ASCII stands for itself. -/
def byteChar? (n : Nat) : Option Char :=
  if n % 256 ≤ 127 then some (Char.ofNat (n % 256)) else none

/-- The character that an escape in an `E'…'` string stands for, and what follows the escape.
`c` is the character after the backslash. -/
def escapeChar? (c : Char) (rest : List Char) : Option (Char × List Char) :=
  let result : Option (Char × List Char) :=
    if c = 'b' then some ('\x08', rest)
    else if c = 'f' then some ('\x0c', rest)
    else if c = 'n' then some ('\n', rest)
    else if c = 'r' then some ('\r', rest)
    else if c = 't' then some ('\t', rest)
    else if c = 'u' then
      if rest.length < 4 then none
      else (codePoint? (rest.take 4)).map fun d => (d, rest.drop 4)
    else if c = 'U' then
      if rest.length < 8 then none
      else (codePoint? (rest.take 8)).map fun d => (d, rest.drop 8)
    else if c = 'x' then
      let digits := (rest.take 2).takeWhile isHexDigit
      if digits.isEmpty then some ('x', rest)
      else (byteChar? (valueInBase 16 digits)).map fun d => (d, rest.drop digits.length)
    else if isOctalDigit c then
      let digits := (rest.take 2).takeWhile isOctalDigit
      (byteChar? (valueInBase 8 (c :: digits))).map fun d => (d, rest.drop digits.length)
    else some (c, rest)
  result.filter fun r => r.1 ≠ '\x00'

/-- The text of an `E'…'` string, or nothing when an escape in it is malformed. The first argument
bounds the number of characters. -/
def decodeEscaped : Nat → List Char → Option (List Char)
  | 0, _ => some []
  | _, [] => some []
  | n + 1, c :: rest =>
    if c = '\\' then
      match rest with
      | [] => none
      | d :: more => (escapeChar? d more).bind fun r => (decodeEscaped n r.2).map (r.1 :: ·)
    else if c = '\x27' then (decodeEscaped n (rest.drop 1)).map (c :: ·)
    else (decodeEscaped n rest).map (c :: ·)

/-- A string with only doubled quotes in it; `opening` stands before its text. -/
def scanString (position : Position) (rest : List Char) : Except LexError Scan :=
  match readDelimited '\x27' rest with
  | none => .error ⟨.openString, position⟩
  | some (raw, after) =>
    .ok ⟨.string (String.ofList (Text.undoubleMark '\x27' raw)), '\x27' :: raw ++ ['\x27'], after⟩

/-- A string with a letter before its quote, in which backslashes escape. -/
def scanLettered (make : String → Token) (letter : Char) (position : Position)
    (rest : List Char) : Except LexError Scan :=
  match readBackslashed rest with
  | none => .error ⟨.openString, position.next letter⟩
  | some (raw, after) =>
    .ok ⟨make (String.ofList (decodeNational raw)), letter :: '\x27' :: raw ++ ['\x27'], after⟩

/-- A string in which backslashes escape and may name characters by number. -/
def scanEscaped (letter : Char) (position : Position) (rest : List Char) : Except LexError Scan :=
  match readBackslashed rest with
  | none => .error ⟨.openEscapedString, position⟩
  | some (raw, after) =>
    match decodeEscaped raw.length raw with
    | none => .error ⟨.openEscapedString, position⟩
    | some value =>
      .ok ⟨.escaped (String.ofList value), letter :: '\x27' :: raw ++ ['\x27'], after⟩

def scanIdentifier (quote : Quote) (position : Position) (rest : List Char) :
    Except LexError Scan :=
  match readDelimited quote.closer rest with
  | none => .error ⟨.openIdentifier quote, position⟩
  | some (raw, after) =>
    .ok ⟨.word (String.ofList (Text.undoubleMark quote.closer raw)) (some quote),
      quote.opener :: raw ++ [quote.closer], after⟩

/-! ### Numbers -/

/-- The exponent at the head of a text: `e` or `E`, perhaps a sign, and digits. -/
def exponentOf (cs : List Char) : List Char :=
  match cs with
  | e :: rest =>
    if e = 'e' || e = 'E' then
      let sign := rest.take 1 |>.filter fun c => c = '+' || c = '-'
      let digits := (rest.drop sign.length).takeWhile Char.isDigit
      if digits.isEmpty then [] else e :: sign ++ digits
    else []
  | [] => []

def scanNumber (cs : List Char) : Scan :=
  let whole := cs.takeWhile Char.isDigit
  let rest := cs.dropWhile Char.isDigit
  match whole, rest with
  | ['0'], 'x' :: more =>
    let digits := more.takeWhile isHexDigit
    ⟨.hex (String.ofList digits), '0' :: 'x' :: digits, more.dropWhile isHexDigit⟩
  | _, _ =>
    let point := rest.take 1 |>.filter (· = '.')
    let rest := rest.drop point.length
    let fraction := rest.takeWhile Char.isDigit
    let rest := rest.drop fraction.length
    let mantissa := whole ++ point ++ fraction
    if mantissa = ['.'] then ⟨.mark .period, mantissa, rest⟩
    else
      let exponent := exponentOf rest
      let rest := rest.drop exponent.length
      let suffix := rest.take 1 |>.filter (· = 'L')
      ⟨.number (String.ofList (mantissa ++ exponent)) (!suffix.isEmpty),
        mantissa ++ exponent ++ suffix, rest.drop suffix.length⟩

/-! ### Words -/

def scanWord (start rest : List Char) : Scan :=
  let read := start ++ rest.takeWhile isWordPart
  ⟨.word (String.ofList read) none, read, rest.dropWhile isWordPart⟩

/-- A variable: `@` or `@@` followed by any character but a space, then word characters. -/
def scanAt : List Char → Scan
  | '@' :: rest =>
    match rest with
    | [] => ⟨.mark .doubleAt, ['@', '@'], []⟩
    | c :: more =>
      if c = ' ' then ⟨.mark .doubleAt, ['@', '@'], rest⟩ else scanWord ['@', '@', c] more
  | '>' :: rest => ⟨.mark .atArrow, ['@', '>'], rest⟩
  | '?' :: rest => ⟨.mark .atQuestion, ['@', '?'], rest⟩
  | [] => ⟨.mark .atSign, ['@'], []⟩
  | c :: rest => if c = ' ' then ⟨.mark .atSign, ['@'], c :: rest⟩ else scanWord ['@', c] rest

/-- A temporary name: `#` followed by any character but a space, then word characters. -/
def scanHash : List Char → Scan
  | '-' :: rest => ⟨.mark .hashMinus, ['#', '-'], rest⟩
  | '>' :: '>' :: rest => ⟨.mark .hashLongArrow, ['#', '>', '>'], rest⟩
  | '>' :: rest => ⟨.mark .hashArrow, ['#', '>'], rest⟩
  | [] => ⟨.mark .hash, ['#'], []⟩
  | c :: rest => if c = ' ' then ⟨.mark .hash, ['#'], c :: rest⟩ else scanWord ['#', c] rest

/-! ### Dollar signs -/

/-- The characters up to the closing fence and those after it. The fence is a dollar sign, the tag
and a second dollar sign; all but the last one belong to what is read. `expected` holds the
characters of the tag still to come once a dollar sign was met. A character that does not fit is
passed over, even if it is a dollar sign itself. -/
def readFenced (tag : List Char) (expected : Option (List Char)) :
    List Char → Option (List Char × List Char)
  | [] => none
  | c :: rest =>
    match expected with
    | none =>
      (readFenced tag (if c = '$' then some tag else none) rest).map fun r => (c :: r.1, r.2)
    | some [] =>
      if c = '$' then some ([], rest)
      else (readFenced tag none rest).map fun r => (c :: r.1, r.2)
    | some (t :: ts) =>
      (readFenced tag (if c = t then some ts else none) rest).map fun r => (c :: r.1, r.2)

/-- A dollar-quoted string or a placeholder; `rest` follows the dollar sign. -/
def scanDollar (position : Position) (rest : List Char) : Except LexError Scan :=
  let tag := rest.takeWhile fun c => Text.isLetter c || Text.isNumeral c || c == '_'
  let after := rest.drop tag.length
  match after with
  | '$' :: body =>
    match readFenced tag none body with
    | none =>
      .error ⟨if tag.isEmpty then .openDollarString else .openTaggedString,
        position.advance ('$' :: rest)⟩
    | some (read, more) =>
      let text := read.take (read.length - tag.length - 1)
      .ok ⟨.dollar (String.ofList tag) (String.ofList text), '$' :: tag ++ '$' :: read ++ ['$'],
        more⟩
  | _ => .ok ⟨.placeholder (String.ofList ('$' :: tag)), '$' :: tag, after⟩

/-! ### Comments -/

/-- The rest of a block comment, its end included, and what follows. `depth` counts the comments
still open and `last` is the character before; comments nest. -/
def readBlockComment (depth : Nat) (last : Char) : List Char → Option (List Char × List Char)
  | [] => none
  | c :: rest =>
    if last = '/' ∧ c = '*' then
      (readBlockComment (depth + 1) c rest).map fun r => (c :: r.1, r.2)
    else if last = '*' ∧ c = '/' then
      if depth ≤ 1 then some ([c], rest)
      else (readBlockComment (depth - 1) c rest).map fun r => (c :: r.1, r.2)
    else (readBlockComment depth c rest).map fun r => (c :: r.1, r.2)

/-- A comment up to and including the end of its line; `rest` follows the dashes. -/
def scanLineComment (rest : List Char) : Scan :=
  let text := rest.takeWhile (· ≠ '\n')
  let after := rest.drop text.length
  let read := '-' :: '-' :: text ++ after.take 1
  ⟨.comment (String.ofList read), read, after.drop 1⟩

/-- A block comment; `rest` follows its opening. -/
def scanBlockComment (position : Position) (rest : List Char) : Except LexError Scan :=
  match readBlockComment 1 ' ' rest with
  | none => .error ⟨.openComment, position.advance ('/' :: '*' :: rest)⟩
  | some (text, after) =>
    .ok ⟨.comment (String.ofList ('/' :: '*' :: text)), '/' :: '*' :: text, after⟩

/-! ### Marks -/

/-- The marks that are recognised by their text alone, longer ones first. -/
def plainMarks : List Mark :=
  [.bangDoubleTildeStar, .longArrow, .spaceship, .bangTildeStar, .bangDoubleTilde,
   .doubleTildeStar, .doublePipeSlash, .doubleColon, .assign, .doubleEq, .fatArrow, .ne, .le, .ge,
   .shl, .shr, .arrow, .arrowAt, .doubleBang, .bangTilde, .tildeStar, .doubleTilde, .doubleAmp,
   .caretAt, .pipeSlash, .doublePipe, .comma, .semicolon, .colon, .lparen, .rparen, .rbracket,
   .lbrace, .rbrace, .backslash, .plus, .minus, .star, .slash, .percent, .eq, .lt, .gt, .bang,
   .tilde, .amp, .caret, .pipe]

/-- The longest mark at the head of a text. -/
def longestMark? (cs : List Char) : Option Mark :=
  plainMarks.find? fun m => m.text.toList.isPrefixOf cs

/-! ### The whole text -/

/-- A token that is no quoted text and no comment. -/
def scanPlain (position : Position) (c : Char) (rest : List Char) : Except LexError Scan :=
  match longestMark? (c :: rest) with
  | some m => .ok ⟨.mark m, m.text.toList, (c :: rest).drop m.text.length⟩
  | none =>
    if c = '?' then
      let digits := rest.takeWhile Text.isNumeral
      .ok ⟨.placeholder (String.ofList ('?' :: digits)), '?' :: digits, rest.drop digits.length⟩
    else if isWordStart c then .ok (scanWord [c] rest)
    else if c = '$' then scanDollar position rest
    else if Text.isBlank c then .ok ⟨.space " ", [c], rest⟩
    else .ok ⟨.stray c, [c], rest⟩

/-- The token at the head of `c :: rest`. -/
def scan (position : Position) (c : Char) (rest : List Char) : Except LexError Scan :=
  if c = ' ' ∨ c = '\t' ∨ c = '\n' then .ok ⟨.space c.toString, [c], rest⟩
  else if c = '\r' then
    match rest with
    | '\n' :: more => .ok ⟨.space "\n", ['\r', '\n'], more⟩
    | _ => .ok ⟨.space "\n", ['\r'], rest⟩
  else if c.isDigit ∨ c = '.' then .ok (scanNumber (c :: rest))
  else if c = '\x27' then scanString position rest
  else if c = '"' then scanIdentifier .double position rest
  else if c = '[' then scanIdentifier .bracket position rest
  else if c = '@' then .ok (scanAt rest)
  else if c = '#' then .ok (scanHash rest)
  else
    match rest with
    | '\x27' :: body =>
      if c = 'N' ∨ c = 'n' then scanLettered .national c position body
      else if c = 'X' ∨ c = 'x' then scanLettered .hex c position body
      else if c = 'E' ∨ c = 'e' then scanEscaped c position body
      else scanPlain position c rest
    | '-' :: body => if c = '-' then .ok (scanLineComment body) else scanPlain position c rest
    | '*' :: body => if c = '/' then scanBlockComment position body else scanPlain position c rest
    | _ => scanPlain position c rest

/-- The lexemes of a text whose first character stands at `position`; `!=` is two of them. The
first argument bounds the number of characters. -/
def lexemesFrom : Nat → Position → List Char → Except LexError (List Lexeme)
  | 0, _, _ => .ok []
  | _, _, [] => .ok []
  | n + 1, position, c :: rest =>
    match c, rest with
    | '!', '=' :: more => do
      let after ← lexemesFrom n (position.advance ['!', '=']) more
      return ⟨.mark .bang, position⟩ :: ⟨.mark .eq, position.next '!'⟩ :: after
    | _, _ => do
      let s ← scan position c rest
      let after ← lexemesFrom n (position.advance s.read) s.rest
      return ⟨s.token, position⟩ :: after

end Lexer

/-- The lexemes of a text, or why it has none. -/
def lexemes (text : String) : Except LexError (List Lexeme) :=
  Lexer.lexemesFrom text.length ⟨1, 1⟩ text.toList

end Portability
