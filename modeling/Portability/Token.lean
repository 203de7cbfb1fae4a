import Portability.Text.Ascii
import Portability.Text.Doubled

/-! The tokens of a batch and how they are written. -/
namespace Portability

inductive Mark where
  | comma | period | semicolon | colon | doubleColon | assign
  | lparen | rparen | rbracket | lbrace | rbrace | backslash
  | plus | minus | star | slash | percent
  | eq | doubleEq | fatArrow | ne | lt | gt | le | ge | spaceship | shl | shr
  | arrow | longArrow | arrowAt | atArrow | atQuestion | atSign | doubleAt
  | hash | hashMinus | hashArrow | hashLongArrow
  | bang | doubleBang | bangTilde | bangTildeStar | bangDoubleTilde | bangDoubleTildeStar
  | tilde | tildeStar | doubleTilde | doubleTildeStar
  | amp | doubleAmp | caret | caretAt | pipe | pipeSlash | doublePipe | doublePipeSlash
  deriving DecidableEq, Repr

def Mark.text : Mark → String
  | comma => "," | period => "." | semicolon => ";" | colon => ":" | doubleColon => "::"
  | assign => ":=" | lparen => "(" | rparen => ")" | rbracket => "]" | lbrace => "\x7b"
  | rbrace => "\x7d" | backslash => "\\" | plus => "+" | minus => "-" | star => "*"
  | slash => "/" | percent => "%" | eq => "=" | doubleEq => "==" | fatArrow => "=>"
  | ne => "<>" | lt => "<" | gt => ">" | le => "<=" | ge => ">=" | spaceship => "<=>"
  | shl => "<<" | shr => ">>" | arrow => "->" | longArrow => "->>" | arrowAt => "<@"
  | atArrow => "@>" | atQuestion => "@?" | atSign => "@" | doubleAt => "@@" | hash => "#"
  | hashMinus => "#-" | hashArrow => "#>" | hashLongArrow => "#>>" | bang => "!"
  | doubleBang => "!!" | bangTilde => "!~" | bangTildeStar => "!~*" | bangDoubleTilde => "!~~"
  | bangDoubleTildeStar => "!~~*" | tilde => "~" | tildeStar => "~*" | doubleTilde => "~~"
  | doubleTildeStar => "~~*" | amp => "&" | doubleAmp => "&&" | caret => "^" | caretAt => "^@"
  | pipe => "|" | pipeSlash => "|/" | doublePipe => "||" | doublePipeSlash => "||/"

inductive Quote where
  | bracket
  | double
  deriving DecidableEq, Repr

def Quote.opener : Quote → Char
  | bracket => '['
  | double => '"'

/-- The character that closes a delimited identifier; inside it is written twice. -/
def Quote.closer : Quote → Char
  | bracket => ']'
  | double => '"'

/-- One token of a batch. Texts are what the token stands for, without quotes and escapes. -/
inductive Token where
  /-- An identifier, keyword or variable; delimited when `quote` is given. -/
  | word (value : String) (quote : Option Quote)
  /-- A number and whether an `L` follows it. -/
  | number (digits : String) (long : Bool)
  | string (value : String)
  | national (value : String)
  | hex (digits : String)
  /-- `E'…'`, where backslashes escape. -/
  | escaped (value : String)
  /-- `$tag$…$tag$`; the tag may be empty. -/
  | dollar (tag value : String)
  /-- `?1` or `$name`. -/
  | placeholder (text : String)
  | mark (m : Mark)
  /-- A character that no rule covers. -/
  | stray (c : Char)
  | space (text : String)
  | comment (text : String)
  deriving DecidableEq, Repr

namespace Token

/-- White space and comments carry no meaning. -/
def isSignificant : Token → Bool
  | space _ | comment _ => false
  | _ => true

/-- The token as messages and operator tests show it: embedded quotes are not doubled. -/
def display : Token → String
  | word value none => value
  | word value (some q) => q.opener.toString ++ value ++ q.closer.toString
  | number digits long => if long then digits ++ "L" else digits
  | string value => "'" ++ value ++ "'"
  | national value => "N'" ++ value ++ "'"
  | hex digits => "X'" ++ digits ++ "'"
  | escaped value => "E'" ++ value ++ "'"
  | dollar tag value => "$" ++ tag ++ "$" ++ value ++ "$" ++ tag ++ "$"
  | placeholder text => text
  | mark m => m.text
  | stray c => c.toString
  | space text => text
  | comment text => text

/-- A word the way it is written: bracketed, double-quoted or bare. -/
def wordText (value : String) : Option Quote → String
  | none => value
  | some q => q.opener.toString ++ Text.double q.closer value ++ q.closer.toString

def sourceText : Token → String
  | word value quote => wordText value quote
  | string value => "'" ++ Text.double '\x27' value ++ "'"
  | national value => "N'" ++ Text.double '\x27' value ++ "'"
  | hex digits => "0x" ++ digits
  | token => token.display

end Token

/-- A line and a column, both counted from 1. -/
structure Position where
  line : Nat
  column : Nat
  deriving DecidableEq, Repr

/-- The position after a character: only a line feed begins a new line. -/
def Position.next (p : Position) (c : Char) : Position :=
  if c = '\n' then ⟨p.line + 1, 1⟩ else ⟨p.line, p.column + 1⟩

def Position.advance (p : Position) (cs : List Char) : Position := cs.foldl Position.next p

structure Lexeme where
  token : Token
  position : Position
  deriving DecidableEq, Repr

end Portability
