import Portability.Text.Ascii
import Portability.Text.Blank
import Portability.Text.Lines
import Portability.Text.Numeric

/-! Scripts divided into batches by `GO` lines. Directive lines that begin with a colon are lifted
out of the text; an empty line takes their place, so that lines keep their numbers. -/
namespace Portability

structure Directive where
  /-- The line of the script. -/
  line : Nat
  /-- The first word in lower case, colon included. -/
  command : String
  text : String
  deriving DecidableEq, Repr

structure Batch where
  /-- Counted from 1. -/
  number : Nat
  content : String
  /-- The line of the script on which the content begins. -/
  startLine : Nat
  /-- The count that a `GO` line gives. -/
  repetitions : Option Nat
  directives : List Directive
  deriving DecidableEq, Repr

def Batch.fileLine (b : Batch) (line : Nat) : Nat := b.startLine + max line 1 - 1

namespace Batch

/-- What a line of a script is, once it is known to stand outside comments. -/
inductive LineRole where
  | separator (repetitions : Option Nat)
  | directive (command text : String)
  | code
  deriving DecidableEq, Repr

/-- The line without a semicolon at its end. -/
def withoutSemicolon (trimmed : String) : String :=
  if trimmed.toList.getLast? = some ';' then String.ofList trimmed.toList.dropLast else trimmed

/-- A batch separator: `GO`, perhaps with a count and a semicolon. -/
def separator? (trimmed : String) : Option (Option Nat) :=
  match Text.words (withoutSemicolon trimmed) with
  | [go] => if Text.same go "go" then some none else none
  | [go, count] =>
    if Text.same go "go" then (Text.parseNat? Text.maxWord32 count).map some else none
  | _ => none

/-- The line is a command to the script runner: a colon and something behind it. -/
def isDirective (trimmed : String) : Bool :=
  trimmed.toList.head? == some ':' && 1 < trimmed.toList.length

/-- The role of a line outside comments, given without the blanks around it. -/
def trimmedRole (trimmed : String) : LineRole :=
  match separator? trimmed with
  | some repetitions => .separator repetitions
  | none =>
    if isDirective trimmed then
      .directive (Text.lower ((Text.words trimmed).headD trimmed)) trimmed
    else .code

/-- The role of a line outside comments. -/
def lineRole (line : String) : LineRole := trimmedRole (Text.trim line)

/-- Where a scan of one line stands. -/
inductive LineState where
  | code
  | text
  | comment
  deriving DecidableEq, Repr

/-- Whether a block comment is open at the end of a line. Strings hide comment marks, and a string
does not go on over the end of a line. -/
def commentAfter : LineState → List Char → Bool
  | .comment, [] => true
  | _, [] => false
  | .comment, '*' :: '/' :: rest => commentAfter .code rest
  | .comment, _ :: rest => commentAfter .comment rest
  | .text, c :: rest => commentAfter (if c = '\x27' then .code else .text) rest
  | .code, '\x27' :: rest => commentAfter .text rest
  | .code, '-' :: '-' :: _ => false
  | .code, '/' :: '*' :: rest => commentAfter .comment rest
  | .code, _ :: rest => commentAfter .code rest

/-- Whether a block comment is open after a line, given whether one is open before it. -/
def trackComment (isOpen : Bool) (line : String) : Bool :=
  commentAfter (if isOpen then .comment else .code) line.toList

/-- The batch being collected while a script is read. -/
structure Draft where
  startLine : Nat
  /-- Lines of the content, last one first. -/
  lines : List String
  /-- Directives, last one first. -/
  directives : List Directive

def Draft.empty (startLine : Nat) : Draft := ⟨startLine, [], []⟩

/-- The text of a draft, each line ended by a line feed. -/
def Draft.content (d : Draft) : String := String.join (d.lines.reverse.map (· ++ "\n"))

/-- The draft holds neither text nor directives. -/
def Draft.isEmpty (d : Draft) : Bool := (Text.trim d.content).isEmpty && d.directives.isEmpty

def Draft.finish (d : Draft) (number : Nat) (repetitions : Option Nat) : Batch :=
  { number, content := d.content, startLine := d.startLine, repetitions,
    directives := d.directives.reverse }

/-- The draft as the next batch, followed by what comes after it. An empty draft is dropped and
takes no number. -/
def close (d : Draft) (number : Nat) (repetitions : Option Nat) (rest : Nat → List Batch) :
    List Batch :=
  if d.isEmpty then rest number else d.finish number repetitions :: rest (number + 1)

/-- The batches of the remaining lines. `line` is the number of the next line, `number` that of the
next batch, and `inComment` says whether the line begins inside a block comment. -/
def splitFrom (inComment : Bool) (draft : Draft) (line number : Nat) : List String → List Batch
  | [] => close draft number none fun _ => []
  | text :: rest =>
    match if inComment then .code else lineRole text with
    | .separator repetitions =>
      close draft number repetitions fun next =>
        splitFrom false (Draft.empty (line + 1)) (line + 1) next rest
    | .directive command text =>
      splitFrom inComment
        { draft with
          lines := "" :: draft.lines
          directives := ⟨line, command, text⟩ :: draft.directives }
        (line + 1) number rest
    | .code =>
      splitFrom (trackComment inComment text) { draft with lines := text :: draft.lines } (line + 1)
        number rest

def split (script : String) : List Batch :=
  splitFrom false (Draft.empty 1) 1 1 (Text.lines script)

end Batch

end Portability
