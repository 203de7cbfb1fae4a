/-! The lines of a text. -/
namespace Portability.Text

/-- A line as it was read, backwards: the carriage return before a line feed is not part of it. -/
def closeLine : List Char → List Char
  | '\r' :: line => line.reverse
  | line => line.reverse

/-- The lines of the remaining characters; `line` is the one being read, backwards. -/
def linesFrom (line : List Char) : List Char → List (List Char)
  | [] => if line.isEmpty then [] else [line.reverse]
  | c :: rest =>
    if c = '\n' then closeLine line :: linesFrom [] rest else linesFrom (c :: line) rest

/-- The lines of a text. A line feed ends a line, with the carriage return before it; what follows
the last line feed is a line unless it is empty. -/
def lines (s : String) : List String := (linesFrom [] s.toList).map String.ofList

end Portability.Text
