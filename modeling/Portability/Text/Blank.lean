/-! White space: trimming, splitting into words and collapsing. -/
namespace Portability.Text

/-- The code point ranges of Unicode's property White_Space. -/
def blankRanges : List (Nat × Nat) :=
  [(0x9, 0xD), (0x20, 0x20), (0x85, 0x85), (0xA0, 0xA0), (0x1680, 0x1680), (0x2000, 0x200A),
   (0x2028, 0x2029), (0x202F, 0x202F), (0x205F, 0x205F), (0x3000, 0x3000)]

def isBlank (c : Char) : Bool := blankRanges.any fun r => r.1 ≤ c.toNat && c.toNat ≤ r.2

/-- The characters without the blanks at their end. -/
def trimRightChars (s : List Char) : List Char := (s.reverse.dropWhile isBlank).reverse

/-- The characters without the blanks at either end. -/
def trimChars (s : List Char) : List Char := trimRightChars (s.dropWhile isBlank)

/-- The text without the blanks at either end. -/
def trim (s : String) : String := String.ofList (trimChars s.toList)

/-- The maximal runs of non-blank characters; `run` is the one being read, backwards. -/
def wordsFrom (run : List Char) : List Char → List (List Char)
  | [] => if run.isEmpty then [] else [run.reverse]
  | c :: rest =>
    if isBlank c then
      if run.isEmpty then wordsFrom [] rest else run.reverse :: wordsFrom [] rest
    else wordsFrom (c :: run) rest

/-- The words of a text: its maximal runs of non-blank characters. -/
def words (s : String) : List String := (wordsFrom [] s.toList).map String.ofList

/-- The words of a text with one space between neighbours. -/
def collapse (s : String) : String := String.intercalate " " (words s)

/-- The text itself when it has at most `limit` characters, else the first `limit` and `...`. -/
def truncate (s : String) (limit : Nat) : String :=
  if s.length ≤ limit then s else String.ofList (s.toList.take limit) ++ "..."

end Portability.Text
