/-! Text compared without regard to the case of the letters `A` to `Z`. -/
namespace Portability.Text

/-- The text with `a` to `z` in upper case; other characters are kept. -/
def upper (s : String) : String := s.toUpper

/-- The text with `A` to `Z` in lower case; other characters are kept. -/
def lower (s : String) : String := s.toLower

def same (a b : String) : Bool := lower a == lower b

def oneOf (word : String) (candidates : List String) : Bool := candidates.any (same · word)

def startsWith (text start : String) : Bool := (lower start).toList.isPrefixOf (lower text).toList

end Portability.Text
