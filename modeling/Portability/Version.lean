import Portability.Text.Blank
import Portability.Text.Numeric

/-! Versions of the target engine. -/
namespace Portability

/-- A version: numbers separated by dots, kept with its spelling. -/
structure Version where
  text : String
  parts : List Nat
  deriving Repr

namespace Version

/-- Numbers compared from the left; a missing one counts as zero. -/
def compareParts : List Nat → List Nat → Ordering
  | [], [] => .eq
  | a :: as, [] => (compare a 0).then (compareParts as [])
  | [], b :: bs => (compare 0 b).then (compareParts [] bs)
  | a :: as, b :: bs => (compare a b).then (compareParts as bs)

def compare (a b : Version) : Ordering := compareParts a.parts b.parts

def same (a b : Version) : Bool := a.compare b == .eq

def newer (a b : Version) : Bool := a.compare b == .gt

def parse? (s : String) : Option Version :=
  let text := Text.trim s
  ((text.toList.splitOn '.').mapM fun p => Text.parseNat? Text.maxWord32 (String.ofList p)).map
    fun parts => { text, parts }

/-- The complaint about a text that is no version. -/
def invalidMessage (s : String) : String := "Invalid version: " ++ s

end Version

end Portability
