/-! Quoting by doubling: a mark inside a quoted text is written twice. -/
namespace Portability.Text

def doubleMark (mark : Char) : List Char → List Char
  | [] => []
  | c :: rest =>
    if c = mark then mark :: mark :: doubleMark mark rest else c :: doubleMark mark rest

/-- Every two adjacent `mark`s, from the left, read as one. -/
def undoubleMark (mark : Char) : List Char → List Char
  | [] => []
  | [c] => [c]
  | c :: d :: rest =>
    if c = mark ∧ d = mark then mark :: undoubleMark mark rest
    else c :: undoubleMark mark (d :: rest)

theorem undoubleMark_doubleMark (mark : Char) (s : List Char) :
    undoubleMark mark (doubleMark mark s) = s := by
  induction s with
  | nil => rfl
  | cons c rest ih =>
    by_cases h : c = mark
    · simp [doubleMark, undoubleMark, h, ih]
    · cases hr : doubleMark mark rest with
      | nil => rw [hr] at ih; simp [doubleMark, undoubleMark, h, ← ih]
      | cons d tail => rw [hr] at ih; simp [doubleMark, undoubleMark, h, hr, ih]

def double (mark : Char) (s : String) : String := String.ofList (doubleMark mark s.toList)

end Portability.Text
