import Portability.Tree

/-! The setting `QUOTED_IDENTIFIER`: whether double quotes enclose identifiers or strings. A batch
is read with the setting in force at its start; what it sets itself holds from the next batch on.
-/
namespace Portability

structure QuotedIdentifier where
  /-- The setting where nothing else is known. -/
  initial : Bool
  /-- The setting at the start of each batch that was read. -/
  starts : List Bool := []
  isOn : Bool := initial
  deriving Repr

namespace QuotedIdentifier

/-- The list with one element put in place; gaps before it are filled. -/
def place (filler value : Bool) : Nat → List Bool → List Bool
  | 0, [] => [value]
  | 0, _ :: rest => value :: rest
  | n + 1, [] => filler :: place filler value n []
  | n + 1, x :: rest => x :: place filler value n rest

def recordStart (q : QuotedIdentifier) (batch : Nat) : QuotedIdentifier :=
  { q with starts := place q.initial q.isOn batch q.starts }

def startOf (q : QuotedIdentifier) (batch : Nat) : Bool := q.starts[batch]?.getD q.initial

/-- The setting at the start of a batch comes into force again. -/
def resume (q : QuotedIdentifier) (batch : Nat) : QuotedIdentifier :=
  { q with isOn := q.startOf batch }

@[simp] theorem isOn_resume (q : QuotedIdentifier) (batch : Nat) :
    (q.resume batch).isOn = q.startOf batch := rfl

def set (q : QuotedIdentifier) (isOn : Bool) : QuotedIdentifier := { q with isOn }

end QuotedIdentifier

def Kind.quotedIdentifier? : Kind → Option Bool
  | .setOption options value =>
    if options.any (Text.same · "QUOTED_IDENTIFIER") then
      match value with
      | "ON" => some true
      | "OFF" => some false
      | _ => none
    else none
  | _ => none

def Kind.isSetOption : Kind → Bool
  | .setOption .. => true
  | _ => false

def Site.isInRoutine (s : Site) : Bool := s.isInside Kind.isRoutine

/-- Only further session options follow the statement of the batch that the node is part of. -/
def Tree.endsWithOptions (t : Tree) (s : Site) : Bool :=
  match s.topStatement? with
  | none => true
  | some statement =>
    let rest := t.root.children.dropWhile (·.id != statement.id)
    rest.tail.all (·.kind.isSetOption)

end Portability
