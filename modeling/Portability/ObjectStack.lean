import Portability.Text.Blank

/-! The objects that a walk is inside of: tables and routines, and columns, parameters and
constraints within them. -/
namespace Portability

structure OpenObject where
  node : Nat
  /-- The kind and the name. -/
  description : String
  /-- A trigger for more than one event. -/
  isMultiEvent : Bool := false
  deriving Repr

structure OpenPart where
  node : Nat
  description : String
  deriving Repr

/-- The open objects and the open parts, innermost first. -/
structure ObjectStack where
  objects : List OpenObject := []
  parts : List OpenPart := []
  deriving Repr

namespace ObjectStack

def enter (s : ObjectStack) (node : Nat) (kind name : String) : ObjectStack :=
  { s with objects := ⟨node, kind ++ " " ++ name, false⟩ :: s.objects }

def enterPart (s : ObjectStack) (node : Nat) (description : String) : ObjectStack :=
  { s with parts := ⟨node, description⟩ :: s.parts }

/-- The innermost object turns out to be a trigger for more than one event. -/
def markMultiEvent (s : ObjectStack) : ObjectStack :=
  match s.objects with
  | [] => s
  | o :: rest => { s with objects := { o with isMultiEvent := true } :: rest }

/-- The innermost object is a trigger for more than one event. -/
def isMultiEvent (s : ObjectStack) : Bool := s.objects.head?.any (·.isMultiEvent)

def leave (s : ObjectStack) (node : Nat) : ObjectStack :=
  { objects := s.objects.dropWhile (·.node == node)
    parts := s.parts.dropWhile (·.node == node) }

/-- The innermost object, or nothing. -/
def object (s : ObjectStack) : String := (s.objects.head?.map (·.description)).getD ""

/-- The innermost part of an object, or nothing. -/
def part (s : ObjectStack) : String := (s.parts.head?.map (·.description)).getD ""

end ObjectStack

end Portability
