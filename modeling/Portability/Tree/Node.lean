import Portability.Tree.Kind

/-! Syntax trees. -/
namespace Portability

/-- A construct with its parts. `start` and `stop` bound its significant tokens, `stop` excluded. -/
structure Node where
  /-- The place in the order in which nodes were built; parts come before the whole. -/
  id : Nat
  kind : Kind
  /-- The line of the first token in its batch. -/
  line : Nat
  start : Nat
  stop : Nat
  children : List Node

namespace Node

def child? (n : Node) (test : Kind → Bool) : Option Node := n.children.find? (test ·.kind)

def firstKind? (n : Node) : Option Kind := n.children.head?.map Node.kind

def hasChild (n : Node) (test : Kind → Bool) : Bool := n.children.any (test ·.kind)

end Node

/-- A node in its tree: the node and what encloses it, nearest first. -/
structure Site where
  node : Node
  ancestors : List Node

namespace Site

def kind (s : Site) : Kind := s.node.kind

def parent? (s : Site) : Option Site :=
  match s.ancestors with
  | [] => none
  | p :: rest => some ⟨p, rest⟩

def parentKind? (s : Site) : Option Kind := s.ancestors.head?.map Node.kind

def children (s : Site) : List Site :=
  s.node.children.map fun c => ⟨c, s.node :: s.ancestors⟩

def isInside (s : Site) (test : Kind → Bool) : Bool := s.ancestors.any (test ·.kind)

end Site

mutual

/-- A node and everything below it, each before its parts, with what encloses it. -/
def Node.sitesFrom (ancestors : List Node) : Node → List Site
  | n@⟨_, _, _, _, _, children⟩ => ⟨n, ancestors⟩ :: sitesOfParts (n :: ancestors) children

def sitesOfParts (ancestors : List Node) : List Node → List Site
  | [] => []
  | n :: rest => n.sitesFrom ancestors ++ sitesOfParts ancestors rest

end

def Node.sites (n : Node) : List Site := n.sitesFrom []

def Node.nodes (n : Node) : List Node := n.sites.map (·.node)

end Portability
