import Portability.Grammar.Statement

/-! The syntax tree of a batch. -/
namespace Portability

/-- A tree over a token stream. `nodes` holds all nodes that were built, each at the place of its
`id`, also those that are not part of the tree in the end. -/
structure Tree where
  source : Source
  root : Node
  nodes : Array Node

namespace Tree

def size (t : Tree) : Nat := t.nodes.size

def text (t : Tree) (n : Node) : String := t.source.textBetween n.start n.stop

def sites (t : Tree) : List Site := t.root.sites

/-- The tree of a token stream; nothing if it would never be finished. -/
def ofSource? (source : Source) : Option Tree :=
  (Parser.batch source ⟨0, #[]⟩).map fun (root, cursor) => ⟨source, root, cursor.nodes⟩

/-- The tree of a text that has no tokens. -/
def unparsed (message : String) : Tree :=
  let statement : Node := ⟨0, .unparsed message, 1, 0, 0, []⟩
  let root : Node := ⟨1, .batch, 1, 0, 0, [statement]⟩
  { source := ⟨#[], #[]⟩, root, nodes := #[statement, root] }

/-- The tree of a text; nothing if it would never be finished. -/
def ofText? (text : String) : Option Tree :=
  match Source.ofText text with
  | .ok source => ofSource? source
  | .error e => some (unparsed e.message)

end Tree

namespace Site

/-- The statement of the batch that the node is part of. -/
def topStatement? (s : Site) : Option Node :=
  match (s.node :: s.ancestors).reverse with
  | _ :: statement :: _ => some statement
  | _ => none

def statement? (s : Site) : Option Node := s.ancestors.find? (·.kind.isStatement)

end Site

end Portability
