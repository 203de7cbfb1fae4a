import Portability.Text.Ascii

/-! XML documents, as far as project files need them: elements by their local names, attributes
without a namespace, and text. -/
namespace Portability

inductive Xml where
  | element (name : String) (attributes : List (String × String)) (children : List Xml)
  | text (text : String)
  /-- A comment or a processing instruction. -/
  | aside

namespace Xml

/-- The local name of an element; other nodes have none. -/
def name : Xml → String
  | element name _ _ => name
  | _ => ""

/-- The value of an attribute without a namespace. -/
def attribute? (wanted : String) : Xml → Option String
  | element _ attributes _ => attributes.lookup wanted
  | _ => none

/-- The text that an element begins with, or the text itself. -/
def text? : Xml → Option String
  | element _ _ (text t :: _) => some t
  | text t => some t
  | _ => none

mutual

def nodes : Xml → List Xml
  | element name attributes children => element name attributes children :: nodesOf children
  | other => [other]

def nodesOf : List Xml → List Xml
  | [] => []
  | x :: rest => x.nodes ++ nodesOf rest

end

/-- The children of a node with one more, given last one first. Text joins the text before it. -/
def addChild (children : List Xml) (child : Xml) : List Xml :=
  match children, child with
  | text before :: rest, text t => text (before ++ t) :: rest
  | _, _ => child :: children

end Xml

end Portability
