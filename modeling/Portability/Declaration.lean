import Portability.Category
import Portability.QuotedIdentifier
import Portability.Symbol

/-! What the batches of a script declare. All batches are read before any is walked, so that a
name may be used before the batch that declares it. -/
namespace Portability

/-- What is known of a script before it is walked. -/
structure Declarations where
  symbols : SymbolTable := {}
  quoted : QuotedIdentifier

namespace Declarations

/-- The declared type of a node, without its length. -/
def declaredType? (n : Node) : Option String :=
  match (n.child? fun | .dataType .. => true | _ => false).map Node.kind with
  | some (.dataType name _) => some (Category.baseTypeName name)
  | _ => none

def functionSymbol (kind : FunctionKind) (type? : Option String) : Symbol :=
  match kind, type? with
  | .scalar, type? => .scalarFunction (type?.getD "")
  | .external, some type => .scalarFunction type
  | _, _ => .tableFunction

def symbol? (schema : String) (n : Node) : Option (String × Symbol) :=
  let key := fun raw => (Name.resolve raw).key schema
  match n.kind with
  | .variableDecl name | .parameter name .. =>
    some (name, .localVariable ((declaredType? n).getD ""))
  | .tableVariableDecl name | .returnTable name => some (name, .localVariable "TABLE")
  | .createTable raw | .into raw => some (key raw, .object .table)
  | .createView raw .. => some (key raw, .object .view)
  | .createFunction raw _ kind _ => some (key raw, functionSymbol kind (declaredType? n))
  | .createType raw base isTable =>
    let base := match isTable, base with
      | false, some base => Category.baseTypeName base
      | _, _ => "TABLE"
    some (key raw, .userType base)
  | _ => none

/-- What a node sets `QUOTED_IDENTIFIER` to; routines set nothing. -/
def quoted? (site : Site) : Option Bool :=
  if site.isInRoutine then none else site.kind.quotedIdentifier?

def add (schema : String) (d : Declarations) (site : Site) : Declarations :=
  match symbol? schema site.node with
  | some (name, symbol) => { d with symbols := d.symbols.declare name symbol }
  | none =>
    match quoted? site with
    | some isOn => { d with quoted := d.quoted.set isOn }
    | none => d

def addBatch (schema : String) (d : Declarations) (index : Nat) (t : Tree) : Declarations :=
  t.sites.foldl (add schema)
    { symbols := d.symbols.enter index, quoted := d.quoted.recordStart index }

def ofTrees (schema : String) (quotedIdentifier : Bool) (trees : List Tree) : Declarations :=
  trees.zipIdx.foldl (fun d (t, i) => addBatch schema d i t)
    { quoted := { initial := quotedIdentifier } }

end Declarations

end Portability
