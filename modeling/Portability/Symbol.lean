import Portability.Text.Ascii

/-! What the names of a script stand for. Variables belong to the batch that declares them; all
other names hold for the whole script. -/
namespace Portability

inductive ObjectKind where
  | table
  | view
  deriving DecidableEq, Repr

/-- What a name was declared as. -/
inductive Symbol where
  /-- With the declared type in upper case, without its length. -/
  | localVariable (baseType : String)
  | object (kind : ObjectKind)
  | scalarFunction (returnType : String)
  | tableFunction
  /-- With the type it is based on, or `TABLE`. -/
  | userType (base : String)
  deriving DecidableEq, Repr

/-- The kinds of names; names of different kinds do not clash. -/
inductive SymbolKind where
  | localVariable
  | object
  | scalarFunction
  | tableFunction
  | userType
  deriving DecidableEq, Repr

def Symbol.kind : Symbol → SymbolKind
  | localVariable _ => .localVariable
  | object _ => .object
  | scalarFunction _ => .scalarFunction
  | tableFunction => .tableFunction
  | userType _ => .userType

/-- Declarations, given by what they make of a name. Names are in upper case, variables come with
the index of their batch, and `active` is the batch whose variables are in force. -/
structure SymbolTable where
  unit : SymbolKind → String → Option Symbol := fun _ _ => none
  locals : Nat → String → Option Symbol := fun _ _ => none
  active : Nat := 0

namespace SymbolTable

def enter (t : SymbolTable) (batch : Nat) : SymbolTable := { t with active := batch }

/-- The table as a batch sees it: the variables of other batches are out of sight. -/
def forBatch (t : SymbolTable) (batch : Nat) : SymbolTable where
  unit := t.unit
  locals := fun _ => t.locals batch

/-- The table with one more declaration, which hides earlier ones of its kind and name. -/
def declare (t : SymbolTable) (name : String) (symbol : Symbol) : SymbolTable :=
  let key := Text.upper name
  match symbol.kind with
  | .localVariable =>
    { t with
      locals := fun batch other =>
        if batch = t.active ∧ other = key then some symbol else t.locals batch other }
  | kind =>
    { t with
      unit := fun k other => if k = kind ∧ other = key then some symbol else t.unit k other }

def find? (t : SymbolTable) (kind : SymbolKind) (name : String) : Option Symbol :=
  match kind with
  | .localVariable => t.locals t.active (Text.upper name)
  | kind => t.unit kind (Text.upper name)

def variableType? (t : SymbolTable) (name : String) : Option String :=
  match t.find? .localVariable name with
  | some (.localVariable base) => some base
  | _ => none

def objectKind? (t : SymbolTable) (key : String) : Option ObjectKind :=
  match t.find? .object key with
  | some (.object kind) => some kind
  | _ => none

def typeBase? (t : SymbolTable) (key : String) : Option String :=
  match t.find? .userType key with
  | some (.userType base) => some base
  | _ => none

def scalarFunctionType? (t : SymbolTable) (key : String) : Option String :=
  match t.find? .scalarFunction key with
  | some (.scalarFunction type) => some type
  | _ => none

def isTableFunction (t : SymbolTable) (key : String) : Bool := (t.find? .tableFunction key).isSome

end SymbolTable

end Portability
