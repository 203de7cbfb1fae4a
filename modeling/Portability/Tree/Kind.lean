import Portability.Token

/-! The constructs that a batch is made of. -/
namespace Portability

inductive SetOperator where
  | union
  | unionAll
  | except
  | intersect
  deriving DecidableEq, Repr

def SetOperator.text : SetOperator → String
  | union => "UNION"
  | unionAll => "UNION ALL"
  | except => "EXCEPT"
  | intersect => "INTERSECT"

inductive JoinKind where
  | inner
  | leftOuter
  | rightOuter
  | fullOuter
  | cross
  | crossApply
  | outerApply
  deriving DecidableEq, Repr

namespace JoinKind

def text : JoinKind → String
  | inner => "INNER JOIN"
  | leftOuter => "LEFT OUTER JOIN"
  | rightOuter => "RIGHT OUTER JOIN"
  | fullOuter => "FULL OUTER JOIN"
  | cross => "CROSS JOIN"
  | crossApply => "CROSS APPLY"
  | outerApply => "OUTER APPLY"

def takesCondition : JoinKind → Bool
  | inner | leftOuter | rightOuter | fullOuter => true
  | cross | crossApply | outerApply => false

end JoinKind

inductive ConstraintKind where
  | primaryKey
  | unique
  | foreignKey
  | check
  | default
  deriving DecidableEq, Repr

def ConstraintKind.text : ConstraintKind → String
  | primaryKey => "PRIMARY KEY"
  | unique => "UNIQUE"
  | foreignKey => "FOREIGN KEY"
  | check => "CHECK"
  | default => "DEFAULT"

inductive Verb where
  | create
  | alter
  | createOrAlter
  deriving DecidableEq, Repr

def Verb.text : Verb → String
  | create => "CREATE"
  | alter => "ALTER"
  | createOrAlter => "CREATE OR ALTER"

inductive FunctionKind where
  | scalar
  | inlineTable
  | multiStatementTable
  | external
  deriving DecidableEq, Repr

/-- What a trigger watches. -/
inductive TriggerScope where
  | table
  | database
  | allServer
  deriving DecidableEq, Repr

inductive BlockKind where
  | plain
  | tryBody
  | catchBody
  deriving DecidableEq, Repr

inductive LiteralKind where
  | string
  | national
  | number
  | hex
  | null
  deriving DecidableEq, Repr

/-- Every construct that a tree can hold, with what its own words say. -/
inductive Kind where
  | batch
  | block (kind : BlockKind)
  -- queries
  | query
  | withClause
  | cte (name : String)
  | setOperation (operator : SetOperator)
  | querySpec (distinct : Bool)
  | top (percent withTies : Bool)
  | selectItem (knownAs : Option String)
  | star
  | into (target : String)
  | fromClause
  | tableRef (name : String) (knownAs : Option String)
  | derivedTable (knownAs : Option String)
  | tableFunction (name : String) (knownAs : Option String)
  | join (kind : JoinKind) (hint : Option String)
  | pivot (unpivot : Bool)
  | tableHint (hint : String)
  | whereClause
  | groupBy (modifier : Option String)
  | having
  | orderBy (offsetFetch : Bool)
  | forClause (mode : String)
  | optionClause
  | queryHint (hint : String)
  -- data modification
  | insert (target : String)
  | values (rows : Nat)
  | defaultValues
  | update (target : String)
  | delete (target : String)
  | merge (target : String)
  | mergeAction (action : String)
  | output (into : Option String)
  | truncate (table : String)
  | columnAssignment (column operator : String)
  | variableAssignment (variableName operator : String)
  -- definitions
  | createTable (name : String)
  | alterTable (table : String)
  | alterTableAction (action : String)
  | columnDef (name : String)
  | dataType (name : String) (args : Option String)
  | columnAttribute (text : String)
  | computedColumn (persisted : Bool)
  | constraint (name : Option String) (kind : ConstraintKind) (clustered : Option Bool)
      (options : List String)
  | tableOption (option : String)
  | createView (name : String) (verb : Verb) (options : List String) (checkOption : Bool)
  | createProcedure (name : String) (verb : Verb) (options : List String) (number : Option Nat)
  | parameter (name : String) (output readonly hasDefault : Bool)
  | createFunction (name : String) (verb : Verb) (kind : FunctionKind) (options : List String)
  | returnTable (variableName : String)
  | createTrigger (name : String) (verb : Verb) (target : String) (scope : TriggerScope)
      (timing : String) (events options : List String)
  | createIndex (name table : String) (unique : Bool) (clustered : Option Bool)
      (kind : Option String) (included filtered : Bool) (options : List String)
  | createType (name : String) (base : Option String) (table : Bool)
  | createOther (objectKind name : String)
  | drop (objectKind : String) (names : List String) (ifExists : Bool)
  -- procedures
  | declare
  | variableDecl (name : String)
  | tableVariableDecl (name : String)
  | cursorDecl (name : String) (options : List String)
  | setOption (options : List String) (value : String)
  | ifElse
  | whileLoop
  | breakLoop
  | continueLoop
  | goto (label : String)
  | label (name : String)
  | returnValue
  | waitFor (kind : String)
  | transaction (action : String) (name : Option String)
  | execute (procedure : Option String) (options : List String)
  | execArg (name : Option String) (output : Bool)
  | print
  | raiserror (options : List String)
  | throw
  | cursorOp (op cursor : String) (orientation : Option String)
  | use (database : String)
  | permission (action : String)
  | otherStatement (keywords : String)
  | unparsed (message : String)
  -- expressions
  | literal (kind : LiteralKind)
  | identifier (name : String) (quote : Option Quote)
  | localVariable (name : String)
  | systemVariable (name : String)
  | functionCall (name : String)
  | window (ordered : Bool) (frame : Option String)
  | binaryOp (op : String)
  | unaryOp (op : String)
  | comparison (op : String)
  | logical (op : String)
  | negation
  | inList (negated : Bool)
  | inSubquery (negated : Bool)
  | between (negated : Bool)
  | like (negated : Bool)
  | isNull (negated : Bool)
  | existsQuery
  | caseWhen
  | collate (collation : String)
  | nextValueFor (sequence : String)
  deriving Repr

namespace Kind

def isStatement : Kind → Bool
  | block _ | query | insert _ | update _ | delete _ | merge _ | truncate _ | createTable _
  | alterTable _ | createView .. | createProcedure .. | createFunction .. | createTrigger ..
  | createIndex .. | createType .. | createOther .. | drop .. | declare | setOption ..
  | variableAssignment .. | ifElse | whileLoop | breakLoop | continueLoop | goto _ | label _
  | returnValue | waitFor _ | transaction .. | execute .. | print | raiserror _ | throw
  | cursorOp .. | use _ | permission _ | otherStatement _ | unparsed _ => true
  | _ => false

/-- A stored routine: session settings in its body have no effect on the script. -/
def isRoutine : Kind → Bool
  | createProcedure .. | createFunction .. | createTrigger .. => true
  | _ => false

end Kind

end Portability
