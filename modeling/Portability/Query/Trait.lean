import Portability.Text.Ascii

/-! What is known of a query while it is walked, and what follows from it. -/
namespace Portability

/-- A property of a query, by its own clauses or by the place where it stands. -/
inductive QueryTrait where
  | hasTop
  | hasOrder
  | hasFrom
  | subquery
  | cteMember
  | derivedTable
  | unionArm
  | leadingArm
  | insertSource
  | inExists
  | intoTemporary
  | intoGlobalTemporary
  | intoTable
  | assignsVariable
  | outermost
  | cursorSource
  | viewBody
  | functionBody
  | hasForClause
  deriving DecidableEq, Repr

namespace QueryTrait

def all : List QueryTrait :=
  [hasTop, hasOrder, hasFrom, subquery, cteMember, derivedTable, unionArm, leadingArm, insertSource,
   inExists, intoTemporary, intoGlobalTemporary, intoTable, assignsVariable, outermost,
   cursorSource, viewBody, functionBody, hasForClause]

theorem mem_all (t : QueryTrait) : t ∈ all := by cases t <;> decide

def shape (traits : List QueryTrait) : String :=
  if intoGlobalTemporary ∈ traits then "SELECT..INTO ##tmp"
  else if intoTemporary ∈ traits then "SELECT..INTO #tmp"
  else if intoTable ∈ traits then "SELECT..INTO table"
  else if cteMember ∈ traits then "SELECT in CTE"
  else if subquery ∈ traits then "SELECT subquery"
  else "SELECT"

/-- `TOP` picks rows in no defined order. Under `EXISTS` it does not matter which rows. -/
def isTopWithoutOrder (traits : List QueryTrait) : Bool :=
  hasTop ∈ traits && hasOrder ∉ traits && inExists ∉ traits

/-- Traits of queries that are not sent to the caller as they are, or not in question. -/
def settledTraits : List QueryTrait :=
  [hasTop, insertSource, inExists, assignsVariable, intoTemporary, intoGlobalTemporary, intoTable,
   hasOrder, hasForClause]

/-- Rows are sent to the caller in no defined order. Only an outermost query counts, and of a set
operation only its leading arm. -/
def isUnordered (traits : List QueryTrait) : Bool :=
  outermost ∈ traits && hasFrom ∈ traits && settledTraits.all (· ∉ traits) &&
    (unionArm ∉ traits || leadingArm ∈ traits)

end QueryTrait

/-- A query that is being walked. -/
structure OpenQuery where
  /-- Queries are numbered from 1 as they are opened. -/
  number : Nat
  node : Nat
  line : Nat
  traits : List QueryTrait
  deriving Repr

/-- The open queries, innermost first, and the number of queries opened so far. -/
structure QueryStack where
  opened : Nat := 0
  queries : List OpenQuery := []
  deriving Repr

namespace QueryStack

def push (s : QueryStack) (node line : Nat) (traits : List QueryTrait) : QueryStack :=
  { opened := s.opened + 1
    queries := ⟨s.opened + 1, node, line, traits⟩ :: s.queries }

/-- The innermost query gets a trait. -/
def add (s : QueryStack) (trait : QueryTrait) : QueryStack :=
  match s.queries with
  | [] => s
  | q :: rest => { s with queries := { q with traits := trait :: q.traits } :: rest }

/-- The innermost query has a trait. -/
def has (s : QueryStack) (trait : QueryTrait) : Bool :=
  match s.queries with
  | [] => false
  | q :: _ => trait ∈ q.traits

/-- The innermost query, if it was opened for the node. -/
def top? (s : QueryStack) (node : Nat) : Option OpenQuery :=
  s.queries.head?.filter (·.node == node)

/-- The stack without the innermost query, if that was opened for the node. -/
def pop (s : QueryStack) (node : Nat) : QueryStack :=
  match s.top? node with
  | some _ => { s with queries := s.queries.tail }
  | none => s

/-- No query is open any more; the numbering goes on. -/
def clear (s : QueryStack) : QueryStack := { s with queries := [] }

end QueryStack

end Portability
