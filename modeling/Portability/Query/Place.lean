import Portability.Query.Trait
import Portability.Tree.Node

/-! Where a query stands: the construct that owns it and its part in set operations. -/
namespace Portability

/-- A query that combines others. -/
def Kind.isSetOperation : Kind → Bool
  | .setOperation _ => true
  | _ => false

/-- The place of a query. -/
structure QueryPlace where
  /-- The construct that the whole query expression is part of. -/
  owner? : Option Node := none
  /-- The query expression is the first part of its owner. -/
  isFirstPart : Bool := false
  inSetOperation : Bool := false
  /-- The query is the first operand of every set operation around it. -/
  isLeading : Bool := true
  isOrdered : Bool := false
  hasForClause : Bool := false

namespace QueryPlace

def ownedBy (p : QueryPlace) (via : Node) : Option Node → QueryPlace
  | some owner =>
    { p with owner? := some owner, isFirstPart := owner.children.head?.any (·.id == via.id) }
  | none => p

/-- The place with what the clauses of a query expression add; they hold for every arm. -/
def withClauses (p : QueryPlace) (query : Node) : QueryPlace :=
  { p with
    isOrdered := p.isOrdered || query.hasChild fun | .orderBy _ => true | _ => false
    hasForClause := p.hasForClause || query.hasChild fun | .forClause _ => true | _ => false }

/-- The place found by climbing from a node through what encloses it. A query expression is passed
only as an operand of a set operation. -/
def climb (p : QueryPlace) (current : Node) : List Node → QueryPlace
  | [] => p
  | parent :: rest =>
    match parent.kind with
    | .setOperation _ =>
      climb
        { p with
          inSetOperation := true
          isLeading := p.isLeading && parent.children.head?.any (·.id == current.id) }
        parent rest
    | .query =>
      let p := p.withClauses parent
      if rest.head?.any (·.kind.isSetOperation) then climb p parent rest
      else p.ownedBy parent rest.head?
    | _ => p.ownedBy current (some parent)

/-- The traits that the owner of a query gives it. -/
def ownerTraits (p : QueryPlace) : List QueryTrait :=
  match p.owner? with
  | none => [.outermost]
  | some owner =>
    match owner.kind with
    | .cte _ => [.cteMember]
    | .derivedTable _ => [.derivedTable, .subquery]
    | .insert _ => [.insertSource]
    | .createView .. => [.viewBody]
    | .cursorDecl .. => [.cursorSource]
    | .returnValue | .createFunction .. => [.functionBody]
    | .batch | .block _ | .createProcedure .. | .createTrigger .. => [.outermost]
    | .ifElse | .whileLoop => if p.isFirstPart then [.subquery] else [.outermost]
    | _ => [.subquery]

def traits (p : QueryPlace) : List QueryTrait :=
  p.ownerTraits ++ (if p.inSetOperation then [.unionArm] else []) ++
    (if p.inSetOperation && p.isLeading then [.leadingArm] else []) ++
    (if p.isOrdered then [.hasOrder] else []) ++
    (if p.hasForClause then [.hasForClause] else [])

end QueryPlace

def Site.queryPlace (s : Site) : QueryPlace := ({} : QueryPlace).climb s.node s.ancestors

def Site.queryTraits (s : Site) : List QueryTrait :=
  s.queryPlace.traits ++
    if s.isInside fun | .existsQuery => true | _ => false then [.inExists] else []

end Portability
