import Mathlib
import Portability.Proofs.TreeShape
import Portability.Proofs.WellFormed
import Portability.Query.Place

/-! The owner of a query. Above a query stand the layers of its query expression, queries and set
operations, and above these the construct that owns it. The traits of the query come from all layers
and from the owner, unless a query stands directly in another one: at that point the climb ends, and
the outer query counts as the owner. -/
namespace Portability

theorem Kind.isQuery_iff {kind : Kind} : kind.isQuery ↔ kind = .query := by
  cases kind <;> simp [Kind.isQuery]

/-- A layer of a query expression. -/
def Kind.isQueryLayer (kind : Kind) : Bool := kind.isQuery || kind.isSetOperation

/-- A query and directly around it another: a query in parentheses. -/
def Node.IsQueryIn (c p : Node) : Prop := c.kind.isQuery ∧ p.kind.isQuery

/-- If the one is a set operation, the other is its first operand. -/
def Node.IsFirstOperandIn (c p : Node) : Prop :=
  p.kind.isSetOperation → p.children.head? = some c

namespace Site

/-- The layers of the query expression around a node, nearest first. -/
def queryLayers (s : Site) : List Node := s.ancestors.takeWhile (·.kind.isQueryLayer)

/-- The construct around all layers. -/
def queryOwner? (s : Site) : Option Node := (s.ancestors.dropWhile (·.kind.isQueryLayer)).head?

/-- What the construct around all layers makes of the query. -/
def ownerTraits (s : Site) : List QueryTrait :=
  (({} : QueryPlace).ownedBy (s.queryLayers.getLast?.getD s.node) s.queryOwner?).ownerTraits

/-- The traits of a query, given the layers above it and the traits that its owner gives it. -/
inductive Deserves (s : Site) (layers : List Node) (owned : List QueryTrait) : QueryTrait → Prop
  | owner {trait : QueryTrait} (h : trait ∈ owned) : Deserves s layers owned trait
  | unionArm (h : ∃ p ∈ layers, p.kind.isSetOperation) : Deserves s layers owned .unionArm
  | leadingArm (h : ∃ p ∈ layers, p.kind.isSetOperation)
      (first : (s.node :: layers).IsChain Node.IsFirstOperandIn) :
      Deserves s layers owned .leadingArm
  | hasOrder (h : ∃ p ∈ layers, p.kind.isQuery ∧ p.hasChild Kind.isOrderBy) :
      Deserves s layers owned .hasOrder
  | hasForClause (h : ∃ p ∈ layers, p.kind.isQuery ∧ p.hasChild Kind.isForClause) :
      Deserves s layers owned .hasForClause
  | inExists (h : s.isInside fun | .existsQuery => true | _ => false) :
      Deserves s layers owned .inExists

end Site

/-! ### The climb -/

namespace QueryPlace

/-- The layers that the climb comes to. -/
def passed : List Node → List Node
  | [] => []
  | p :: rest =>
    match p.kind with
    | .setOperation _ => p :: passed rest
    | .query => if rest.head?.any (·.kind.isSetOperation) then p :: passed rest else [p]
    | _ => []

/-- On the way up, every set operation is reached through the node with the identity of its first
operand. -/
def leads : Node → List Node → Bool
  | _, [] => true
  | c, p :: rest =>
    (!p.kind.isSetOperation || p.children.head?.any (·.id == c.id)) && leads p rest

/-- The place with what the layers above the node add. -/
def through (p : QueryPlace) (current : Node) (layers : List Node) : QueryPlace :=
  { p with
    inSetOperation := p.inSetOperation || layers.any (·.kind.isSetOperation)
    isLeading := p.isLeading && leads current layers
    isOrdered := p.isOrdered || layers.any fun n => n.kind.isQuery && n.hasChild Kind.isOrderBy
    hasForClause :=
      p.hasForClause || layers.any fun n => n.kind.isQuery && n.hasChild Kind.isForClause }

theorem through_nil (p : QueryPlace) (current : Node) : p.through current [] = p := by
  simp [through, leads]

theorem withClauses_eq (p : QueryPlace) (query : Node) :
    p.withClauses query =
      { p with
        isOrdered := p.isOrdered || query.hasChild Kind.isOrderBy
        hasForClause := p.hasForClause || query.hasChild Kind.isForClause } := rfl

/-- The climb takes in the layers that it comes to, and ends at the node above them. -/
theorem climb_eq (p : QueryPlace) (current : Node) (above : List Node) :
    p.climb current above =
      (p.through current (passed above)).ownedBy ((passed above).getLast?.getD current)
        (above.drop (passed above).length).head? := by
  induction above generalizing p current with
  | nil => simp [climb, passed, through_nil, ownedBy]
  | cons parent rest ih =>
    cases hkind : parent.kind
    case setOperation operator =>
      simp only [climb, passed, hkind, ih, List.length_cons, List.drop_succ_cons,
        List.getLast?_cons, Option.getD_some]
      congr 1
      simp [through, leads, hkind, Kind.isSetOperation, Kind.isQuery, Bool.and_assoc]
    case query =>
      simp only [climb, passed, hkind]
      split
      · simp only [ih, List.length_cons, List.drop_succ_cons, List.getLast?_cons, Option.getD_some]
        congr 1
        simp [through, leads, hkind, Kind.isSetOperation, Kind.isQuery, withClauses_eq,
          Bool.or_assoc]
      · simp [through, leads, hkind, Kind.isSetOperation, Kind.isQuery, withClauses_eq]
    all_goals simp [climb, passed, hkind, through_nil]

/-- Where no query stands directly in another, the climb comes to all layers. -/
theorem passed_eq {above : List Node}
    (h : (above.takeWhile (·.kind.isQueryLayer)).IsChain fun c p => ¬ c.IsQueryIn p) :
    passed above = above.takeWhile (·.kind.isQueryLayer) := by
  induction above with
  | nil => rfl
  | cons p rest ih =>
    cases hkind : p.kind
    case setOperation operator =>
      have hlayer : p.kind.isQueryLayer = true := by rw [hkind]; rfl
      rw [List.takeWhile_cons, if_pos hlayer] at h ⊢
      rw [passed, hkind]
      exact congrArg (p :: ·) (ih h.tail)
    case query =>
      have hlayer : p.kind.isQueryLayer = true := by rw [hkind]; rfl
      rw [List.takeWhile_cons, if_pos hlayer] at h ⊢
      rw [passed, hkind]
      dsimp only
      split
      · exact congrArg (p :: ·) (ih h.tail)
      · rename_i hnext
        cases rest with
        | nil => rfl
        | cons r rest =>
          -- what follows is no set operation and, as `p` is a query, no query
          have hother : r.kind.isQueryLayer = false := by
            by_contra hlayer
            rw [Bool.not_eq_false] at hlayer
            rw [List.takeWhile_cons, if_pos hlayer] at h
            have hnot := (List.isChain_cons_cons.mp h).1
            have hquery : r.kind.isQuery = true := by
              simpa [Kind.isQueryLayer, show r.kind.isSetOperation = false by simpa using hnext]
                using hlayer
            exact hnot ⟨by rw [hkind]; rfl, hquery⟩
          rw [List.takeWhile_cons, if_neg (by simp [hother])]
    all_goals simp [passed, hkind, Kind.isQueryLayer, Kind.isQuery, Kind.isSetOperation]

/-- The climb ends at the first query that stands directly in another. -/
theorem passed_eq_of_isQueryIn {below rest : List Node} {q outer : Node}
    (h : (below ++ [q]).IsChain fun c p => ¬ c.IsQueryIn p)
    (hlayers : ∀ p ∈ below ++ [q], p.kind.isQueryLayer) (hq : q.IsQueryIn outer) :
    passed (below ++ q :: outer :: rest) = below ++ [q] := by
  induction below with
  | nil =>
    have hkind : q.kind = .query := Kind.isQuery_iff.mp hq.1
    have houter : outer.kind = .query := Kind.isQuery_iff.mp hq.2
    simp [passed, hkind, houter, Kind.isSetOperation]
  | cons b bs ih =>
    have htail := ih h.tail fun p hp => hlayers p (List.mem_cons_of_mem b hp)
    cases hkind : b.kind
    case setOperation operator =>
      rw [List.cons_append, passed, hkind]
      exact congrArg (b :: ·) htail
    case query =>
      obtain ⟨n, more, hnext⟩ : ∃ n more, bs ++ [q] = n :: more :=
        List.exists_cons_of_ne_nil (by simp)
      -- `b` is a query, so the next layer is a set operation
      have hoperation : n.kind.isSetOperation = true := by
        rw [List.cons_append, hnext] at h
        have hnot := (List.isChain_cons_cons.mp h).1
        have hlayer : n.kind.isQueryLayer := hlayers n (by simp [hnext])
        have hquery' : n.kind.isQuery = false := by
          by_contra hquery'
          exact hnot ⟨by rw [hkind]; rfl, by simpa using hquery'⟩
        simpa [Kind.isQueryLayer, hquery'] using hlayer
      have hhead : (bs ++ q :: outer :: rest).head? = some n := by
        rw [show bs ++ q :: outer :: rest = bs ++ [q] ++ outer :: rest by simp, hnext]
        rfl
      rw [List.cons_append, passed, hkind]
      simp only [hhead, Option.any_some, hoperation, if_true]
      exact congrArg (b :: ·) htail
    all_goals
      have hlayer := hlayers b (by simp)
      simp [hkind, Kind.isQueryLayer, Kind.isQuery, Kind.isSetOperation] at hlayer

/-- Among parts with different identities, the first operand is found by its identity. -/
theorem leads_iff {c : Node} {layers : List Node} (hchain : (c :: layers).IsChain Node.IsPartOf)
    (hids : ∀ p ∈ layers, (p.children.map Node.id).Nodup) :
    leads c layers ↔ (c :: layers).IsChain Node.IsFirstOperandIn := by
  induction layers generalizing c with
  | nil => simp [leads]
  | cons p rest ih =>
    obtain ⟨hpart, hrest⟩ := List.isChain_cons_cons.mp hchain
    have hfirst : p.children.head?.any (·.id == c.id) = true ↔ p.children.head? = some c := by
      have hpart' : c ∈ p.children := hpart
      have hnodup := hids p List.mem_cons_self
      cases hparts : p.children with
      | nil => simp [hparts] at hpart'
      | cons d more =>
        rw [hparts] at hpart' hnodup
        simp only [List.head?_cons, Option.any_some, beq_iff_eq, Option.some.injEq]
        refine ⟨fun hid => ?_, congrArg Node.id⟩
        exact List.inj_on_of_nodup_map hnodup List.mem_cons_self hpart' hid
    rw [leads, Bool.and_eq_true, ih hrest fun q hq => hids q (List.mem_cons_of_mem p hq),
      List.isChain_cons_cons, Bool.or_eq_true, hfirst]
    unfold Node.IsFirstOperandIn
    cases p.kind.isSetOperation <;> simp

theorem mem_traits {p : QueryPlace} {trait : QueryTrait} :
    trait ∈ p.traits ↔ trait ∈ p.ownerTraits ∨ trait = .unionArm ∧ p.inSetOperation ∨
      trait = .leadingArm ∧ (p.inSetOperation ∧ p.isLeading) ∨ trait = .hasOrder ∧ p.isOrdered ∨
      trait = .hasForClause ∧ p.hasForClause := by
  simp only [traits, List.mem_append, List.mem_ite_nil_right, List.mem_singleton, or_assoc,
    Bool.and_eq_true, and_comm]

theorem ownerTraits_through (p : QueryPlace) (current via : Node) (layers : List Node)
    (owner? : Option Node) :
    ((p.through current layers).ownedBy via owner?).ownerTraits =
      (p.ownedBy via owner?).ownerTraits := by
  cases owner? <;> rfl

/-- What stands directly in a query is a subquery. -/
theorem ownerTraits_of_isQuery (p : QueryPlace) (via : Node) {outer : Node}
    (h : outer.kind.isQuery) : (p.ownedBy via (some outer)).ownerTraits = [.subquery] := by
  simp [ownedBy, ownerTraits, Kind.isQuery_iff.mp h]

end QueryPlace

namespace Site

variable {s : Site} {layers : List Node}

/-- A query has the traits that it deserves by the layers that the climb comes to. -/
theorem mem_queryTraits_iff (hpassed : QueryPlace.passed s.ancestors = layers)
    (hchain : (s.node :: layers).IsChain Node.IsPartOf)
    (hids : ∀ p ∈ layers, (p.children.map Node.id).Nodup) (trait : QueryTrait) :
    trait ∈ s.queryTraits ↔ s.Deserves layers (({} : QueryPlace).ownedBy
      (layers.getLast?.getD s.node) (s.ancestors.drop layers.length).head?).ownerTraits trait := by
  have hplace : s.queryPlace = (({} : QueryPlace).through s.node layers).ownedBy
      (layers.getLast?.getD s.node) (s.ancestors.drop layers.length).head? := by
    rw [queryPlace, QueryPlace.climb_eq, hpassed]
  have hfields : s.queryPlace.inSetOperation = layers.any (·.kind.isSetOperation) ∧
      s.queryPlace.isLeading = QueryPlace.leads s.node layers ∧
      s.queryPlace.isOrdered =
        layers.any (fun n => n.kind.isQuery && n.hasChild Kind.isOrderBy) ∧
      s.queryPlace.hasForClause =
        layers.any fun n => n.kind.isQuery && n.hasChild Kind.isForClause := by
    rw [hplace]
    cases (s.ancestors.drop layers.length).head? <;>
      simp [QueryPlace.ownedBy, QueryPlace.through]
  obtain ⟨hunion, hleading, hordered, hformat⟩ := hfields
  rw [queryTraits, List.mem_append, QueryPlace.mem_traits, hunion, hleading, hordered, hformat,
    hplace, QueryPlace.ownerTraits_through]
  simp only [List.any_eq_true, Bool.and_eq_true, QueryPlace.leads_iff hchain hids,
    List.mem_ite_nil_right, List.mem_singleton]
  constructor
  · rintro ((howner | ⟨rfl, hunion⟩ | ⟨rfl, hunion, hfirst⟩ | ⟨rfl, horder⟩ | ⟨rfl, hformat⟩) |
      ⟨hexists, rfl⟩)
    · exact .owner howner
    · exact .unionArm hunion
    · exact .leadingArm hunion hfirst
    · exact .hasOrder horder
    · exact .hasForClause hformat
    · exact .inExists hexists
  · rintro (howner | hunion | ⟨hunion, hfirst⟩ | horder | hformat | hexists)
    · exact Or.inl (Or.inl howner)
    · exact Or.inl (Or.inr (Or.inl ⟨rfl, hunion⟩))
    · exact Or.inl (Or.inr (Or.inr (Or.inl ⟨rfl, hunion, hfirst⟩)))
    · exact Or.inl (Or.inr (Or.inr (Or.inr (Or.inl ⟨rfl, horder⟩))))
    · exact Or.inl (Or.inr (Or.inr (Or.inr (Or.inr ⟨rfl, hformat⟩))))
    · exact Or.inr ⟨hexists, rfl⟩

end Site

namespace Tree

variable {text : String} {t : Tree} {s : Site}

/-- What stands around a site are parts of each other, and the parts of each have identities of
their own. -/
theorem chain_of_mem_sites (h : ofText? text = some t) (hs : s ∈ t.sites) {layers rest : List Node}
    (hancestors : s.ancestors = layers ++ rest) :
    (s.node :: layers).IsChain Node.IsPartOf ∧
      ∀ p ∈ layers, (p.children.map Node.id).Nodup := by
  obtain ⟨hholds, -⟩ := holds_ofText? h
  have hpath : s.path = s.node :: layers ++ rest := by rw [Site.path, hancestors]; rfl
  refine ⟨?_, fun p hp => hholds.nodup_children (mem_nodes_of_mem_path hholds hs p ?_)⟩
  · have hchain := (mem_sites_iff.mp hs).1
    rw [hpath] at hchain
    exact hchain.left_of_append
  · rw [hpath]
    exact List.mem_append_left _ (List.mem_cons_of_mem _ hp)

/-- The traits of a query are those it deserves by all layers of its query expression and by the
construct around them, as long as no query among them stands directly in another. Where one does,
they are those it deserves by the layers up to the first such query, as part of a subquery. -/
theorem queryTraits_deserved (h : ofText? text = some t) (hs : s ∈ t.sites) :
    (s.queryLayers.IsChain (fun c p => ¬ c.IsQueryIn p) →
      ∀ trait, trait ∈ s.queryTraits ↔ s.Deserves s.queryLayers s.ownerTraits trait) ∧
    ∀ below q outer above, s.queryLayers = below ++ q :: outer :: above →
      (below ++ [q]).IsChain (fun c p => ¬ c.IsQueryIn p) → q.IsQueryIn outer →
      ∀ trait, trait ∈ s.queryTraits ↔ s.Deserves (below ++ [q]) [.subquery] trait := by
  have hancestors : s.ancestors =
      s.queryLayers ++ s.ancestors.dropWhile (·.kind.isQueryLayer) :=
    List.takeWhile_append_dropWhile.symm
  constructor
  · intro hplain trait
    obtain ⟨hchain, hids⟩ := chain_of_mem_sites h hs hancestors
    have howner : (s.ancestors.drop s.queryLayers.length).head? = s.queryOwner? := by
      conv_lhs => rw [hancestors, List.drop_left]
      rfl
    rw [Site.mem_queryTraits_iff (QueryPlace.passed_eq hplain) hchain hids]
    unfold Site.ownerTraits
    rw [← howner]
    rfl
  · intro below q outer above hlayers hplain hq trait
    have hancestors' : s.ancestors = (below ++ [q]) ++
        outer :: (above ++ s.ancestors.dropWhile (·.kind.isQueryLayer)) := by
      conv_lhs => rw [hancestors, hlayers]
      simp
    obtain ⟨hchain, hids⟩ := chain_of_mem_sites h hs hancestors'
    have hall : ∀ p ∈ below ++ [q], p.kind.isQueryLayer := by
      intro p hp
      have hmem : p ∈ s.queryLayers := by
        rw [hlayers]
        rcases List.mem_append.mp hp with hp | hp
        · exact List.mem_append_left _ hp
        · obtain rfl := List.mem_singleton.mp hp
          simp
      exact List.mem_takeWhile_imp (p := fun n : Node => n.kind.isQueryLayer) hmem
    have hpassed : QueryPlace.passed s.ancestors = below ++ [q] := by
      rw [hancestors', List.append_assoc]
      exact QueryPlace.passed_eq_of_isQueryIn hplain hall hq
    have howner : (s.ancestors.drop (below ++ [q]).length).head? = some outer := by
      conv_lhs => rw [hancestors', List.drop_left]
      rfl
    rw [Site.mem_queryTraits_iff hpassed hchain hids, howner,
      QueryPlace.ownerTraits_of_isQuery _ _ hq.2]

/-- A query in parentheses counts as a subquery. -/
theorem queryTraits_deserved_parenthesized :
    ∃ t, ofText? "(SELECT a)" = some t ∧ ∃ s ∈ t.sites, s.queryLayers.length = 2 ∧
      .subquery ∈ s.queryTraits ∧ .outermost ∉ s.queryTraits := by
  have hrun : ((ofText? "(SELECT a)").map fun t => t.sites.any fun s =>
      (s.queryLayers.map fun n => n.kind.isQuery) == [true, true]) = some true :=
    map_ofText?_of_apart (by decide +kernel)
  obtain ⟨t, ht, hany⟩ := Option.map_eq_some_iff.mp hrun
  obtain ⟨s, hs, hkinds⟩ := List.any_eq_true.mp hany
  rw [beq_iff_eq] at hkinds
  obtain ⟨q, rest, hlayers, hquery, hrest⟩ := List.map_eq_cons_iff.mp hkinds
  obtain ⟨outer, more, rfl, houter, hmore⟩ := List.map_eq_cons_iff.mp hrest
  have htraits := (queryTraits_deserved ht hs).2 [] q outer more hlayers
    (.singleton q) ⟨hquery, houter⟩
  refine ⟨t, ht, s, hs, ?_, (htraits _).mpr (.owner (by simp)), fun houtermost => ?_⟩
  · simpa using congrArg List.length hkinds
  · cases (htraits _).mp houtermost with
    | owner howner => simp at howner

end Tree

end Portability
