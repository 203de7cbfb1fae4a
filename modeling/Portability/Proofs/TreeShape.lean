import Portability.Proofs.Apart
import Portability.Proofs.Shape.Definition
import Portability.Proofs.Parsing.Statement
import Portability.Proofs.Sites

/-! In every tree each node has the parts that its kind admits, and stands where its kind may stand.
So whoever looks at a tree can pick parts by their place. -/
namespace Portability

/-- A statement that conforms, and still does with common table expressions in front. -/
structure Node.TakesCtes (n : Node) : Prop where
  statement : n.Is Kind.isStatement
  admits : ∀ ctes : Node, ctes.kind.isWithClause = true → n.kind.Admits (ctes :: n.children)

/-- A statement that changes data. -/
def Kind.isChange : Kind → Bool
  | .insert _ | .update _ | .delete _ | .merge _ => true
  | _ => false

theorem Node.Is.takesCtes {n : Node} (h : n.Is Kind.isChange) : n.TakesCtes := by
  obtain ⟨hconforms, hkind⟩ := h
  refine ⟨⟨hconforms, ?_⟩, fun ctes _ => ?_⟩
  · cases heq : n.kind <;> first | rfl | simp [heq, Kind.isChange] at hkind
  · cases heq : n.kind <;> first | trivial | simp [heq, Kind.isChange] at hkind

namespace Parser

variable {parse : Descent}

theorem yields_afterWith_takesCtes (h : Conforming parse) :
    Yields (afterWith parse) Node.TakesCtes := by
  refine .step fun v => ?_
  split
  · exact (yields_insertStatement h fun _ => rfl).imp fun _ => Node.Is.takesCtes
  · exact (yields_updateStatement h fun _ => rfl).imp fun _ => Node.Is.takesCtes
  · exact (yields_deleteStatement h fun _ => rfl).imp fun _ => Node.Is.takesCtes
  · exact (yields_mergeStatement h fun _ => rfl).imp fun _ => Node.Is.takesCtes
  · refine .step fun start => .seq (yields_queryExpression h) fun core hcore => ?_
    refine .seq (yields_queryTail h) fun tail htail s c n c' hn => ?_
    have hquery : Yields (node .query start ([] ++ core :: tail)) (Node.Is Kind.isStatement) :=
      yields_query (by simp) hcore htail rfl
    refine ⟨hquery s c n c' hn, fun ctes hctes => ?_⟩
    obtain ⟨order, format, options, rfl, horder, hformat, hoptions⟩ := htail.split
    cases hn
    exact ⟨[ctes], core, order, format, options, by simp, ⟨by simp, by simpa using hctes⟩,
      hcore.kind, horder, hformat, hoptions⟩

theorem conforms_withFirst {n ctes : Node} (hn : n.TakesCtes) (hctes : ctes.Is Kind.isWithClause) :
    (withFirst n ctes).Is Kind.isStatement := by
  obtain ⟨⟨⟨-, hhosts, hparts⟩, hkind⟩, hadmits⟩ := hn
  refine ⟨.intro ?_ ?_ ?_, ?_⟩
  · simpa using hadmits ctes hctes.kind
  · simpa using ⟨Kind.hosts_of_isLoose _ hctes.loose.kind, hhosts⟩
  · simpa using ⟨hctes.conforms, hparts⟩
  · simpa using hkind

theorem yields_withStatement (h : Conforming parse) :
    Yields (withStatement parse) (Node.Is Kind.isStatement) := by
  refine .step fun start => .seq (yields_withClause? h) fun ctes? hctes => ?_
  split
  · rename_i ctes
    refine .seq (yields_afterWith_takesCtes h) fun n hn => ?_
    exact .amend (conforms_withFirst hn (hctes ctes rfl)) rfl rfl
  · exact .step fun _ => yields_otherStatement fun _ => rfl

theorem yields_dropStatement : Yields dropStatement (Node.Is Kind.isStatement) := by
  refine .step fun start => .step fun _ => .step fun kind => .step fun _ => .step fun names => ?_
  exact .leaf trivial rfl

theorem yields_truncateStatement : Yields truncateStatement (Node.Is Kind.isStatement) :=
  .step fun _ => .step fun _ => .step fun _ => .step fun _ => .leaf trivial rfl

theorem yields_wordStatement {kind : Kind} (hadmits : kind.Admits [])
    (hkind : kind.isStatement = true) : Yields (wordStatement kind) (Node.Is Kind.isStatement) :=
  .step fun _ => .step fun _ => .leaf hadmits hkind

theorem yields_namedStatement {make : String → Kind} (hadmits : ∀ name, (make name).Admits [])
    (hkind : ∀ name, (make name).isStatement = true) :
    Yields (namedStatement make) (Node.Is Kind.isStatement) :=
  .step fun _ => .step fun _ => .step fun name => .leaf (hadmits name) (hkind name)

theorem yields_keywordStatement (h : Conforming parse) (word : String) :
    Yields (keywordStatement parse word) (Node.Is Kind.isStatement) := by
  have hother : Yields otherStatement (Node.Is Kind.isStatement) :=
    yields_otherStatement fun _ => rfl
  unfold keywordStatement
  split
  · exact yields_queryStatement h
  · exact yields_withStatement h
  · exact yields_insertStatement h fun _ => rfl
  · exact yields_updateStatement h fun _ => rfl
  · exact yields_deleteStatement h fun _ => rfl
  · exact yields_mergeStatement h fun _ => rfl
  · exact .step fun _ => .ite yields_truncateStatement hother
  · exact yields_definitionStatement h
  · exact yields_definitionStatement h
  · exact yields_dropStatement
  · exact yields_declareStatement h (yields_tableElements h)
  · exact yields_setStatement h
  · exact yields_ifStatement h
  · exact yields_whileStatement h
  · exact yields_beginStatement h
  · exact yields_wordStatement trivial rfl
  · exact yields_wordStatement trivial rfl
  · exact yields_namedStatement (fun _ => trivial) fun _ => rfl
  · exact yields_returnStatement h
  · exact yields_waitForStatement h
  · exact yields_transactionEnd
  · exact yields_transactionEnd
  · exact yields_transactionEnd
  · exact yields_executeStatement h
  · exact yields_executeStatement h
  · exact yields_printStatement h
  · exact yields_raiserrorStatement h
  · exact yields_throwStatement h
  · exact yields_cursorStatement h _
  · exact yields_cursorStatement h _
  · exact yields_cursorStatement h _
  · exact yields_cursorStatement h _
  · exact yields_namedStatement (fun _ => trivial) fun _ => rfl
  · exact yields_permissionStatement
  · exact yields_permissionStatement
  · exact yields_permissionStatement
  · exact hother

theorem yields_statementBody (h : Conforming parse) :
    Yields (statementBody parse) (Node.Is Kind.isStatement) := by
  have hshape : Yields (statementShape parse) (Node.Is Kind.isStatement) := by
    refine .step fun v => .ite ?_ (.ite (yields_queryStatement h) ?_)
    · exact .step fun _ => .step fun _ => .step fun _ => .leaf trivial rfl
    · split
      · exact yields_keywordStatement h _
      · exact yields_otherStatement fun _ => rfl
  refine .step fun start => .seq hshape fun found hfound => .step fun pos => .ite ?_ (.ret hfound)
  exact .step fun _ => .step fun _ => .leaf trivial rfl

theorem conforming_phraseBody (h : Conforming parse) : Conforming (phraseBody parse) := by
  intro p
  cases p with
  | expression => exact yields_expressionBody h
  | negation => exact yields_negationBody h
  | signed => exact yields_signedBody h
  | query => exact yields_queryBody h
  | tableSource => exact yields_tableSourceBody h
  | statement => exact yields_statementBody h

theorem conforming_phrase (depth : Nat) : Conforming (phrase depth) := by
  induction depth with
  | zero => exact fun p => .endless
  | succ depth ih =>
    have hinside : ∀ outer left, Conforming (inside outer left (phrase depth)) :=
      fun outer left p => .step fun _ => .ite (ih p) .endless
    exact fun p => .step fun left => conforming_phraseBody (hinside p left) p

theorem yields_batch_conforms : Yields batch Node.Conforms := by
  have hstatements : ∀ depth,
      Yields (statements depth) fun ns => ∀ n ∈ ns, n.Is Kind.isStatement := by
    intro depth
    refine .loop (fun ns => ∀ n ∈ ns, n.Is Kind.isStatement) (by simp) fun ns hns => ?_
    refine .step fun v => .ite ?_ (.ite (.step fun _ => .ret hns) ?_)
    · exact .ret fun n hn => hns n (List.mem_reverse.mp hn)
    · exact .seq (conforming_phrase depth .statement) fun n hn =>
        .ret (by simpa [Round.All] using ⟨hn, hns⟩)
  have hroot : ∀ ns, (∀ n ∈ ns, n.Is Kind.isStatement) → Yields (node .batch 0 ns) Node.Loose :=
    fun ns hns => .above (fun c hc => (hns c hc).kind) (allLoose_of_is hns) rfl
  refine .step fun v => .seq (hstatements _) fun ns hns => .seq (hroot ns hns) fun root hroot => ?_
  have hwhole : Yields (amend { root with stop := v.source.size }) Node.Loose :=
    .amend hroot rfl rfl
  exact hwhole.imp fun n hn => hn.conforms

end Parser

/-- A node of a tree that conforms, and what directly encloses it unless it is the root. -/
theorem Node.Conforms.site {n : Node} {above : List Node} {s : Site} (h : n.Conforms)
    (hs : s ∈ n.sitesFrom above) : s.kind.Admits s.node.children ∧
      (s = ⟨n, above⟩ ∨ ∃ p, s.parentKind? = some p ∧ p.hosts s.kind = true) := by
  induction n using Node.induct generalizing above with
  | node n ih =>
    obtain ⟨hown, hhosts, hparts⟩ := h
    rcases Node.mem_sitesFrom.mp hs with rfl | ⟨c, hc, hs⟩
    · exact ⟨hown, Or.inl rfl⟩
    · obtain ⟨hadmits, rfl | hparent⟩ := ih c hc (hparts c hc) hs
      · exact ⟨hadmits, Or.inr ⟨n.kind, rfl, hhosts c hc⟩⟩
      · exact ⟨hadmits, Or.inr hparent⟩

namespace Tree

variable {text : String} {t : Tree}

theorem conforms_ofText? (h : ofText? text = some t) : t.root.Conforms := by
  unfold ofText? at h
  split at h
  · obtain ⟨⟨root, c⟩, hb, rfl⟩ := Option.map_eq_some_iff.mp h
    exact Parser.yields_batch_conforms _ ⟨0, #[]⟩ root c hb
  · cases h
    refine .intro (by simp [unparsed, Kind.Admits, Kind.isStatement]) ?_ ?_
    · simp [unparsed, Kind.hosts]
    · simpa [unparsed] using .intro trivial (by simp) (by simp)

/-- Each node of the tree of a text has the parts that its kind admits. Only specifications of
queries and common table expressions are bound to a place, and each stands in one. -/
theorem parts_admitted (h : ofText? text = some t) {s : Site} (hs : s ∈ t.sites) :
    s.kind.Admits s.node.children ∧
      (s.kind.isLoose = true ∨ ∃ p, s.parentKind? = some p ∧ p.hosts s.kind = true) := by
  obtain ⟨hadmits, rfl | hparent⟩ := (conforms_ofText? h).site hs
  · have hroot := (holds_ofText? h).2
    exact ⟨hadmits, Or.inl (by simp [Site.kind, hroot, Kind.isLoose])⟩
  · exact ⟨hadmits, Or.inr hparent⟩

/-- The specification of a query is bound to its place. -/
theorem parts_admitted_select : ∃ t, ofText? "SELECT 1" = some t ∧
    ∃ s ∈ t.sites, s.kind.isLoose = false ∧ s.kind.Admits s.node.children ∧
      ∃ p, s.parentKind? = some p ∧ p.hosts s.kind = true := by
  have hbound : ((ofText? "SELECT 1").map (·.sites.any (!·.kind.isLoose))) = some true :=
    map_ofText?_of_apart (by decide +kernel)
  obtain ⟨t, ht, hany⟩ := Option.map_eq_some_iff.mp hbound
  obtain ⟨s, hs, hloose⟩ := List.any_eq_true.mp hany
  rw [Bool.not_eq_true'] at hloose
  obtain ⟨hadmits, hplace⟩ := parts_admitted ht hs
  exact ⟨t, ht, s, hs, hloose, hadmits, hplace.resolve_left (by simp [hloose])⟩

end Tree

end Portability
