import Portability.Proofs.Parsing.Definition

/-! Every tree holds the nodes that were built for it, each at most once. -/
namespace Portability

namespace Parser

variable {parse : Descent} {p : Parser Node}

@[simp] theorem withFirst_id (n first : Node) : (withFirst n first).id = n.id := by
  unfold withFirst
  split <;> rfl

@[simp] theorem withFirst_kind (n first : Node) : (withFirst n first).kind = n.kind := by
  unfold withFirst
  split <;> rfl

@[simp] theorem withFirst_children (n first : Node) :
    (withFirst n first).children = first :: n.children := by
  unfold withFirst
  split <;> rfl

/-- A node that was built before another one may become its first part. -/
theorem builds_withFirst (h : Makes p) (hfits : Yields p fun n => ∀ parts, n.kind.Fits parts)
    (first : Node) :
    Builds [first] (do amend (withFirst (← p) first)) fun n => [n] := by
  intro s c a c' ha
  obtain ⟨n, d, hn, ha⟩ := Reading.bind_eq_some ha
  cases ha
  have hturns := h s c n d hn
  have hfresh : c.nodes.size ≤ n.id := by
    rcases hturns.origin n List.mem_cons_self with hnil | hle
    · cases hnil
    · exact hle
  refine ⟨fun rest hh => ?_, ?_, fun k hk => ?_⟩
  · have hlt : first.id < c.nodes.size := hh.id_lt List.mem_cons_self
    have hboth : Holds d.nodes (n :: [first] ++ rest) := hturns.holds (first :: rest) hh
    have hnew := Holds.amend hboth (withFirst_id n first) (withFirst_children n first)
      (by simp; omega) (by simpa using hfits s c n d hn _)
    simpa using hnew
  · simpa using hturns.size_le
  · cases List.mem_singleton.mp hk
    exact Or.inr (by simpa using hfresh)

/-- The statement behind common table expressions. -/
theorem makes_afterWith (h : Descends parse) : Makes (afterWith parse) := by
  refine .scan fun v => ?_
  split
  · exact makes_insertStatement h
  · exact makes_updateStatement h
  · exact makes_deleteStatement h
  · exact makes_mergeStatement h
  · refine .scan fun start => .step (makes_queryExpression h) fun body => ?_
    exact .step (makes_queryTail h) fun tail => .node (by simp) trivial

/-- What may follow `WITH` asks nothing of its parts, so one may be put in front. -/
theorem yields_afterWith : Yields (afterWith parse) fun n => ∀ parts, n.kind.Fits parts := by
  have hnode : ∀ {kind : Kind} {start : Nat} {children : List Node}, (∀ ps, kind.Fits ps) →
      Yields (node kind start children) fun n => ∀ parts, n.kind.Fits parts := by
    intro kind start children hfits
    exact .node fun n hn parts => hn ▸ hfits parts
  refine .step fun v => ?_
  split
  · refine .step fun _ => .step fun _ => .step fun _ => .step fun _ => .step fun _ => ?_
    exact .step fun _ => .step fun _ => .step fun _ => .step fun _ => hnode fun _ => trivial
  · refine .step fun _ => .step fun _ => .step fun _ => .step fun _ => .step fun _ => ?_
    refine .step fun _ => .step fun _ => .step fun _ => .step fun _ => ?_
    exact .step fun _ => hnode fun _ => trivial
  · refine .step fun _ => .step fun _ => .step fun _ => .step fun _ => .step fun _ => ?_
    refine .step fun _ => .step fun _ => .step fun _ => .step fun _ => ?_
    exact .step fun _ => hnode fun _ => trivial
  · refine .step fun _ => .step fun _ => .step fun _ => .step fun _ => .step fun _ => ?_
    refine .step fun _ => .step fun _ => .step fun _ => .step fun _ => ?_
    exact .step fun _ => .step fun _ => .step fun _ => hnode fun _ => trivial
  · exact .step fun _ => .step fun _ => .step fun _ => hnode fun _ => trivial

/-- The common table expressions become the first part of what follows them. -/
theorem makes_withStatement (h : Descends parse) : Makes (withStatement parse) := by
  refine .scan fun start => .step (builds_withClause? h) fun ctes? => ?_
  split
  · exact builds_withFirst (makes_afterWith h) yields_afterWith _
  · exact .scan fun _ => makes_otherStatement

theorem makes_wordStatement {kind : Kind} (h : kind.Fits []) : Makes (wordStatement kind) := by
  refine .scan fun start => .scan fun _ => ?_
  exact .leaf h

theorem makes_namedStatement {make : String → Kind} (h : ∀ name, (make name).Fits []) :
    Makes (namedStatement make) := by
  refine .scan fun start => .scan fun _ => .scan fun name => ?_
  exact .leaf (h name)

theorem makes_labelStatement : Makes labelStatement := by
  refine .scan fun start => .scan fun name => .scan fun _ => ?_
  exact .leaf trivial

theorem makes_keywordStatement (h : Descends parse) (word : String) :
    Makes (keywordStatement parse word) := by
  unfold keywordStatement
  split
  · exact makes_queryStatement h
  · exact makes_withStatement h
  · exact makes_insertStatement h
  · exact makes_updateStatement h
  · exact makes_deleteStatement h
  · exact makes_mergeStatement h
  · exact .scan fun _ => .ite makes_truncateStatement makes_otherStatement
  · exact makes_definitionStatement h
  · exact makes_definitionStatement h
  · exact makes_dropStatement
  · exact makes_declareStatement h (makes_tableElements h)
  · exact makes_setStatement h
  · exact makes_ifStatement h
  · exact makes_whileStatement h
  · exact makes_beginStatement h
  · exact makes_wordStatement trivial
  · exact makes_wordStatement trivial
  · exact makes_namedStatement fun _ => trivial
  · exact makes_returnStatement h
  · exact makes_waitForStatement h
  · exact makes_transactionEnd
  · exact makes_transactionEnd
  · exact makes_transactionEnd
  · exact makes_executeStatement h
  · exact makes_executeStatement h
  · exact makes_printStatement h
  · exact makes_raiserrorStatement h
  · exact makes_throwStatement h
  · exact makes_cursorStatement h (by decide)
  · exact makes_cursorStatement h (by decide)
  · exact makes_cursorStatement h (by decide)
  · exact makes_cursorStatement h (by decide)
  · exact makes_namedStatement fun _ => trivial
  · exact makes_permissionStatement
  · exact makes_permissionStatement
  · exact makes_permissionStatement
  · exact makes_otherStatement

/-- Every statement, told by the word it begins with. -/
theorem makes_statementShape (h : Descends parse) : Makes (statementShape parse) := by
  refine .scan fun v => .ite makes_labelStatement (.ite (makes_queryStatement h) ?_)
  split
  · exact makes_keywordStatement h _
  · exact makes_otherStatement

/-- A statement that reads nothing is dropped for one that reads a token. -/
theorem makes_statementBody (h : Descends parse) : Makes (statementBody parse) := by
  refine .scan fun start => .step (makes_statementShape h) fun found => .scan fun pos => .ite ?_ ?_
  · exact .scan fun _ => .scan fun _ => .leaf trivial
  · exact .ret (by simp)

/-- One level of the grammar, over parsers of all phrases. -/
theorem makes_phraseBody (h : Descends parse) : Descends (phraseBody parse) := by
  intro p
  cases p with
  | expression => exact makes_expressionBody h
  | negation => exact makes_negationBody h
  | signed => exact makes_signedBody h
  | query => exact makes_queryBody h
  | tableSource => exact makes_tableSourceBody h
  | statement => exact makes_statementBody h

/-- The parsers of all phrases, at every depth of nesting; by induction on the depth. -/
theorem descends_phrase (depth : Nat) : Descends (phrase depth) := by
  induction depth with
  | zero => exact fun p => .endless
  | succ depth ih =>
    have hinside : ∀ outer origin, Descends (inside outer origin (phrase depth)) :=
      fun outer origin p => .scan fun pos => .ite (ih p) .endless
    exact fun p => .scan fun origin => makes_phraseBody (hinside p origin) p

/-- The statements of a batch are held until the root takes them. -/
theorem makes_statements (depth : Nat) : MakesAll (statements depth) := by
  refine .loop (fun found => found.reverse) (by simp) fun found => .scan fun v => ?_
  refine .ite (.ret (by simp)) (.ite (.scan fun _ => .ret (by simp)) ?_)
  exact .step (descends_phrase depth .statement) fun n => .ret (by simp)

/-- The root of a batch stands over its statements. -/
theorem makes_batch : Makes batch := by
  refine .scan fun v => .step (makes_statements _) fun found => ?_
  exact .seq (.node (by simp) trivial) fun root => .amend rfl rfl rfl

theorem yields_batch : Yields batch fun root => root.kind = .batch := by
  refine .step fun v => .step fun found => .seq (.node fun n hn => hn) fun root hroot => ?_
  intro s c a c' ha
  cases ha
  exact hroot

end Parser

namespace Tree

variable {text : String} {source : Source} {t : Tree}

theorem holds_unparsed (message : String) :
    Holds (unparsed message).nodes [(unparsed message).root] := by
  have hleaf := Holds.nil.push (n := ⟨0, .unparsed message, 1, 0, 0, []⟩) rfl rfl
  exact Holds.push (n := (unparsed message).root) hleaf rfl trivial

/-- A tree that is read from a source holds its root alone. -/
theorem holds_ofSource? (h : ofSource? source = some t) :
    Holds t.nodes [t.root] ∧ t.root.kind = .batch := by
  obtain ⟨⟨root, c⟩, hb, rfl⟩ := Option.map_eq_some_iff.mp h
  have hturns := Parser.makes_batch source ⟨0, #[]⟩ root c hb
  exact ⟨hturns.holds [] Holds.nil, Parser.yields_batch source ⟨0, #[]⟩ root c hb⟩

/-- The tree of every text is well formed, and its root is a batch that no node holds. -/
theorem holds_ofText? (h : ofText? text = some t) :
    Holds t.nodes [t.root] ∧ t.root.kind = .batch := by
  unfold ofText? at h
  split at h
  · exact holds_ofSource? h
  · cases h
    exact ⟨holds_unparsed _, rfl⟩

end Tree

end Portability
