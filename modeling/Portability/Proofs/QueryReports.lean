import Mathlib
import Portability.Proofs.Coverage

/-! What the queries of a batch leave behind: each is reported once, when its last part was walked,
with the traits of its place and those of its own clauses. -/
namespace Portability

mutual

/-- A node and everything below it, each after its parts, with what encloses it. -/
def Node.completionsFrom (above : List Node) : Node → List Site
  | n@⟨_, _, _, _, _, children⟩ => completionsOfParts (n :: above) children ++ [⟨n, above⟩]

/-- Several neighbours and everything below them, each after its parts. -/
def completionsOfParts (above : List Node) : List Node → List Site
  | [] => []
  | n :: rest => n.completionsFrom above ++ completionsOfParts above rest

end

/-- The sites of a tree in the order in which a walk is done with them. -/
def Tree.completions (t : Tree) : List Site := t.root.completionsFrom []

/-- The trait that an `INTO` clause gives. The last part of the target names the object: two number
signs before it make the object temporary for all sessions, one for its own session. -/
def QueryTrait.ofInto (target : Name) : QueryTrait :=
  match (target.parts.getLastD "").toList with
  | '#' :: '#' :: _ => .intoGlobalTemporary
  | '#' :: _ => .intoTemporary
  | _ => .intoTable

/-- The traits that a query has from its own clauses. -/
def Node.clauseTraits (n : Node) : List QueryTrait :=
  (if n.hasChild fun | .top .. => true | _ => false then [.hasTop] else []) ++
    (if n.hasChild fun | .fromClause => true | _ => false then [.hasFrom] else []) ++
    (if n.hasChild fun | .variableAssignment .. => true | _ => false then [.assignsVariable]
      else []) ++
    n.children.filterMap fun c =>
      match c.kind with
      | .into target => some (.ofInto (Name.resolve target))
      | _ => none

/-- All traits of a query: those of its place and those of its own clauses. -/
def Site.allTraits (site : Site) : List QueryTrait := site.queryTraits ++ site.node.clauseTraits

/-- What is to be reported on a query. -/
def Scope.queryReports (s : Scope) (site : Site) : List Report :=
  let traits := site.allTraits
  let detail := s.text site.node
  match site.kind with
  | .querySpec _ =>
    .item .select (QueryTrait.shape traits) detail site.node.line ::
      (Report.onlyIf (.hasTop ∈ traits ∧ .hasOrder ∉ traits ∧ .inExists ∉ traits)
          (.topic .topWithoutOrder "TOP without ORDER BY" detail site.node.line) ++
        Report.onlyIf (QueryTrait.isUnordered traits)
          (.topic .resultWithoutOrder "Result set without ORDER BY" detail site.node.line))
  | _ => []

theorem QueryTrait.collapse_shape (traits : List QueryTrait) :
    Text.collapse (shape traits) = shape traits := by
  unfold shape
  repeat' split
  all_goals decide +kernel

/-- The names under which queries are reported are shown as they are. -/
theorem Scope.collapse_display {s : Scope} {site : Site} {r : Report}
    (h : r ∈ s.queryReports site) :
    Text.collapse r.display = r.display := by
  unfold queryReports at h
  split at h
  · simp only [List.mem_cons, List.mem_append, Report.mem_onlyIf] at h
    rcases h with rfl | ⟨-, rfl⟩ | ⟨-, rfl⟩
    · exact QueryTrait.collapse_shape _
    · show Text.collapse "TOP without ORDER BY" = "TOP without ORDER BY"
      decide +kernel
    · show Text.collapse "Result set without ORDER BY" = "Result set without ORDER BY"
      decide +kernel
  · cases h

theorem completionsOfParts_eq (above ns : List Node) :
    completionsOfParts above ns = ns.flatMap (·.completionsFrom above) := by
  induction ns with
  | nil => rfl
  | cons n rest ih => rw [completionsOfParts, ih, List.flatMap_cons]

theorem Node.completionsFrom_eq (above : List Node) (n : Node) :
    n.completionsFrom above =
      n.children.flatMap (·.completionsFrom (n :: above)) ++ [⟨n, above⟩] := by
  cases n
  rw [Node.completionsFrom, completionsOfParts_eq]

/-- The two orders of the sites of a tree list the same sites. -/
theorem Node.completionsFrom_perm (above : List Node) (n : Node) :
    (n.completionsFrom above).Perm (n.sitesFrom above) := by
  induction n using Node.induct generalizing above with
  | node n ih =>
    rw [Node.completionsFrom_eq, Node.sitesFrom_eq]
    refine List.perm_append_comm.trans (List.Perm.cons _ ?_)
    exact List.Perm.flatMap_left _ fun c hc => ih c hc _

/-! ### Traits -/

theorem Node.hasChild_iff {n : Node} {test : Kind → Bool} :
    n.hasChild test = true ↔ ∃ c ∈ n.children, test c.kind = true := List.any_eq_true

theorem mem_singleton_if {c : Prop} [Decidable c] {t u : QueryTrait} :
    t ∈ (if c then [u] else []) ↔ c ∧ t = u := by
  split <;> simp_all

theorem QueryTrait.ofInto_eq (target : Name) :
    ofInto target = if target.isGlobalTemporary then .intoGlobalTemporary
      else if target.isTemporary then .intoTemporary else .intoTable := by
  rw [Name.isGlobalTemporary, Name.isTemporary, Name.object, ofInto]
  generalize (target.parts.getLastD "").toList = cs
  split
  · rfl
  · next rest hnot =>
    have hsecond : rest.head? ≠ some '#' := by
      intro hhead
      obtain ⟨more, rfl⟩ := List.head?_eq_some_iff.mp hhead
      exact hnot more rfl
    cases rest with
    | nil => rfl
    | cons c more =>
      have hc : '#' ≠ c := fun heq => hsecond (congrArg some heq.symm)
      simp [hc]
  · next hboth hone =>
    have hfirst : cs.head? ≠ some '#' := by
      intro hhead
      obtain ⟨rest, rfl⟩ := List.head?_eq_some_iff.mp hhead
      exact hone rest rfl
    cases cs with
    | nil => rfl
    | cons c rest =>
      have hc : '#' ≠ c := fun heq => hfirst (congrArg some heq.symm)
      simp [hc, hc.symm]

/-- The walk tells targets apart by the number signs before the names of the objects. -/
theorem QueryTrait.ofTarget_eq (target : String) : ofTarget target = ofInto (.resolve target) := by
  rw [ofInto_eq, ofTarget]

/-- The traits from clauses are those that the parts of the query give it. -/
theorem Node.mem_clauseTraits {n : Node} {t : QueryTrait} :
    t ∈ n.clauseTraits ↔ ∃ c ∈ n.children, c.kind.clauseTrait? = some t := by
  simp only [clauseTraits, List.mem_append, mem_singleton_if, hasChild_iff, List.mem_filterMap]
  constructor
  · rintro (((⟨⟨c, hc, hkind⟩, rfl⟩ | ⟨⟨c, hc, hkind⟩, rfl⟩) | ⟨⟨c, hc, hkind⟩, rfl⟩) |
      ⟨c, hc, hkind⟩)
    all_goals
      refine ⟨c, hc, ?_⟩
      split at hkind <;> simp_all [Kind.clauseTrait?, QueryTrait.ofTarget_eq]
  · rintro ⟨c, hc, hkind⟩
    unfold Kind.clauseTrait? at hkind
    split at hkind
    case h_1 h => exact Or.inl (Or.inl (Or.inl ⟨⟨c, hc, by rw [h]⟩, by simpa using hkind.symm⟩))
    case h_2 h =>
      rw [QueryTrait.ofTarget_eq] at hkind
      exact Or.inr ⟨c, hc, by rw [h]; exact hkind⟩
    case h_3 h => exact Or.inl (Or.inl (Or.inr ⟨⟨c, hc, by rw [h]⟩, by simpa using hkind.symm⟩))
    case h_4 h => exact Or.inl (Or.inr ⟨⟨c, hc, by rw [h]⟩, by simpa using hkind.symm⟩)
    case h_5 => cases hkind

theorem QueryTrait.shape_congr {a b : List QueryTrait} (h : ∀ t, t ∈ a ↔ t ∈ b) :
    shape a = shape b := by
  simp only [shape, h]

theorem QueryTrait.isUnordered_congr {a b : List QueryTrait} (h : ∀ t, t ∈ a ↔ t ∈ b) :
    isUnordered a = isUnordered b := by
  simp only [isUnordered, h]

/-! ### The stack of open queries -/

/-- The query with the traits that clauses give it, one after the other. -/
def OpenQuery.withClauses (q : OpenQuery) (clauses : List Node) : OpenQuery :=
  { q with traits := (clauses.filterMap (·.kind.clauseTrait?)).reverse ++ q.traits }

theorem OpenQuery.withClauses_cons (q : OpenQuery) (c : Node) (rest : List Node) :
    (q.withClauses [c]).withClauses rest = q.withClauses (c :: rest) := by
  unfold withClauses
  cases h : c.kind.clauseTrait? <;> simp [h]

theorem Site.isInSpec_cons {c n : Node} {above : List Node} {distinct : Bool}
    (h : n.kind = .querySpec distinct) : Site.isInSpec ⟨c, n :: above⟩ = true := by
  simp [Site.isInSpec, Site.parentKind?, h]

theorem Site.not_isInSpec_cons {c n : Node} {above : List Node}
    (h : ∀ distinct, n.kind ≠ .querySpec distinct) : Site.isInSpec ⟨c, n :: above⟩ = false := by
  simp only [Site.isInSpec, Site.parentKind?, List.head?_cons, Option.map_some]
  split
  · rename_i distinct hkind
    exact absurd (Option.some.inj hkind) (h distinct)
  · rfl

namespace QueryStack

variable {q : QueryStack} {stack : List OpenQuery} {site : Site} {n : Node} {above ns : List Node}

/-- The open queries after a site was walked: a clause gives its trait, all else is as before. -/
def after (stack : List OpenQuery) (site : Site) : List OpenQuery :=
  match stack with
  | [] => []
  | q :: rest => (if site.isInSpec then q.withClauses [site.node] else q) :: rest

theorem addClause_queries : (q.addClause site).queries = after q.queries site := by
  unfold addClause after
  cases hq : q.queries with
  | nil => split <;> simp [add, hq]
  | cons top rest =>
    cases htrait : site.kind.clauseTrait? with
    | none => simp [OpenQuery.withClauses, show site.node.kind.clauseTrait? = none from htrait, hq]
    | some trait =>
      have hnode : site.node.kind.clauseTrait? = some trait := htrait
      by_cases hspec : site.isInSpec <;> simp [hspec, add, hq, OpenQuery.withClauses, hnode]

theorem enter_queries (h : ∀ distinct, site.kind ≠ .querySpec distinct) :
    (q.enter site).queries = after q.queries site := by
  unfold enter
  split
  · rename_i distinct hkind
    exact absurd hkind (h distinct)
  · exact addClause_queries

theorem leave_eq (h : ∀ distinct, n.kind ≠ .querySpec distinct) : q.leave n = q := by
  unfold leave
  split
  · rename_i distinct hkind
    exact absurd hkind (h distinct)
  · rfl

/-- The parts of a query all give their traits to it. -/
theorem foldl_after_querySpec {distinct : Bool} (h : n.kind = .querySpec distinct)
    (top : OpenQuery) (rest : List OpenQuery) :
    ns.foldl (fun st c => after st ⟨c, n :: above⟩) (top :: rest) =
      top.withClauses ns :: rest := by
  induction ns generalizing top with
  | nil => simp [OpenQuery.withClauses]
  | cons c ns ih =>
    have hgive : after (top :: rest) ⟨c, n :: above⟩ = top.withClauses [c] :: rest := by
      simp [after, Site.isInSpec_cons h]
    rw [List.foldl_cons, hgive, ih, OpenQuery.withClauses_cons]

/-- The parts of other constructs give no traits. -/
theorem foldl_after (h : ∀ distinct, n.kind ≠ .querySpec distinct) :
    ns.foldl (fun st c => after st ⟨c, n :: above⟩) stack = stack := by
  induction ns with
  | nil => rfl
  | cons c ns ih =>
    have hkeep : after stack ⟨c, n :: above⟩ = stack := by
      unfold after
      cases stack <;> simp [Site.not_isInSpec_cons h]
    rw [List.foldl_cons, hkeep, ih]

end QueryStack

namespace Survey

variable {s : Scope} {w : Walk} {n : Node} {above ns : List Node}

/-- The reports among sightings whose verdicts are held back. -/
def queued (sightings : List Sighting) : List Report :=
  (sightings.filter (·.isQueued == true)).map (·.report)

@[simp] theorem queued_nil : queued [] = [] := rfl

@[simp] theorem queued_append (a b : List Sighting) : queued (a ++ b) = queued a ++ queued b := by
  simp [queued]

@[simp] theorem queued_prompt (w : Walk) (rs : List Report) :
    queued (rs.map (w.sighting false)) = [] := by
  simp [queued, Walk.sighting]

@[simp] theorem queued_held (w : Walk) (rs : List Report) :
    queued (rs.map (w.sighting true)) = rs := by
  induction rs with
  | nil => rfl
  | cons r rs ih => simpa [queued, Walk.sighting] using ih

/-- What the walk over a site leaves of the open queries, and which reports it holds back. -/
def WalksQueries (s : Scope) (above : List Node) (n : Node) : Prop :=
  ∀ w, (ofNode s above w n).2.queries.queries = QueryStack.after w.queries.queries ⟨n, above⟩ ∧
    queued (ofNode s above w n).1 = (n.completionsFrom above).flatMap s.queryReports

theorem ofParts_queries (h : ∀ c ∈ ns, WalksQueries s above c) :
    (ofParts s above w ns).2.queries.queries =
        ns.foldl (fun st c => QueryStack.after st ⟨c, above⟩) w.queries.queries ∧
      queued (ofParts s above w ns).1 =
        (ns.flatMap (·.completionsFrom above)).flatMap s.queryReports := by
  induction ns generalizing w with
  | nil => exact ⟨rfl, rfl⟩
  | cons n rest ih =>
    obtain ⟨hstack, hqueued⟩ := h n List.mem_cons_self w
    obtain ⟨hstacks, hrest⟩ := ih (w := (ofNode s above w n).2) fun c hc =>
      h c (List.mem_cons_of_mem n hc)
    rw [ofParts_cons]
    refine ⟨?_, ?_⟩
    · rw [hstacks, List.foldl_cons, hstack]
    · simp [hqueued, hrest]

/-- The reports on a query with all its clauses are those that its site calls for. -/
theorem closing_withClauses {distinct : Bool} (hkind : n.kind = .querySpec distinct)
    (number : Nat) :
    closing s n (OpenQuery.withClauses ⟨number, n.id, n.line, Site.queryTraits ⟨n, above⟩⟩
      n.children) = s.queryReports ⟨n, above⟩ := by
  have hmem : ∀ t, t ∈ (n.children.filterMap (·.kind.clauseTrait?)).reverse ++
      Site.queryTraits ⟨n, above⟩ ↔ t ∈ Site.allTraits ⟨n, above⟩ := by
    intro t
    simp [Site.allTraits, Node.mem_clauseTraits, or_comm]
  simp only [closing, OpenQuery.withClauses, Scope.queryReports, Site.kind, hkind,
    QueryTrait.shape_congr hmem, QueryTrait.isUnordered_congr hmem, QueryTrait.isTopWithoutOrder,
    hmem]
  simp [Bool.and_assoc]

theorem walksQueries_querySpec {distinct : Bool} (hkind : n.kind = .querySpec distinct)
    (h : ∀ c ∈ n.children, WalksQueries s (n :: above) c) : WalksQueries s above n := by
  intro w
  have hopen : isOpaque n.kind → n.children = [] := by simp [hkind, isOpaque]
  have hpush : (w.enter ⟨n, above⟩).queries.queries =
      ⟨w.queries.opened + 1, n.id, n.line, Site.queryTraits ⟨n, above⟩⟩ :: w.queries.queries := by
    simp [Walk.enter, QueryStack.enter, Site.kind, hkind, QueryStack.push]
  obtain ⟨hstack, hqueued⟩ := ofParts_queries (w := w.enter ⟨n, above⟩) h
  rw [hpush, QueryStack.foldl_after_querySpec hkind] at hstack
  rw [ofNode_eq hopen]
  have htop : ((ofParts s (n :: above) (w.enter ⟨n, above⟩) n.children).2.queries.top? n.id) =
      some (OpenQuery.withClauses ⟨w.queries.opened + 1, n.id, n.line,
        Site.queryTraits ⟨n, above⟩⟩ n.children) := by
    simp [QueryStack.top?, hstack, OpenQuery.withClauses]
  constructor
  · simp only [Walk.leave, QueryStack.leave, hkind, QueryStack.pop, htop, hstack, List.tail_cons]
    unfold QueryStack.after
    cases w.queries.queries <;> simp [OpenQuery.withClauses, hkind, Kind.clauseTrait?]
  · simp only [queued_append, queued_prompt, queued_held, hqueued, closingReports, hkind, htop,
      closing_withClauses hkind]
    rw [Node.completionsFrom_eq]
    simp

theorem walksQueries_other (hkind : ∀ distinct, n.kind ≠ .querySpec distinct)
    (hopen : isOpaque n.kind → n.children = [])
    (h : ∀ c ∈ n.children, WalksQueries s (n :: above) c) : WalksQueries s above n := by
  intro w
  obtain ⟨hstack, hqueued⟩ := ofParts_queries (w := w.enter ⟨n, above⟩) h
  rw [QueryStack.foldl_after hkind] at hstack
  have henter : (w.enter ⟨n, above⟩).queries.queries =
      QueryStack.after w.queries.queries ⟨n, above⟩ :=
    QueryStack.enter_queries hkind
  have hclosing : ∀ w', closingReports s w' n = [] := by
    intro w'
    unfold closingReports
    split
    · rename_i distinct hspec
      exact absurd hspec (hkind distinct)
    · rfl
  have hnone : s.queryReports ⟨n, above⟩ = [] := by
    unfold Scope.queryReports
    split
    · rename_i distinct hspec
      exact absurd hspec (hkind distinct)
    · rfl
  rw [ofNode_eq hopen]
  constructor
  · simp [Walk.leave, QueryStack.leave_eq hkind, hstack, henter]
  · rw [Node.completionsFrom_eq]
    simp [hclosing, hqueued, hnone]

/-- The walk over a node leaves the open queries as they were, apart from the trait that the node
itself gives, and reports the queries below it once each. -/
theorem walksQueries (hopen : ∀ site ∈ n.sitesFrom above, isOpaque site.kind →
    site.node.children = []) : WalksQueries s above n := by
  induction n using Node.induct generalizing above with
  | node n ih =>
    have hparts : ∀ c ∈ n.children, WalksQueries s (n :: above) c := by
      intro c hc
      exact ih c hc fun site hsite => hopen site (Node.mem_sitesFrom.mpr (Or.inr ⟨c, hc, hsite⟩))
    by_cases hspec : ∃ distinct, n.kind = .querySpec distinct
    · obtain ⟨distinct, hkind⟩ := hspec
      exact walksQueries_querySpec hkind hparts
    · have hkind : ∀ distinct, n.kind ≠ .querySpec distinct := fun d hd => hspec ⟨d, hd⟩
      exact walksQueries_other hkind (hopen ⟨n, above⟩ (Node.mem_sitesFrom.mpr (Or.inl rfl))) hparts

/-- The walk over a batch leaves no query open, so that to clear the stack for the next batch
changes nothing. -/
theorem clear_ofNode {text : String} (h : Tree.ofText? text = some s.tree) (database : String) :
    let w := (ofNode s [] { database } s.tree.root).2
    w.queries.clear = w.queries := by
  intro w
  have hstack : w.queries.queries = [] :=
    (walksQueries (children_eq_nil_of_isOpaque h) { database }).1
  rw [QueryStack.clear, ← hstack]

/-- The queries of a batch are reported in the order in which their last parts were walked. -/
theorem queued_ofBatch {text : String} (h : Tree.ofText? text = some s.tree) (database : String) :
    queued (ofBatch s database).1 = s.tree.completions.flatMap s.queryReports := by
  exact (walksQueries (children_eq_nil_of_isOpaque h) { database }).2

end Survey

namespace Analysis

variable {s : Scope} {j : Judge} {place : BatchPlace} {b : Batch} {text database : String}

/-- The findings that a batch holds back are the verdicts on its queries and nothing else: each
query of the tree is reported once, in the order in which they are completed, with the traits of its
place and of its own clauses. -/
theorem queued_findings {found : List Finding} (h : Tree.ofText? text = some s.tree)
    (hfound : j.findings place (surveyBatch s database b).1 = .ok found) :
    let sightings := (surveyBatch s database b).1
    let held := sightings.filter (·.isQueued == true)
    held.map (·.report) = s.tree.completions.flatMap s.queryReports ∧
      s.tree.completions.Perm s.tree.sites ∧ (s.tree.completions.map (·.node.id)).Nodup ∧
      ∃ prompt queued, found = prompt ++ queued ∧
        (sightings.filter (·.isQueued == false)).mapM (j.finding place) = .ok prompt ∧
        held.mapM (j.finding place) = .ok queued ∧
        queued.map (·.item) = (s.tree.completions.flatMap s.queryReports).map (·.display) := by
  intro sightings held
  have hreports : held.map (·.report) = s.tree.completions.flatMap s.queryReports := by
    rw [← Survey.queued_ofBatch h database]
    simp [held, sightings, surveyBatch, Survey.queued, List.filter_map, Function.comp_def]
  have hperm : s.tree.completions.Perm s.tree.sites := Node.completionsFrom_perm [] s.tree.root
  have honce : (s.tree.completions.map (·.node.id)).Nodup :=
    (hperm.map _).nodup_iff.mpr (Tree.nodup_site_ids (Tree.holds_ofText? h).1)
  refine ⟨hreports, hperm, honce, ?_⟩
  obtain ⟨prompt, queued, rfl, hprompt, hqueued⟩ := Judge.findings_eq_ok hfound
  refine ⟨prompt, queued, rfl, hprompt, hqueued, ?_⟩
  rw [map_of_mapM (fun _ _ => Judge.item_of_finding) hqueued, ← hreports, List.map_map]
  refine List.map_congr_left fun sighting hmem => ?_
  have hreport : sighting.report ∈ s.tree.completions.flatMap s.queryReports :=
    hreports ▸ List.mem_map_of_mem hmem
  obtain ⟨site, -, hsite⟩ := List.mem_flatMap.mp hreport
  exact Scope.collapse_display hsite

/-- A query with `TOP` and without an order is reported twice, and one into a table by the kind of
the table. -/
theorem queued_findings_into :
    ∃ t found queued,
      let s : Scope := ⟨.default, "dbo", ⟨128, []⟩, {}, true, t⟩
      let j : Judge := ⟨.default, Matrix.Default.v200, {}⟩
      Tree.ofText?
          "SELECT TOP 1 a SELECT b INTO #t SELECT c INTO ##t SELECT d INTO t SELECT e FROM t" =
        some t ∧
        j.findings {} (surveyBatch s "" ⟨1, "", 1, none, []⟩).1 = .ok found ∧
        queued <:+ found ∧
        queued.map (·.item) = ["SELECT", "TOP without ORDER BY", "SELECT..INTO #tmp",
          "SELECT..INTO ##tmp", "SELECT..INTO table", "SELECT", "Result set without ORDER BY"] := by
  have hrun : ((Tree.ofText?
      "SELECT TOP 1 a SELECT b INTO #t SELECT c INTO ##t SELECT d INTO t SELECT e FROM t").map
    fun t =>
      let s : Scope := ⟨.default, "dbo", ⟨128, []⟩, {}, true, t⟩
      (t.sites.any (Survey.atCursor ·.kind),
        (t.completions.flatMap s.queryReports).map (·.display))) =
      some (false, ["SELECT", "TOP without ORDER BY", "SELECT..INTO #tmp", "SELECT..INTO ##tmp",
        "SELECT..INTO table", "SELECT", "Result set without ORDER BY"]) :=
    Tree.map_ofText?_of_apart (by decide +kernel)
  obtain ⟨t, ht, hboth⟩ := Option.map_eq_some_iff.mp hrun
  obtain ⟨hcalm, hitems⟩ := Prod.mk.inj hboth
  let s : Scope := ⟨.default, "dbo", ⟨128, []⟩, {}, true, t⟩
  let j : Judge := ⟨.default, Matrix.Default.v200, {}⟩
  obtain ⟨o, ho⟩ : ∃ o, j.outcome {} (surveyBatch s "" ⟨1, "", 1, none, []⟩).1 = .ok o := by
    refine outcome_of_covers Matrix.Default.covers rfl ht ?_
    rintro ⟨site, hsite, hat⟩
    exact List.any_eq_false.mp hcalm site hsite hat
  obtain ⟨found, hfound, -⟩ := exists_of_bind_eq_ok ho
  obtain ⟨-, -, -, prompt, queued, rfl, -, -, hqueued⟩ := queued_findings ht hfound
  exact ⟨t, _, queued, ht, hfound, List.suffix_append _ _, hqueued.trans hitems⟩

end Analysis

end Portability
