import Portability.Analysis
import Portability.Proofs.WellFormed

/-! One step of the walk over a tree, and the walk over neighbours. The walk comes to every node:
what it reports is what the nodes report, and the database in use is what the nodes made of it. -/
namespace Portability

namespace Survey

variable {s : Scope} {above : List Node} {w : Walk} {n : Node}

/-- What a walk sees below a node. Constructs that are not looked into have no parts. -/
theorem ofNode_eq (h : isOpaque n.kind → n.children = []) :
    ofNode s above w n =
      let inside := w.enter ⟨n, above⟩
      let below := ofParts s (n :: above) inside n.children
      ((reports s inside ⟨n, above⟩).map (inside.sighting false) ++ below.1 ++
        (closingReports s below.2 n).map (below.2.sighting true), below.2.leave n) := by
  obtain ⟨id, kind, line, start, stop, children⟩ := n
  rw [ofNode]
  by_cases hshut : isOpaque kind
  · have hnil : children = [] := h hshut
    subst hnil
    simp [hshut, ofParts]
  · simp [hshut]

theorem ofParts_cons (n : Node) (rest : List Node) :
    ofParts s above w (n :: rest) =
      ((ofNode s above w n).1 ++ (ofParts s above (ofNode s above w n).2 rest).1,
        (ofParts s above (ofNode s above w n).2 rest).2) := rfl

/-- In the tree of a text, nothing stands below the constructs that are not looked into. -/
theorem children_eq_nil_of_isOpaque {text : String} {t : Tree} (h : Tree.ofText? text = some t) :
    ∀ site ∈ t.sites, isOpaque site.kind → site.node.children = [] := by
  intro site hsite hshut
  have hfits := Tree.fits_of_mem_sites h hsite
  revert hfits hshut
  unfold isOpaque
  split <;> simp_all [Kind.Fits]

theorem mem_ofParts {ns : List Node} {x : Sighting} (hx : x ∈ (ofParts s above w ns).1) :
    ∃ c ∈ ns, ∃ w', x ∈ (ofNode s above w' c).1 := by
  induction ns generalizing w with
  | nil => simp [ofParts] at hx
  | cons n rest ih =>
    rw [ofParts_cons] at hx
    rcases List.mem_append.mp hx with hx | hx
    · exact ⟨n, List.mem_cons_self, w, hx⟩
    · obtain ⟨c, hc, w', hx⟩ := ih hx
      exact ⟨c, List.mem_cons_of_mem n hc, w', hx⟩

/-- Whatever a walk sights was reported on some node, and held back if the node left it behind. -/
theorem mem_ofNode_cases
    (hopen : ∀ site ∈ n.sitesFrom above, isOpaque site.kind → site.node.children = [])
    {x : Sighting} (hx : x ∈ (ofNode s above w n).1) :
    ∃ site ∈ n.sitesFrom above, ∃ w',
      x.isQueued = false ∧ x.report ∈ reports s w' site ∨
        x.isQueued = true ∧ x.report ∈ closingReports s w' site.node := by
  induction n using Node.induct generalizing above w with
  | node n ih =>
    have hself : (⟨n, above⟩ : Site) ∈ n.sitesFrom above := Node.mem_sitesFrom.mpr (Or.inl rfl)
    rw [ofNode_eq (hopen ⟨n, above⟩ hself)] at hx
    simp only [List.mem_append, List.mem_map] at hx
    obtain (⟨r, hr, rfl⟩ | hx) | ⟨r, hr, rfl⟩ := hx
    · exact ⟨⟨n, above⟩, hself, _, Or.inl ⟨rfl, hr⟩⟩
    · obtain ⟨c, hc, w', hx⟩ := mem_ofParts hx
      have hbelow : ∀ site ∈ c.sitesFrom (n :: above), site ∈ n.sitesFrom above :=
        fun site hsite => Node.mem_sitesFrom.mpr (Or.inr ⟨c, hc, hsite⟩)
      obtain ⟨site, hsite, hreport⟩ :=
        ih c hc (fun site hsite => hopen site (hbelow site hsite)) hx
      exact ⟨site, hbelow site hsite, hreport⟩
    · exact ⟨⟨n, above⟩, hself, _, Or.inr ⟨rfl, hr⟩⟩

theorem mem_ofNode
    (hopen : ∀ site ∈ n.sitesFrom above, isOpaque site.kind → site.node.children = [])
    {x : Sighting} (hx : x ∈ (ofNode s above w n).1) :
    ∃ site ∈ n.sitesFrom above, ∃ w',
      x.report ∈ reports s w' site ∨ x.report ∈ closingReports s w' site.node := by
  obtain ⟨site, hsite, w', ⟨-, hreport⟩ | ⟨-, hreport⟩⟩ := mem_ofNode_cases hopen hx
  · exact ⟨site, hsite, w', Or.inl hreport⟩
  · exact ⟨site, hsite, w', Or.inr hreport⟩

theorem mem_ofParts_of_mem {ns : List Node} {c : Node} (hc : c ∈ ns) :
    ∃ w', ∀ x ∈ (ofNode s above w' c).1, x ∈ (ofParts s above w ns).1 := by
  induction ns generalizing w with
  | nil => simp at hc
  | cons n rest ih =>
    simp only [ofParts_cons, List.mem_append]
    rcases List.mem_cons.mp hc with rfl | hc
    · exact ⟨w, fun x hx => Or.inl hx⟩
    · obtain ⟨w', hw'⟩ := ih (w := (ofNode s above w n).2) hc
      exact ⟨w', fun x hx => Or.inr (hw' x hx)⟩

/-- The reports on a node are sighted when the walk comes to it. -/
theorem exists_reports_of_mem
    (hopen : ∀ site ∈ n.sitesFrom above, isOpaque site.kind → site.node.children = [])
    {site : Site} (hsite : site ∈ n.sitesFrom above) :
    ∃ w', ∀ r ∈ reports s w' site, ∃ x ∈ (ofNode s above w n).1, x.report = r := by
  induction n using Node.induct generalizing above w with
  | node n ih =>
    have hself : (⟨n, above⟩ : Site) ∈ n.sitesFrom above := Node.mem_sitesFrom.mpr (Or.inl rfl)
    rw [ofNode_eq (hopen ⟨n, above⟩ hself)]
    rcases Node.mem_sitesFrom.mp hsite with rfl | ⟨c, hc, hsite⟩
    · refine ⟨w.enter ⟨n, above⟩, fun r hr => ⟨(w.enter ⟨n, above⟩).sighting false r, ?_, rfl⟩⟩
      simp only [List.mem_append, List.mem_map]
      exact Or.inl (Or.inl ⟨r, hr, rfl⟩)
    · obtain ⟨wc, hparts⟩ : ∃ wc, ∀ x ∈ (ofNode s (n :: above) wc c).1,
          x ∈ (ofParts s (n :: above) (w.enter ⟨n, above⟩) n.children).1 := mem_ofParts_of_mem hc
      obtain ⟨w', hreports⟩ := ih c hc (w := wc)
        (fun site hs => hopen site (Node.mem_sitesFrom.mpr (Or.inr ⟨c, hc, hs⟩))) hsite
      refine ⟨w', fun r hr => ?_⟩
      obtain ⟨x, hx, hreport⟩ := hreports r hr
      refine ⟨x, ?_, hreport⟩
      simp only [List.mem_append]
      exact Or.inl (Or.inr (hparts x hx))

/-- The database in use after nodes were walked, in their order. -/
def databaseAfter (sites : List Site) (database : String) : String :=
  sites.foldl (fun current site => site.kind.databaseAfter current) database

theorem databaseAfter_append (before after : List Site) (database : String) :
    databaseAfter (before ++ after) database =
      databaseAfter after (databaseAfter before database) :=
  List.foldl_append

theorem ofParts_database {ns : List Node}
    (h : ∀ c ∈ ns, ∀ w, (ofNode s above w c).2.database =
      databaseAfter (c.sitesFrom above) w.database) :
    (ofParts s above w ns).2.database =
      databaseAfter (ns.flatMap (·.sitesFrom above)) w.database := by
  induction ns generalizing w with
  | nil => rfl
  | cons c rest ih =>
    rw [ofParts_cons, List.flatMap_cons, databaseAfter_append]
    rw [ih fun d hd => h d (List.mem_cons_of_mem c hd), h c List.mem_cons_self]

/-- Whatever a walk leaves and enters, the database in use depends on the nodes alone. -/
theorem ofNode_database
    (hopen : ∀ site ∈ n.sitesFrom above, isOpaque site.kind → site.node.children = []) :
    (ofNode s above w n).2.database = databaseAfter (n.sitesFrom above) w.database := by
  induction n using Node.induct generalizing above w with
  | node n ih =>
    rw [ofNode_eq (hopen ⟨n, above⟩ (Node.mem_sitesFrom.mpr (Or.inl rfl))), Node.sitesFrom_eq]
    have hparts := ofParts_database (s := s) (w := w.enter ⟨n, above⟩) fun c hc w =>
      ih c hc (w := w) fun site hsite =>
        hopen site (Node.mem_sitesFrom.mpr (Or.inr ⟨c, hc, hsite⟩))
    exact hparts

theorem ofBatch_database {text : String} (h : Tree.ofText? text = some s.tree) (database : String) :
    (ofBatch s database).2 = databaseAfter s.tree.sites database :=
  ofNode_database (w := { database }) (children_eq_nil_of_isOpaque h)

end Survey

namespace Analysis

theorem parse?_eq_some {script : String} {batches : List ParsedBatch}
    (h : parse? script = some batches) :
    batches.map (·.batch) = Batch.split script ∧
      ∀ p ∈ batches, Tree.ofText? p.batch.content = some p.tree := by
  unfold parse? at h
  generalize Batch.split script = split at h
  induction split generalizing batches with
  | nil =>
    cases h
    simp
  | cons b rest ih =>
    simp only [List.mapM_cons, bind, Option.bind_eq_some_iff, Option.map_eq_some_iff] at h
    obtain ⟨_, ⟨t, ht, rfl⟩, parsed, hparsed, heq⟩ := h
    cases heq
    obtain ⟨hbatches, htrees⟩ := ih hparsed
    refine ⟨by simp [hbatches], fun p hp => ?_⟩
    rcases List.mem_cons.mp hp with rfl | hp
    · exact ht
    · exact htrees p hp

/-- A batch is walked with the database that the batches before it leave in use. -/
theorem getElem?_surveyFrom {scopeOf : Nat → Tree → Scope} {batches : List ParsedBatch}
    (hscope : ∀ i t, (scopeOf i t).tree = t)
    (hparsed : ∀ p ∈ batches, Tree.ofText? p.batch.content = some p.tree)
    (first : Nat) (database : String) (i : Nat) :
    (surveyFrom scopeOf first database batches)[i]? = batches[i]?.map fun p =>
      (p.batch.place, (surveyBatch (scopeOf (first + i) p.tree)
        (Survey.databaseAfter ((batches.take i).flatMap (·.tree.sites)) database) p.batch).1) := by
  induction batches generalizing first database i with
  | nil => rfl
  | cons p rest ih =>
    rw [surveyFrom]
    cases i with
    | zero => rfl
    | succ i =>
      have hp : Tree.ofText? p.batch.content = some (scopeOf first p.tree).tree := by
        rw [hscope]
        exact hparsed p List.mem_cons_self
      have hdatabase : (surveyBatch (scopeOf first p.tree) database p.batch).2 =
          Survey.databaseAfter p.tree.sites database := by
        have := Survey.ofBatch_database hp database
        rwa [hscope] at this
      have hrest := ih (fun q hq => hparsed q (List.mem_cons_of_mem p hq)) (first + 1)
        (Survey.databaseAfter p.tree.sites database) i
      simp only [List.getElem?_cons_succ, List.take_succ_cons, List.flatMap_cons,
        Survey.databaseAfter_append, hdatabase]
      rw [hrest, show first + 1 + i = first + (i + 1) by omega]

theorem mem_surveyFrom_iff {scopeOf : Nat → Tree → Scope} {batches : List ParsedBatch}
    (hscope : ∀ i t, (scopeOf i t).tree = t)
    (hparsed : ∀ p ∈ batches, Tree.ofText? p.batch.content = some p.tree)
    {first : Nat} {database : String} {entry : BatchPlace × List Sighting} :
    entry ∈ surveyFrom scopeOf first database batches ↔ ∃ i p, batches[i]? = some p ∧
      (p.batch.place, (surveyBatch (scopeOf (first + i) p.tree)
        (Survey.databaseAfter ((batches.take i).flatMap (·.tree.sites)) database) p.batch).1) =
          entry := by
  simp only [List.mem_iff_getElem?, getElem?_surveyFrom hscope hparsed, Option.map_eq_some_iff]

end Analysis

end Portability
