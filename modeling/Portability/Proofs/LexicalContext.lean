import Mathlib
import Portability.Proofs.QueryReports

/-! The walk knows where it is. Whatever is reported on a node is reported inside the objects and
queries that enclose the node in the tree, and a walk over a node closes all that it opens. -/
namespace Portability

/-- The kind and the name of the object that a node defines. -/
def Kind.objectName? : Kind → Option String
  | .createTable name | .alterTable name => some ("TABLE " ++ name)
  | .createView name .. => some ("VIEW " ++ name)
  | .createProcedure name .. => some ("PROCEDURE " ++ name)
  | .createFunction name .. => some ("FUNCTION " ++ name)
  | .createTrigger name .. => some ("TRIGGER " ++ name)
  | .createIndex name .. => some ("INDEX " ++ name)
  | .createType name .. => some ("TYPE " ++ name)
  | .tableVariableDecl name => some ("TABLE VARIABLE " ++ name)
  | _ => none

/-- The kind and the name of the part of an object that a node defines. -/
def Kind.partName? : Kind → Option String
  | .columnDef name => some ("COLUMN " ++ name)
  | .parameter name .. => some ("PARAMETER " ++ name)
  | .constraint (some name) .. => some ("CONSTRAINT " ++ name)
  | _ => none

/-- A query specification. -/
def Kind.isQuerySpec : Kind → Bool
  | .querySpec _ => true
  | _ => false

namespace Site

/-- The nearest object among a node and what encloses it, or nothing. -/
def objectContext (s : Site) : String := (s.path.findSome? (·.kind.objectName?)).getD ""

/-- The nearest part of an object among a node and what encloses it, or nothing. -/
def partContext (s : Site) : String := (s.path.findSome? (·.kind.partName?)).getD ""

end Site

/-! ### Opening and closing -/

namespace ObjectStack

variable {o : ObjectStack} {n : Node}

theorem objects_enterNode (o : ObjectStack) (n : Node) :
    (o.enterNode n).objects.map (fun x => (x.node, x.description)) =
      (n.kind.objectName?.map (n.id, ·)).toList ++
        o.objects.map (fun x => (x.node, x.description)) := by
  unfold enterNode
  dsimp only
  split <;> simp_all [Kind.objectName?, enter, enterPart]
  split <;> rfl

theorem parts_enterNode (o : ObjectStack) (n : Node) :
    (o.enterNode n).parts.map (fun x => (x.node, x.description)) =
      (n.kind.partName?.map (n.id, ·)).toList ++
        o.parts.map (fun x => (x.node, x.description)) := by
  unfold enterNode
  dsimp only
  split <;> simp_all [Kind.partName?, enter, enterPart]
  split <;> rfl

/-- What a node opens is opened in its own name. -/
theorem exists_enterNode (o : ObjectStack) (n : Node) :
    ∃ objects parts, o.enterNode n = ⟨objects ++ o.objects, parts ++ o.parts⟩ ∧
      (∀ x ∈ objects, x.node = n.id) ∧ ∀ x ∈ parts, x.node = n.id := by
  unfold enterNode
  dsimp only
  split
  case h_6 name _ _ _ _ events _ _ =>
    split
    · exact ⟨[⟨n.id, "TRIGGER " ++ name, true⟩], [], rfl, by simp, by simp⟩
    · exact ⟨[⟨n.id, "TRIGGER " ++ name, false⟩], [], rfl, by simp, by simp⟩
  case h_10 name _ | h_11 name _ _ _ _ | h_12 name _ _ _ _ =>
    exact ⟨[], [⟨n.id, _⟩], rfl, by simp, by simp⟩
  case h_13 => exact ⟨[], [], rfl, by simp, by simp⟩
  all_goals exact ⟨[⟨n.id, _, false⟩], [], rfl, by simp, by simp⟩

theorem dropWhile_append_eq {α : Type} {test : α → Bool} {xs ys : List α}
    (hxs : ∀ x ∈ xs, test x = true) (hys : ∀ y ∈ ys, test y = false) :
    (xs ++ ys).dropWhile test = ys := by
  rw [List.dropWhile_append_of_pos hxs]
  cases ys with
  | nil => rfl
  | cons y rest => rw [List.dropWhile_cons_of_neg (by simp [hys y List.mem_cons_self])]

/-- A node closes what it opened and nothing else. -/
theorem leave_enterNode (hobjects : ∀ x ∈ o.objects, x.node ≠ n.id)
    (hparts : ∀ x ∈ o.parts, x.node ≠ n.id) : (o.enterNode n).leave n.id = o := by
  obtain ⟨objects, parts, henter, hobjects', hparts'⟩ := exists_enterNode o n
  rw [henter, leave, dropWhile_append_eq (by simpa using hobjects') (by simpa using hobjects),
    dropWhile_append_eq (by simpa using hparts') (by simpa using hparts)]

end ObjectStack

/-! ### The walk and what encloses it -/

/-- The open objects, parts and queries are those of the nodes around, nearest first. -/
structure Walk.Inside (w : Walk) (above : List Node) : Prop where
  objects : w.objects.objects.map (fun x => (x.node, x.description)) =
    above.filterMap fun n => n.kind.objectName?.map (n.id, ·)
  parts : w.objects.parts.map (fun x => (x.node, x.description)) =
    above.filterMap fun n => n.kind.partName?.map (n.id, ·)
  queries : w.queries.queries.map (·.node) = (above.filter (·.kind.isQuerySpec)).map (·.id)

namespace Walk.Inside

variable {w : Walk} {above : List Node} {n : Node}

section

variable {α : Type} {frames : List α} {frame : α → Nat × String} {name? : Kind → Option String}

/-- What is open was opened by a node around. -/
theorem exists_opener
    (h : frames.map frame = above.filterMap fun n => (name? n.kind).map (n.id, ·)) {x : α}
    (hx : x ∈ frames) : ∃ a ∈ above, a.id = (frame x).1 := by
  have hmem := List.mem_map_of_mem (f := frame) hx
  rw [h] at hmem
  obtain ⟨a, ha, hname⟩ := List.mem_filterMap.mp hmem
  obtain ⟨name, -, hpair⟩ := Option.map_eq_some_iff.mp hname
  exact ⟨a, ha, congrArg Prod.fst hpair⟩

/-- The innermost of what is open was opened by the nearest node that opens anything. -/
theorem head?_eq_findSome?
    (h : frames.map frame = above.filterMap fun n => (name? n.kind).map (n.id, ·)) :
    frames.head?.map (fun x => (frame x).2) = above.findSome? (name? ·.kind) := by
  induction above with
  | nil =>
    obtain rfl : frames = [] := by simpa using h
    rfl
  | cons a rest ih =>
    cases hname : name? a.kind with
    | none =>
      rw [List.findSome?_cons_of_isNone (by simp [hname])]
      exact ih (by simpa [hname] using h)
    | some name =>
      cases frames with
      | nil => simp [hname] at h
      | cons x xs =>
        have hx : frame x = (a.id, name) := by
          rw [List.filterMap_cons_some (by simp [hname]; rfl), List.map_cons] at h
          exact (List.cons.inj h).1
        simp [hname, hx]

end

theorem start (database : String) : Walk.Inside { database } [] := ⟨rfl, rfl, rfl⟩

/-- The open queries keep their places when a part of one gives it a trait. -/
theorem nodes_after (stack : List OpenQuery) (site : Site) :
    (QueryStack.after stack site).map (·.node) = stack.map (·.node) := by
  unfold QueryStack.after
  cases stack with
  | nil => rfl
  | cons q rest => cases h : site.isInSpec <;> simp [OpenQuery.withClauses]

theorem enter (h : w.Inside above) (n : Node) : (w.enter ⟨n, above⟩).Inside (n :: above) where
  objects := by
    show (w.objects.enterNode n).objects.map _ = _
    rw [ObjectStack.objects_enterNode, h.objects, List.filterMap_cons]
    cases n.kind.objectName? <;> rfl
  parts := by
    show (w.objects.enterNode n).parts.map _ = _
    rw [ObjectStack.parts_enterNode, h.parts, List.filterMap_cons]
    cases n.kind.partName? <;> rfl
  queries := by
    by_cases hspec : ∃ distinct, n.kind = .querySpec distinct
    · obtain ⟨distinct, hkind⟩ := hspec
      simp [Walk.enter, QueryStack.enter, Site.kind, hkind, QueryStack.push, h.queries,
        Kind.isQuerySpec]
    · have hkind : ∀ distinct, n.kind ≠ .querySpec distinct := fun d hd => hspec ⟨d, hd⟩
      have hnot : n.kind.isQuerySpec = false := by
        unfold Kind.isQuerySpec
        split
        · rename_i distinct hd
          exact absurd hd (hkind distinct)
        · rfl
      rw [List.filter_cons_of_neg (by simp [hnot]), ← h.queries]
      have henter : (w.enter ⟨n, above⟩).queries.queries =
          QueryStack.after w.queries.queries ⟨n, above⟩ := QueryStack.enter_queries hkind
      rw [henter, nodes_after]

theorem object_eq (h : w.Inside above) :
    w.objects.object = (above.findSome? (·.kind.objectName?)).getD "" :=
  congrArg (Option.getD · "") (head?_eq_findSome? h.objects)

theorem part_eq (h : w.Inside above) :
    w.objects.part = (above.findSome? (·.kind.partName?)).getD "" :=
  congrArg (Option.getD · "") (head?_eq_findSome? h.parts)

theorem leave_enter (h : w.Inside above) (hid : ∀ a ∈ above, n.id < a.id) :
    (w.objects.enterNode n).leave n.id = w.objects := by
  refine ObjectStack.leave_enterNode (fun x hx => ?_) fun x hx => ?_
  · obtain ⟨a, ha, hnode⟩ := exists_opener h.objects hx
    have := hid a ha
    omega
  · obtain ⟨a, ha, hnode⟩ := exists_opener h.parts hx
    have := hid a ha
    omega

/-- A walk with the same open objects and queries is inside the same nodes. -/
theorem of_eq {w' : Walk} {site : Site} (h : w.Inside above) (hobjects : w'.objects = w.objects)
    (hqueries : w'.queries.queries = QueryStack.after w.queries.queries site) :
    w'.Inside above where
  objects := by rw [hobjects, h.objects]
  parts := by rw [hobjects, h.parts]
  queries := by rw [hqueries, nodes_after, h.queries]

end Walk.Inside

namespace Survey

variable {s : Scope} {w : Walk} {above ns : List Node} {n : Node}

/-- A walk over a node leaves the open objects as they were. -/
def Balanced (s : Scope) (above : List Node) (n : Node) : Prop :=
  ∀ w : Walk, w.Inside above → (ofNode s above w n).2.objects = w.objects

theorem ofParts_objects (hqueries : ∀ c ∈ ns, WalksQueries s above c)
    (h : ∀ c ∈ ns, Balanced s above c) (hw : w.Inside above) :
    (ofParts s above w ns).2.objects = w.objects := by
  induction ns generalizing w with
  | nil => rfl
  | cons c rest ih =>
    have hobjects := h c List.mem_cons_self w hw
    have hnext := hw.of_eq hobjects (hqueries c List.mem_cons_self w).1
    rw [ofParts_cons]
    exact (ih (fun d hd => hqueries d (List.mem_cons_of_mem c hd))
      (fun d hd => h d (List.mem_cons_of_mem c hd)) hnext).trans hobjects

theorem balanced
    (hopen : ∀ site ∈ n.sitesFrom above, isOpaque site.kind → site.node.children = [])
    (hrank : ∀ site ∈ n.sitesFrom above, ∀ a ∈ site.ancestors, site.node.id < a.id) :
    Balanced s above n := by
  induction n using Node.induct generalizing above with
  | node n ih =>
    intro w hw
    have hself : (⟨n, above⟩ : Site) ∈ n.sitesFrom above := Node.mem_sitesFrom.mpr (Or.inl rfl)
    have hbelow : ∀ c ∈ n.children, ∀ site ∈ c.sitesFrom (n :: above), site ∈ n.sitesFrom above :=
      fun c hc site hsite => Node.mem_sitesFrom.mpr (Or.inr ⟨c, hc, hsite⟩)
    have hparts := ofParts_objects (s := s)
      (fun c hc => walksQueries fun site hsite => hopen site (hbelow c hc site hsite))
      (fun c hc => ih c hc (fun site hsite => hopen site (hbelow c hc site hsite))
        fun site hsite => hrank site (hbelow c hc site hsite))
      (hw.enter n)
    rw [ofNode_eq (hopen _ hself)]
    show (ofParts s (n :: above) (w.enter ⟨n, above⟩) n.children).2.objects.leave n.id = w.objects
    rw [hparts]
    exact hw.leave_enter (hrank _ hself)

/-! ### The nodes that a walk comes to -/

/-- A node that a walk comes to, and what the walk knows then. -/
structure Arrival where
  site : Site
  walk : Walk

namespace Arrival

/-- What the walk knows when it has walked the parts of the node. -/
def done (s : Scope) (v : Arrival) : Walk :=
  (ofParts s v.site.path (v.walk.enter v.site) v.site.node.children).2

/-- What is sighted at the node itself, before its parts and after them. -/
def sightings (s : Scope) (v : Arrival) : List Sighting :=
  (reports s (v.walk.enter v.site) v.site).map ((v.walk.enter v.site).sighting false) ++
    (closingReports s (v.done s) v.site.node).map ((v.done s).sighting true)

end Arrival

mutual

/-- The nodes that a walk over a node comes to, in order. -/
def arrivals (s : Scope) (above : List Node) (w : Walk) : Node → List Arrival
  | n@⟨_, _, _, _, _, children⟩ =>
    ⟨⟨n, above⟩, w⟩ :: arrivalsOfParts s (n :: above) (w.enter ⟨n, above⟩) children

/-- The nodes that a walk over neighbours comes to. -/
def arrivalsOfParts (s : Scope) (above : List Node) (w : Walk) : List Node → List Arrival
  | [] => []
  | n :: rest =>
    arrivals s above w n ++ arrivalsOfParts s above (ofNode s above w n).2 rest

end

theorem arrivals_eq (s : Scope) (above : List Node) (w : Walk) (n : Node) :
    arrivals s above w n =
      ⟨⟨n, above⟩, w⟩ :: arrivalsOfParts s (n :: above) (w.enter ⟨n, above⟩) n.children := by
  cases n
  rw [arrivals]

/-- The walk comes to every node once. -/
theorem map_site_arrivals (w : Walk) (n : Node) :
    (arrivals s above w n).map (·.site) = n.sitesFrom above := by
  induction n using Node.induct generalizing above w with
  | node n ih =>
    have hparts : ∀ (ns : List Node) (w : Walk), ns ⊆ n.children →
        (arrivalsOfParts s (n :: above) w ns).map (·.site) =
          ns.flatMap (·.sitesFrom (n :: above)) := by
      intro ns
      induction ns with
      | nil => exact fun _ _ => rfl
      | cons c rest ihrest =>
        intro w hsub
        obtain ⟨hc, hrest⟩ := List.cons_subset.mp hsub
        rw [arrivalsOfParts, List.map_append, ih c hc, ihrest _ hrest, List.flatMap_cons]
    rw [arrivals_eq, Node.sitesFrom_eq, List.map_cons, hparts _ _ (List.Subset.refl _)]

/-- What a walk sights is what it sights at the nodes that it comes to. -/
theorem ofNode_perm (w : Walk)
    (hopen : ∀ site ∈ n.sitesFrom above, isOpaque site.kind → site.node.children = []) :
    (ofNode s above w n).1.Perm ((arrivals s above w n).flatMap (·.sightings s)) := by
  induction n using Node.induct generalizing above w with
  | node n ih =>
    have hparts : ∀ (ns : List Node) (w : Walk), ns ⊆ n.children →
        (ofParts s (n :: above) w ns).1.Perm
          ((arrivalsOfParts s (n :: above) w ns).flatMap (·.sightings s)) := by
      intro ns
      induction ns with
      | nil => exact fun _ _ => .refl _
      | cons c rest ihrest =>
        intro w hsub
        obtain ⟨hc, hrest⟩ := List.cons_subset.mp hsub
        rw [ofParts_cons, arrivalsOfParts, List.flatMap_append]
        exact (ih c hc w fun site hsite =>
          hopen site (Node.mem_sitesFrom.mpr (Or.inr ⟨c, hc, hsite⟩))).append (ihrest _ hrest)
    rw [ofNode_eq (hopen _ (Node.mem_sitesFrom.mpr (Or.inl rfl))), arrivals_eq, List.flatMap_cons]
    have hbelow := hparts n.children (w.enter ⟨n, above⟩) (List.Subset.refl _)
    simp only [Arrival.sightings, Arrival.done, Site.path, List.append_assoc]
    refine List.Perm.append_left _ ?_
    exact List.perm_append_comm.trans (hbelow.append_left _)

/-- Wherever a walk comes to, what is open is what encloses the node. -/
theorem inside_of_mem_arrivals
    (hopen : ∀ site ∈ n.sitesFrom above, isOpaque site.kind → site.node.children = [])
    (hrank : ∀ site ∈ n.sitesFrom above, ∀ a ∈ site.ancestors, site.node.id < a.id)
    (hw : w.Inside above) {v : Arrival} (hv : v ∈ arrivals s above w n) :
    v.walk.Inside v.site.ancestors := by
  induction n using Node.induct generalizing above w with
  | node n ih =>
    have hbelow : ∀ c ∈ n.children, ∀ site ∈ c.sitesFrom (n :: above), site ∈ n.sitesFrom above :=
      fun c hc site hsite => Node.mem_sitesFrom.mpr (Or.inr ⟨c, hc, hsite⟩)
    have hparts : ∀ (ns : List Node) (w : Walk), ns ⊆ n.children → w.Inside (n :: above) →
        v ∈ arrivalsOfParts s (n :: above) w ns → v.walk.Inside v.site.ancestors := by
      intro ns
      induction ns with
      | nil => exact fun _ _ _ hv => by cases hv
      | cons c rest ihrest =>
        intro w hsub hw hv
        obtain ⟨hc, hrest⟩ := List.cons_subset.mp hsub
        have hopen' := fun site hsite => hopen site (hbelow c hc site hsite)
        have hrank' := fun site hsite => hrank site (hbelow c hc site hsite)
        rw [arrivalsOfParts] at hv
        rcases List.mem_append.mp hv with hv | hv
        · exact ih c hc hopen' hrank' hw hv
        · -- the neighbour before left the stacks as they were
          have hnext := hw.of_eq (balanced (s := s) hopen' hrank' w hw) (walksQueries hopen' w).1
          exact ihrest _ hrest hnext hv
    rw [arrivals_eq] at hv
    rcases List.mem_cons.mp hv with rfl | hv
    · exact hw
    · exact hparts n.children _ (List.Subset.refl _) (hw.enter n) hv

/-- On the way up from a node the nodes were built later and later. -/
theorem ranked_of_ofText? {text : String} {t : Tree} (h : Tree.ofText? text = some t) :
    ∀ site ∈ t.sites, ∀ a ∈ site.ancestors, site.node.id < a.id := by
  obtain ⟨hholds, -⟩ := Tree.holds_ofText? h
  rintro ⟨n, above⟩ hsite
  obtain ⟨hchain, -⟩ := Tree.mem_sites_iff.mp hsite
  have hmem := Tree.mem_nodes_of_mem_path hholds hsite
  clear hsite
  simp only [Site.path] at hchain hmem ⊢
  induction above generalizing n with
  | nil => simp
  | cons p rest ih =>
    obtain ⟨hpart, hrest⟩ := List.isChain_cons_cons.mp hchain
    have hlt : n.id < p.id := hholds.earlier p (hmem p (by simp)) n hpart
    have hup := ih p hrest fun m hm => hmem m (List.mem_cons_of_mem n hm)
    intro a ha
    rcases List.mem_cons.mp ha with rfl | ha
    · exact hlt
    · exact hlt.trans (hup a ha)

/-- A node gives a trait to no query but that of the node it is a part of. -/
theorem after_eq_or (hw : w.Inside above) :
    QueryStack.after w.queries.queries ⟨n, above⟩ = w.queries.queries ∨
      ∃ parent q rest added, above.head? = some parent ∧ w.queries.queries = q :: rest ∧
        q.node = parent.id ∧ QueryStack.after w.queries.queries ⟨n, above⟩ =
          { q with traits := added ++ q.traits } :: rest := by
  cases hstack : w.queries.queries with
  | nil => exact Or.inl rfl
  | cons q rest =>
    by_cases hspec : Site.isInSpec ⟨n, above⟩
    · right
      obtain ⟨parent, more, rfl⟩ : ∃ parent more, above = parent :: more := by
        cases above with
        | nil => simp [Site.isInSpec, Site.parentKind?] at hspec
        | cons parent more => exact ⟨parent, more, rfl⟩
      have hparent : parent.kind.isQuerySpec = true := by
        simp only [Site.isInSpec, Site.parentKind?, List.head?_cons, Option.map_some] at hspec
        split at hspec
        · rename_i distinct hkind
          rw [Option.some.inj hkind]
          rfl
        · cases hspec
      have hnode : q.node = parent.id := by
        have hqueries := hw.queries
        simp only [hstack, List.filter_cons, hparent, if_true, List.map_cons] at hqueries
        exact (List.cons.inj hqueries).1
      exact ⟨parent, q, rest, _, rfl, rfl, hnode, by simp [QueryStack.after, hspec]; rfl⟩
    · exact Or.inl (by simp [QueryStack.after, hspec])

/-- Once the walk is done with a node, what was open before is open again, but for traits that the
node gave to the query it is a part of. -/
def Restored (v : Arrival) (after : Walk) : Prop :=
  after.objects = v.walk.objects ∧
    (after.queries.queries = v.walk.queries.queries ∨
      ∃ parent q rest added, v.site.ancestors.head? = some parent ∧
        v.walk.queries.queries = q :: rest ∧ q.node = parent.id ∧
        after.queries.queries = { q with traits := added ++ q.traits } :: rest)

theorem restored (hopen : ∀ site ∈ n.sitesFrom above, isOpaque site.kind → site.node.children = [])
    (hrank : ∀ site ∈ n.sitesFrom above, ∀ a ∈ site.ancestors, site.node.id < a.id)
    (hw : w.Inside above) : Restored ⟨⟨n, above⟩, w⟩ (ofNode s above w n).2 := by
  refine ⟨balanced hopen hrank w hw, ?_⟩
  show (ofNode s above w n).2.queries.queries = w.queries.queries ∨ _
  rw [(walksQueries hopen w).1]
  exact after_eq_or hw

/-- What is sighted at a node is sighted inside the node and what encloses it. -/
theorem context_of_mem_sightings {v : Arrival}
    (hopen : ∀ site ∈ v.site.node.sitesFrom v.site.ancestors,
      isOpaque site.kind → site.node.children = [])
    (hrank : ∀ site ∈ v.site.node.sitesFrom v.site.ancestors,
      ∀ a ∈ site.ancestors, site.node.id < a.id)
    (hv : v.walk.Inside v.site.ancestors) {x : Sighting} (hx : x ∈ v.sightings s) :
    x.object = v.site.objectContext ∧ x.part = v.site.partContext := by
  have hin : (v.walk.enter v.site).Inside v.site.path := hv.enter v.site.node
  rcases List.mem_append.mp hx with hx | hx
  · obtain ⟨r, -, rfl⟩ := List.mem_map.mp hx
    exact ⟨hin.object_eq, hin.part_eq⟩
  · obtain ⟨r, -, rfl⟩ := List.mem_map.mp hx
    have hbelow : ∀ c ∈ v.site.node.children, ∀ site ∈ c.sitesFrom v.site.path,
        site ∈ v.site.node.sitesFrom v.site.ancestors :=
      fun c hc site hsite => Node.mem_sitesFrom.mpr (Or.inr ⟨c, hc, hsite⟩)
    -- the parts closed all that they had opened
    have hdone : (v.done s).objects = (v.walk.enter v.site).objects :=
      ofParts_objects
        (fun c hc => walksQueries fun site hsite => hopen site (hbelow c hc site hsite))
        (fun c hc => balanced (fun site hsite => hopen site (hbelow c hc site hsite))
          fun site hsite => hrank site (hbelow c hc site hsite)) hin
    refine ⟨?_, ?_⟩
    · show (v.done s).objects.object = _
      rw [hdone]
      exact hin.object_eq
    · show (v.done s).objects.part = _
      rw [hdone]
      exact hin.part_eq

theorem mem_sites_of_mem_below {t : Tree} {site x : Site} (hsite : site ∈ t.sites)
    (hx : x ∈ site.node.sitesFrom site.ancestors) : x ∈ t.sites := by
  obtain ⟨n, above⟩ := site
  induction n using Node.induct generalizing above with
  | node n ih =>
    rcases Node.mem_sitesFrom.mp hx with rfl | ⟨c, hc, hx⟩
    · exact hsite
    · exact ih c hc (n :: above) (Tree.part_mem_sites hsite hc) hx

/-- The surroundings of a report are those of its node in the tree. The walk over a batch comes to
every node once and sights at these nodes all that it sights; there the innermost open object and
part are the nearest ones among the node and what encloses it, and once it is done with the node,
what was open before is open again. -/
theorem context_lexical {text database : String} (h : Tree.ofText? text = some s.tree) :
    let visits := arrivals s [] { database } s.tree.root
    visits.map (·.site) = s.tree.sites ∧
      (ofBatch s database).1.Perm (visits.flatMap (·.sightings s)) ∧
      ∀ v ∈ visits,
        (∀ x ∈ v.sightings s, x.object = v.site.objectContext ∧ x.part = v.site.partContext ∧
          ∀ (j : Judge) (place : BatchPlace) (f : Finding), j.finding place x = .ok f →
            f.object = Text.collapse v.site.objectContext ∧
              f.part = Text.collapse v.site.partContext) ∧
        Restored v (ofNode s v.site.ancestors v.walk v.site.node).2 := by
  intro visits
  have hsites : visits.map (·.site) = s.tree.sites := map_site_arrivals _ _
  have hopen := children_eq_nil_of_isOpaque h
  have hrank := ranked_of_ofText? h
  refine ⟨hsites, ofNode_perm _ hopen, fun v hv => ?_⟩
  have hsite : v.site ∈ s.tree.sites := hsites ▸ List.mem_map_of_mem hv
  have hinside := inside_of_mem_arrivals hopen hrank (.start database) hv
  have hopen' := fun site hx => hopen site (mem_sites_of_mem_below hsite hx)
  have hrank' := fun site hx => hrank site (mem_sites_of_mem_below hsite hx)
  refine ⟨fun x hx => ?_, restored hopen' hrank' hinside⟩
  obtain ⟨hobject, hpart⟩ := context_of_mem_sightings hopen' hrank' hinside hx
  refine ⟨hobject, hpart, fun j place f hf => ?_⟩
  obtain ⟨_, _, -, -, rfl⟩ := Judge.exists_ruling_of_finding hf
  exact ⟨congrArg Text.collapse hobject, congrArg Text.collapse hpart⟩

/-- The query of a view is reported inside the view. -/
theorem context_lexical_view :
    ∃ t, Tree.ofText? "CREATE VIEW v AS SELECT 1" = some t ∧
      let s : Scope := ⟨.default, "dbo", ⟨128, []⟩, {}, true, t⟩
      ∃ x ∈ (ofBatch s "").1, x.isQueued = true ∧ x.object = "VIEW v" ∧ x.part = "" := by
  have hrun : ((Tree.ofText? "CREATE VIEW v AS SELECT 1").map fun t =>
      let s : Scope := ⟨.default, "dbo", ⟨128, []⟩, {}, true, t⟩
      (arrivals s [] { database := "" } t.root)[3]?.map fun v =>
        (v.site.objectContext, v.site.partContext, (v.sightings s).any (·.isQueued))) =
      some (some ("VIEW v", "", true)) :=
    Tree.map_ofText?_of_apart (by decide +kernel)
  obtain ⟨t, ht, hfourth⟩ := Option.map_eq_some_iff.mp hrun
  obtain ⟨v, hat, hfacts⟩ := Option.map_eq_some_iff.mp hfourth
  have hv := List.mem_of_getElem? hat
  simp only [Prod.mk.injEq, List.any_eq_true] at hfacts
  obtain ⟨hobject, hpart, x, hx, hqueued⟩ := hfacts
  obtain ⟨-, hperm, hall⟩ :=
    context_lexical (s := ⟨.default, "dbo", ⟨128, []⟩, {}, true, t⟩) ht
  obtain ⟨hobject', hpart', -⟩ := (hall v hv).1 x hx
  exact ⟨t, ht, x, hperm.mem_iff.mpr (List.mem_flatMap.mpr ⟨v, hv, hx⟩), hqueued,
    hobject'.trans hobject, hpart'.trans hpart⟩

end Survey

end Portability
