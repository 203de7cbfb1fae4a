import Mathlib
import Portability.Proofs.QuotedIdentifier
import Portability.Proofs.SourceOrder
import Portability.Proofs.TreeShape

/-! When a change of `QUOTED_IDENTIFIER` is reported to hold only from the next batch on: the walk
looks at the statements of the batch behind the one that the change is part of, and passes over
those that follow it inside the same block or branch. -/
namespace Portability

/-- Parts of such a node stand in the batch as statements. -/
def Kind.holdsStatements : Kind → Bool
  | .batch | .block _ | .ifElse | .whileLoop => true
  | kind => kind.isRoutine

namespace Site

/-- The node is the condition of a branch or of a loop. -/
def isCondition (s : Site) : Bool :=
  match s.ancestors with
  | ⟨_, .ifElse, _, _, _, first :: _⟩ :: _ | ⟨_, .whileLoop, _, _, _, first :: _⟩ :: _ =>
    s.node.id == first.id
  | _ => false

/-- The node is a statement of the batch, in whatever blocks and branches it stands. -/
def isStatement (s : Site) : Bool :=
  s.kind.isStatement && s.ancestors.all (·.kind.holdsStatements) && !s.isCondition

/-- The node is a statement other than one that sets session options. -/
def isOtherStatement (s : Site) : Bool := s.isStatement && !s.kind.isSetOption

theorem holdsStatements_of_mem {s : Site} (h : s.isOtherStatement) {a : Node}
    (ha : a ∈ s.ancestors) : a.kind.holdsStatements = true := by
  simp only [isOtherStatement, isStatement, Bool.and_eq_true, List.all_eq_true] at h
  exact h.1.1.2 a ha

end Site

/-- Session options have no statements inside. -/
theorem Kind.isSetOption_eq_false {kind : Kind} (h : kind.holdsStatements = true) :
    kind.isSetOption = false := by
  cases kind <;> first | rfl | cases h

/-! ### The statements of a batch one after another -/

namespace Tree

variable {t : Tree} {x : Site} {c : Node} {xs ys : List Node} {before after : List Site}

theorem topStatement?_of_mem (h : x ∈ c.sitesFrom [t.root]) : x.topStatement? = some c := by
  obtain ⟨up, hpath, -⟩ := Node.mem_sitesFrom_iff.mp h
  have hrev : (x.node :: x.ancestors).reverse = t.root :: c :: up.reverse := by
    rw [show x.node :: x.ancestors = up ++ c :: [t.root] from hpath]
    simp
  rw [Site.topStatement?, hrev]

/-- What is below a statement has it among what encloses it. -/
theorem mem_ancestors_of_mem (h : x ∈ c.sitesFrom [t.root]) (hne : x ≠ ⟨c, [t.root]⟩) :
    c ∈ x.ancestors := by
  obtain ⟨up, hpath, -⟩ := Node.mem_sitesFrom_iff.mp h
  obtain ⟨n, above⟩ := x
  cases up with
  | nil =>
    cases hpath
    exact absurd rfl hne
  | cons u rest =>
    obtain ⟨-, rfl⟩ := List.cons.inj hpath
    simp

theorem isStatement_of_mem {text : String} (h : ofText? text = some t) :
    ∀ y ∈ t.root.children, y.kind.isStatement = true := by
  have hroot := (holds_ofText? h).2
  cases conforms_ofText? h with
  | intro own hosts parts => rwa [hroot] at own

/-- Whatever stands below a statement of the batch has a nearest statement around it: that statement
or one inside it. -/
theorem exists_statement? {text : String} (h : ofText? text = some t) (hc : c ∈ t.root.children)
    (hx : x ∈ c.sitesFrom [t.root]) (hne : x ≠ ⟨c, [t.root]⟩) :
    ∃ n inner outer, x.statement? = some n ∧ x.ancestors = inner ++ n :: outer ∧
      n.kind.isStatement = true ∧ (∀ a ∈ inner, a.kind.isStatement = false) ∧ c ∈ n :: outer := by
  have hmem := mem_ancestors_of_mem hx hne
  have hstatement := isStatement_of_mem h c hc
  obtain ⟨n, hn⟩ : ∃ n, x.statement? = some n :=
    Option.isSome_iff_exists.mp (List.find?_isSome.mpr ⟨c, hmem, hstatement⟩)
  obtain ⟨hkind, inner, outer, hsplit, hinner⟩ := List.find?_eq_some_iff_append.mp hn
  have hplain : ∀ a ∈ inner, a.kind.isStatement = false := by simpa using hinner
  refine ⟨n, inner, outer, hn, hsplit, hkind, hplain, ?_⟩
  rw [hsplit] at hmem
  refine (List.mem_append.mp hmem).resolve_left fun hin => ?_
  rw [hplain c hin] at hstatement
  cases hstatement

/-- The sites of a batch are its root and those of its statements, one after another. -/
theorem sites_eq (hparts : t.root.children = xs ++ c :: ys) :
    t.sites = ⟨t.root, []⟩ :: xs.flatMap (·.sitesFrom [t.root]) ++
      (c.sitesFrom [t.root] ++ ys.flatMap (·.sitesFrom [t.root])) := by
  rw [sites, Node.sites, Node.sitesFrom_eq, hparts]
  simp

/-- What is listed behind a site: what follows it in its statement, then all later statements. -/
theorem exists_after (hnodup : t.sites.Nodup) (hsites : t.sites = before ++ x :: after)
    (hparts : t.root.children = xs ++ c :: ys) (hx : x ∈ c.sitesFrom [t.root]) :
    ∃ low high, c.sitesFrom [t.root] = low ++ x :: high ∧
      after = high ++ ys.flatMap (·.sitesFrom [t.root]) := by
  obtain ⟨low, high, hsplit⟩ := List.append_of_mem hx
  have hall : t.sites = (⟨t.root, []⟩ :: xs.flatMap (·.sitesFrom [t.root]) ++ low) ++
      x :: (high ++ ys.flatMap (·.sitesFrom [t.root])) := by
    rw [sites_eq hparts, hsplit]
    simp
  refine ⟨low, high, hsplit, ?_⟩
  rw [hsites, List.nodup_middle, List.nodup_cons, List.mem_append, not_or] at hnodup
  obtain ⟨⟨hbefore, hafter⟩, -⟩ := hnodup
  exact ((List.append_cons_inj_of_notMem hbefore hafter).mp (hsites.symm.trans hall)).2.2

/-- A statement of the batch itself that sets options has no other statement inside. -/
theorem isOtherStatement_below (h : x ∈ c.sitesFrom [t.root]) (hset : c.kind.isSetOption) :
    x.isOtherStatement = false := by
  by_cases hx : x = ⟨c, [t.root]⟩
  · subst hx
    simp [Site.isOtherStatement, Site.kind, hset]
  · by_contra hother
    have hholds := Site.holdsStatements_of_mem (by simpa using hother) (mem_ancestors_of_mem h hx)
    rw [Kind.isSetOption_eq_false hholds] at hset
    cases hset

/-- A statement of the batch itself, unless it sets session options. -/
theorem isOtherStatement_top (hroot : t.root.kind = .batch) (hstatement : c.kind.isStatement)
    (hset : c.kind.isSetOption = false) :
    (⟨c, [t.root]⟩ : Site).isOtherStatement = true := by
  generalize t.root = root at hroot
  obtain ⟨id, kind, line, start, stop, children⟩ := root
  subst hroot
  simp [Site.isOtherStatement, Site.isStatement, Site.isCondition, Site.kind, hstatement, hset,
    Kind.holdsStatements]

/-- Only options follow in the batch unless a later statement of it is another one. -/
theorem endsWithOptions_eq_false_iff (hids : (t.root.children.map Node.id).Nodup)
    (hparts : t.root.children = xs ++ c :: ys) (hx : x ∈ c.sitesFrom [t.root]) :
    t.endsWithOptions x = false ↔ ∃ y ∈ ys, y.kind.isSetOption = false := by
  have hbehind : (t.root.children.dropWhile (·.id != c.id)).tail = ys := by
    rw [hparts, List.map_append, List.map_cons, List.nodup_middle, List.nodup_cons,
      List.mem_append, not_or] at hids
    have hxs : ∀ n ∈ xs, (n.id != c.id) = true := by
      intro n hn
      have hne : n.id ≠ c.id := fun heq => hids.1.1 (heq ▸ List.mem_map_of_mem hn)
      simpa using hne
    rw [hparts, List.dropWhile_append_of_pos hxs, List.dropWhile_cons_of_neg (by simp)]
    rfl
  unfold endsWithOptions
  rw [topStatement?_of_mem hx]
  simp only [hbehind, List.all_eq_false, Bool.not_eq_true]

/-- The statements behind a site that belong to a later statement of the batch. -/
theorem exists_later_iff (hroot : t.root.kind = .batch)
    (hstatements : ∀ y ∈ ys, y.kind.isStatement = true) :
    (∃ x ∈ ys.flatMap (·.sitesFrom [t.root]), x.isOtherStatement) ↔
      ∃ y ∈ ys, y.kind.isSetOption = false := by
  constructor
  · rintro ⟨x, hx, hother⟩
    obtain ⟨y, hy, hx⟩ := List.mem_flatMap.mp hx
    refine ⟨y, hy, Bool.eq_false_iff.mpr fun hset => ?_⟩
    rw [isOtherStatement_below hx hset] at hother
    cases hother
  · rintro ⟨y, hy, hset⟩
    exact ⟨⟨y, [t.root]⟩, List.mem_flatMap.mpr ⟨y, hy, Node.mem_sitesFrom.mpr (Or.inl rfl)⟩,
      isOtherStatement_top hroot (hstatements y hy) hset⟩

/-- A site that sets options stands in some statement of the batch. -/
theorem exists_parts_of_mem (hroot : t.root.kind = .batch) (hx : x ∈ t.sites)
    (hset : x.kind.isSetOption) :
    ∃ xs c ys, t.root.children = xs ++ c :: ys ∧ x ∈ c.sitesFrom [t.root] := by
  rcases Node.mem_sitesFrom.mp hx with rfl | ⟨c, hc, hx⟩
  · rw [Site.kind, hroot] at hset
    cases hset
  · obtain ⟨xs, ys, hparts⟩ := List.append_of_mem hc
    exact ⟨xs, c, ys, hparts, hx⟩

/-- Another statement behind a site that sets options stands in the same statement of the batch, or
in a later one. -/
theorem topStatement?_after (h : Holds t.nodes [t.root]) (hsites : t.sites = before ++ x :: after)
    (hparts : t.root.children = xs ++ c :: ys) (hx : x ∈ c.sitesFrom [t.root]) {y : Site}
    (hy : y ∈ after) :
    y.topStatement? ≠ x.topStatement? ↔ y ∈ ys.flatMap (·.sitesFrom [t.root]) := by
  obtain ⟨low, high, hsplit, rfl⟩ :=
    exists_after (List.Nodup.of_map _ (nodup_site_ids h)) hsites hparts hx
  rw [topStatement?_of_mem hx]
  constructor
  · intro hne
    rcases List.mem_append.mp hy with hy | hy
    · have hin : y ∈ c.sitesFrom [t.root] := by simp [hsplit, hy]
      exact absurd (topStatement?_of_mem hin) hne
    · exact hy
  · intro hy
    obtain ⟨d, hd, hy⟩ := List.mem_flatMap.mp hy
    rw [topStatement?_of_mem hy]
    rintro ⟨⟩
    have hids := h.nodup_children (h.mem List.mem_cons_self)
    rw [hparts, List.map_append, List.map_cons, List.nodup_middle, List.nodup_cons] at hids
    exact hids.1 (List.mem_append_right _ (List.mem_map_of_mem hd))

/-- Whether only options follow in the batch is decided by the other statements behind the site that
stand in a later statement of the batch. -/
theorem endsWithOptions_iff {text : String} (h : ofText? text = some t)
    (hset : x.kind.isSetOption) (hsites : t.sites = before ++ x :: after) :
    t.endsWithOptions x = false ↔
      ∃ y ∈ after, y.isOtherStatement ∧ y.topStatement? ≠ x.topStatement? := by
  obtain ⟨hholds, hroot⟩ := holds_ofText? h
  obtain ⟨xs, c, ys, hparts, hx⟩ := exists_parts_of_mem hroot (hsites ▸ by simp) hset
  have hbehind : ∀ y ∈ ys, y.kind.isStatement = true := fun y hy =>
    isStatement_of_mem h y (by simp [hparts, hy])
  have hlater := exists_later_iff hroot hbehind
  have hids := hholds.nodup_children (hholds.mem List.mem_cons_self)
  rw [endsWithOptions_eq_false_iff hids hparts hx, ← hlater]
  obtain ⟨low, high, hsplit, hafter⟩ :=
    exists_after (List.Nodup.of_map _ (nodup_site_ids hholds)) hsites hparts hx
  constructor
  · rintro ⟨y, hy, hother⟩
    have hmem : y ∈ after := hafter ▸ List.mem_append_right _ hy
    exact ⟨y, hmem, hother, (topStatement?_after hholds hsites hparts hx hmem).mpr hy⟩
  · rintro ⟨y, hy, hother, htop⟩
    exact ⟨y, (topStatement?_after hholds hsites hparts hx hy).mp htop, hother⟩

/-- Behind a statement of the batch itself that sets options, no other statement stands in it. -/
theorem topStatement?_ne_of_top {text : String} (h : ofText? text = some t)
    (hset : x.kind.isSetOption) (hsites : t.sites = before ++ x :: after)
    (htop : x.ancestors = [t.root]) {y : Site} (hy : y ∈ after) (hother : y.isOtherStatement) :
    y.topStatement? ≠ x.topStatement? := by
  obtain ⟨hholds, hroot⟩ := holds_ofText? h
  obtain ⟨xs, c, ys, hparts, hx⟩ := exists_parts_of_mem hroot (hsites ▸ by simp) hset
  refine (topStatement?_after hholds hsites hparts hx hy).mpr ?_
  obtain ⟨low, high, hsplit, rfl⟩ :=
    exists_after (List.Nodup.of_map _ (nodup_site_ids hholds)) hsites hparts hx
  rcases List.mem_append.mp hy with hy | hy
  · have hself : x.node = c := by
      obtain ⟨up, hpath, -⟩ := Node.mem_sitesFrom_iff.mp hx
      rw [Site.path, htop] at hpath
      obtain rfl : up = [] := by simpa using congrArg List.length hpath
      exact (List.cons.inj hpath).1
    have hin : y ∈ c.sitesFrom [t.root] := by simp [hsplit, hy]
    rw [isOtherStatement_below hin (hself ▸ hset)] at hother
    cases hother
  · exact hy

/-- The sites of a batch are listed in the order in which they begin. -/
theorem starts_increase {text : String} (h : ofText? text = some t) :
    t.sites.Pairwise fun a b => a.node.start ≤ b.node.start := by
  unfold ofText? at h
  cases hsource : Source.ofText text with
  | error e =>
    rw [hsource] at h
    cases h
    simp [sites, unparsed, Node.sites, Node.sitesFrom, sitesOfParts]
  | ok source =>
    rw [hsource] at h
    have hplaced := ofSource?_placed source
    rw [show ofSource? source = some t from h] at hplaced
    exact hplaced.1.starts_increase

end Tree

/-! ### The report -/

namespace Survey

variable {s : Scope} {v : Arrival}

/-- The report on a setting that is changed too late for its own batch. -/
def nextBatch (n : Node) (isOn : Bool) : Report :=
  .item .quotedIdentifier "Effective next batch" (if isOn then "ON" else "OFF") n.line

theorem sessionOption_ne (value option : String) (line : Nat) (n : Node) (isOn : Bool) :
    sessionOption s value line option ≠ nextBatch n isOn := by
  intro h
  unfold sessionOption at h
  split at h
  · cases congrArg Report.question h
  · exact absurd (Question.item.inj (congrArg Report.question h)).1 (by decide)

theorem nextBatch_mem_sightings {isOn : Bool} (h : v.site.Changes isOn) :
    nextBatch v.site.node isOn ∈ (v.sightings s).map (·.report) ↔
      s.tree.endsWithOptions v.site = false := by
  have hset := Kind.quotedIdentifier?_eq_some_iff.mpr h.sets
  have hroutine := Site.isInRoutine_eq_false_iff.mpr h.outside
  obtain ⟨names, hkind, -⟩ := h.sets
  have hnode : v.site.node.kind = .setOption names (if isOn then "ON" else "OFF") := hkind
  have hreports : (v.sightings s).map (·.report) =
      setOption s v.site names (if isOn then "ON" else "OFF") := by
    simp [Arrival.sightings, reports, closingReports, hnode, Walk.sighting, Function.comp_def]
  rw [hreports, setOption, List.mem_append, List.mem_append, Report.mem_onlyIf, Report.mem_onlyIf]
  constructor
  · rintro ((hmem | ⟨-, hsame⟩) | ⟨hlate, -⟩)
    · obtain ⟨option, -, hsame⟩ := List.mem_map.mp hmem
      exact absurd hsame (sessionOption_ne _ option _ _ _)
    · exact absurd (Question.item.inj (congrArg Report.question hsame)).1 (by decide)
    · simpa [hset, hroutine] using hlate
  · intro hlate
    exact Or.inr ⟨by simp [hset, hroutine, hlate], rfl⟩

end Survey

namespace Analysis

open Survey (Arrival arrivals nextBatch)

/-- A change of `QUOTED_IDENTIFIER` outside routines is reported to hold from the next batch on just
where another statement than one that sets options follows it in a later statement of the batch.
That is any other statement behind it, unless all those stand in the same block or branch; so it is
for a change that is a statement of the batch itself. -/
theorem nextBatch_reported {s : Scope} {v : Arrival} {text database : String} {isOn : Bool}
    {before after : List Site} (htree : Tree.ofText? text = some s.tree)
    (hv : v ∈ arrivals s [] { database } s.tree.root) (hchange : v.site.Changes isOn)
    (hsites : s.tree.sites = before ++ v.site :: after) :
    let reported := nextBatch v.site.node isOn ∈ (v.sightings s).map (·.report)
    let later := after.filter (·.isOtherStatement)
    (∀ x ∈ before, x.node.start ≤ v.site.node.start) ∧
      (∀ x ∈ after, v.site.node.start ≤ x.node.start) ∧
      (reported ↔ ∃ x ∈ later, x.topStatement? ≠ v.site.topStatement?) ∧
      ((∀ x ∈ later, x.topStatement? ≠ v.site.topStatement?) → (reported ↔ later ≠ [])) ∧
      (v.site.ancestors = [s.tree.root] → ∀ x ∈ later, x.topStatement? ≠ v.site.topStatement?) ∧
      ∀ (j : Judge) (b : Batch) (found : List Finding),
        j.findings b.place (surveyBatch s database b).1 = .ok found →
          (v.Reports s (nextBatch v.site.node isOn) j b.place found ↔ reported) := by
  intro reported later
  have hoption : v.site.kind.isSetOption = true := by
    obtain ⟨names, hkind, -⟩ := hchange.sets
    rw [hkind]
    rfl
  have hreported : reported ↔ ∃ x ∈ later, x.topStatement? ≠ v.site.topStatement? := by
    refine (Survey.nextBatch_mem_sightings hchange).trans
      ((Tree.endsWithOptions_iff htree hoption hsites).trans ?_)
    simp only [later, List.mem_filter, and_assoc]
  have hstarts := Tree.starts_increase htree
  rw [hsites] at hstarts
  obtain ⟨-, hbehind, hbefore⟩ := List.pairwise_append.mp hstarts
  refine ⟨fun x hx => hbefore x hx _ List.mem_cons_self, (List.pairwise_cons.mp hbehind).1,
    hreported, fun hall => hreported.trans ⟨?_, fun hne => ?_⟩, fun htop x hx => ?_,
    fun j b found hfound => ?_⟩
  · rintro ⟨x, hx, -⟩
    exact List.ne_nil_of_mem hx
  · obtain ⟨x, hx⟩ := List.exists_mem_of_ne_nil later hne
    exact ⟨x, hx, hall x hx⟩
  · obtain ⟨hx, hother⟩ := List.mem_filter.mp hx
    exact Tree.topStatement?_ne_of_top htree hoption hsites htop hx hother
  · exact Arrival.reports_iff hfound (fun _ => Arrival.mem_surveyBatch htree hv b) _

/-- A change is reported for the statement behind it. -/
theorem nextBatch_reported_print :
    ∃ t, Tree.ofText? "SET QUOTED_IDENTIFIER ON PRINT 1" = some t ∧
      let s : Scope := ⟨.default, "dbo", ⟨128, []⟩, {}, true, t⟩
      ∃ v ∈ arrivals s [] { database := "" } t.root, v.site.Changes true ∧
        nextBatch v.site.node true ∈ (v.sightings s).map (·.report) := by
  have hrun : ((Tree.ofText? "SET QUOTED_IDENTIFIER ON PRINT 1").map fun t =>
      t.sites.map fun x => (x.kind, x.isOtherStatement, x.ancestors.length)) =
      some [(.batch, false, 0), (.setOption ["QUOTED_IDENTIFIER"] "ON", false, 1),
        (.print, true, 1), (.literal .number, false, 2)] :=
    Tree.map_ofText?_of_apart (by decide +kernel)
  obtain ⟨t, ht, hfacts⟩ := Option.map_eq_some_iff.mp hrun
  obtain ⟨first, rest, hsites, -, hrest⟩ := List.map_eq_cons_iff.mp hfacts
  obtain ⟨x, after, rfl, hx, hafter⟩ := List.map_eq_cons_iff.mp hrest
  obtain ⟨y, last, rfl, hy, -⟩ := List.map_eq_cons_iff.mp hafter
  have hmem : x ∈ t.sites := by simp [hsites]
  simp only [Prod.mk.injEq] at hx
  obtain ⟨hkind, -, hdepth⟩ := hx
  have htop : x.ancestors = [t.root] := by
    obtain ⟨a, ha⟩ := List.length_eq_one_iff.mp hdepth
    have hlast := (Tree.mem_sites_iff.mp hmem).2
    rw [Site.path, ha] at hlast
    obtain rfl : a = t.root := Option.some.inj hlast
    exact ha
  have hchange : x.Changes true :=
    { sets := ⟨["QUOTED_IDENTIFIER"], hkind, "QUOTED_IDENTIFIER", by simp, by simp [Text.same]⟩
      outside := by
        intro a ha hroutine
        obtain rfl : a = t.root := by simpa [htop] using ha
        rw [(Tree.holds_ofText? ht).2] at hroutine
        cases hroutine }
  let s : Scope := ⟨.default, "dbo", ⟨128, []⟩, {}, true, t⟩
  obtain ⟨v, hv, rfl⟩ : ∃ v ∈ arrivals s [] { database := "" } t.root, v.site = x :=
    List.mem_map.mp (Survey.map_site_arrivals (s := s) _ _ ▸ hmem)
  have hsplit : t.sites = [first] ++ v.site :: y :: last := hsites
  obtain ⟨-, -, -, hreported, hothers, -⟩ := nextBatch_reported (s := s) ht hv hchange hsplit
  have hother : y ∈ (y :: last).filter (·.isOtherStatement) := by
    have hy' : y.isOtherStatement = true := congrArg (·.2.1) hy
    exact List.mem_filter.mpr ⟨List.mem_cons_self, hy'⟩
  exact ⟨t, ht, v, hv, hchange, (hreported (hothers htop)).mpr (List.ne_nil_of_mem hother)⟩

end Analysis

end Portability
