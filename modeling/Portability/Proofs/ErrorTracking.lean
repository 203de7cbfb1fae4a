import Mathlib
import Portability.Proofs.NameKeys
import Portability.Proofs.QuotedIdentifier
import Portability.Proofs.TreeShape

/-! Error codes in variables. Wherever the walk over a batch has come to, a variable holds an error
code just where the last value stored in it so far was one. -/
namespace Portability

/-! ### What only entering a node changes -/

namespace Survey

variable {σ : Type} {f : Walk → σ} {step : σ → Site → σ} {s : Scope} {above : List Node} {w : Walk}
  {n : Node}

/-- A part of what the walk knows that entering a node changes by the step, and leaving does not. -/
structure EntersOnly (f : Walk → σ) (step : σ → Site → σ) : Prop where
  enter : ∀ w site, f (w.enter site) = step (f w) site
  leave : ∀ w n, f (w.leave n) = f w

/-- Wherever the walk comes to, the part is what the nodes before made of it. -/
def Threads (f : Walk → σ) (step : σ → Site → σ) (start : σ) (visits : List Arrival) : Prop :=
  ∀ before v after, visits = before ++ v :: after →
    f v.walk = (before.map (·.site)).foldl step start

theorem Threads.cons {start : σ} {v : Arrival} {visits : List Arrival} (hv : f v.walk = start)
    (h : Threads f step (step start v.site) visits) : Threads f step start (v :: visits) := by
  intro before u after hsplit
  cases before with
  | nil =>
    obtain ⟨rfl, -⟩ := List.cons.inj hsplit
    exact hv
  | cons first before =>
    obtain ⟨rfl, hrest⟩ := List.cons.inj hsplit
    exact h before u after hrest

theorem Threads.append {start : σ} {visits visits' : List Arrival} (h : Threads f step start visits)
    (h' : Threads f step ((visits.map (·.site)).foldl step start) visits') :
    Threads f step start (visits ++ visits') := by
  intro before v after hsplit
  rcases List.append_eq_append_iff.mp hsplit with ⟨middle, rfl, hrest⟩ | ⟨middle, hvisits, hrest⟩
  · rw [List.map_append, List.foldl_append]
    exact h' middle v after hrest
  · cases middle with
    | nil =>
      obtain rfl : visits = before := by simpa using hvisits
      exact h' [] v after hrest.symm
    | cons first middle =>
      obtain ⟨rfl, -⟩ := List.cons.inj hrest
      exact h before _ middle hvisits

/-- A walk threads the part through the nodes in the order in which it comes to them. -/
theorem EntersOnly.threads (h : EntersOnly f step)
    (hopen : ∀ site ∈ n.sitesFrom above, isOpaque site.kind → site.node.children = []) :
    Threads f step (f w) (arrivals s above w n) ∧
      f (ofNode s above w n).2 = (n.sitesFrom above).foldl step (f w) := by
  induction n using Node.induct generalizing above w with
  | node n ih =>
    have hparts : ∀ (ns : List Node) (w : Walk), ns ⊆ n.children →
        Threads f step (f w) (arrivalsOfParts s (n :: above) w ns) ∧
          f (ofParts s (n :: above) w ns).2 =
            (ns.flatMap (·.sitesFrom (n :: above))).foldl step (f w) := by
      intro ns
      induction ns with
      | nil => exact fun w _ => ⟨fun _ _ _ hsplit => by simp [arrivalsOfParts] at hsplit, rfl⟩
      | cons c rest ihrest =>
        intro w hsub
        obtain ⟨hc, hrest⟩ := List.cons_subset.mp hsub
        obtain ⟨hhere, hnext⟩ := ih c hc (w := w) fun site hsite =>
          hopen site (Node.mem_sitesFrom.mpr (Or.inr ⟨c, hc, hsite⟩))
        obtain ⟨hafter, hdone⟩ := ihrest (ofNode s (n :: above) w c).2 hrest
        rw [hnext] at hafter hdone
        rw [arrivalsOfParts, ofParts_cons, List.flatMap_cons, List.foldl_append]
        refine ⟨hhere.append ?_, hdone⟩
        rwa [map_site_arrivals]
    obtain ⟨hbelow, hdone⟩ := hparts n.children (w.enter ⟨n, above⟩) (List.Subset.refl _)
    rw [h.enter] at hbelow hdone
    rw [arrivals_eq, ofNode_eq (hopen _ (Node.mem_sitesFrom.mpr (Or.inl rfl))), Node.sitesFrom_eq]
    exact ⟨.cons rfl hbelow, (h.leave _ n).trans hdone⟩

theorem entersOnly_errors :
    EntersOnly Walk.errors fun e site => e.enter site.node := ⟨fun _ _ => rfl, fun _ _ => rfl⟩

end Survey

/-! ### Values stored in variables -/

/-- The node reads the code of the last error. -/
inductive Node.ReadsError (n : Node) : Prop
  | systemVariable {name : String} (hkind : n.kind = .systemVariable name)
      (hname : Text.same name "@@ERROR") : ReadsError n
  | function {name : String} (hkind : n.kind = .functionCall name)
      (hname : Text.same name "ERROR_NUMBER") : ReadsError n

theorem Node.isErrorSource_iff {n : Node} : n.isErrorSource = true ↔ n.ReadsError := by
  constructor
  · intro h
    unfold isErrorSource at h
    split at h
    · next hkind => exact .systemVariable hkind h
    · next hkind => exact .function hkind h
    · cases h
  · rintro (⟨hkind, hname⟩ | ⟨hkind, hname⟩) <;> simp [isErrorSource, hkind, hname]

/-- The node stores a value in the variable: it assigns to it, or it declares it with a value. -/
def Node.Stores (n : Node) (name : String) : Prop :=
  match n.kind with
  | .variableAssignment target _ => Text.same target name = true
  | .variableDecl target => Text.same target name = true ∧ n.children[1]?.isSome
  | _ => False

/-- The value that takes the place of the old one. Operators other than `=` work on the old one. -/
def Node.newValue? (n : Node) : Option Node :=
  match n.kind with
  | .variableAssignment _ operator => if operator = "=" then n.children.head? else none
  | .variableDecl _ => n.children[1]?
  | _ => none

/-- The last of the nodes that stores a value in the variable, and the nodes before it. -/
def LastStore (nodes : List Node) (name : String) (before : List Node) (n : Node) : Prop :=
  ∃ after, nodes = before ++ n :: after ∧ n.Stores name ∧ ∀ m ∈ after, ¬ m.Stores name

/-- After the nodes, the variable holds an error code: the last value stored in it is one, or it is
a variable that held one then. -/
inductive HoldsCode : List Node → String → Prop
  | source {nodes before : List Node} {n value : Node} {name : String} :
    LastStore nodes name before n → n.newValue? = some value → value.ReadsError →
    HoldsCode nodes name
  | copy {nodes before : List Node} {n value : Node} {name other : String} :
    LastStore nodes name before n → n.newValue? = some value →
    value.kind = .localVariable other → HoldsCode before other → HoldsCode nodes name

/-- What the value of a node is worth after other nodes. -/
def Node.YieldsCode (value : Node) (nodes : List Node) : Prop :=
  value.ReadsError ∨ ∃ other, value.kind = .localVariable other ∧ HoldsCode nodes other

theorem not_holdsCode_nil (name : String) : ¬ HoldsCode [] name := by
  rintro (⟨⟨_, hsplit, -⟩, -⟩ | ⟨⟨_, hsplit, -⟩, -⟩) <;> simp at hsplit

theorem lastStore_concat {nodes before : List Node} {m n : Node} {name : String} :
    LastStore (nodes ++ [m]) name before n ↔
      (m.Stores name ∧ before = nodes ∧ n = m) ∨
        (¬ m.Stores name ∧ LastStore nodes name before n) := by
  constructor
  · rintro ⟨after, hsplit, hn, hafter⟩
    rcases List.eq_nil_or_concat after with rfl | ⟨after, last, rfl⟩
    · obtain ⟨rfl, hm⟩ := List.append_inj' hsplit rfl
      obtain rfl := List.singleton_inj.mp hm
      exact .inl ⟨hn, rfl, rfl⟩
    · rw [List.concat_eq_append, ← List.cons_append, ← List.append_assoc] at hsplit
      obtain ⟨rfl, hm⟩ := List.append_inj' hsplit rfl
      obtain rfl := List.singleton_inj.mp hm
      exact .inr ⟨hafter m (by simp), after, rfl, hn, fun x hx => hafter x (by simp [hx])⟩
  · rintro (⟨hm, rfl, rfl⟩ | ⟨hm, after, rfl, hn, hafter⟩)
    · exact ⟨[], rfl, hm, by simp⟩
    · refine ⟨after ++ [m], by simp, hn, fun x hx => ?_⟩
      rcases List.mem_append.mp hx with hx | hx
      · exact hafter x hx
      · rwa [List.mem_singleton.mp hx]

theorem holdsCode_iff {nodes : List Node} {name : String} :
    HoldsCode nodes name ↔ ∃ before n value,
      LastStore nodes name before n ∧ n.newValue? = some value ∧ value.YieldsCode before := by
  constructor
  · rintro (⟨hlast, hvalue, hsource⟩ | ⟨hlast, hvalue, hkind, hother⟩)
    · exact ⟨_, _, _, hlast, hvalue, .inl hsource⟩
    · exact ⟨_, _, _, hlast, hvalue, .inr ⟨_, hkind, hother⟩⟩
  · rintro ⟨before, n, value, hlast, hvalue, hsource | ⟨other, hkind, hother⟩⟩
    · exact .source hlast hvalue hsource
    · exact .copy hlast hvalue hkind hother

theorem holdsCode_concat_of_stores {nodes : List Node} {n : Node} {name : String}
    (h : n.Stores name) :
    HoldsCode (nodes ++ [n]) name ↔ ∃ value, n.newValue? = some value ∧ value.YieldsCode nodes := by
  simp only [holdsCode_iff, lastStore_concat, h, true_and, not_true, false_and, or_false]
  constructor
  · rintro ⟨_, _, value, ⟨rfl, rfl⟩, hvalue, hyields⟩
    exact ⟨value, hvalue, hyields⟩
  · rintro ⟨value, hvalue, hyields⟩
    exact ⟨_, _, value, ⟨rfl, rfl⟩, hvalue, hyields⟩

theorem holdsCode_concat_of_not_stores {nodes : List Node} {n : Node} {name : String}
    (h : ¬ n.Stores name) : HoldsCode (nodes ++ [n]) name ↔ HoldsCode nodes name := by
  simp only [holdsCode_iff, lastStore_concat, h, false_and, false_or, not_false_eq_true, true_and]

namespace ErrorTracker

variable {e : ErrorTracker} {name target : String} {n : Node}

theorem isTracked_forget : (e.forget target).isTracked name = true ↔
    Text.same target name = false ∧ e.isTracked name = true := by
  rw [← Bool.not_eq_true, Text.same_iff_upper, isTracked, forget, List.contains_iff_mem,
    List.mem_filter, bne_iff_ne, and_comm, ne_comm]
  simp [isTracked]

theorem isTracked_note {value : Node} : (e.note target value).isTracked name = true ↔
    if Text.same target name then e.yieldsCode value = true else e.isTracked name = true := by
  unfold note
  cases hsame : Text.same target name with
  | true =>
    have hkey := Text.same_iff_upper.mp hsame
    split
    · simp [isTracked, *]
    · simp [isTracked_forget, *]
  | false =>
    have hkey : Text.upper name ≠ Text.upper target := by
      intro heq
      rw [Text.same_iff_upper.mpr heq.symm] at hsame
      cases hsame
    split
    · simp [isTracked, forget, hkey]
    · simp [isTracked_forget, hsame]

theorem isTracked_enter_of_not_stores (h : ¬ n.Stores name) :
    (e.enter n).isTracked name = e.isTracked name := by
  unfold enter noteValue
  unfold Node.Stores at h
  rw [Bool.eq_iff_iff]
  split
  · rename_i target operator hkind
    rw [hkind] at h
    have hsame : Text.same target name = false := by simpa using h
    split
    · split
      · simp [isTracked_note, hsame]
      · rfl
    · simp [isTracked_forget, hsame]
  · rename_i target hkind
    rw [hkind] at h
    split
    · rename_i value hvalue
      have hsame : Text.same target name = false := by simpa [hvalue] using h
      simp [isTracked_note, hsame]
    · rfl
  · rfl

/-- Assignments have a value, so that each of them decides. -/
theorem isTracked_enter_of_stores (hadmits : n.kind.Admits n.children) (h : n.Stores name) :
    (e.enter n).isTracked name = true ↔
      ∃ value, n.newValue? = some value ∧ e.yieldsCode value = true := by
  unfold enter noteValue
  unfold Node.Stores at h
  split
  · rename_i target operator hkind
    simp only [hkind] at h hadmits
    obtain ⟨value, hvalue⟩ := List.length_eq_one_iff.mp hadmits
    by_cases hoperator : operator = "="
    · simp [Node.newValue?, hkind, hoperator, hvalue, isTracked_note, h]
    · simp [Node.newValue?, hkind, hoperator, isTracked_forget, h]
  · rename_i target hkind
    simp only [hkind] at h
    obtain ⟨hsame, hsome⟩ := h
    obtain ⟨value, hvalue⟩ := Option.isSome_iff_exists.mp hsome
    simp [Node.newValue?, hkind, hvalue, isTracked_note, hsame]
  · rename_i hassign hdecl
    split at h
    · exact absurd ‹_› (hassign _ _)
    · exact absurd ‹_› (hdecl _)
    · exact h.elim

theorem yieldsCode_iff {value : Node} {nodes : List Node}
    (h : ∀ name, e.isTracked name = true ↔ HoldsCode nodes name) :
    e.yieldsCode value = true ↔ value.YieldsCode nodes := by
  unfold yieldsCode Node.YieldsCode
  rw [Bool.or_eq_true, Node.isErrorSource_iff]
  refine or_congr_right ?_
  split
  · rename_i other hkind
    simp [hkind, h]
  · rename_i hkind
    simp only [Bool.false_eq_true, false_iff]
    rintro ⟨other, hother, -⟩
    exact hkind other hother

/-- Entering the nodes in order leaves the variables that hold an error code after them. -/
theorem isTracked_foldl_enter (nodes : List Node)
    (hadmits : ∀ n ∈ nodes, n.kind.Admits n.children) (name : String) :
    (nodes.foldl enter {}).isTracked name = true ↔ HoldsCode nodes name := by
  induction nodes using List.reverseRecOn generalizing name with
  | nil => simp [isTracked, not_holdsCode_nil]
  | append_singleton nodes n ih =>
    have ih := ih fun m hm => hadmits m (List.mem_append_left _ hm)
    rw [List.foldl_concat]
    by_cases hstores : n.Stores name
    · rw [isTracked_enter_of_stores (hadmits n (by simp)) hstores,
        holdsCode_concat_of_stores hstores]
      simp only [yieldsCode_iff ih]
    · rw [isTracked_enter_of_not_stores hstores, holdsCode_concat_of_not_stores hstores, ih]

end ErrorTracker

/-! ### Predicates -/

/-- The construct may test for an error code: a comparison, a list or a range. -/
def Kind.isPredicate : Kind → Bool
  | .comparison _ | .inList _ | .between _ => true
  | _ => false

namespace Survey

variable {s : Scope} {v : Arrival}

/-- A predicate is examined with the error codes that are known when the walk comes to it. -/
theorem examine_suffix_sightings (h : v.site.kind.isPredicate = true) :
    (v.walk.errors.examine s.tree v.site.node).map (codeCheck s v.site.node.line) <:+
      (v.sightings s).map (·.report) := by
  have herrors : (v.walk.enter v.site).errors = v.walk.errors := by
    show v.walk.errors.enter v.site.node = v.walk.errors
    unfold ErrorTracker.enter
    split
    · simp_all [Site.kind, Kind.isPredicate]
    · simp_all [Site.kind, Kind.isPredicate]
    · rfl
  have hchecks : codeChecks s (v.walk.enter v.site) v.site.node <:+
      (v.sightings s).map (·.report) := by
    unfold Kind.isPredicate at h
    split at h
    case h_4 => cases h
    all_goals
      rename_i hsite
      have hkind : v.site.node.kind = _ := hsite
      simp only [Arrival.sightings, reports, closingReports, hkind, List.map_nil, List.append_nil,
        List.map_map, Walk.sighting, Function.comp_def, List.map_id']
      first
        | exact List.suffix_rfl
        | exact List.suffix_append _ _
  rwa [codeChecks, herrors] at hchecks

end Survey

namespace Analysis

variable {script : String} {batches : List ParsedBatch} {i : Nat} {p : ParsedBatch}

/-- Error codes are tracked by the last value stored. The walk over a batch starts with no variable
that holds one; wherever it has come to, a variable holds one just where the last value stored in it
by the nodes before was one; and a predicate is examined with just these variables. -/
theorem errorCodes_tracked (m : Matrix) (limits : NameLimits) (settings : Settings)
    (hparse : parse? script = some batches) (hp : batches[i]? = some p) :
    ∃ s database, s.tree = p.tree ∧
      (survey m limits settings batches)[i]? =
        some (p.batch.place, (surveyBatch s database p.batch).1) ∧
      let visits := Survey.arrivals s [] { database } s.tree.root
      visits.map (·.site) = p.tree.sites ∧
        (Survey.ofBatch s database).1.Perm (visits.flatMap (·.sightings s)) ∧
        (∀ v, visits.head? = some v → v.walk.errors.tracked = []) ∧
        ∀ before v after, visits = before ++ v :: after →
          (∀ name, v.walk.errors.isTracked name = true ↔
            HoldsCode (before.map (·.site.node)) name) ∧
          (v.site.kind.isPredicate = true →
            (v.walk.errors.examine s.tree v.site.node).map
                (Survey.codeCheck s v.site.node.line) <:+
              (v.sightings s).map (·.report)) := by
  obtain ⟨s, database, htree, -, hsurvey⟩ := exists_survey m limits settings hparse hp
  have hparsed : Tree.ofText? p.batch.content = some s.tree :=
    htree ▸ (parse?_eq_some hparse).2 p (List.mem_of_getElem? hp)
  have hopen := Survey.children_eq_nil_of_isOpaque hparsed
  refine ⟨s, database, htree, hsurvey, ?_⟩
  intro visits
  have hsites : visits.map (·.site) = s.tree.sites := Survey.map_site_arrivals _ _
  refine ⟨htree ▸ hsites, Survey.ofNode_perm _ hopen, fun v hv => ?_, ?_⟩
  · have hfirst : visits.head? = some ⟨⟨s.tree.root, []⟩, { database }⟩ := by
      simp [visits, Survey.arrivals_eq]
    obtain rfl := Option.some.inj (hfirst.symm.trans hv)
    rfl
  · intro before v after hsplit
    refine ⟨fun name => ?_, Survey.examine_suffix_sightings⟩
    have herrors := (Survey.entersOnly_errors.threads (w := { database }) hopen).1
      before v after hsplit
    rw [← ErrorTracker.isTracked_foldl_enter _ ?_ name, herrors, List.foldl_map, List.foldl_map]
    intro n hn
    obtain ⟨u, hu, rfl⟩ := List.mem_map.mp hn
    have hsite : u.site ∈ s.tree.sites := by
      rw [← hsites, hsplit]
      exact List.mem_map_of_mem (List.mem_append_left _ hu)
    exact ((Tree.conforms_ofText? hparsed).site hsite).1

/-- A copy of an error code is one, in whichever case the variables are written. -/
theorem errorCodes_tracked_copy : ∃ p s database before v after,
    parse? "SET @e=@@ERROR SET @f=@E IF @F=5 PRINT 1" = some [p] ∧ s.tree = p.tree ∧
      Survey.arrivals s [] { database } s.tree.root = before ++ v :: after ∧
      v.site.kind = .comparison "=" ∧ v.walk.errors.isTracked "@F" = true := by
  have hsplit : Batch.split "SET @e=@@ERROR SET @f=@E IF @F=5 PRINT 1" =
      [⟨1, "SET @e=@@ERROR SET @f=@E IF @F=5 PRINT 1\n", 1, none, []⟩] := by decide +kernel
  have hrun : ((Tree.ofText? "SET @e=@@ERROR SET @f=@E IF @F=5 PRINT 1\n").map fun t =>
      t.sites.map fun x => (x.kind, x.node.children.head?.map Node.kind)) =
      some [(.batch, some (.variableAssignment "@e" "=")),
        (.variableAssignment "@e" "=", some (.systemVariable "@@ERROR")),
        (.systemVariable "@@ERROR", none),
        (.variableAssignment "@f" "=", some (.localVariable "@E")), (.localVariable "@E", none),
        (.ifElse, some (.comparison "=")), (.comparison "=", some (.localVariable "@F")),
        (.localVariable "@F", none), (.literal .number, none), (.print, some (.literal .number)),
        (.literal .number, none)] :=
    Tree.map_ofText?_of_apart (by decide +kernel)
  obtain ⟨t, ht, hfacts⟩ := Option.map_eq_some_iff.mp hrun
  have hparse : parse? "SET @e=@@ERROR SET @f=@E IF @F=5 PRINT 1" =
      some [⟨⟨1, "SET @e=@@ERROR SET @f=@E IF @F=5 PRINT 1\n", 1, none, []⟩, t⟩] := by
    simp [parse?, hsplit, ht]
  obtain ⟨s, database, htree, -, hvisits, -, -, hall⟩ :=
    errorCodes_tracked .default ⟨128, []⟩ {} hparse (show [_][0]? = some _ from rfl)
  rw [← hvisits, List.map_map] at hfacts
  obtain ⟨b, _, hb, hbatch, hfacts⟩ := List.map_eq_cons_iff.mp hfacts
  obtain ⟨first, _, rfl, hfirst, hfacts⟩ := List.map_eq_cons_iff.mp hfacts
  obtain ⟨source, _, rfl, hsource, hfacts⟩ := List.map_eq_cons_iff.mp hfacts
  obtain ⟨copy, _, rfl, hcopy, hfacts⟩ := List.map_eq_cons_iff.mp hfacts
  obtain ⟨other, _, rfl, hother, hfacts⟩ := List.map_eq_cons_iff.mp hfacts
  obtain ⟨branch, _, rfl, hbranch, hfacts⟩ := List.map_eq_cons_iff.mp hfacts
  obtain ⟨v, after, rfl, hv, -⟩ := List.map_eq_cons_iff.mp hfacts
  simp only [Function.comp_apply, Prod.mk.injEq, Option.map_eq_some_iff] at hfirst hcopy
  obtain ⟨hfirst, value, hvalue, hcode⟩ := hfirst
  obtain ⟨hcopy, value', hvalue', hname⟩ := hcopy
  have hsame : Text.same "@e" "@E" = true ∧ Text.same "@f" "@F" = true ∧
      Text.same "@f" "@E" = false ∧ Text.same "@@ERROR" "@@ERROR" = true := by
    simp only [← Bool.not_eq_true, Text.same_iff_upper, Text.upper_eq_ofList]
    decide +kernel
  have hholds : HoldsCode [b.site.node, first.site.node, source.site.node, copy.site.node,
      other.site.node, branch.site.node] "@F" := by
    have hkinds : b.site.node.kind = _ ∧ first.site.node.kind = _ ∧ source.site.node.kind = _ ∧
        copy.site.node.kind = _ ∧ other.site.node.kind = _ ∧ branch.site.node.kind = _ :=
      ⟨congrArg Prod.fst hbatch, hfirst, congrArg Prod.fst hsource, hcopy, congrArg Prod.fst hother,
        congrArg Prod.fst hbranch⟩
    have hlast : LastStore [b.site.node, first.site.node, source.site.node, copy.site.node,
        other.site.node, branch.site.node] "@F"
        [b.site.node, first.site.node, source.site.node] copy.site.node :=
      ⟨[_, _], rfl, by simp [Node.Stores, hkinds, hsame], by simp [Node.Stores, hkinds]⟩
    have hfirstStore : LastStore [b.site.node, first.site.node, source.site.node] "@E"
        [b.site.node] first.site.node :=
      ⟨[_], rfl, by simp [Node.Stores, hkinds, hsame], by simp [Node.Stores, hkinds]⟩
    have hcopied : copy.site.node.newValue? = some value' := by
      simp [Node.newValue?, hkinds, hvalue']
    have hstored : first.site.node.newValue? = some value := by
      simp [Node.newValue?, hkinds, hvalue]
    exact .copy hlast hcopied hname
      (.source hfirstStore hstored (.systemVariable hcode hsame.2.2.2))
  have htracked := (hall [b, first, source, copy, other, branch] v after hb).1 "@F"
  exact ⟨_, s, database, [b, first, source, copy, other, branch], v, after, hparse, htree, hb,
    congrArg Prod.fst hv, htracked.mpr hholds⟩

end Analysis

end Portability
