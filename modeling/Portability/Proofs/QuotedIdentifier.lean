import Mathlib
import Portability.Proofs.BatchSplit
import Portability.Proofs.Isolation
import Portability.Proofs.LexicalContext

/-! The setting `QUOTED_IDENTIFIER` over the batches of a script. A batch is read with what the
batches before it left, and what it sets itself does not change how it is read. -/
namespace Portability

namespace QuotedIdentifier

/-- At the end of the list nothing has to be filled. -/
theorem place_length (filler value : Bool) (bs : List Bool) :
    place filler value bs.length bs = bs ++ [value] := by
  induction bs with
  | nil => rfl
  | cons b rest ih => exact congrArg (b :: ·) ih

end QuotedIdentifier

/-- What stands in double quotes. -/
def Kind.isDoubleQuoted : Kind → Bool
  | .identifier _ (some .double) => true
  | _ => false

theorem Kind.isDoubleQuoted_iff {kind : Kind} :
    kind.isDoubleQuoted ↔ ∃ name, kind = .identifier name (some .double) := by
  constructor
  · intro h
    unfold isDoubleQuoted at h
    split at h
    · exact ⟨_, rfl⟩
    · cases h
  · rintro ⟨name, rfl⟩
    rfl

/-! ### The statements that change the setting -/

/-- Procedures, functions and triggers. -/
inductive Kind.Routine : Kind → Prop
  | procedure {name verb options number} : Routine (.createProcedure name verb options number)
  | function {name verb kind options} : Routine (.createFunction name verb kind options)
  | trigger {name verb target scope timing events options} :
    Routine (.createTrigger name verb target scope timing events options)

theorem Kind.isRoutine_iff {kind : Kind} : kind.isRoutine ↔ kind.Routine := by
  constructor
  · intro h
    unfold isRoutine at h
    split at h
    · exact .procedure
    · exact .function
    · exact .trigger
    · cases h
  · rintro (_ | _ | _) <;> rfl

/-- The node is a `SET QUOTED_IDENTIFIER` statement that turns the setting on or off, and no routine
stands around it. -/
structure Site.Changes (site : Site) (isOn : Bool) : Prop where
  sets : ∃ options, site.kind = .setOption options (if isOn then "ON" else "OFF") ∧
    ∃ option ∈ options, Text.same option "QUOTED_IDENTIFIER"
  outside : ∀ a ∈ site.ancestors, ¬ a.kind.Routine

theorem Kind.quotedIdentifier?_eq_some_iff {kind : Kind} {isOn : Bool} :
    kind.quotedIdentifier? = some isOn ↔
      ∃ options, kind = .setOption options (if isOn then "ON" else "OFF") ∧
        ∃ option ∈ options, Text.same option "QUOTED_IDENTIFIER" := by
  constructor
  · intro h
    unfold quotedIdentifier? at h
    split at h
    · next options value =>
      obtain ⟨hnamed, h⟩ := Option.ite_none_right_eq_some.mp h
      split at h <;> cases h <;> exact ⟨options, rfl, List.any_eq_true.mp hnamed⟩
    · cases h
  · rintro ⟨options, rfl, hnamed⟩
    cases isOn <;> exact if_pos (List.any_eq_true.mpr hnamed)

theorem Site.isInRoutine_eq_false_iff {site : Site} :
    site.isInRoutine = false ↔ ∀ a ∈ site.ancestors, ¬ a.kind.Routine := by
  simp only [isInRoutine, isInside, List.any_eq_false, Kind.isRoutine_iff]

namespace Declarations

variable {schema : String} {d : Declarations} {isOn value : Bool} {site : Site}

theorem quoted?_eq_some_iff : quoted? site = some isOn ↔ site.Changes isOn := by
  rw [quoted?, Option.ite_none_left_eq_some, Kind.quotedIdentifier?_eq_some_iff,
    Bool.not_eq_true, Site.isInRoutine_eq_false_iff]
  exact ⟨fun ⟨outside, sets⟩ => ⟨sets, outside⟩, fun h => ⟨h.outside, h.sets⟩⟩

theorem quoted?_eq_none_iff : quoted? site = none ↔ ∀ isOn, ¬ site.Changes isOn := by
  simp only [Option.eq_none_iff_forall_ne_some, ne_eq, quoted?_eq_some_iff]

/-- The setting that nodes leave, one after the other: what the last of them that changes it turns
it to, and what it was if none does. -/
inductive LeavesSetting (isOn : Bool) (sites : List Site) : Bool → Prop
  | unchanged (h : ∀ site ∈ sites, ∀ value, ¬ site.Changes value) : LeavesSetting isOn sites isOn
  | changed {before after : List Site} {site : Site} {value : Bool}
    (hsites : sites = before ++ site :: after) (hchange : site.Changes value)
    (hlast : ∀ later ∈ after, ∀ value', ¬ later.Changes value') : LeavesSetting isOn sites value

/-- The setting that batches leave, read off the statements that change it. -/
def settingAfter (isOn : Bool) (trees : List Tree) : Bool :=
  ((trees.flatMap (·.sites)).filterMap quoted?).getLast?.getD isOn

theorem leavesSetting_iff {trees : List Tree} :
    LeavesSetting isOn (trees.flatMap (·.sites)) value ↔ settingAfter isOn trees = value := by
  unfold settingAfter
  generalize trees.flatMap (·.sites) = sites
  constructor
  · rintro (hnone | ⟨rfl, hchange, hlast⟩)
    · rw [List.filterMap_eq_nil_iff.mpr fun site hsite =>
        quoted?_eq_none_iff.mpr (hnone site hsite)]
      rfl
    · rw [List.filterMap_append, List.filterMap_cons_some (quoted?_eq_some_iff.mpr hchange),
        List.filterMap_eq_nil_iff.mpr fun later hlater =>
          quoted?_eq_none_iff.mpr (hlast later hlater)]
      simp
  · rintro rfl
    cases hvalue : (sites.filterMap quoted?).getLast? with
    | none =>
      refine .unchanged fun site hsite => quoted?_eq_none_iff.mp ?_
      exact List.filterMap_eq_nil_iff.mp (List.getLast?_eq_none_iff.mp hvalue) site hsite
    | some value =>
      obtain ⟨ys, hys⟩ := List.getLast?_eq_some_iff.mp hvalue
      obtain ⟨before, rest, rfl, -, hrest⟩ := List.filterMap_eq_append_iff.mp hys
      obtain ⟨skipped, site, after, rfl, -, hchange, hafter⟩ :=
        List.filterMap_eq_cons_iff.mp hrest
      have hsites : before ++ (skipped ++ site :: after) = (before ++ skipped) ++ site :: after :=
        (List.append_assoc ..).symm
      refine .changed hsites (quoted?_eq_some_iff.mp hchange) fun later hlater => ?_
      exact quoted?_eq_none_iff.mp (List.filterMap_eq_nil_iff.mp hafter later hlater)

theorem settingAfter_cons (isOn : Bool) (t : Tree) (rest : List Tree) :
    settingAfter isOn (t :: rest) = settingAfter (settingAfter isOn [t]) rest := by
  simp only [settingAfter, List.flatMap_cons, List.flatMap_nil, List.append_nil,
    List.filterMap_append, List.getLast?_append]
  cases ((rest.flatMap (·.sites)).filterMap quoted?).getLast? <;> rfl

/-- A setting that nothing changes stays. -/
theorem settingAfter_eq {trees : List Tree}
    (h : ∀ t ∈ trees, ∀ site ∈ t.sites, ∀ value, ¬ site.Changes value) :
    settingAfter isOn trees = isOn := by
  refine leavesSetting_iff.mp (.unchanged fun site hsite => ?_)
  obtain ⟨t, ht, hsite⟩ := List.mem_flatMap.mp hsite
  exact h t ht site hsite

/-- A statement that changes the setting declares no name. -/
theorem symbol?_eq_none (h : quoted? site = some isOn) :
    symbol? schema site.node = none := by
  obtain ⟨⟨id, kind, line, start, stop, children⟩, above⟩ := site
  have hkind : kind.quotedIdentifier? = some isOn := (Option.ite_none_left_eq_some.mp h).2
  cases kind with
  | setOption => rfl
  | _ => cases hkind

theorem quoted_add (site : Site) :
    (add schema d site).quoted =
      { d.quoted with isOn := (quoted? site).getD d.quoted.isOn } := by
  unfold add
  cases hset : quoted? site with
  | none => cases symbol? schema site.node <;> rfl
  | some isOn =>
    rw [symbol?_eq_none hset]
    rfl

theorem quoted_foldl_add (sites : List Site) :
    (sites.foldl (add schema) d).quoted =
      { d.quoted with isOn := (sites.filterMap quoted?).getLast?.getD d.quoted.isOn } := by
  induction sites generalizing d with
  | nil => rfl
  | cons site rest ih =>
    rw [List.foldl_cons, ih, quoted_add]
    cases hset : quoted? site with
    | none => simp [hset]
    | some isOn => simp [hset, List.getLast?_cons]

/-- Reading one more batch remembers the setting before it and leaves the one after it. -/
theorem quoted_addBatch (t : Tree) :
    (addBatch schema d d.quoted.starts.length t).quoted =
      { d.quoted with
        starts := d.quoted.starts ++ [d.quoted.isOn]
        isOn := settingAfter d.quoted.isOn [t] } := by
  rw [addBatch, quoted_foldl_add]
  simp [QuotedIdentifier.recordStart, QuotedIdentifier.place_length, settingAfter]

theorem quoted_foldl_addBatch (trees : List Tree) :
    ((trees.zipIdx d.quoted.starts.length).foldl (fun d p => addBatch schema d p.2 p.1) d).quoted =
      { d.quoted with
        starts := d.quoted.starts ++
          (List.range trees.length).map fun i => settingAfter d.quoted.isOn (trees.take i)
        isOn := settingAfter d.quoted.isOn trees } := by
  induction trees generalizing d with
  | nil => simp [settingAfter]
  | cons t rest ih =>
    have hstep : (addBatch schema d d.quoted.starts.length t).quoted = _ := quoted_addBatch t
    have hlength : d.quoted.starts.length + 1 =
        (addBatch schema d d.quoted.starts.length t).quoted.starts.length := by simp [hstep]
    rw [List.zipIdx_cons, List.foldl_cons, hlength, ih, hstep]
    simp only [List.length_cons, List.range_succ_eq_map, List.map_cons, List.map_map,
      List.take_zero, List.append_assoc, List.singleton_append, ← settingAfter_cons]
    rfl

/-- A batch starts with what the batches before it left. -/
theorem startOf_ofTrees (schema : String) (isOn : Bool) {trees : List Tree} {i : Nat}
    (h : i < trees.length) :
    (ofTrees schema isOn trees).quoted.startOf i = settingAfter isOn (trees.take i) := by
  have hquoted : (ofTrees schema isOn trees).quoted = _ :=
    quoted_foldl_addBatch (d := { quoted := { initial := isOn } }) trees
  rw [hquoted, QuotedIdentifier.startOf]
  simp [h]

end Declarations

/-! ### Reports that become findings -/

namespace Survey

variable {s : Scope} {v : Arrival} {name : String}

/-- The walk makes a report at the node, and the verdict on it is a finding. -/
def Arrival.Reports (s : Scope) (v : Arrival) (r : Report) (j : Judge) (place : BatchPlace)
    (found : List Finding) : Prop :=
  ∃ x ∈ v.sightings s, x.report = r ∧
    ∃ f ∈ found, j.finding place x = .ok f ∧ f.item = Text.collapse r.display ∧ f.line = r.line

/-- Where verdicts are given, a report is a finding as soon as the walk makes it. -/
theorem Arrival.reports_iff {j : Judge} {place : BatchPlace} {sightings : List Sighting}
    {found : List Finding} (h : j.findings place sightings = .ok found)
    (hv : ∀ x ∈ v.sightings s, x ∈ sightings) (r : Report) :
    v.Reports s r j place found ↔ r ∈ (v.sightings s).map (·.report) := by
  constructor
  · rintro ⟨x, hx, rfl, -⟩
    exact List.mem_map_of_mem hx
  · intro hr
    obtain ⟨x, hx, rfl⟩ := List.mem_map.mp hr
    obtain ⟨f, hf, hfinding⟩ := Judge.exists_finding_of_mem h (hv x hx)
    obtain ⟨_, _, -, -, rfl⟩ := Judge.exists_ruling_of_finding hfinding
    exact ⟨x, hx, rfl, _, hf, hfinding, rfl, rfl⟩

/-- What is reported on the way over a batch is reported for the batch. -/
theorem Arrival.mem_surveyBatch {text database : String} (hparsed : Tree.ofText? text = some s.tree)
    (hv : v ∈ arrivals s [] { database } s.tree.root) (b : Batch) {x : Sighting}
    (hx : x ∈ v.sightings s) : x ∈ (Analysis.surveyBatch s database b).1 := by
  have hperm := ofNode_perm (s := s) { database } (children_eq_nil_of_isOpaque hparsed)
  exact List.mem_append_right _ (hperm.mem_iff.mpr (List.mem_flatMap.mpr ⟨v, hv, hx⟩))

/-- The report on what stands in double quotes where they enclose strings. -/
def stringLiteral (s : Scope) (n : Node) : Report :=
  .item .quotedIdentifier "Double-quoted string literal" (s.text n) n.line

theorem category_eq_string_iff {n : Node} (h : n.kind = .identifier name (some .double)) :
    s.category n = .string ↔ s.quotedIdentifier = false := by
  obtain ⟨id, kind, line, start, stop, children⟩ := n
  subst h
  show Category.ofIdentifier _ name (some .double) = .string ↔ _
  unfold Category.ofIdentifier
  cases s.quotedIdentifier
  · simp
  · by_cases hsame : Text.same name "CURRENT_TIMESTAMP" <;> simp [hsame]

theorem stringLiteral_mem_sightings (h : v.site.kind = .identifier name (some .double)) :
    stringLiteral s v.site.node ∈ (v.sightings s).map (·.report) ↔ s.quotedIdentifier = false := by
  have hkind : v.site.node.kind = .identifier name (some .double) := h
  have hreports : (v.sightings s).map (·.report) =
      identifier s v.site.node name (some .double) := by
    simp [Arrival.sightings, reports, closingReports, hkind, Walk.sighting, Function.comp_def]
  rw [hreports, identifier]
  cases s.quotedIdentifier with
  | false => simp [stringLiteral]
  | true =>
    rw [if_neg (by simp)]
    refine iff_of_false (fun hmem => ?_) (by simp)
    -- a name that is too long is a question about no item
    have hsame := congrArg Report.question (Report.mem_onlyIf.mp hmem).2
    cases (Question.item.inj hsame).2

end Survey

namespace Analysis

variable {m : Matrix} {limits : NameLimits} {settings : Settings} {script : String}
  {batches : List ParsedBatch} {i : Nat}

/-- The findings of a batch are the verdicts on what the survey of the script sights in it. -/
theorem exists_findings_of_survey {a : Analysis} (h : ofScript? m settings script = some (.ok a))
    (hparse : parse? script = some batches) (hlimits : NameLimits.ofMatrix m = .ok limits)
    {place : BatchPlace} {sightings : List Sighting}
    (hsurvey : (survey m limits settings batches)[i]? = some (place, sightings)) :
    ∃ version o, a.outcomes[i]? = some o ∧
      Judge.findings ⟨m, version, settings.overrides⟩ place sightings = .ok o.findings := by
  unfold ofScript? at h
  cases hversion : m.resolveVersion settings.version with
  | error e => simp [hversion] at h
  | ok version =>
    simp only [hversion, hparse, Option.map_some, Option.some.injEq] at h
    rw [ofBatches_eq_map hlimits] at h
    cases houtcomes : Judge.outcomes ⟨m, version, settings.overrides⟩
        (survey m limits settings batches) with
    | error e => simp [houtcomes, Except.map] at h
    | ok outcomes =>
      rw [houtcomes] at h
      cases h
      have hresults := map_of_mapM (g := Except.ok) (fun _ _ => Eq.symm) houtcomes
      have hi := congrArg (·[i]?) hresults
      simp only [List.getElem?_map, hsurvey, Option.map_some, Option.map_eq_some_iff] at hi
      obtain ⟨o, ho, houtcome⟩ := hi
      obtain ⟨found, hfound, hmake⟩ := exists_of_bind_eq_ok houtcome.symm
      cases hmake
      exact ⟨version, _, ho, hfound⟩

/-- Where the walk over a batch starts. -/
theorem exists_survey (m : Matrix) (limits : NameLimits) (settings : Settings) {p : ParsedBatch}
    (hparse : parse? script = some batches) (hp : batches[i]? = some p) :
    ∃ s database, s.tree = p.tree ∧
      s.quotedIdentifier = Declarations.settingAfter settings.quotedIdentifier
        ((batches.take i).map (·.tree)) ∧
      (survey m limits settings batches)[i]? =
        some (p.batch.place, (surveyBatch s database p.batch).1) := by
  have hscope : ∀ d i t, (scope m limits settings d i t).tree = t := fun _ _ _ => rfl
  have hi : i < (batches.map (·.tree)).length := by
    simpa using (List.getElem?_eq_some_iff.mp hp).1
  refine ⟨scope m limits settings (Declarations.ofTrees settings.schema settings.quotedIdentifier
    (batches.map (·.tree))) i p.tree,
    Survey.databaseAfter ((batches.take i).flatMap (·.tree.sites)) settings.database, rfl, ?_, ?_⟩
  · rw [scope, QuotedIdentifier.isOn_resume, Declarations.startOf_ofTrees _ _ hi, ← List.map_take]
  · rw [survey, getElem?_surveyFrom (hscope _) (parse?_eq_some hparse).2, hp, Nat.zero_add,
      Option.map_some]

/-- The setting is carried from batch to batch. The walk over a batch is made with what the last
statement outside routines in the batches before it set, or with the setting of the analysis where
there is none; and what stands in double quotes in the batch is reported as a string, and is one
for its category, just where the setting is off. -/
theorem quotedIdentifier_carried {p : ParsedBatch} (hparse : parse? script = some batches)
    (hp : batches[i]? = some p) (hlimits : NameLimits.ofMatrix m = .ok limits) :
    ∃ isOn s database,
      Declarations.LeavesSetting settings.quotedIdentifier
        (((batches.take i).map (·.tree)).flatMap (·.sites)) isOn ∧
      s.tree = p.tree ∧ s.quotedIdentifier = isOn ∧
      (survey m limits settings batches)[i]? =
        some (p.batch.place, (surveyBatch s database p.batch).1) ∧
      let visits := Survey.arrivals s [] { database } s.tree.root
      visits.map (·.site) = p.tree.sites ∧
        (Survey.ofBatch s database).1.Perm (visits.flatMap (·.sightings s)) ∧
        ∀ v ∈ visits, ∀ name, v.site.kind = .identifier name (some .double) →
          (s.category v.site.node = .string ↔ isOn = false) ∧
          (Survey.stringLiteral s v.site.node ∈ (v.sightings s).map (·.report) ↔ isOn = false) ∧
          ∀ a, ofScript? m settings script = some (.ok a) →
            ∃ version o, a.outcomes[i]? = some o ∧
              (v.Reports s (Survey.stringLiteral s v.site.node)
                ⟨m, version, settings.overrides⟩ p.batch.place o.findings ↔ isOn = false) := by
  obtain ⟨s, database, htree, hisOn, hsurvey⟩ := exists_survey m limits settings hparse hp
  have hparsed : Tree.ofText? p.batch.content = some s.tree :=
    htree ▸ (parse?_eq_some hparse).2 p (List.mem_of_getElem? hp)
  have hperm := Survey.ofNode_perm (s := s) { database }
    (Survey.children_eq_nil_of_isOpaque hparsed)
  refine ⟨_, s, database, Declarations.leavesSetting_iff.mpr hisOn.symm, htree, rfl, hsurvey,
    htree ▸ Survey.map_site_arrivals _ _, hperm, ?_⟩
  intro v hv name hkind
  have hreported := Survey.stringLiteral_mem_sightings (s := s) hkind
  refine ⟨Survey.category_eq_string_iff hkind, hreported, fun a ha => ?_⟩
  obtain ⟨version, o, ho, hfound⟩ := exists_findings_of_survey ha hparse hlimits hsurvey
  refine ⟨version, o, ho, ?_⟩
  rw [Survey.Arrival.reports_iff hfound, hreported]
  exact fun _ => Survey.Arrival.mem_surveyBatch hparsed hv p.batch

/-- A batch that turns the setting off, and has no condition on the row at a cursor. -/
theorem settingAfter_off :
    ∃ t, Tree.ofText? "SET QUOTED_IDENTIFIER OFF\n" = some t ∧
      (∀ site ∈ t.sites, Survey.atCursor site.kind = false) ∧
      Declarations.settingAfter true [t] = false := by
  have hrun : ((Tree.ofText? "SET QUOTED_IDENTIFIER OFF\n").map fun t =>
      t.sites.map fun x => (x.kind, x.isInRoutine)) =
      some [(.batch, false), (.setOption ["QUOTED_IDENTIFIER"] "OFF", false)] :=
    Tree.map_ofText?_of_apart (by decide +kernel)
  obtain ⟨t, ht, hfacts⟩ := Option.map_eq_some_iff.mp hrun
  obtain ⟨batch, _, hsites, hbatch, hfacts⟩ := List.map_eq_cons_iff.mp hfacts
  obtain ⟨change, _, rfl, hchange, hfacts⟩ := List.map_eq_cons_iff.mp hfacts
  obtain rfl := List.map_eq_nil_iff.mp hfacts
  simp only [Prod.mk.injEq] at hbatch hchange
  refine ⟨t, ht, by simp [hsites, hbatch, hchange, Survey.atCursor], ?_⟩
  simp [Declarations.settingAfter, hsites, Declarations.quoted?, hbatch, hchange,
    Kind.quotedIdentifier?, Text.same]

/-- What one batch sets holds in the next. -/
theorem quotedIdentifier_carried_off :
    ∃ a o, ofScript? .default {} "SET QUOTED_IDENTIFIER OFF\nGO\nPRINT \"a\"" = some (.ok a) ∧
      a.outcomes[1]? = some o ∧ ∃ f ∈ o.findings, f.item = "Double-quoted string literal" := by
  have hversion : Matrix.default.resolveVersion ({} : Settings).version = .ok Matrix.Default.v200 :=
    rfl
  have hsplit : Batch.split "SET QUOTED_IDENTIFIER OFF\nGO\nPRINT \"a\"" =
      [⟨1, "SET QUOTED_IDENTIFIER OFF\n", 1, none, []⟩, ⟨2, "PRINT \"a\"\n", 3, none, []⟩] := by
    refine Batch.split_pair (?_ : _ = ["SET QUOTED_IDENTIFIER OFF", "GO", "PRINT \"a\""]) ?_ ?_ ?_
      ?_ ?_ ?_ ?_
    all_goals decide +kernel
  have hlast : ((Tree.ofText? "PRINT \"a\"\n").map fun t =>
      (t.sites.any (Survey.atCursor ·.kind), t.sites.any (·.kind.isDoubleQuoted))) =
        some (false, true) := Tree.map_ofText?_of_apart (by decide +kernel)
  obtain ⟨t, ht, hcalm, hoff⟩ := settingAfter_off
  obtain ⟨t', ht', hfacts'⟩ := Option.map_eq_some_iff.mp hlast
  obtain ⟨hcalm', hquoted⟩ := Prod.mk.inj hfacts'
  have hparse : parse? "SET QUOTED_IDENTIFIER OFF\nGO\nPRINT \"a\"" =
      some [⟨⟨1, "SET QUOTED_IDENTIFIER OFF\n", 1, none, []⟩, t⟩,
        ⟨⟨2, "PRINT \"a\"\n", 3, none, []⟩, t'⟩] := by
    simp [parse?, hsplit, ht, ht']
  obtain ⟨a, ha⟩ : ∃ a, ofScript? .default {} "SET QUOTED_IDENTIFIER OFF\nGO\nPRINT \"a\"" =
      some (.ok a) := by
    refine exists_ofScript?_default hversion hparse ?_
    rintro ⟨p, hp, site, hsite, hat⟩
    simp only [List.mem_cons, List.not_mem_nil, or_false] at hp
    rcases hp with rfl | rfl
    · rw [hcalm site hsite] at hat
      cases hat
    · exact List.any_eq_false.mp hcalm' site hsite hat
  obtain ⟨limits, hlimits⟩ := Matrix.Default.nameLimits
  obtain ⟨isOn, s, database, hleft, -, -, -, hvisits, -, hall⟩ :=
    @quotedIdentifier_carried .default limits {} _ _ 1 _ hparse rfl hlimits
  obtain ⟨site, hsite, hkind⟩ := List.any_eq_true.mp hquoted
  obtain ⟨v, hv, rfl⟩ := List.mem_map.mp (hvisits.symm ▸ hsite)
  obtain ⟨name, hname⟩ := Kind.isDoubleQuoted_iff.mp hkind
  obtain ⟨-, -, hfound⟩ := hall v hv name hname
  obtain ⟨version, o, ho, hreports⟩ := hfound a ha
  have hisOn : isOn = false := (Declarations.leavesSetting_iff.mp hleft).symm.trans hoff
  obtain ⟨x, -, -, f, hf, -, hitem, -⟩ := hreports.mpr hisOn
  have hcollapse : Text.collapse "Double-quoted string literal" =
      "Double-quoted string literal" := by decide +kernel
  exact ⟨a, o, ha, ho, f, hf, hitem.trans hcollapse⟩

end Analysis

end Portability
