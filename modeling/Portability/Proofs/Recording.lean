import Mathlib
import Portability.Proofs.Judging
import Portability.Proofs.Walk
import Portability.Recorder

/-! Findings recorded one by one. A recorder that is given each report of a walk with the objects
that are open when it is made comes to the findings that the verdicts on whole batches give, in the
same order, or stops at the same error. -/
namespace Portability

/-- A report that a walk makes, and what the walk knows then. -/
structure WalkStep where
  walk : Walk
  isQueued : Bool
  report : Report

def WalkStep.sighting (x : WalkStep) : Sighting := x.walk.sighting x.isQueued x.report

/-! ### The steps of a walk -/

namespace Survey

variable {s : Scope} {above : List Node} {w : Walk} {n : Node}

mutual

/-- The reports that a walk over a node makes, in order. -/
def stepsOfNode (s : Scope) (above : List Node) (w : Walk) : Node → List WalkStep
  | n@⟨_, _, _, _, _, children⟩ =>
    let inside := w.enter ⟨n, above⟩
    let done := (ofParts s (n :: above) inside children).2
    (reports s inside ⟨n, above⟩).map (⟨inside, false, ·⟩) ++
      stepsOfParts s (n :: above) inside children ++
      (closingReports s done n).map (⟨done, true, ·⟩)

def stepsOfParts (s : Scope) (above : List Node) (w : Walk) : List Node → List WalkStep
  | [] => []
  | n :: rest => stepsOfNode s above w n ++ stepsOfParts s above (ofNode s above w n).2 rest

end

theorem stepsOfNode_eq (s : Scope) (above : List Node) (w : Walk) (n : Node) :
    stepsOfNode s above w n =
      let inside := w.enter ⟨n, above⟩
      let done := (ofParts s (n :: above) inside n.children).2
      (reports s inside ⟨n, above⟩).map (⟨inside, false, ·⟩) ++
        stepsOfParts s (n :: above) inside n.children ++
        (closingReports s done n).map (⟨done, true, ·⟩) := by
  cases n
  rw [stepsOfNode]

theorem map_sighting_stepsOfNode
    (hopen : ∀ site ∈ n.sitesFrom above, isOpaque site.kind → site.node.children = []) :
    (stepsOfNode s above w n).map (·.sighting) = (ofNode s above w n).1 := by
  induction n using Node.induct generalizing above w with
  | node n ih =>
    have hparts : ∀ (ns : List Node) (w : Walk), ns ⊆ n.children →
        (stepsOfParts s (n :: above) w ns).map (·.sighting) =
          (ofParts s (n :: above) w ns).1 := by
      intro ns
      induction ns with
      | nil => exact fun _ _ => rfl
      | cons c rest ihrest =>
        intro w hsub
        obtain ⟨hc, hrest⟩ := List.cons_subset.mp hsub
        have hbelow := ih c hc (w := w) fun site hsite =>
          hopen site (Node.mem_sitesFrom.mpr (Or.inr ⟨c, hc, hsite⟩))
        rw [stepsOfParts, List.map_append, hbelow, ihrest _ hrest, ofParts_cons]
    rw [ofNode_eq (hopen _ (Node.mem_sitesFrom.mpr (Or.inl rfl))), stepsOfNode_eq]
    simp only [List.map_append, List.map_map, hparts _ _ (List.Subset.refl _)]
    rfl

end Survey

namespace Analysis

variable {m : Matrix} {limits : NameLimits} {settings : Settings}

/-- The reports on a batch: those on its directives, then those of the walk over its tree. -/
def stepsOfBatch (s : Scope) (database : String) (b : Batch) : List WalkStep :=
  (directiveReports b).map (⟨{ database }, false, ·⟩) ++
    Survey.stepsOfNode s [] { database } s.tree.root

theorem map_sighting_stepsOfBatch {s : Scope} {text : String}
    (h : Tree.ofText? text = some s.tree) (database : String) (b : Batch) :
    (stepsOfBatch s database b).map (·.sighting) = (surveyBatch s database b).1 := by
  have hwalk := Survey.map_sighting_stepsOfNode (s := s) (w := { database })
    (Survey.children_eq_nil_of_isOpaque h)
  rw [stepsOfBatch, List.map_append, hwalk, List.map_map]
  rfl

/-- The reports on batches in a row, each batch walked as in a survey. -/
def stepsFrom (scopeOf : Nat → Tree → Scope) (index : Nat) (database : String) :
    List ParsedBatch → List (BatchPlace × List WalkStep)
  | [] => []
  | p :: rest =>
    let s := scopeOf index p.tree
    (p.batch.place, stepsOfBatch s database p.batch) ::
      stepsFrom scopeOf (index + 1) (surveyBatch s database p.batch).2 rest

theorem map_sighting_stepsFrom {scopeOf : Nat → Tree → Scope} {batches : List ParsedBatch}
    (hscope : ∀ i t, (scopeOf i t).tree = t)
    (hparsed : ∀ p ∈ batches, Tree.ofText? p.batch.content = some p.tree) (index : Nat)
    (database : String) :
    (stepsFrom scopeOf index database batches).map (fun b => (b.1, b.2.map (·.sighting))) =
      surveyFrom scopeOf index database batches := by
  induction batches generalizing index database with
  | nil => rfl
  | cons p rest ih =>
    have hp : Tree.ofText? p.batch.content = some (scopeOf index p.tree).tree := by
      rw [hscope]
      exact hparsed p List.mem_cons_self
    rw [stepsFrom, List.map_cons, map_sighting_stepsOfBatch hp,
      ih fun q hq => hparsed q (List.mem_cons_of_mem p hq)]
    rfl

/-- The reports on the batches of a script. -/
def steps (m : Matrix) (limits : NameLimits) (settings : Settings) (batches : List ParsedBatch) :
    List (BatchPlace × List WalkStep) :=
  let declarations :=
    Declarations.ofTrees settings.schema settings.quotedIdentifier (batches.map (·.tree))
  stepsFrom (scope m limits settings declarations) 0 settings.database batches

end Analysis

/-! ### Recording -/

theorem Judge.outcomes_cons (j : Judge) (place : BatchPlace) (xs : List Sighting)
    (rest : List (BatchPlace × List Sighting)) :
    j.outcomes ((place, xs) :: rest) = (do
      let found ← j.findings place xs
      let outcomes ← j.outcomes rest
      return ⟨found, xs.filterMap (·.report.handled?)⟩ :: outcomes) := by
  rw [Judge.outcomes, List.mapM_cons]
  simp only [Judge.outcome, bind_assoc, pure_bind]
  rfl

namespace Recorder

variable {r : Recorder} {x : WalkStep} {xs : List WalkStep}

/-- One step of a walk recorded. -/
def take (r : Recorder) (x : WalkStep) : Except Error Recorder :=
  { r with objects := x.walk.objects }.record x.isQueued x.report

def follow (r : Recorder) (xs : List WalkStep) : Except Error Recorder := xs.foldlM take r

/-- Batches recorded one after the other. -/
def recordBatches (r : Recorder) (batches : List (BatchPlace × List WalkStep)) :
    Except Error Recorder :=
  batches.foldlM (fun r b => ((r.beginBatch b.1).follow b.2).map finishBatch) r

/-- The verdicts on the steps of a batch, each with whether it waits for the end of the batch. -/
def verdicts (r : Recorder) (xs : List WalkStep) : Except Error (List (Bool × Finding)) :=
  xs.mapM fun x => (r.judge.finding r.place x.sighting).map (x.isQueued, ·)

/-- The recorder with verdicts sorted in, and with other objects open. -/
def gain (r : Recorder) (objects : ObjectStack) (all : List (Bool × Finding)) : Recorder :=
  { r with
    objects
    findings := r.findings ++ (all.filter (!·.1)).map (·.2)
    held := r.held ++ (all.filter (·.1)).map (·.2) }

theorem take_eq (r : Recorder) (x : WalkStep) :
    r.take x = (r.judge.finding r.place x.sighting).map fun f =>
      r.gain x.walk.objects [(x.isQueued, f)] := by
  unfold take record WalkStep.sighting Walk.sighting
  simp only [bind, Except.bind]
  cases r.judge.finding r.place ⟨x.report, x.walk.objects.object, x.walk.objects.part,
    x.isQueued⟩ with
  | error e => rfl
  | ok f => cases hqueued : x.isQueued <;> simp [gain, Except.map, pure, Except.pure]

/-- A walk that is followed leaves the verdicts on its steps sorted in. -/
theorem follow_eq (r : Recorder) (xs : List WalkStep) :
    ∃ objects, r.follow xs = (r.verdicts xs).map (r.gain objects) := by
  induction xs generalizing r with
  | nil => exact ⟨r.objects, by simp [follow, verdicts, gain, Except.map, pure, Except.pure]⟩
  | cons x rest ih =>
    rw [follow, List.foldlM_cons, take_eq, verdicts, mapM_cons_eq]
    cases r.judge.finding r.place x.sighting with
    | error e => exact ⟨r.objects, rfl⟩
    | ok f =>
      obtain ⟨objects, hrest⟩ := ih (r.gain x.walk.objects [(x.isQueued, f)])
      refine ⟨objects, hrest.trans ?_⟩
      show (r.verdicts rest).map _ = _
      unfold verdicts
      cases rest.mapM fun x => (r.judge.finding r.place x.sighting).map (x.isQueued, ·) with
      | error e => rfl
      | ok all => cases x.isQueued <;> simp [Except.map, gain]

theorem findings_eq_verdicts (r : Recorder) (xs : List WalkStep) :
    r.judge.findings r.place (xs.map (·.sighting)) = (r.verdicts xs).map fun all =>
      (all.filter (!·.1)).map (·.2) ++ (all.filter (·.1)).map (·.2) := by
  have hverdicts : ((xs.map (·.sighting)).mapM fun s : Sighting =>
      (do return (s.isQueued, ← r.judge.finding r.place s) : Except Error (Bool × Finding))) =
      r.verdicts xs := by
    rw [List.mapM_map, verdicts]
    rfl
  rw [Judge.findings, hverdicts]
  cases r.verdicts xs with
  | error e => rfl
  | ok all => simp [Except.map, List.partition_eq_filter_filter, bind, Except.bind, pure,
      Except.pure, Function.comp_def]

/-- A batch that is followed to its end leaves its findings behind those before it. -/
theorem follow_batch (hheld : r.held = []) (place : BatchPlace) (xs : List WalkStep) :
    ∃ objects, ((r.beginBatch place).follow xs).map finishBatch =
      (r.judge.findings place (xs.map (·.sighting))).map fun found =>
        { r with place, objects, findings := r.findings ++ found } := by
  obtain ⟨objects, hfollow⟩ := follow_eq (r.beginBatch place) xs
  have hfindings := findings_eq_verdicts (r.beginBatch place) xs
  refine ⟨objects, ?_⟩
  show _ = ((r.beginBatch place).judge.findings (r.beginBatch place).place _).map _
  rw [hfollow, hfindings]
  cases (r.beginBatch place).verdicts xs with
  | error e => rfl
  | ok all => simp [Except.map, gain, finishBatch, beginBatch, hheld]

/-- Batches that are followed one after the other leave the findings of them all. -/
theorem findings_recordBatches (hheld : r.held = [])
    (batches : List (BatchPlace × List WalkStep)) :
    (r.recordBatches batches).map (·.findings) =
      (r.judge.outcomes (batches.map fun b => (b.1, b.2.map (·.sighting)))).map fun outcomes =>
        r.findings ++ outcomes.flatMap (·.findings) := by
  induction batches generalizing r with
  | nil => simp [recordBatches, Judge.outcomes, Except.map, pure, Except.pure]
  | cons b rest ih =>
    obtain ⟨objects, hbatch⟩ := follow_batch hheld b.1 b.2
    rw [recordBatches, List.foldlM_cons, hbatch, List.map_cons, Judge.outcomes_cons]
    cases r.judge.findings b.1 (b.2.map (·.sighting)) with
    | error e => rfl
    | ok found =>
      refine (ih (r := { r with place := b.1, objects, findings := r.findings ++ found })
        hheld).trans ?_
      simp only [bind, Except.bind]
      cases r.judge.outcomes (rest.map fun b => (b.1, b.2.map (·.sighting))) with
      | error e => rfl
      | ok outcomes => simp [Except.map, pure, Except.pure]

/-- Reports that are recorded at once leave the verdicts on them, made with the objects that are
open, up to the first that fails. -/
theorem recordAll_eq (r : Recorder) (reports : List Report) :
    let verdict := fun report =>
      r.judge.finding r.place ⟨report, r.objects.object, r.objects.part, false⟩
    ∃ done rest found, reports = done ++ rest ∧ done.mapM verdict = .ok found ∧
      (r.recordAll reports).1 = { r with findings := r.findings ++ found } ∧
      ((rest = [] ∧ (r.recordAll reports).2 = none) ∨
        ∃ report more e, rest = report :: more ∧ verdict report = .error e ∧
          (r.recordAll reports).2 = some e) := by
  intro verdict
  induction reports generalizing r with
  | nil => exact ⟨[], [], [], rfl, rfl, by simp [recordAll], .inl ⟨rfl, rfl⟩⟩
  | cons report more ih =>
    have hrecord : r.record false report =
        (verdict report).map fun f => { r with findings := r.findings ++ [f] } := by
      simp only [record, verdict, bind, Except.bind]
      cases r.judge.finding r.place ⟨report, r.objects.object, r.objects.part, false⟩ <;> rfl
    cases hverdict : verdict report with
    | error e =>
      rw [hverdict] at hrecord
      have hall : r.recordAll (report :: more) = (r, some e) := by
        simp [recordAll, hrecord, Except.map]
      exact ⟨[], report :: more, [], rfl, rfl, by simp [hall],
        .inr ⟨report, more, e, rfl, hverdict, by simp [hall]⟩⟩
    | ok f =>
      rw [hverdict] at hrecord
      have hall : r.recordAll (report :: more) =
          ({ r with findings := r.findings ++ [f] } : Recorder).recordAll more := by
        simp [recordAll, hrecord, Except.map]
      obtain ⟨done, rest, found, rfl, hfound, hkept, hend⟩ :=
        ih { r with findings := r.findings ++ [f] }
      refine ⟨report :: done, rest, f :: found, rfl, ?_, ?_, hall ▸ hend⟩
      · have hfound : done.mapM verdict = .ok found := hfound
        rw [mapM_cons_eq, hverdict, hfound]
      · rw [hall, hkept]
        simp

end Recorder

namespace Analysis

variable {m : Matrix} {settings : Settings} {script : String} {batches : List ParsedBatch}

/-- The findings of an analysis are those of a recorder that is started with its settings and is
given the reports of the walks over the batches. -/
theorem findings_recorded (hparse : parse? script = some batches) :
    (ofScript? m settings script).map (·.map (·.findings)) =
      some ((Recorder.start m settings.overrides settings.version settings.database
        settings.schema).bind fun r =>
          (r.recordBatches (steps m r.limits settings batches)).map (·.findings)) := by
  have hparsed := (parse?_eq_some hparse).2
  unfold ofScript? Recorder.start
  cases m.resolveVersion settings.version with
  | error e => rfl
  | ok version =>
    rw [hparse]
    refine congrArg some ?_
    unfold ofBatches
    cases NameLimits.ofMatrix m with
    | error e => rfl
    | ok limits =>
      let r : Recorder :=
        ⟨⟨m, version, settings.overrides⟩, limits, settings.schema, settings.database, {}, {}, [],
          []⟩
      have hscope : ∀ d i t, (scope m limits settings d i t).tree = t := fun _ _ _ => rfl
      have hsightings : (steps m limits settings batches).map
          (fun b => (b.1, b.2.map (·.sighting))) = survey m limits settings batches :=
        map_sighting_stepsFrom (hscope _) hparsed 0 settings.database
      have hrun := r.findings_recordBatches rfl (steps m limits settings batches)
      rw [hsightings] at hrun
      refine Eq.trans ?_ hrun.symm
      show _ = (Judge.outcomes r.judge _).map _
      simp only [bind, Except.bind]
      cases Judge.outcomes r.judge (survey m limits settings batches) <;> rfl

end Analysis

end Portability
