import Mathlib
import Portability.Proofs.Coverage

/-! What the overrides and the target version have a say in. Two analyses of a script that differ in
nothing else sight the same constructs; overrides change labels, the version changes verdicts. -/
namespace Portability

/-- A way to compare two computations by their results, which is kept when both go on. -/
structure Comparison where
  rel {α β : Type} (R : α → β → Prop) : Except Error α → Except Error β → Prop
  refl {α : Type} (x : Except Error α) : rel Eq x x
  done {α β : Type} {R : α → β → Prop} {a : α} {b : β} (h : R a b) : rel R (.ok a) (.ok b)
  bind {α β γ δ : Type} {R : α → β → Prop} {S : γ → δ → Prop} {x : Except Error α}
    {y : Except Error β} {f : α → Except Error γ} {g : β → Except Error δ} (h : rel R x y)
    (hgo : ∀ a b, R a b → rel S (f a) (g b)) : rel S (x >>= f) (y >>= g)

/-- The computations fail with the same error, or their results are related. -/
inductive Alike {α β : Type} (R : α → β → Prop) : Except Error α → Except Error β → Prop
  | error (e : Error) : Alike R (.error e) (.error e)
  | ok {a : α} {b : β} (h : R a b) : Alike R (.ok a) (.ok b)

namespace Comparison

/-- Failing alike or with related results. -/
def alike : Comparison where
  rel := Alike
  refl x := by
    cases x with
    | error e => exact .error e
    | ok a => exact .ok rfl
  done := .ok
  bind h hgo := by
    cases h with
    | error e => exact .error e
    | ok h => exact hgo _ _ h

/-- Related results where both computations have one. -/
def whereBoth : Comparison where
  rel R x y := ∀ a b, x = .ok a → y = .ok b → R a b
  refl x := by
    rintro a b rfl hb
    exact Except.ok.inj hb
  done h := by
    intro a b ha hb
    cases ha
    cases hb
    exact h
  bind {_ _ _ _ _ _ x y _ _} h hgo := by
    intro c d hc hd
    cases x with
    | error e => cases hc
    | ok a =>
      cases y with
      | error e => cases hd
      | ok b => exact hgo a b (h a b rfl rfl) c d hc hd

theorem imp (C : Comparison) {α β : Type} {R S : α → β → Prop} {x : Except Error α}
    {y : Except Error β} (h : C.rel R x y) (himp : ∀ a b, R a b → S a b) : C.rel S x y := by
  have hgo : C.rel S (x >>= .ok) (y >>= .ok) := C.bind h fun a b hab => C.done (himp a b hab)
  rwa [show x >>= .ok = x by cases x <;> rfl, show y >>= .ok = y by cases y <;> rfl] at hgo

theorem mapM (C : Comparison) {α β γ δ : Type} {R : γ → δ → Prop} {f : α → Except Error γ}
    {g : β → Except Error δ} {as : List α} {bs : List β}
    (h : List.Forall₂ (fun a b => C.rel R (f a) (g b)) as bs) :
    C.rel (List.Forall₂ R) (as.mapM f) (bs.mapM g) := by
  induction h with
  | nil => exact C.done .nil
  | cons hab _ ih =>
    rw [List.mapM_cons, List.mapM_cons]
    refine C.bind hab fun c d hcd => ?_
    refine C.bind ih fun cs ds hrest => ?_
    exact C.done (.cons hcd hrest)

end Comparison

/-- The findings of two outcomes are related one by one, and the same error codes are handled. -/
def BatchOutcome.Related (R : Finding → Finding → Prop) (o o' : BatchOutcome) : Prop :=
  List.Forall₂ R o.findings o'.findings ∧ o.handled = o'.handled

namespace Judge

variable {C : Comparison} {j j' : Judge} {R : Finding → Finding → Prop}
  {place place' : BatchPlace} {sightings sightings' : List Sighting}

/-- Which findings are held back is up to the sightings, so related verdicts stay side by side. -/
theorem findings_related
    (h : List.Forall₂ (fun x x' => x.isQueued = x'.isQueued ∧
      C.rel R (j.finding place x) (j'.finding place' x')) sightings sightings') :
    C.rel (List.Forall₂ R) (j.findings place sightings) (j'.findings place' sightings') := by
  have hall : C.rel (List.Forall₂ fun p q : Bool × Finding => p.1 = q.1 ∧ R p.2 q.2)
      (sightings.mapM fun x => return (x.isQueued, ← j.finding place x))
      (sightings'.mapM fun x => return (x.isQueued, ← j'.finding place' x)) := by
    apply C.mapM
    refine h.imp ?_
    rintro x x' ⟨hqueued, hfinding⟩
    exact C.bind hfinding fun f f' hf => C.done ⟨hqueued, hf⟩
  refine C.bind hall fun all all' hsame => C.done ?_
  have hside : ∀ side : Bool, List.Forall₂ (fun p q : Bool × Finding => p.1 = q.1 ∧ R p.2 q.2)
      (all.filter fun p => p.1 == side) (all'.filter fun p => p.1 == side) := by
    intro side
    refine List.rel_filter ?_ hsame
    rintro p q ⟨hqueued, -⟩
    simp [hqueued]
  have hjoin := List.rel_append (hside false) (hside true)
  show List.Forall₂ R (((all.partition (·.1)).2 ++ (all.partition (·.1)).1).map (·.2))
    (((all'.partition (·.1)).2 ++ (all'.partition (·.1)).1).map (·.2))
  rw [List.forall₂_map_left_iff, List.forall₂_map_right_iff]
  simpa [List.partition_eq_filter_filter, Function.comp_def] using
    List.Forall₂.imp (fun _ _ => And.right) hjoin

theorem outcomes_related {surveyed : List (BatchPlace × List Sighting)}
    (h : ∀ place x, C.rel R (j.finding place x) (j'.finding place x)) :
    C.rel (List.Forall₂ (BatchOutcome.Related R)) (j.outcomes surveyed)
      (j'.outcomes surveyed) := by
  apply C.mapM
  refine List.forall₂_same.mpr ?_
  rintro ⟨place, sightings⟩ -
  have hfindings := findings_related (List.forall₂_same.mpr fun x (_ : x ∈ sightings) =>
    ⟨rfl, h place x⟩)
  exact C.bind hfindings fun fs fs' hfs => C.done ⟨hfs, rfl⟩

end Judge

namespace Analysis

theorem findings_of_related {R : Finding → Finding → Prop} {a a' : Analysis}
    (h : List.Forall₂ (BatchOutcome.Related R) a.outcomes a'.outcomes) :
    List.Forall₂ R a.findings a'.findings ∧ a.handled = a'.handled := by
  unfold findings handled
  generalize a.outcomes = os, a'.outcomes = os' at h
  induction h with
  | nil => exact ⟨.nil, rfl⟩
  | cons hhead _ ih =>
    obtain ⟨hfindings, hhandled⟩ := hhead
    refine ⟨?_, by simp [hhandled, ih.2]⟩
    simpa using List.rel_append hfindings ih.1

/-- The survey knows neither version nor overrides: analyses that differ in these alone are related
where the verdicts on single sightings are. -/
theorem ofBatches_related {C : Comparison} {R : Finding → Finding → Prop} {m : Matrix}
    {overrides overrides' : Overrides} {version version' : Version} (settings : Settings)
    (wanted wanted' : Option String) (batches : List ParsedBatch)
    (h : ∀ place x, C.rel R (Judge.finding ⟨m, version, overrides⟩ place x)
      (Judge.finding ⟨m, version', overrides'⟩ place x)) :
    C.rel (fun a a' => List.Forall₂ (BatchOutcome.Related R) a.outcomes a'.outcomes ∧
        a.version = version.text ∧ a'.version = version'.text)
      (ofBatches m { settings with overrides := overrides, version := wanted } version batches)
      (ofBatches m { settings with overrides := overrides', version := wanted' } version'
        batches) := by
  refine C.bind (C.refl _) ?_
  rintro limits _ rfl
  refine C.bind (Judge.outcomes_related h) fun outcomes outcomes' hsame => ?_
  exact C.done ⟨hsame, rfl, rfl⟩

end Analysis

/-! ### Overrides -/

/-- `labelled` is the finding `plain` once the overrides had their say: all but the label is as
before, and only what is not supported gets another label, one of the table. -/
structure Finding.Relabelled (o : Overrides) (plain labelled : Finding) : Prop where
  same : labelled = { plain with status := labelled.status, misc := labelled.misc }
  unmarked : plain.misc = ""
  label : labelled.status = plain.status ∧ labelled.misc = plain.misc ∨
    plain.status ≠ .supported ∧ labelled.status ≠ plain.status ∧
      labelled.misc = "Overridden from " ++ plain.status.label ∧
      labelled.status ∈ o.entries.map (·.2)

namespace Overrides

variable {o : Overrides} {name item : String} {status replacement : Status}

theorem replacement?_empty : ({} : Overrides).replacement? name item status = none := by
  unfold replacement?
  split <;> rfl

/-- A verdict that is put in place of another one differs from it and is listed. -/
theorem replacement?_eq_some (h : o.replacement? name item status = some replacement) :
    status ≠ .supported ∧ replacement ≠ status ∧ replacement ∈ o.entries.map (·.2) := by
  unfold replacement? at h
  split at h
  · cases h
  · rename_i hsupported
    obtain ⟨hfind, hne⟩ := Option.filter_eq_some_iff.mp h
    have hmem := List.lookup_eq_some_iff.mp hfind
    obtain ⟨before, after, hentries, -⟩ := hmem
    refine ⟨hsupported, by simpa using hne, ?_⟩
    simp [hentries]

end Overrides

/-- With overrides a sighting fails as without them, or gets the same finding up to its label. -/
theorem Judge.finding_relabelled (m : Matrix) (version : Version) (o : Overrides)
    (place : BatchPlace) (x : Sighting) :
    Alike (Finding.Relabelled o) (Judge.finding ⟨m, version, {}⟩ place x)
      (Judge.finding ⟨m, version, o⟩ place x) := by
  refine Comparison.alike.bind (Comparison.alike.refl _) ?_
  rintro ruling _ rfl
  refine Comparison.alike.bind (Comparison.alike.refl _) ?_
  rintro group _ rfl
  refine .ok ⟨rfl, ?_, ?_⟩
  · simp [Overrides.replacement?_empty]
  · simp only [Overrides.replacement?_empty]
    cases hreplaced : o.replacement? ruling.sectionName (ruling.lookup.getD x.report.display)
        ruling.status with
    | none => exact Or.inl ⟨rfl, rfl⟩
    | some replacement =>
      obtain ⟨hsupported, hne, hlisted⟩ := Overrides.replacement?_eq_some hreplaced
      exact Or.inr ⟨hsupported, hne, rfl, hlisted⟩

namespace Analysis

/-- Overrides only relabel. With a table of overrides the analysis of a script has the same outcome
as without one: it is never finished, or it fails with the same error, or it has the same findings
one by one up to their labels, and the same handled codes. -/
theorem overrides_relabel (m : Matrix) (settings : Settings) (script : String) :
    Option.Rel
      (Alike fun plain labelled =>
        List.Forall₂ (Finding.Relabelled settings.overrides) plain.findings labelled.findings ∧
          plain.handled = labelled.handled ∧ plain.batches = labelled.batches ∧
          plain.version = labelled.version)
      (ofScript? m { settings with overrides := {} } script) (ofScript? m settings script) := by
  unfold ofScript?
  cases m.resolveVersion settings.version with
  | error e => exact .some (.error e)
  | ok version =>
    cases parse? script with
    | none => exact .none
    | some batches =>
      have hsame := ofBatches_related (C := .alike) settings settings.version settings.version
        batches (Judge.finding_relabelled m version settings.overrides)
      refine .some (Comparison.alike.imp hsame ?_)
      rintro plain labelled ⟨houtcomes, hversion, hversion'⟩
      obtain ⟨hfindings, hhandled⟩ := findings_of_related houtcomes
      exact ⟨hfindings, hhandled, houtcomes.length_eq, hversion.trans hversion'.symm⟩

end Analysis

/-! ### Versions -/

/-- Two findings are about the same item at the same place. Their verdicts, with the group and the
detail that go with these, may differ. -/
structure Finding.SameSubject (f f' : Finding) : Prop where
  item : f.item = f'.item
  line : f.line = f'.line
  batch : f.batch = f'.batch
  fileLine : f.fileLine = f'.fileLine
  object : f.object = f'.object
  part : f.part = f'.part

/-- Whatever two judges think of a sighting, they show it under the same name at the same place. A
call in a computed column may be ruled on under different topics, but its name stays. -/
theorem Judge.finding_sameSubject (j j' : Judge) (place : BatchPlace) (x : Sighting) :
    Comparison.whereBoth.rel Finding.SameSubject (j.finding place x) (j'.finding place x) := by
  intro f f' hf hf'
  obtain ⟨_, _, -, -, rfl⟩ := Judge.exists_ruling_of_finding hf
  obtain ⟨_, _, -, -, rfl⟩ := Judge.exists_ruling_of_finding hf'
  exact ⟨rfl, rfl, rfl, rfl, rfl, rfl⟩

namespace Analysis

variable {m : Matrix} {script : String} {wanted wanted' : Option String} {a a' : Analysis}

/-- The target version changes verdicts, not what is found: where the analyses for two versions
succeed, they have the same findings one by one up to the verdicts, and the same handled codes. -/
theorem version_keeps_subjects (settings : Settings)
    (h : ofScript? m { settings with version := wanted } script = some (.ok a))
    (h' : ofScript? m { settings with version := wanted' } script = some (.ok a')) :
    List.Forall₂ Finding.SameSubject a.findings a'.findings ∧ a.handled = a'.handled := by
  unfold ofScript? at h h'
  cases hversion : m.resolveVersion wanted with
  | error e => simp [hversion] at h
  | ok version =>
    cases hversion' : m.resolveVersion wanted' with
    | error e => simp [hversion'] at h'
    | ok version' =>
      rw [hversion] at h
      rw [hversion'] at h'
      obtain ⟨batches, hparse, hbatches⟩ := Option.map_eq_some_iff.mp h
      rw [hparse] at h'
      have hsame := ofBatches_related (C := .whereBoth) settings wanted wanted' batches
        (Judge.finding_sameSubject ⟨m, version, settings.overrides⟩
          ⟨m, version', settings.overrides⟩)
      exact findings_of_related (hsame a a' hbatches (Option.some.inj h')).1

/-- A computed column is not supported by the first version and supported by the last one. -/
theorem version_keeps_subjects_computed :
    ∃ a a',
      ofScript? .default { version := some "1.0.0" } "CREATE TABLE t(a AS LEN(b))" =
        some (.ok a) ∧
      ofScript? .default { version := some "2.0.0" } "CREATE TABLE t(a AS LEN(b))" =
        some (.ok a') ∧
      List.Forall₂ Finding.SameSubject a.findings a'.findings ∧ a.handled = a'.handled := by
  have hold : Matrix.default.resolveVersion (some "1.0.0") = .ok Matrix.Default.v100 := by cbv
  have hnew : Matrix.default.resolveVersion (some "2.0.0") = .ok Matrix.Default.v200 := by cbv
  have hsplit : Batch.split "CREATE TABLE t(a AS LEN(b))" =
      [⟨1, "CREATE TABLE t(a AS LEN(b))\n", 1, none, []⟩] := by decide +kernel
  have htree : ((Tree.ofText? "CREATE TABLE t(a AS LEN(b))\n").map fun t =>
      t.sites.any (Survey.atCursor ·.kind)) = some false :=
    Tree.map_ofText?_of_apart (by decide +kernel)
  have hfirst : ∃ a, ofScript? .default { version := some "1.0.0" } "CREATE TABLE t(a AS LEN(b))" =
      some (.ok a) := exists_ofScript?_batch hold hsplit htree
  have hlast : ∃ a, ofScript? .default { version := some "2.0.0" } "CREATE TABLE t(a AS LEN(b))" =
      some (.ok a) := exists_ofScript?_batch hnew hsplit htree
  obtain ⟨a, ha⟩ := hfirst
  obtain ⟨a', ha'⟩ := hlast
  exact ⟨a, a', ha, ha', version_keeps_subjects {} ha ha'⟩

end Analysis

end Portability
