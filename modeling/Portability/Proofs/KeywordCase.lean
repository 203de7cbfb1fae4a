import Portability.Proofs.Casing.Judging
import Portability.Proofs.Casing.Lexing

/-! The case of keywords and names never matters. Two scripts whose batches differ in nothing but
the letter case of bare words have the same trees up to case, and whatever the matrix and the
settings, both analyses fail or both have the same findings up to case. -/
namespace Portability

/-- The second batch is the first one with its bare words in another case: it stands at the same
place with the same directives, has as many lines, and the same lexemes but for the case of words. A
text without lexemes has to fail to have them in the same way. -/
structure Batch.Recased (b b' : Batch) : Prop where
  place : b.place = b'.place
  repetitions : b.repetitions = b'.repetitions
  directives : b.directives = b'.directives
  lineCount : (Text.lines b.content).length = (Text.lines b'.content).length
  lexemes : (Portability.lexemes b.content).map (List.map Lexeme.fold) =
    (Portability.lexemes b'.content).map (List.map Lexeme.fold)

/-- The findings have the same verdict at the same place, and texts that differ in case alone. -/
structure Finding.Recased (f f' : Finding) : Prop where
  status : f.status = f'.status
  group : f.group = f'.group
  line : f.line = f'.line
  batch : f.batch = f'.batch
  fileLine : f.fileLine = f'.fileLine
  item : Text.same f.item f'.item
  detail : Text.same f.detail f'.detail
  object : Text.same f.object f'.object
  part : Text.same f.part f'.part
  misc : Text.same f.misc f'.misc

theorem Finding.recased_of_fold {f f' : Finding} (h : f.fold = f'.fold) : f.Recased f' := by
  simp only [fold, Finding.mk.injEq] at h
  obtain ⟨hitem, hdetail, hgroup, hstatus, hline, hbatch, hfileLine, hobject, hpart, hmisc⟩ := h
  have hsame : ∀ {a b : String}, Text.lower a = Text.lower b → Text.same a b := by
    intro a b h
    rw [Text.same, h, beq_self_eq_true]
  exact {
    status := hstatus, group := hgroup, line := hline, batch := hbatch, fileLine := hfileLine
    item := hsame hitem, detail := hsame hdetail, object := hsame hobject, part := hsame hpart
    misc := hsame (congrArg _ hmisc) }

/-- Where computations on members have no result both, or related ones, so have those on lists. -/
theorem optionRel_mapM {α β γ δ : Type} {R : γ → δ → Prop} {f : α → Option γ} {g : β → Option δ}
    {as : List α} {bs : List β} (h : List.Forall₂ (fun a b => Option.Rel R (f a) (g b)) as bs) :
    Option.Rel (List.Forall₂ R) (as.mapM f) (bs.mapM g) := by
  induction h with
  | nil => exact .some .nil
  | @cons a b as bs hab _ ih =>
    rw [List.mapM_cons, List.mapM_cons]
    generalize f a = x, g b = y at hab
    generalize as.mapM f = xs, bs.mapM g = ys at ih
    cases hab with
    | none => exact .none
    | some hab =>
      cases ih with
      | none => exact .none
      | some ih => exact .some (.cons hab ih)

/-! ### Trees -/

namespace Tree

theorem ofSource?_recased {source source' : Source} (h : source.fold = source'.fold)
    (hplain : source.Plain) :
    Option.Rel (fun t t' => t.fold = t'.fold) (ofSource? source) (ofSource? source') := by
  have hbatch := Echo.self Parser.batch source source' ⟨0, #[]⟩ ⟨0, #[]⟩ h hplain rfl
  unfold ofSource?
  generalize Parser.batch source ⟨0, #[]⟩ = r, Parser.batch source' ⟨0, #[]⟩ = r' at hbatch
  cases hbatch with
  | none => exact .none
  | some hsame =>
    obtain ⟨hroot, hcursor⟩ := hsame
    refine .some ?_
    have hnodes := congrArg Cursor.nodes hcursor
    simp only [fold, h, hroot]
    exact congrArg _ hnodes

theorem ofText?_recased {b b' : Batch} (h : b.Recased b') :
    Option.Rel (fun t t' => t.fold = t'.fold) (ofText? b.content) (ofText? b'.content) := by
  have hlexemes := h.lexemes
  unfold ofText? Source.ofText
  cases hxs : lexemes b.content with
  | error e =>
    cases hys : lexemes b'.content with
    | error e' =>
      rw [hxs, hys] at hlexemes
      cases hlexemes
      exact .some rfl
    | ok ys =>
      rw [hxs, hys] at hlexemes
      cases hlexemes
  | ok xs =>
    cases hys : lexemes b'.content with
    | error e' =>
      rw [hxs, hys] at hlexemes
      cases hlexemes
    | ok ys =>
      rw [hxs, hys] at hlexemes
      have hfold : xs.map Lexeme.fold = ys.map Lexeme.fold := Except.ok.inj hlexemes
      have hsource : Source.ofText b.content = .ok (Source.ofLexemes xs) := by
        rw [Source.ofText, hxs]
        rfl
      exact ofSource?_recased (Source.fold_ofLexemes hfold) (Source.plain_of_ofText hsource)

end Tree

/-- The batches with their trees are the same up to case. -/
structure ParsedBatch.Recased (p p' : ParsedBatch) : Prop where
  batch : p.batch.Recased p'.batch
  tree : p.tree.fold = p'.tree.fold

namespace Analysis

theorem parse?_recased {script script' : String}
    (h : List.Forall₂ Batch.Recased (Batch.split script) (Batch.split script')) :
    Option.Rel (List.Forall₂ ParsedBatch.Recased) (parse? script) (parse? script') := by
  apply optionRel_mapM
  refine h.imp fun b b' hb => ?_
  have htree := Tree.ofText?_recased hb
  generalize Tree.ofText? b.content = t, Tree.ofText? b'.content = t' at htree
  cases htree with
  | none => exact .none
  | some htree => exact .some ⟨hb, htree⟩

theorem directiveReports_recased {b b' : Batch} (h : b.Recased b') :
    directiveReports b = directiveReports b' := by
  have hstart : b.startLine = b'.startLine := congrArg BatchPlace.startLine h.place
  simp only [directiveReports, hstart, h.directives, h.repetitions, h.lineCount]

theorem surveyBatch_recased {s s' : Scope} (hs : s.fold = s'.fold) {database database' : String}
    (hdatabase : Text.lower database = Text.lower database') {b b' : Batch} (h : b.Recased b') :
    (surveyBatch s database b).1.map Sighting.fold =
        (surveyBatch s' database' b').1.map Sighting.fold ∧
      Text.lower (surveyBatch s database b).2 = Text.lower (surveyBatch s' database' b').2 := by
  obtain ⟨hsights, hnext⟩ := Survey.ofBatch_fold (s := s) (Eq.refl (Text.lower database))
  obtain ⟨hsights', hnext'⟩ := Survey.ofBatch_fold (s := s') hdatabase
  rw [hs] at hsights hnext
  unfold surveyBatch
  rw [directiveReports_recased h]
  refine ⟨?_, hnext.symm.trans hnext'⟩
  show List.map _ (_ ++ _) = List.map _ (_ ++ _)
  rw [List.map_append, List.map_append, hsights.symm.trans hsights']

theorem surveyFrom_recased {scopeOf scopeOf' : Nat → Tree → Scope}
    (hscope : ∀ i t t', t.fold = t'.fold → (scopeOf i t).fold = (scopeOf' i t').fold)
    {batches batches' : List ParsedBatch} (h : List.Forall₂ ParsedBatch.Recased batches batches')
    (index : Nat) {database database' : String}
    (hdatabase : Text.lower database = Text.lower database') :
    List.Forall₂ (fun x x' => x.1 = x'.1 ∧ x.2.map Sighting.fold = x'.2.map Sighting.fold)
      (surveyFrom scopeOf index database batches)
      (surveyFrom scopeOf' index database' batches') := by
  induction h generalizing index database database' with
  | nil => exact .nil
  | @cons p p' _ _ hp _ ih =>
    obtain ⟨hsights, hnext⟩ :=
      surveyBatch_recased (hscope index p.tree p'.tree hp.tree) hdatabase hp.batch
    exact .cons ⟨hp.batch.place, hsights⟩ (ih (index + 1) hnext)

variable {m : Matrix} {settings : Settings}

theorem survey_recased (limits : NameLimits) {batches batches' : List ParsedBatch}
    (h : List.Forall₂ ParsedBatch.Recased batches batches') :
    List.Forall₂ (fun x x' => x.1 = x'.1 ∧ x.2.map Sighting.fold = x'.2.map Sighting.fold)
      (survey m limits settings batches) (survey m limits settings batches') := by
  have htrees : (batches.map (·.tree)).map Tree.fold = (batches'.map (·.tree)).map Tree.fold := by
    rw [← List.forall₂_eq_eq_eq]
    simp only [List.forall₂_map_left_iff, List.forall₂_map_right_iff]
    exact h.imp fun _ _ hp => hp.tree
  unfold survey
  rw [Declarations.ofTrees_fold htrees]
  refine surveyFrom_recased ?_ h 0 rfl
  intro i t t' ht
  simp only [scope, Scope.fold, ht]

theorem ofBatches_recased (version : Version) {batches batches' : List ParsedBatch}
    (h : List.Forall₂ ParsedBatch.Recased batches batches') :
    Together (fun a a' => List.Forall₂ Finding.Recased a.findings a'.findings)
      (ofBatches m settings version batches) (ofBatches m settings version batches') := by
  refine Comparison.together.bind (Comparison.together.refl (NameLimits.ofMatrix m)) ?_
  rintro limits _ rfl
  have houtcomes : Together
      (List.Forall₂ fun o o' : BatchOutcome =>
        List.Forall₂ (fun f f' => f.fold = f'.fold) o.findings o'.findings)
      (Judge.outcomes ⟨m, version, settings.overrides⟩ (survey m limits settings batches))
      (Judge.outcomes ⟨m, version, settings.overrides⟩ (survey m limits settings batches')) := by
    apply Comparison.together.mapM
    refine (survey_recased limits h).imp ?_
    rintro ⟨place, sightings⟩ ⟨_, sightings'⟩ ⟨rfl, hsights⟩
    exact Comparison.together.bind (Judge.findings_together _ place hsights) fun _ _ hfindings =>
      .ok hfindings
  refine Comparison.together.bind houtcomes fun outcomes outcomes' hsame => .ok ?_
  have hall : List.Forall₂ (fun f f' : Finding => f.fold = f'.fold)
      (outcomes.flatMap (·.findings)) (outcomes'.flatMap (·.findings)) :=
    List.rel_flatMap hsame fun _ _ h => h
  exact hall.imp fun _ _ => Finding.recased_of_fold

/-- The case of keywords and names never matters. Where the batches of two scripts differ in nothing
but the letter case of bare words, parsing never ends for both, or it gives trees of the same shape
whose texts differ in case alone. Whatever the matrix and the settings, both analyses fail or they
have the same findings one by one, up to the case of their texts. -/
theorem keyword_case {script script' : String}
    (h : List.Forall₂ Batch.Recased (Batch.split script) (Batch.split script')) :
    Option.Rel (List.Forall₂ fun p p' => p.tree.fold = p'.tree.fold) (parse? script)
        (parse? script') ∧
      ∀ (m : Matrix) (settings : Settings),
        Option.Rel (Together fun a a' => List.Forall₂ Finding.Recased a.findings a'.findings)
          (ofScript? m settings script) (ofScript? m settings script') := by
  have hparse := parse?_recased h
  refine ⟨?_, fun m settings => ?_⟩
  · generalize parse? script = r, parse? script' = r' at hparse
    cases hparse with
    | none => exact .none
    | some hbatches => exact .some (hbatches.imp fun _ _ hp => hp.tree)
  · unfold ofScript?
    cases m.resolveVersion settings.version with
    | error e => exact .some (.error e e)
    | ok version =>
      generalize parse? script = r, parse? script' = r' at hparse
      cases hparse with
      | none => exact .none
      | some hbatches => exact .some (ofBatches_recased version hbatches)

theorem keyword_case_distinct :
    ∃ a a', ofScript? .default {} "SELECT DISTINCT B" = some (.ok a) ∧
      ofScript? .default {} "select Distinct b" = some (.ok a') ∧
      List.Forall₂ Finding.Recased a.findings a'.findings := by
  have hsplit : Batch.split "SELECT DISTINCT B" = [⟨1, "SELECT DISTINCT B\n", 1, none, []⟩] := by
    decide +kernel
  have hsplit' : Batch.split "select Distinct b" = [⟨1, "select Distinct b\n", 1, none, []⟩] := by
    decide +kernel
  have hlexemes : (lexemes "SELECT DISTINCT B\n").map (List.map Lexeme.fold) =
      (lexemes "select Distinct b\n").map (List.map Lexeme.fold) := by cbv
  have hbatches : List.Forall₂ Batch.Recased (Batch.split "SELECT DISTINCT B")
      (Batch.split "select Distinct b") := by
    rw [hsplit, hsplit']
    exact .cons ⟨rfl, rfl, rfl, by decide +kernel, hlexemes⟩ .nil
  have hversion : Matrix.default.resolveVersion none = .ok Matrix.Default.v200 := rfl
  have htree : ((Tree.ofText? "SELECT DISTINCT B\n").map fun t =>
      t.sites.any (Survey.atCursor ·.kind)) = some false :=
    Tree.map_ofText?_of_apart (by decide +kernel)
  obtain ⟨a, ha⟩ : ∃ a, ofScript? .default {} "SELECT DISTINCT B" = some (.ok a) :=
    exists_ofScript?_batch hversion hsplit htree
  have hrel := (keyword_case hbatches).2 .default {}
  rw [ha] at hrel
  obtain ⟨a', hlast, hfindings⟩ := Together.exists_of_some hrel
  exact ⟨a, a', ha, hlast, hfindings⟩

end Analysis

end Portability
