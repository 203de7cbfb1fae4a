import Mathlib
import Portability.Proofs.BatchSplit
import Portability.Proofs.Isolation
import Portability.Proofs.ReportLines
import Portability.Proofs.TokenPositions

/-! Findings are where their constructs are. The line of a finding in its batch and its line in the
script are those of the construct, of the directive or of the separator that it is about. -/
namespace Portability

/-! ### Batches -/

namespace Batch

/-- The lines of a segment and its separator follow each other in the script, behind the given
number of lines. -/
def Segment.StandsAt (g : Segment) (script : List String) (offset : Nat) : Prop :=
  ∀ k l, (g.lines ++ g.closer.toList)[k]? = some l →
    l.number = offset + k + 1 ∧ script[offset + k]? = some l.text

theorem exists_standsAt {script : String} {g : Segment} (hg : g ∈ segments script) :
    ∃ offset, g.StandsAt (Text.lines script) offset := by
  obtain ⟨before, after, hcut⟩ := List.append_of_mem hg
  have hlines := flatMap_cut (labelled false 1 (Text.lines script))
  rw [← segments, hcut, List.flatMap_append, List.flatMap_cons] at hlines
  refine ⟨(before.flatMap fun g => g.lines ++ g.closer.toList).length, fun k l hl => ?_⟩
  have hlabelled : (labelled false 1 (Text.lines script))[
      (before.flatMap fun g => g.lines ++ g.closer.toList).length + k]? = some l := by
    rw [← hlines, List.getElem?_append_right (Nat.le_add_right _ _), Nat.add_sub_cancel_left]
    exact List.getElem?_append_left (List.getElem?_eq_some_iff.mp hl).1 ▸ hl
  obtain ⟨hnumber, htext⟩ := getElem?_labelled hlabelled
  exact ⟨by omega, htext⟩

theorem exists_of_mem_forall₂ {α β : Type} {R : α → β → Prop} {as : List α} {bs : List β} {b : β}
    (h : List.Forall₂ R as bs) (hb : b ∈ bs) : ∃ a ∈ as, R a b := by
  induction h with
  | nil => cases hb
  | cons hhead _ ih =>
    rcases List.mem_cons.mp hb with rfl | hb
    · exact ⟨_, List.mem_cons_self, hhead⟩
    · obtain ⟨a, ha, hab⟩ := ih hb
      exact ⟨a, List.mem_cons_of_mem _ ha, hab⟩

theorem exists_segment {script : String} {b : Batch} (hb : b ∈ split script) :
    ∃ g ∈ segments script, ∃ number, g.Gives number b := by
  have hfeed : ∀ text ∈ Text.lines script, '\n' ∉ text.toList := fun _ =>
    Text.lineFeed_notMem_lines
  have hrun := splitFrom_segments hfeed List.drop_zero false (Draft.holds_empty 1) 1
  rw [modifyHead_prepend_nil] at hrun
  obtain ⟨⟨g, number⟩, hg, hgives, -⟩ := exists_of_mem_forall₂ hrun hb
  exact ⟨g, List.mem_of_mem_filter (List.fst_mem_of_mem_zipIdx hg), number, hgives⟩

theorem Line.shown_eq (l : Line) :
    l.shown = l.text ∨ l.shown = "" ∧ Batch.isDirective (Text.trim l.text) := by
  unfold shown isDirective
  split
  · rename_i hdirective
    exact Or.inr ⟨rfl, (Bool.and_eq_true_iff.mp hdirective).2⟩
  · exact Or.inl rfl

theorem Line.directive?_eq_some {l : Line} {d : Directive} (h : l.directive? = some d) :
    d.line = l.number ∧ d.text = Text.trim l.text := by
  unfold directive? at h
  split at h
  · cases h
    exact ⟨rfl, rfl⟩
  · cases h

theorem Line.join_separator?_eq_some {l : Line} {count : Nat}
    (h : l.separator?.join = some count) :
    Batch.separator? (Text.trim l.text) = some (some count) := by
  unfold separator? at h
  split at h
  · cases h
  · exact Option.join_eq_some_iff.mp h

/-- A line of the batch is the line of the script with its number, or empty in place of a
directive. -/
def Shows (b : Batch) (script : List String) (line : Nat) : Prop :=
  ∃ text, script[b.fileLine line - 1]? = some text ∧
    ((b.content.toList.splitOn '\n')[line - 1]? = some text.toList ∨
      (b.content.toList.splitOn '\n')[line - 1]? = some [] ∧ isDirective (Text.trim text))

namespace Segment

variable {g : Segment} {script : List String} {offset number : Nat} {b : Batch} {l : Line}

theorem StandsAt.line (h : g.StandsAt script offset) {k : Nat} (hl : g.lines[k]? = some l) :
    l.number = offset + k + 1 ∧ script[offset + k]? = some l.text := by
  have hk : k < g.lines.length := (List.getElem?_eq_some_iff.mp hl).1
  exact h k l (by rwa [List.getElem?_append_left hk])

theorem StandsAt.closer (h : g.StandsAt script offset) (hl : g.closer = some l) :
    script[offset + g.lines.length]? = some l.text := by
  have hat : (g.lines ++ g.closer.toList)[g.lines.length]? = some l := by simp [hl]
  exact (h _ l hat).2

theorem Gives.lines_ne_nil (h : g.Gives number b) : g.lines ≠ [] := by
  intro hnil
  simpa [hnil] using h.startLine

theorem StandsAt.startLine (h : g.StandsAt script offset) (hgives : g.Gives number b) :
    b.startLine = offset + 1 := by
  have hfirst := hgives.startLine
  rw [List.head?_eq_getElem?] at hfirst
  obtain ⟨l, hl, hnumber⟩ := Option.map_eq_some_iff.mp hfirst
  have := (h.line hl).1
  omega

theorem StandsAt.le_length (h : g.StandsAt script offset) (hne : g.lines ≠ []) :
    offset + g.lines.length ≤ script.length := by
  have hpos : 0 < g.lines.length := List.length_pos_of_ne_nil hne
  have hlast := List.getElem?_eq_getElem (l := g.lines) (i := g.lines.length - 1) (by omega)
  have := (List.getElem?_eq_some_iff.mp (h.line hlast).2).1
  omega

theorem Gives.content_eq (h : g.Gives number b) :
    b.content = String.join ((g.lines.map Line.shown).map (· ++ "\n")) := by
  rw [h.content, List.map_map]
  rfl

theorem StandsAt.lineFeed_notMem_shown (h : g.StandsAt script offset)
    (hfeed : ∀ text ∈ script, '\n' ∉ text.toList) :
    ∀ text ∈ g.lines.map Line.shown, '\n' ∉ text.toList := by
  intro text htext
  obtain ⟨l, hl, rfl⟩ := List.mem_map.mp htext
  obtain ⟨k, hk⟩ := List.mem_iff_getElem?.mp hl
  unfold Line.shown
  split
  · simp
  · exact hfeed _ (List.mem_of_getElem? (h.line hk).2)

theorem StandsAt.shows (h : g.StandsAt script offset) (hgives : g.Gives number b)
    (hfeed : ∀ text ∈ script, '\n' ∉ text.toList) {line : Nat} (hfirst : 1 ≤ line)
    (hlast : line ≤ g.lines.length) : b.Shows script line := by
  have hl : g.lines[line - 1]? = some g.lines[line - 1] := List.getElem?_eq_getElem (by omega)
  have hfile : b.fileLine line - 1 = offset + (line - 1) := by
    have hstart := h.startLine hgives
    unfold Batch.fileLine
    omega
  refine ⟨_, hfile ▸ (h.line hl).2, ?_⟩
  rw [hgives.content_eq, splitOn_join (h.lineFeed_notMem_shown hfeed),
    List.getElem?_append_left (by simp; omega)]
  simp only [List.getElem?_map, hl, Option.map_some]
  rcases Line.shown_eq g.lines[line - 1] with hshown | ⟨hshown, hdirective⟩
  · exact Or.inl (by rw [hshown])
  · exact Or.inr ⟨by rw [hshown]; rfl, hdirective⟩

theorem StandsAt.directive (h : g.StandsAt script offset) (hgives : g.Gives number b)
    {d : Directive} (hd : d ∈ b.directives) :
    offset + 1 ≤ d.line ∧ d.line ≤ offset + g.lines.length ∧
      script[d.line - 1]?.map Text.trim = some d.text := by
  rw [hgives.directives] at hd
  obtain ⟨l, hl, hdirective⟩ := List.mem_filterMap.mp hd
  obtain ⟨hdline, hdtext⟩ := Line.directive?_eq_some hdirective
  obtain ⟨k, hk⟩ := List.mem_iff_getElem?.mp hl
  obtain ⟨hnumber, htext⟩ := h.line hk
  have hlt : k < g.lines.length := (List.getElem?_eq_some_iff.mp hk).1
  refine ⟨by omega, by omega, ?_⟩
  rw [hdline, hdtext, hnumber, Nat.add_sub_cancel, htext, Option.map_some]

theorem StandsAt.separator (h : g.StandsAt script offset) (hgives : g.Gives number b) {count : Nat}
    (hcount : b.repetitions = some count) :
    ∃ text, script[offset + g.lines.length]? = some text ∧
      separator? (Text.trim text) = some (some count) := by
  rw [hgives.repetitions] at hcount
  obtain ⟨l, hcloser, hjoin⟩ := Option.bind_eq_some_iff.mp hcount
  exact ⟨l.text, h.closer hcloser, Line.join_separator?_eq_some hjoin⟩

end Segment

/-- The batch takes up so many lines of the script. Its directives are on these lines, and the
separator that repeats it is on the line behind them. -/
structure Spans (b : Batch) (script : List String) (count : Nat) : Prop where
  start : 1 ≤ b.startLine
  bound : b.startLine + count ≤ script.length + 1
  ends : b.content.toList.getLast? = some '\n'
  feeds : b.content.toList.count '\n' = count
  lines : (Text.lines b.content).length = count
  shows : ∀ line, 1 ≤ line → line ≤ count → b.Shows script line
  directive : ∀ d ∈ b.directives, b.startLine ≤ d.line ∧ d.line < b.startLine + count ∧
    script[d.line - 1]?.map Text.trim = some d.text
  separator : ∀ n, b.repetitions = some n → ∃ text,
    script[b.startLine + count - 1]? = some text ∧ separator? (Text.trim text) = some (some n)

theorem count_lineFeed_join {texts : List String} (h : ∀ text ∈ texts, '\n' ∉ text.toList) :
    (String.join (texts.map (· ++ "\n"))).toList.count '\n' = texts.length := by
  induction texts with
  | nil => rfl
  | cons text texts ih =>
    obtain ⟨htext, hrest⟩ := List.forall_mem_cons.mp h
    have hcount := ih hrest
    rw [String.toList_join] at hcount ⊢
    simp [List.count_eq_zero_of_not_mem htext, hcount]

theorem getLast?_join {texts : List String} (hne : texts ≠ []) :
    (String.join (texts.map (· ++ "\n"))).toList.getLast? = some '\n' := by
  rcases List.eq_nil_or_concat texts with rfl | ⟨before, text, rfl⟩
  · exact absurd rfl hne
  · simp [String.toList_join]

/-- A batch is as long as its segment, and its directives and its separator are the lines that they
were taken from. -/
theorem exists_spans {script : String} {b : Batch} (hb : b ∈ split script) :
    ∃ count, b.Spans (Text.lines script) count := by
  obtain ⟨g, hg, number, hgives⟩ := exists_segment hb
  obtain ⟨offset, hstands⟩ := exists_standsAt hg
  have hstart := hstands.startLine hgives
  have hbound := hstands.le_length hgives.lines_ne_nil
  have hlines : ∀ text ∈ Text.lines script, '\n' ∉ text.toList := fun _ =>
    Text.lineFeed_notMem_lines
  have hfeed := hstands.lineFeed_notMem_shown hlines
  refine ⟨g.lines.length, by omega, by omega, ?_, ?_, ?_, ?_, ?_, ?_⟩
  · rw [hgives.content_eq, getLast?_join (by simpa using hgives.lines_ne_nil)]
  · rw [hgives.content_eq, count_lineFeed_join hfeed, List.length_map]
  · rw [hgives.content_eq, Text.lines_join hfeed, List.length_map, List.length_map]
  · intro line hfirst hlast
    exact hstands.shows hgives hlines hfirst hlast
  · intro d hd
    obtain ⟨hfirst, hlast, htext⟩ := hstands.directive hgives hd
    exact ⟨by omega, by omega, htext⟩
  · intro n hn
    have hbehind : b.startLine + g.lines.length - 1 = offset + g.lines.length := by omega
    rw [hbehind]
    exact hstands.separator hgives hn

end Batch

/-! ### Reports -/

namespace Analysis

/-- What a report is about, and that it is on the line of it: a construct of the batch, a directive
or a separator with a count. -/
inductive Origin (script : String) (b : Batch) (r : Report) : Prop
  | construct {s : Scope} {w : Walk} {site : Site} {n : Node}
      (htree : Tree.ofText? b.content = some s.tree) (hsite : site ∈ s.tree.sites)
      (hreport : r ∈ Survey.reports s w site ∨ r ∈ s.queryReports site)
      (hsubject : Survey.Subject site.node r n) (hline : n.BeginsOn b.content r.line)
      (hshows : b.Shows (Text.lines script) r.line)
  | directive {d : Directive} (hd : d ∈ b.directives)
      (hreport : r = .item .directives d.command d.text r.line)
      (hline : b.fileLine r.line = d.line)
      (htext : (Text.lines script)[d.line - 1]?.map Text.trim = some d.text)
  | repetition {count : Nat} {text : String} (hcount : b.repetitions = some count)
      (hreport : r = .itemAs .directives "GO <count>" ("GO " ++ toString count)
        ("batch repeated " ++ toString count ++ " times") r.line)
      (htext : (Text.lines script)[b.fileLine r.line - 1]? = some text)
      (hseparator : Batch.separator? (Text.trim text) = some (some count))

variable {m : Matrix} {settings : Settings} {script database : String} {b : Batch} {s : Scope}
  {count : Nat}

/-- What the walk over a batch sights is about a construct of the batch, and on a line of it. -/
theorem origin_of_mem_ofBatch {x : Sighting} (htree : Tree.ofText? b.content = some s.tree)
    (hspans : b.Spans (Text.lines script) count) (hx : x ∈ (Survey.ofBatch s database).1) :
    Origin script b x.report ∧ 1 ≤ x.report.line ∧ x.report.line ≤ count := by
  obtain ⟨w, site, hsite, hreport, n, hsubject, hline⟩ :=
    Survey.exists_subject_of_mem_ofBatch htree hx
  obtain ⟨above, hn⟩ := hsubject.exists_site hsite
  have hbegins : n.BeginsOn b.content x.report.line := hline ▸ Tree.beginsOn_of_mem htree hn
  have hbounds := hbegins.bounds hspans.ends
  rw [hspans.feeds] at hbounds
  have hshows := hspans.shows x.report.line hbounds.1 hbounds.2
  exact ⟨.construct htree hsite hreport hsubject hbegins hshows, hbounds⟩

/-- A directive is reported on its own line, and a separator with a count on the line behind the
batch. -/
theorem origin_of_mem_directiveReports {r : Report} (hspans : b.Spans (Text.lines script) count)
    (hr : r ∈ directiveReports b) :
    Origin script b r ∧ 1 ≤ r.line ∧ b.fileLine r.line ≤ (Text.lines script).length := by
  have hstart := hspans.start
  have hbound := hspans.bound
  rcases List.mem_append.mp hr with hr | hr
  · obtain ⟨d, hd, rfl⟩ := List.mem_map.mp hr
    obtain ⟨hfirst, hlast, htext⟩ := hspans.directive d hd
    have hline : b.fileLine (d.line - b.startLine + 1) = d.line := by
      unfold Batch.fileLine
      omega
    refine ⟨.directive hd rfl hline htext, Nat.le_add_left 1 _, ?_⟩
    have hlength : d.line ≤ (Text.lines script).length := by omega
    exact hline.symm ▸ hlength
  · cases hcount : b.repetitions with
    | none => simp [hcount] at hr
    | some n =>
      simp only [hcount, List.mem_singleton] at hr
      obtain ⟨text, htext, hseparator⟩ := hspans.separator n hcount
      have hrline : r.line = count + 1 := by
        rw [hr, ← hspans.lines]
        rfl
      have hline : b.fileLine r.line = b.startLine + count := by
        unfold Batch.fileLine
        omega
      have hexists := (List.getElem?_eq_some_iff.mp htext).1
      refine ⟨.repetition hcount ?_ (hline ▸ htext) hseparator, by omega, by omega⟩
      rw [hr]
      rfl

theorem length_outcomes {a : Analysis} (h : ofScript? m settings script = some (.ok a)) :
    a.outcomes.length = (Batch.split script).length := by
  have hunits : a.outcomes.map (fun _ => ()) = (Batch.split script).map fun _ => () := by
    apply List.ext_getElem?
    intro i
    have houtcome := outcomes_ofScript? h i
    have hbatch := batch_context? h i
    rw [List.getElem?_map, List.getElem?_map, ← hbatch]
    cases hcontext : context? m settings script i with
    | none => simpa [hcontext] using houtcome
    | some c =>
      rw [hcontext] at houtcome
      obtain ⟨o, ho, -⟩ := Option.map_eq_some_iff.mp houtcome
      simp [ho]
  simpa using congrArg List.length hunits

/-- Findings are located. There is an outcome for each batch, and each of its findings names the
batch, a line of it and the line of the script that this is. The script has that line, and what was
reported begins there. -/
theorem findings_located {a : Analysis} (h : ofScript? m settings script = some (.ok a)) :
    a.outcomes.length = (Batch.split script).length ∧
    ∀ (i : Nat) (b : Batch) (o : BatchOutcome) (f : Finding),
      (Batch.split script)[i]? = some b → a.outcomes[i]? = some o → f ∈ o.findings →
      f.batch = b.number ∧ 1 ≤ f.line ∧ f.fileLine = b.startLine + f.line - 1 ∧
      1 ≤ f.fileLine ∧ f.fileLine ≤ (Text.lines script).length ∧
      ∃ version x, Judge.finding ⟨m, version, settings.overrides⟩ b.place x = .ok f ∧
        f.line = x.report.line ∧ Origin script b x.report := by
  refine ⟨length_outcomes h, fun i b o f hb ho hf => ?_⟩
  obtain ⟨b', s, database, version, hb', htree, hfindings⟩ := exists_survey_of_outcome h ho
  obtain rfl : b' = b := Option.some.inj (hb'.symm.trans hb)
  obtain ⟨x, hx, hfinding⟩ := Judge.exists_of_mem_findings hfindings hf
  obtain ⟨count, hspans⟩ := Batch.exists_spans (List.mem_of_getElem? hb)
  have hstart := hspans.start
  have hbound := hspans.bound
  have horigin : Origin script b' x.report ∧ 1 ≤ x.report.line ∧
      b'.fileLine x.report.line ≤ (Text.lines script).length := by
    rcases List.mem_append.mp hx with hx | hx
    · obtain ⟨r, hr, rfl⟩ := List.mem_map.mp hx
      exact origin_of_mem_directiveReports hspans hr
    · obtain ⟨horigin, hfirst, hlast⟩ := origin_of_mem_ofBatch htree hspans hx
      refine ⟨horigin, hfirst, ?_⟩
      unfold Batch.fileLine
      omega
  obtain ⟨horigin, hfirst, hlast⟩ := horigin
  obtain ⟨_, _, -, -, hmade⟩ := Judge.exists_ruling_of_finding hfinding
  have hline : f.line = x.report.line := by rw [hmade]
  have hfile : f.fileLine = b'.fileLine x.report.line := by rw [hmade]; rfl
  have hmax : b'.fileLine x.report.line = b'.startLine + x.report.line - 1 := by
    rw [Batch.fileLine, Nat.max_eq_left hfirst]
  refine ⟨by rw [hmade]; rfl, by omega, by omega, by omega, by omega, ?_⟩
  exact ⟨version, x, hfinding, hline, horigin⟩

/-- A batch behind an empty one. It begins with a directive on the third line of the script, and the
separator behind it repeats it. -/
theorem findings_located_repeated :
    ∃ a, ofScript? .default {} "\ngo\n:r a\nPRINT 1\ngo 2" = some (.ok a) ∧
      a.outcomes.length = 1 ∧
      ∀ o f, a.outcomes[0]? = some o → f ∈ o.findings →
        f.batch = 1 ∧ 1 ≤ f.line ∧ f.fileLine = f.line + 2 ∧ f.fileLine ≤ 5 := by
  have hversion : Matrix.default.resolveVersion none = .ok Matrix.Default.v200 := rfl
  have hlines : (Text.lines "\ngo\n:r a\nPRINT 1\ngo 2").length = 5 := by decide +kernel
  have hsplit : Batch.split "\ngo\n:r a\nPRINT 1\ngo 2" =
      [⟨1, "\nPRINT 1\n", 3, some 2, [⟨3, ":r", ":r a"⟩]⟩] := by decide +kernel
  have htree : ((Tree.ofText? "\nPRINT 1\n").map fun t =>
      t.sites.any (Survey.atCursor ·.kind)) = some false :=
    Tree.map_ofText?_of_apart (by decide +kernel)
  have hfound : ∃ a, ofScript? .default {} "\ngo\n:r a\nPRINT 1\ngo 2" = some (.ok a) :=
    exists_ofScript?_batch hversion hsplit htree
  obtain ⟨a, ha⟩ := hfound
  obtain ⟨hlength, hlocated⟩ := findings_located ha
  rw [hsplit] at hlength hlocated
  refine ⟨a, ha, hlength, fun o f ho hf => ?_⟩
  obtain ⟨hbatch, hfirst, hfile, -, hlast, -⟩ := hlocated 0 _ o f rfl ho hf
  rw [hlines] at hlast
  have hstart : f.fileLine = 3 + f.line - 1 := hfile
  exact ⟨hbatch, hfirst, by omega, hlast⟩

end Analysis

end Portability
