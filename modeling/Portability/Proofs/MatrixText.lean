import Mathlib
import Portability.Matrix.Default
import Portability.Matrix.Format
import Portability.Proofs.BatchSplit
import Portability.Proofs.Judging
import Portability.Proofs.Text

/-! Where a matrix is read from a text whose carriage returns all stand before line feeds, its
report groups are single lines. -/
namespace Portability

namespace Text

/-- The text has no line break. -/
def OneLine (s : String) : Prop := '\n' ∉ s.toList ∧ '\r' ∉ s.toList

instance (s : String) : Decidable (OneLine s) := inferInstanceAs (Decidable (_ ∧ _))

/-- Every carriage return stands before a line feed. -/
def ReturnsPaired (cs : List Char) : Prop :=
  ∀ before after, cs = before ++ '\r' :: after → after.head? = some '\n'

theorem OneLine.of_subset {s t : String} (ht : OneLine t) (h : s.toList ⊆ t.toList) : OneLine s :=
  ⟨fun hs => ht.1 (h hs), fun hs => ht.2 (h hs)⟩

theorem OneLine.append {s t : String} (hs : OneLine s) (ht : OneLine t) : OneLine (s ++ t) := by
  simp only [OneLine, String.toList_append, List.mem_append, not_or] at *
  exact ⟨⟨hs.1, ht.1⟩, hs.2, ht.2⟩

theorem toList_trim_subset (s : String) : (trim s).toList ⊆ s.toList := by
  rw [trim, String.toList_ofList, trimChars, trimRightChars]
  intro c hc
  have hright := (List.dropWhile_sublist _).subset (List.mem_reverse.mp hc)
  exact (List.dropWhile_sublist _).subset (List.mem_reverse.mp hright)

theorem OneLine.trim {s : String} (h : OneLine s) : OneLine (trim s) :=
  h.of_subset (toList_trim_subset s)

theorem ReturnsPaired.of_append (cs : List Char) {ds : List Char}
    (h : ReturnsPaired (cs ++ ds)) : ReturnsPaired ds := by
  intro before after hsplit
  exact h (cs ++ before) after (by simp [hsplit])

/-- Only the last character of a line can be a carriage return, and then a line feed follows. -/
theorem ReturnsPaired.eq_nil {line rest before after : List Char}
    (h : ReturnsPaired (line ++ rest)) (hline : '\n' ∉ line)
    (hsplit : line = before ++ '\r' :: after) : after = [] ∧ rest.head? = some '\n' := by
  have hnext : (after ++ rest).head? = some '\n' := h before (after ++ rest) (by simp [hsplit])
  cases after with
  | nil => exact ⟨rfl, hnext⟩
  | cons c after =>
    have hc : c = '\n' := by simpa using hnext
    exact absurd (by simp [hsplit, hc]) hline

/-- A line is what was read up to the line feed, less one carriage return at its end. -/
theorem reverse_eq_closeLine (line : List Char) :
    line.reverse = closeLine line ++ ['\r'] ∨
      line.reverse = closeLine line ∧ (closeLine line).getLast? ≠ some '\r' := by
  unfold closeLine
  split
  · simp
  · rename_i hother
    refine .inr ⟨rfl, ?_⟩
    cases line with
    | nil => simp
    | cons c line =>
      have hc : c ≠ '\r' := fun hc => hother line (by rw [hc])
      simpa using hc

theorem return_notMem_linesFrom {line cs : List Char} (hline : '\n' ∉ line)
    (hpaired : ReturnsPaired (line.reverse ++ cs)) :
    ∀ found ∈ linesFrom line cs, '\r' ∉ found := by
  induction cs generalizing line with
  | nil =>
    simp only [linesFrom]
    split
    · simp
    · intro found hfound hreturn
      obtain rfl := List.mem_singleton.mp hfound
      obtain ⟨before, after, hsplit⟩ := List.append_of_mem hreturn
      have hnext := (hpaired.eq_nil (by simpa using hline) hsplit).2
      cases hnext
  | cons c cs ih =>
    simp only [linesFrom]
    split
    case isTrue hc =>
      intro found hfound
      rcases List.mem_cons.mp hfound with rfl | hfound
      · intro hreturn
        obtain ⟨before, after, hsplit⟩ := List.append_of_mem hreturn
        rcases reverse_eq_closeLine line with hrev | ⟨hrev, hlast⟩
        · have hends : line.reverse = before ++ '\r' :: (after ++ ['\r']) := by simp [hrev, hsplit]
          simpa using (hpaired.eq_nil (by simpa using hline) hends).1
        · obtain rfl := (hpaired.eq_nil (by simpa using hline) (hrev.trans hsplit)).1
          simp [hsplit] at hlast
      · have hrest : ReturnsPaired ([].reverse ++ cs) :=
          ReturnsPaired.of_append (line.reverse ++ [c]) (by simpa using hpaired)
        exact ih (by simp) hrest found hfound
    case isFalse hc => exact ih (by simp [hline, Ne.symm hc]) (by simpa using hpaired)

/-- The lines of such a text are lines. -/
theorem oneLine_of_mem_lines {text line : String} (hpaired : ReturnsPaired text.toList)
    (h : line ∈ lines text) : OneLine line := by
  refine ⟨lineFeed_notMem_lines h, ?_⟩
  obtain ⟨found, hfound, rfl⟩ := List.mem_map.mp h
  simpa using return_notMem_linesFrom (by simp) (by simpa using hpaired) found hfound

end Text

namespace Matrix

open Text

/-! ### Sections as written -/

structure RawSection.Tidy (s : RawSection) : Prop where
  name : OneLine s.name
  values : ∀ e ∈ s.entries, OneLine e.value

theorem headerName?_oneLine {text name : String} (htext : OneLine text)
    (h : headerName? text = some name) : OneLine name := by
  unfold headerName? at h
  split at h
  · rename_i rest hrest
    split at h
    · cases h
      refine OneLine.trim (htext.of_subset ?_)
      intro c hc
      rw [String.toList_ofList] at hc
      exact hrest ▸ List.mem_cons_of_mem _ (List.dropLast_subset rest hc)
    · cases h
  · cases h

theorem splitAtFirst?_oneLine {mark : Char} {text before after : String} (htext : OneLine text)
    (h : splitAtFirst? mark text = some (before, after)) : OneLine after := by
  unfold splitAtFirst? at h
  split at h
  · rename_i cs c rest hspan
    cases h
    refine htext.of_subset ?_
    intro d hd
    rw [List.span_eq_takeWhile_dropWhile, Prod.mk.injEq] at hspan
    rw [String.toList_ofList] at hd
    exact (List.dropWhile_sublist _).subset (hspan.2 ▸ List.mem_cons_of_mem c hd)
  · cases h

variable {done done' : List RawSection} {text : String} {line : Nat}

theorem continueValue_tidy (htext : OneLine text) (hdone : ∀ s ∈ done, s.Tidy)
    (h : continueValue line text done = .ok done') : ∀ s ∈ done', s.Tidy := by
  unfold continueValue at h
  split at h
  · rename_i s rest
    obtain ⟨hs, hrest⟩ := List.forall_mem_cons.mp hdone
    split at h
    · rename_i e es hentries
      cases h
      refine List.forall_mem_cons.mpr ⟨⟨hs.name, ?_⟩, hrest⟩
      have hvalues := hs.values
      rw [hentries] at hvalues
      obtain ⟨he, hes⟩ := List.forall_mem_cons.mp hvalues
      exact List.forall_mem_cons.mpr ⟨(he.append (by decide)).append htext, hes⟩
    · cases h
  · cases h

/-- One line of the text adds a section or a value that are single lines. -/
theorem readLine_tidy (htext : OneLine text) (hdone : ∀ s ∈ done, s.Tidy)
    (h : readLine done text line = .ok done') : ∀ s ∈ done', s.Tidy := by
  dsimp only [readLine] at h
  have htrim : OneLine (trim text) := htext.trim
  split at h
  · cases h
    exact hdone
  · split at h
    · exact continueValue_tidy htrim hdone h
    · exact continueValue_tidy htrim hdone h
    · split at h
      · rename_i name hname
        cases h
        exact List.forall_mem_cons.mpr ⟨⟨headerName?_oneLine htrim hname, by simp⟩, hdone⟩
      · cases h
    · split at h
      · cases h
      · cases h
      · rename_i key value s rest hsplit
        cases h
        obtain ⟨hs, hrest⟩ := List.forall_mem_cons.mp hdone
        have hvalue : OneLine (trim value) := (splitAtFirst?_oneLine htrim hsplit).trim
        exact List.forall_mem_cons.mpr
          ⟨⟨hs.name, List.forall_mem_cons.mpr ⟨hvalue, hs.values⟩⟩, hrest⟩

theorem readLines_tidy {texts : List String} (htexts : ∀ text ∈ texts, OneLine text)
    (hdone : ∀ s ∈ done, s.Tidy) (h : readLines done line texts = .ok done') :
    ∀ s ∈ done', s.Tidy := by
  induction texts generalizing done line with
  | nil =>
    cases h
    exact hdone
  | cons text texts ih =>
    obtain ⟨htext, hrest⟩ := List.forall_mem_cons.mp htexts
    rw [readLines] at h
    split at h
    · rename_i next hnext
      exact ih hrest (readLine_tidy htext hdone hnext) h
    · cases h

theorem rawSections_tidy {raw : List RawSection} (hpaired : ReturnsPaired text.toList)
    (h : rawSections text = .ok raw) : ∀ s ∈ raw, s.Tidy := by
  unfold rawSections at h
  cases hdone : readLines [] 1 (lines text) with
  | error e => simp [hdone, Except.map] at h
  | ok done =>
    rw [hdone] at h
    cases h
    have htidy := readLines_tidy (fun line => oneLine_of_mem_lines hpaired) (by simp) hdone
    intro s hs
    obtain ⟨found, hmem, rfl⟩ := List.mem_map.mp hs
    have hfound := htidy found (List.mem_reverse.mp hmem)
    exact ⟨hfound.name, fun e he => hfound.values e (List.mem_reverse.mp he)⟩

/-! ### Sections -/

structure Section.Tidy (s : Section) : Prop where
  name : OneLine s.name
  group : ∀ g ∈ s.group, OneLine g
  itemGroups : ∀ e ∈ s.itemGroups, OneLine e.2

theorem Section.put_tidy {s s' : Section} {e : Entry} (hs : s.Tidy) (he : OneLine e.value)
    (h : s.put e = .ok s') : s'.Tidy := by
  dsimp only [Section.put] at h
  split at h
  · cases h
    exact ⟨hs.name, hs.group, hs.itemGroups⟩
  split at h
  · cases h
    refine ⟨hs.name, ?_, hs.itemGroups⟩
    rintro g ⟨⟩
    exact he.trim
  split at h
  · split at h
    · cases h
      exact ⟨hs.name, hs.group, hs.itemGroups⟩
    · cases h
  split at h
  · split at h
    · cases h
      exact ⟨hs.name, hs.group, hs.itemGroups⟩
    · cases h
  split at h
  · cases h
    exact ⟨hs.name, hs.group, List.forall_mem_cons.mpr ⟨he.trim, hs.itemGroups⟩⟩
  · cases hrule : ruleOf e with
    | error fault => simp [hrule, Except.map] at h
    | ok r =>
      rw [hrule] at h
      cases h
      exact ⟨hs.name, hs.group, hs.itemGroups⟩

theorem addSection_tidy {acc acc' : List Version × List Section} {raw : RawSection}
    (hacc : ∀ s ∈ acc.2, s.Tidy) (hraw : raw.Tidy) (h : addSection acc raw = .ok acc') :
    ∀ s ∈ acc'.2, s.Tidy := by
  dsimp only [addSection] at h
  split at h
  · cases h
  split at h
  · obtain ⟨versions, -, h⟩ := exists_of_bind_eq_ok h
    cases h
    exact hacc
  · obtain ⟨s, hfold, h⟩ := exists_of_bind_eq_ok h
    cases h
    have hs : s.Tidy := foldlM_invariant (fun e he _ _ hs hput =>
      Section.put_tidy hs (hraw.values e he) hput) ⟨hraw.name, by simp, by simp⟩ hfold
    exact List.forall_mem_cons.mpr ⟨hs, hacc⟩

theorem parse_tidy {m : Matrix} {origin : String} (hpaired : ReturnsPaired text.toList)
    (h : parse origin text = .ok m) : ∀ s ∈ m.sections, s.Tidy := by
  unfold parse at h
  split at h
  · rename_i found hfound
    cases h
    unfold parseLocated at hfound
    obtain ⟨raw, hraw, hfound⟩ := exists_of_bind_eq_ok hfound
    obtain ⟨⟨versions, sections⟩, hsections, hfound⟩ := exists_of_bind_eq_ok hfound
    have htidy : ∀ s ∈ sections, s.Tidy := foldlM_invariant (P := fun acc => ∀ s ∈ acc.2, s.Tidy)
      (fun s hs _ _ hacc => addSection_tidy hacc (rawSections_tidy hpaired hraw s hs)) (by simp)
      hsections
    simp only at hfound
    split at hfound
    · cases hfound
    split at hfound
    · cases hfound
    · cases hfound
      exact fun s hs => htidy s (List.mem_reverse.mp hs)
  · cases h

/-- The matrix at hand is the default one, or it is read from a text in which every carriage return
stands before a line feed. -/
inductive IsPlain : Matrix → Prop
  | default : IsPlain .default
  | parsed {m : Matrix} {origin text : String} (hpaired : ReturnsPaired text.toList)
      (hparse : parse origin text = .ok m) : IsPlain m

theorem oneLine_of_bytes {s : String} (h : (10 : UInt8) ∉ bytes s ∧ (13 : UInt8) ∉ bytes s) :
    OneLine s :=
  ⟨fun hfeed => h.1 (mem_bytes hfeed 10 (by decide)),
    fun hreturn => h.2 (mem_bytes hreturn 13 (by decide))⟩

theorem default_tidy : ∀ s ∈ Matrix.default.sections, s.Tidy := by
  have hall : ∀ s ∈ Matrix.default.sections, ∀ text ∈ s.name :: s.group.toList ++
      s.itemGroups.map Prod.snd, (10 : UInt8) ∉ bytes text ∧ (13 : UInt8) ∉ bytes text := by
    decide +kernel
  intro s hs
  have hone : ∀ text ∈ s.name :: s.group.toList ++ s.itemGroups.map Prod.snd, OneLine text :=
    fun text htext => oneLine_of_bytes (hall s hs text htext)
  exact ⟨hone _ (by simp), fun g hg => hone g (by simp [Option.mem_def.mp hg]),
    fun e he => hone e.2 (List.mem_append_right _ (List.mem_map_of_mem he))⟩

theorem IsPlain.tidy {m : Matrix} (h : m.IsPlain) : ∀ s ∈ m.sections, s.Tidy := by
  cases h with
  | default => exact default_tidy
  | parsed hpaired hparse => exact parse_tidy hpaired hparse

/-- The report group of any item is a single line. -/
theorem IsPlain.group_oneLine {m : Matrix} {name group : String} {item : Option String}
    (hm : m.IsPlain) (h : m.group name item = .ok group) : OneLine group := by
  unfold Matrix.group at h
  obtain ⟨s, hfind, h⟩ := exists_of_bind_eq_ok h
  have hs : s.Tidy := by
    unfold Matrix.find at hfind
    split at hfind
    · rename_i found hfound
      cases hfind
      exact hm.tidy s (List.mem_of_find?_eq_some hfound)
    · cases hfind
  cases h
  cases hown : item.bind fun i => s.itemGroups.lookup (upper i) with
  | some own =>
    obtain ⟨i, -, hlookup⟩ := Option.bind_eq_some_iff.mp hown
    obtain ⟨before, after, hentries, -⟩ := List.lookup_eq_some_iff.mp hlookup
    exact hs.itemGroups (upper i, own) (by simp [hentries])
  | none =>
    cases hgroup : s.group with
    | some own => exact hs.group own hgroup
    | none => exact hs.name

end Matrix

end Portability
