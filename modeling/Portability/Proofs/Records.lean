import Mathlib
import Portability.Record.Writer
import Portability.Proofs.Isolation
import Portability.Proofs.MatrixText

/-! Findings survive as records. What is written of them stays on one line, so that a stream of
records can be cut at the line feeds and each record be read back field by field. -/
namespace Portability

open Text

/-! ### Fields -/

namespace Record

theorem unescapeChars_cons {c : Char} (hc : c ≠ escapeMark) (cs : List Char) :
    unescapeChars (c :: cs) = c :: unescapeChars cs := by
  rw [unescapeChars.eq_def]
  split <;> simp_all [escapeMark]

theorem unescapeChars_escapeChars (cs : List Char) : unescapeChars (escapeChars cs) = cs := by
  induction cs with
  | nil => rfl
  | cons c cs ih =>
    rw [escapeChars]
    split
    case isTrue hmark => simp [markEscape, unescapeChars, ih, hmark]
    case isFalse hmark =>
      split
      case isTrue hdelimiter => simp [delimiterEscape, unescapeChars, ih, hdelimiter]
      case isFalse => rw [unescapeChars_cons hmark, ih]

/-- Every field comes back from its escaped form. -/
theorem unescape_escape (field : String) : unescape (escape field) = field := by
  rw [unescape, escape, String.toList_ofList, unescapeChars_escapeChars, String.ofList_toList]

/-- An escaped field holds marks and letters of escapes, and of the field all but delimiters. -/
theorem mem_escapeChars {c : Char} {cs : List Char} (h : c ∈ escapeChars cs) :
    c ∈ ['~', 'p', 't'] ∨ c ∈ cs ∧ c ≠ delimiter := by
  induction cs with
  | nil => simp [escapeChars] at h
  | cons d cs ih =>
    rw [escapeChars] at h
    split at h
    · simp [markEscape] at h
      grind
    · split at h
      · simp [delimiterEscape] at h
        grind
      · grind

theorem delimiter_notMem_escapeChars (cs : List Char) : delimiter ∉ escapeChars cs := by
  intro h
  rcases mem_escapeChars h with h | ⟨-, h⟩
  · simp [delimiter] at h
  · exact h rfl

theorem oneLine_escape {field : String} (h : OneLine field) : OneLine (escape field) := by
  constructor
  all_goals
    intro hbreak
    rw [escape, String.toList_ofList] at hbreak
    rcases mem_escapeChars hbreak with hmark | ⟨hmem, -⟩
    · simp at hmark
  · exact h.1 hmem
  · exact h.2 hmem

theorem splitFrom_eq (part cs : List Char) :
    splitFrom part cs = (cs.splitOn delimiter).modifyHead (part.reverse ++ ·) := by
  unfold List.splitOn
  induction cs generalizing part with
  | nil => simp [splitFrom]
  | cons c cs ih =>
    rw [splitFrom, List.splitOnP_cons_eq_if_modifyHead]
    by_cases hc : c = delimiter
    · have hrest : splitFrom [] cs = cs.splitOnP (· == delimiter) :=
        (ih []).trans (congrFun List.modifyHead_id _)
      simp [hc, hrest]
    · simp [hc, ih, List.modifyHead_modifyHead, Function.comp_def]

theorem splitFrom_nil (cs : List Char) : splitFrom [] cs = cs.splitOn delimiter :=
  (splitFrom_eq [] cs).trans (congrFun List.modifyHead_id _)

/-- Escaped texts with delimiters between them are taken apart again. -/
theorem decode_intercalate {texts : List String} (hne : texts ≠ []) :
    decode (String.intercalate (String.singleton delimiter) (texts.map escape)) = texts := by
  have hparts : ∀ part ∈ texts.map fun text => escapeChars text.toList, delimiter ∉ part := by
    intro part hpart
    obtain ⟨text, -, rfl⟩ := List.mem_map.mp hpart
    exact delimiter_notMem_escapeChars _
  have hsplit := List.splitOn_intercalate delimiter hparts (by simpa using hne)
  have hchars : (String.intercalate (String.singleton delimiter) (texts.map escape)).toList =
      [delimiter].intercalate (texts.map fun text => escapeChars text.toList) := by
    simp [String.toList_intercalate, escape, Function.comp_def]
  rw [decode, splitFrom_nil, hchars, hsplit]
  simp [Function.comp_def, unescapeChars_escapeChars]

theorem oneLine_iff {s : String} : OneLine s ↔ s.toList.any isBreak = false := by
  simp only [OneLine, List.any_eq_false, isBreak]
  constructor
  · intro h c hc hbreak
    rcases (by simpa using hbreak : c = '\n' ∨ c = '\r') with rfl | rfl
    · exact h.1 hc
    · exact h.2 hc
  · intro h
    exact ⟨fun hc => h _ hc (by decide), fun hc => h _ hc (by decide)⟩

theorem oneLine_intercalate {sep : String} {texts : List String} (hsep : OneLine sep)
    (htexts : ∀ text ∈ texts, OneLine text) : OneLine (String.intercalate sep texts) := by
  induction texts with
  | nil => simp [OneLine]
  | cons text texts ih =>
    obtain ⟨htext, hrest⟩ := List.forall_mem_cons.mp htexts
    cases texts with
    | nil => simpa using htext
    | cons next texts =>
      rw [String.intercalate_cons_cons]
      exact (htext.append hsep).append (ih hrest)

variable {application file record : String} {f : Finding}

/-- A record is written where no field has a line break, and then it is the escaped fields with
delimiters between them. -/
theorem encode_eq_ok_iff : encode application file f = .ok record ↔
    (∀ field ∈ fields application file f, OneLine field.2) ∧
      record = String.intercalate (String.singleton delimiter)
        ((fields application file f).map (escape ·.2)) := by
  unfold encode
  cases hfind : (fields application file f).find? fun field => field.2.toList.any isBreak with
  | some field =>
    have hbroken : field.2.toList.any isBreak := by simpa using List.find?_some hfind
    have hmem := List.mem_of_find?_eq_some hfind
    simp only [hfind, reduceCtorEq, false_iff, not_and]
    intro hall
    rw [oneLine_iff.mp (hall field hmem)] at hbroken
    cases hbroken
  | none =>
    have hall : ∀ field ∈ fields application file f, OneLine field.2 := by
      intro field hfield
      rw [oneLine_iff]
      simpa using List.find?_eq_none.mp hfind field hfield
    simp only [hfind, Except.ok.injEq]
    exact ⟨fun h => ⟨hall, h.symm⟩, fun h => h.2.symm⟩

theorem oneLine_of_encode (h : encode application file f = .ok record) : OneLine record := by
  obtain ⟨hfields, rfl⟩ := encode_eq_ok_iff.mp h
  refine oneLine_intercalate (by decide) ?_
  intro text htext
  obtain ⟨field, hfield, rfl⟩ := List.mem_map.mp htext
  exact oneLine_escape (hfields field hfield)

theorem decode_of_encode (h : encode application file f = .ok record) :
    decode record = (fields application file f).map (·.2) := by
  obtain ⟨-, rfl⟩ := encode_eq_ok_iff.mp h
  have hne : (fields application file f).map (·.2) ≠ [] := by simp [fields]
  have hdecode := decode_intercalate hne
  rwa [List.map_map] at hdecode

end Record

/-! ### Findings -/

namespace Text

/-- Words with one space between neighbours. -/
def Spaced (s : String) : Prop :=
  ∃ words : List String, s = String.intercalate " " words ∧
    ∀ word ∈ words, word ≠ "" ∧ ∀ c ∈ word.toList, ¬ isBlank c

theorem Spaced.oneLine {s : String} (h : Spaced s) : OneLine s := by
  obtain ⟨words, rfl, hwords⟩ := h
  refine Record.oneLine_intercalate (by decide) ?_
  intro word hword
  obtain ⟨-, hblank⟩ := hwords word hword
  exact ⟨fun hc => hblank _ hc (by decide), fun hc => hblank _ hc (by decide)⟩

theorem mem_wordsFrom {run cs word : List Char} (hrun : ∀ c ∈ run, ¬ isBlank c)
    (h : word ∈ wordsFrom run cs) : word ≠ [] ∧ ∀ c ∈ word, ¬ isBlank c := by
  induction cs generalizing run with
  | nil =>
    rw [wordsFrom] at h
    split at h
    · cases h
    · rename_i hne
      obtain rfl := List.mem_singleton.mp h
      exact ⟨by simpa using hne, by simpa using hrun⟩
  | cons c cs ih =>
    rw [wordsFrom] at h
    split at h
    · split at h
      · exact ih (by simp) h
      · rename_i hne
        rcases List.mem_cons.mp h with rfl | h
        · exact ⟨by simpa using hne, by simpa using hrun⟩
        · exact ih (by simp) h
    · rename_i hc
      exact ih (List.forall_mem_cons.mpr ⟨hc, hrun⟩) h

theorem spaced_collapse (s : String) : Spaced (collapse s) := by
  refine ⟨words s, rfl, ?_⟩
  intro word hword
  obtain ⟨chars, hchars, rfl⟩ := List.mem_map.mp hword
  obtain ⟨hne, hblank⟩ := mem_wordsFrom (by simp) hchars
  exact ⟨by simpa [String.ext_iff] using hne, by simpa using hblank⟩

theorem length_truncate (s : String) (limit : Nat) : (truncate s limit).length ≤ limit + 3 := by
  unfold truncate
  split
  · omega
  · have hdots : "...".length = 3 := by decide
    simp only [String.length_append, String.length_ofList, List.length_take, hdots]
    omega

theorem oneLine_truncate {s : String} (h : OneLine s) (limit : Nat) :
    OneLine (truncate s limit) := by
  unfold truncate
  split
  · exact h
  · refine OneLine.append (h.of_subset ?_) (by decide)
    rw [String.toList_ofList]
    exact List.take_subset limit s.toList

theorem oneLine_toString (n : Nat) : OneLine (toString n) := by
  have hdigits : ∀ c ∈ (toString n).toList, c.isDigit := by
    intro c hc
    have hmem : c ∈ Nat.toDigits 10 n := by simpa using hc
    exact Nat.isDigit_of_mem_toDigits (by decide) (by decide) hmem
  constructor
  all_goals
    intro hbreak
    exact absurd (hdigits _ hbreak) (by decide)

end Text

/-- The texts of a finding are single lines, those that name what was found and where are words
with single spaces, and the detail is not too long. -/
structure Finding.IsPlain (f : Finding) : Prop where
  item : Spaced f.item
  object : Spaced f.object
  part : Spaced f.part
  detail : f.detail.length ≤ 203
  oneLine : ∀ text ∈ [f.item, f.detail, f.group, f.object, f.part, f.misc], OneLine text

theorem Status.oneLine_label (status : Status) : OneLine status.label := by
  cases status <;> decide

theorem Judge.oneLine_relabel (j : Judge) (sectionName key : String) (status : Status) :
    OneLine (j.relabel sectionName key status).2 := by
  unfold relabel
  split
  · exact OneLine.append (by decide) status.oneLine_label
  · simp [OneLine]

/-- Whatever is sighted, the finding about it is plain. -/
theorem Judge.isPlain_finding {j : Judge} {place : BatchPlace} {x : Sighting} {f : Finding}
    (hm : j.matrix.IsPlain) (h : j.finding place x = .ok f) : f.IsPlain := by
  obtain ⟨ruling, group, -, hgroup, rfl⟩ := exists_ruling_of_finding h
  have hdetail := oneLine_truncate
    (spaced_collapse (ruling.detail?.getD x.report.detail)).oneLine Finding.detailLimit
  have hgroup : OneLine group := hm.group_oneLine hgroup
  refine ⟨spaced_collapse _, spaced_collapse _, spaced_collapse _, length_truncate _ _, ?_⟩
  simp only [List.forall_mem_cons, List.not_mem_nil, false_implies, implies_true, and_true]
  exact ⟨(spaced_collapse _).oneLine, hdetail, hgroup, (spaced_collapse _).oneLine,
    (spaced_collapse _).oneLine, j.oneLine_relabel _ _ _⟩

theorem Analysis.isPlain_of_mem {m : Matrix} {settings : Settings} {script : String} {a : Analysis}
    {f : Finding} (hm : m.IsPlain) (h : ofScript? m settings script = some (.ok a))
    (hf : f ∈ a.findings) : f.IsPlain := by
  obtain ⟨o, ho, hf⟩ := List.mem_flatMap.mp hf
  obtain ⟨i, ho⟩ := List.mem_iff_getElem?.mp ho
  obtain ⟨b, s, database, version, -, -, hfindings⟩ := exists_survey_of_outcome h ho
  obtain ⟨x, -, hx⟩ := Judge.exists_of_mem_findings hfindings hf
  exact Judge.isPlain_finding hm hx

/-- A plain finding has a record for every application and file named on one line. -/
theorem Finding.IsPlain.exists_encode {f : Finding} (h : f.IsPlain) {application file : String}
    (happlication : OneLine application) (hfile : OneLine file) :
    ∃ record, Record.encode application file f = .ok record := by
  refine ⟨_, Record.encode_eq_ok_iff.mpr ⟨?_, rfl⟩⟩
  obtain ⟨hitem, hdetail, hgroup, hobject, hpart, hmisc, -⟩ := by
    simpa only [List.forall_mem_cons] using h.oneLine
  simp only [Record.fields, List.forall_mem_cons, List.not_mem_nil, false_implies, implies_true,
    and_true]
  exact ⟨hitem, hdetail, hgroup, f.status.oneLine_label, oneLine_toString _, happlication, hfile,
    oneLine_toString _, oneLine_toString _, hobject, hpart, hmisc⟩

/-! ### Streams -/

theorem Writer.write_endless (text path record : String) (written : Nat) :
    write ⟨⟨none, text⟩, path, written⟩ record =
      (⟨⟨none, text ++ record ++ "\n"⟩, path, written + 1⟩, none) := rfl

/-- Where there is no end to the room, every record is written with a line feed behind it. -/
theorem Writer.writeAll_endless (text path : String) (written : Nat) (records : List String) :
    writeAll ⟨⟨none, text⟩, path, written⟩ records =
      (⟨⟨none, text ++ String.join (records.map (· ++ "\n"))⟩, path, written + records.length⟩,
        none) := by
  induction records generalizing text written with
  | nil => simp [writeAll]
  | cons record records ih =>
    rw [writeAll, write_endless]
    simp [ih, String.append_assoc]
    omega

namespace Record

/-- The lines of a stream of records are the records. -/
theorem lines_stream {records : List String} (h : ∀ record ∈ records, OneLine record) :
    lines (String.join (records.map (· ++ "\n"))) = records := by
  rw [lines_join fun record hrecord => (h record hrecord).1]
  conv_rhs => rw [← List.map_id records]
  apply List.map_congr_left
  intro record hrecord
  -- without a carriage return at its end the line is all of the record
  rcases reverse_eq_closeLine record.toList.reverse with hrev | ⟨hrev, -⟩
  · rw [List.reverse_reverse] at hrev
    exact absurd (hrev ▸ by simp) (h record hrecord).2
  · rw [List.reverse_reverse] at hrev
    simp [← hrev]

/-- The values of the fields of a record. -/
def values (application file : String) (f : Finding) : List String :=
  [f.item, f.detail, f.group, f.status.label, toString f.line, application, file,
    toString f.batch, toString f.fileLine, f.object, f.part, f.misc]

theorem map_fields (application file : String) (f : Finding) :
    (fields application file f).map (·.2) = values application file f := rfl

/-- Records keep what they are made of. A finding has a record where no value has a line break; the
record is a single line, and the values are read back from it. An analysis with a plain matrix only
finds what has a record. A stream of such records falls apart into them at the line feeds. -/
theorem records_survive :
    (∀ application file f,
      ((∃ record, encode application file f = .ok record) ↔
        ∀ value ∈ values application file f, OneLine value) ∧
      ∀ record, encode application file f = .ok record →
        OneLine record ∧ decode record = values application file f) ∧
    (∀ m settings script a, m.IsPlain → Analysis.ofScript? m settings script = some (.ok a) →
      ∀ f ∈ a.findings, f.IsPlain ∧ ∀ application file, OneLine application → OneLine file →
        ∃ record, encode application file f = .ok record) ∧
    ∀ (entries : List (String × String × Finding)) (path : String),
      (∀ e ∈ entries, OneLine e.1 ∧ OneLine e.2.1 ∧ e.2.2.IsPlain) →
      ∃ records w, entries.mapM (fun e => encode e.1 e.2.1 e.2.2) = .ok records ∧
        Writer.writeAll ⟨{ room := none }, path, 0⟩ records = (w, none) ∧
        w.written = entries.length ∧
        w.sink.text.toList.splitOn '\n' = records.map String.toList ++ [[]] ∧
        lines w.sink.text = records ∧
        records.map decode = entries.map fun e => values e.1 e.2.1 e.2.2 := by
  refine ⟨?_, ?_, ?_⟩
  · intro application file f
    have hvalues : (∀ value ∈ values application file f, OneLine value) ↔
        ∀ field ∈ fields application file f, OneLine field.2 := by
      rw [← map_fields, List.forall_mem_map]
    refine ⟨?_, fun record h => ⟨oneLine_of_encode h, decode_of_encode h⟩⟩
    rw [hvalues]
    constructor
    · rintro ⟨record, h⟩
      exact (encode_eq_ok_iff.mp h).1
    · intro h
      exact ⟨_, encode_eq_ok_iff.mpr ⟨h, rfl⟩⟩
  · intro m settings script a hm ha f hf
    have hplain := Analysis.isPlain_of_mem hm ha hf
    exact ⟨hplain, fun application file => hplain.exists_encode⟩
  · intro entries path hentries
    obtain ⟨records, hrecords⟩ : ∃ records,
        entries.mapM (fun e => encode e.1 e.2.1 e.2.2) = .ok records := by
      apply mapM_eq_ok_of_forall
      intro e he
      obtain ⟨happlication, hfile, hplain⟩ := hentries e he
      exact hplain.exists_encode happlication hfile
    have hline : ∀ record ∈ records, OneLine record := by
      intro record hrecord
      obtain ⟨e, -, he⟩ := exists_of_mem_mapM hrecords hrecord
      exact oneLine_of_encode he
    have hdecode : records.map decode = entries.map fun e => values e.1 e.2.1 e.2.2 :=
      map_of_mapM (fun _ _ he => decode_of_encode he) hrecords
    have hcount : records.length = entries.length := by
      simpa using congrArg List.length hdecode
    refine ⟨records, _, hrecords, Writer.writeAll_endless _ _ _ records, ?_, ?_, ?_, hdecode⟩
    · simpa using hcount
    · simpa using Batch.splitOn_join fun record hrecord => (hline record hrecord).1
    · simpa using lines_stream hline

/-- A text that goes over two lines is found, and marks in a value are written and read back. -/
theorem records_survive_print :
    (∃ a, Analysis.ofScript? .default {} "PRINT '\n'" = some (.ok a) ∧
      ∀ f ∈ a.findings, f.IsPlain ∧ ∃ record, encode "a" "b.sql" f = .ok record) ∧
    ∃ record, encode "a|b" "~p~" ⟨"PRINT", "~t|~", "", .ignored, 1, 1, 1, "", "", ""⟩ =
        .ok record ∧
      decode record =
        ["PRINT", "~t|~", "", "Ignored", "1", "a|b", "~p~", "1", "1", "", "", ""] := by
  have hversion : Matrix.default.resolveVersion none = .ok Matrix.Default.v200 := rfl
  have hsplit : Batch.split "PRINT '\n'" = [⟨1, "PRINT '\n'\n", 1, none, []⟩] := by
    decide +kernel
  have htree : ((Tree.ofText? "PRINT '\n'\n").map fun t =>
      t.sites.any (Survey.atCursor ·.kind)) = some false :=
    Tree.map_ofText?_of_apart (by decide +kernel)
  have hfound : ∃ a, Analysis.ofScript? .default {} "PRINT '\n'" = some (.ok a) :=
    Analysis.exists_ofScript?_batch hversion hsplit htree
  obtain ⟨a, ha⟩ := hfound
  obtain ⟨hencode, hfindings, -⟩ := records_survive
  refine ⟨⟨a, ha, fun f hf => ?_⟩, ?_⟩
  · obtain ⟨hplain, hrecord⟩ := hfindings .default {} "PRINT '\n'" a .default ha f hf
    exact ⟨hplain, hrecord "a" "b.sql" (by decide) (by decide)⟩
  · obtain ⟨hsome, hdecode⟩ :=
      hencode "a|b" "~p~" ⟨"PRINT", "~t|~", "", .ignored, 1, 1, 1, "", "", ""⟩
    obtain ⟨record, hrecord⟩ := hsome.mpr (by decide +kernel)
    exact ⟨record, hrecord, (hdecode record hrecord).2⟩

end Record

end Portability
