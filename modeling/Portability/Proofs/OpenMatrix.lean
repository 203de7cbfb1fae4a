import Mathlib
import Portability.Proofs.Coverage

/-! The topics are all that an analysis asks a matrix for. With a section for every topic that takes
any item, no question stays without an answer. -/
namespace Portability

/-- The matrix has an open section for every topic of the list, the names of special columns apart,
which it lists, sets a limit on the length of identifiers, and takes any value of an argument. -/
structure Matrix.IsOpen (m : Matrix) : Prop where
  topic : ∀ t ∈ Topic.all, t ≠ .specialColumnNames →
    ∃ sec, m.find? t.name = some sec ∧ sec.items = none
  columnNames : ∃ sec, m.find? Topic.specialColumnNames.name = some sec ∧ sec.items.isSome
  nameLength : ∃ sec, m.find? Topic.identifierLength.name = some sec ∧ sec.limit.isSome
  argument : ∀ name item position sec,
    m.find? (argumentSection name item position) = some sec → sec.items = none

namespace Matrix.IsOpen

variable {m : Matrix}

theorem defines (h : m.IsOpen) {t : Topic} (ht : t ≠ .specialColumnNames) (word : String) :
    m.defines t.name (some word) := by
  obtain ⟨sec, hsec, hopen⟩ := h.topic t t.mem_all ht
  simp [Matrix.defines, hsec, Section.takes, hopen]

theorem covers (h : m.IsOpen) : m.Covers where
  topic t := by
    by_cases ht : t = .specialColumnNames
    · obtain ⟨sec, hsec, -⟩ := h.columnNames
      simp [ht, hsec]
    · obtain ⟨sec, hsec, -⟩ := h.topic t t.mem_all ht
      simp [hsec]
  word t word hword := by
    refine h.defines ?_ word
    -- no report names a special column by itself
    rintro rfl
    simp at hword
  argument := h.argument

theorem nameLimits (h : m.IsOpen) : ∃ limits, NameLimits.ofMatrix m = .ok limits := by
  obtain ⟨length, hlength, hlimit⟩ := h.nameLength
  obtain ⟨names, hnames, hitems⟩ := h.columnNames
  exact nameLimits_eq_ok hlength hlimit hnames hitems

/-- Here also a condition on the row at a cursor keeps to what the matrix defines. -/
theorem isPlain_atCursor (h : m.IsOpen) : Survey.atCursorQuestion.IsPlain m := by
  refine ⟨.cursors, rfl, fun word _ => Or.inr (h.defines (by decide) word)⟩

theorem outcome_eq_ok {j : Judge} (h : j.matrix.IsOpen) {s : Scope} (hs : s.matrix = j.matrix)
    {text database : String} (htree : Tree.ofText? text = some s.tree) (place : BatchPlace)
    (b : Batch) : ∃ o, j.outcome place (Analysis.surveyBatch s database b).1 = .ok o := by
  apply Judge.outcome_eq_ok
  intro x hx
  rcases Analysis.finding_of_covers h.covers hs htree hx with hok | ⟨hquestion, -⟩
  · exact hok
  · exact Judge.finding_eq_ok h.covers (hquestion ▸ h.isPlain_atCursor)

end Matrix.IsOpen

/-- The section that a matrix with nothing but topics has for a topic. -/
def Topic.openSection (t : Topic) : Matrix.Section where
  name := t.name
  items := if t = .specialColumnNames then some [] else none
  limit := some 128

/-- A matrix with a section for every topic and nothing else. -/
def Matrix.ofTopics (versions : List Version) : Matrix :=
  ⟨"", versions, Topic.all.map Topic.openSection⟩

theorem Matrix.find?_ofTopics (versions : List Version) (t : Topic) :
    (ofTopics versions).find? t.name = some t.openSection := by
  have hbytes : (Topic.all.map fun t => (Text.bytes t.name).map Text.capitalByte).Nodup := by
    decide +kernel
  have hfound : Topic.all.all fun t => Topic.all.find? (·.name == t.name) == some t := by
    decide +kernel
  have hkeys : ((ofTopics versions).sections.map Section.key).Nodup := by
    refine List.Nodup.of_map Text.bytes ?_
    simpa [ofTopics, Topic.openSection, Section.key, Text.bytes_upper, Function.comp_def]
      using hbytes
  apply find?_eq_of_named? hkeys
  have ht := List.all_eq_true.mp hfound t (Topic.mem_all t)
  rw [named?, ofTopics, List.find?_map]
  exact congrArg (Option.map Topic.openSection) (eq_of_beq ht)

theorem Matrix.isOpen_ofTopics (versions : List Version) : (ofTopics versions).IsOpen where
  topic t _ ht := ⟨_, find?_ofTopics versions t, by simp [Topic.openSection, ht]⟩
  columnNames := ⟨_, find?_ofTopics versions .specialColumnNames, rfl⟩
  nameLength := ⟨_, find?_ofTopics versions .identifierLength, rfl⟩
  argument name item position sec hsec := by
    refine items_eq_none_of_argumentSection (fun sec hmem hclosed => ?_) hsec
    obtain ⟨t, -, rfl⟩ := List.mem_map.mp hmem
    have ht : t = .specialColumnNames := by simpa [Topic.openSection] using hclosed
    rw [ht]
    decide

namespace Analysis

/-- With an open matrix every script is analysed, whatever stands in it and whatever the settings
say: no question is about a section that is no topic's, and none stays open for another reason. -/
theorem ofScript?_open {m : Matrix} (hm : m.IsOpen) {settings : Settings} {version : Version}
    (hversion : m.resolveVersion settings.version = .ok version) {script : String}
    {batches : List ParsedBatch} (hparse : parse? script = some batches) :
    ∃ a, ofScript? m settings script = some (.ok a) := by
  obtain ⟨limits, hlimits⟩ := hm.nameLimits
  have hparsed := (parse?_eq_some hparse).2
  have hall : ∃ a, ofBatches m settings version batches = .ok a :=
    ofBatches_eq_ok hlimits hparsed fun p hp s place database hmatrix htree =>
      Matrix.IsOpen.outcome_eq_ok hm hmatrix (htree ▸ hparsed p hp) place p.batch
  obtain ⟨a, ha⟩ := hall
  exact ⟨a, by rw [ofScript?_eq hversion hparse, ha]⟩

/-- Sections for the topics are enough for a `DELETE` at a cursor. -/
theorem ofScript?_open_delete :
    ∃ a, ofScript? (.ofTopics [⟨"1.0", [1, 0]⟩]) {} "DELETE t WHERE CURRENT OF c" =
      some (.ok a) := by
  have hsplit : Batch.split "DELETE t WHERE CURRENT OF c" =
      [⟨1, "DELETE t WHERE CURRENT OF c\n", 1, none, []⟩] := by decide +kernel
  obtain ⟨t, ht⟩ : ∃ t, Tree.ofText? "DELETE t WHERE CURRENT OF c\n" = some t :=
    Tree.exists_ofText?_of_apart (by decide +kernel)
  have hparse : parse? "DELETE t WHERE CURRENT OF c" =
      some [⟨⟨1, "DELETE t WHERE CURRENT OF c\n", 1, none, []⟩, t⟩] := by
    simp [parse?, hsplit, ht]
  exact ofScript?_open (Matrix.isOpen_ofTopics _) rfl hparse

end Analysis

end Portability
