import Mathlib
import Portability.Batch

/-! The batches of a script are its lines between the separators. Each is numbered among those that
hold anything, starts where its first line stands, and keeps every line of it in its place. -/
namespace Portability

/-! ### Lines and blanks -/

namespace Text

theorem lineFeed_notMem_linesFrom {line : List Char} (hline : '\n' ∉ line) (cs : List Char) :
    ∀ found ∈ linesFrom line cs, '\n' ∉ found := by
  induction cs generalizing line with
  | nil =>
    simp only [linesFrom]
    split <;> simp [hline]
  | cons c cs ih =>
    simp only [linesFrom]
    split
    case isTrue =>
      intro found hfound
      rcases List.mem_cons.mp hfound with rfl | hfound
      · unfold closeLine
        split <;> simp_all
      · exact ih (by simp) found hfound
    case isFalse hc => exact ih (by simp [hline, Ne.symm hc])

/-- No line holds a line feed. -/
theorem lineFeed_notMem_lines {script line : String} (h : line ∈ lines script) :
    '\n' ∉ line.toList := by
  obtain ⟨found, hfound, rfl⟩ := List.mem_map.mp h
  simpa using lineFeed_notMem_linesFrom (by simp) _ found hfound

theorem linesFrom_append {cs : List Char} (hcs : '\n' ∉ cs) (line rest : List Char) :
    linesFrom line (cs ++ '\n' :: rest) = closeLine (cs.reverse ++ line) :: linesFrom [] rest := by
  induction cs generalizing line with
  | nil => simp [linesFrom]
  | cons c cs ih =>
    have hc : c ≠ '\n' := fun hc => hcs (by simp [hc])
    have hrest : '\n' ∉ cs := fun hrest => hcs (by simp [hrest])
    simp [linesFrom, hc, ih hrest]

/-- Texts without a line feed, each followed by one, are lines up to a carriage return at the end of
a text. -/
theorem lines_join {texts : List String} (h : ∀ text ∈ texts, '\n' ∉ text.toList) :
    lines (String.join (texts.map (· ++ "\n"))) =
      texts.map fun text => String.ofList (closeLine text.toList.reverse) := by
  induction texts with
  | nil => simp [lines, linesFrom]
  | cons text texts ih =>
    obtain ⟨htext, hrest⟩ := List.forall_mem_cons.mp h
    have hlines := ih hrest
    simp only [lines, String.toList_join] at hlines ⊢
    simp [linesFrom_append htext, hlines]

theorem trim_eq_empty {text : String} : trim text = "" ↔ ∀ c ∈ text.toList, isBlank c := by
  have hright (cs : List Char) : trimRightChars cs = [] ↔ ∀ c ∈ cs, isBlank c := by
    simp [trimRightChars, List.dropWhile_eq_nil_iff]
  rw [trim, ← String.toList_inj, String.toList_ofList, trimChars]
  simp only [String.toList_empty, hright]
  refine ⟨fun h => ?_, fun h c hc => h c ((List.dropWhile_sublist _).subset hc)⟩
  -- a first character that is not blank would be left
  cases hdrop : text.toList.dropWhile isBlank with
  | nil => exact List.dropWhile_eq_nil_iff.mp hdrop
  | cons c cs =>
    have hc : isBlank c = true := h c (by simp [hdrop])
    have hne : text.toList.dropWhile isBlank ≠ [] := by simp [hdrop]
    have hnot := List.head_dropWhile_not isBlank hne
    simp [hdrop, hc] at hnot

end Text

namespace Batch

/-! ### Segments -/

/-- A line of a script. -/
structure Line where
  /-- Counted from 1. -/
  number : Nat
  text : String
  /-- The line begins inside a block comment. -/
  inComment : Bool
  deriving DecidableEq, Repr

namespace Line

/-- The count of a line that is a separator. -/
def separator? (l : Line) : Option (Option Nat) :=
  if l.inComment then none else Batch.separator? (Text.trim l.text)

def isSeparator (l : Line) : Bool := l.separator?.isSome

def isDirective (l : Line) : Bool := !l.inComment && Batch.isDirective (Text.trim l.text)

def directive? (l : Line) : Option Directive :=
  if l.isDirective then
    some ⟨l.number, Text.lower ((Text.words (Text.trim l.text)).headD (Text.trim l.text)),
      Text.trim l.text⟩
  else none

/-- The line as the content of a batch shows it. -/
def shown (l : Line) : String := if l.isDirective then "" else l.text

/-- A batch with this line is kept. -/
def counts (l : Line) : Bool := l.isDirective || !(Text.trim l.text).isEmpty

/-- Whether a block comment is open after the line. Only lines of code open or close one. -/
def leavesOpen (l : Line) : Bool :=
  if l.isSeparator || l.isDirective then false else trackComment l.inComment l.text

end Line

/-- The lines of a script from the given number on, with what is known of each. -/
def labelled (isOpen : Bool) (number : Nat) : List String → List Line
  | [] => []
  | text :: rest => ⟨number, text, isOpen⟩ :: labelled (Line.leavesOpen ⟨number, text, isOpen⟩)
      (number + 1) rest

/-- A run of lines without a separator, and the separator that ends it. -/
structure Segment where
  lines : List Line
  closer : Option Line
  deriving DecidableEq, Repr

/-- The lines between the separators. The last segment has no separator behind it. -/
def cut (lines : List Line) : List Segment :=
  List.zipWith Segment.mk (lines.splitOnP Line.isSeparator)
    ((lines.filter Line.isSeparator).map some ++ [none])

/-- The segments of a script. -/
def segments (script : String) : List Segment := cut (labelled false 1 (Text.lines script))

namespace Segment

def isKept (g : Segment) : Bool := g.lines.any Line.counts

/-- The batch with the given number that a segment is. -/
structure Gives (g : Segment) (number : Nat) (b : Batch) : Prop where
  number : b.number = number
  startLine : g.lines.head?.map Line.number = some b.startLine
  content : b.content = String.join (g.lines.map fun l => l.shown ++ "\n")
  repetitions : b.repetitions = g.closer.bind fun l => l.separator?.join
  directives : b.directives = g.lines.filterMap Line.directive?

/-- The lines of the batch are those of the segment, each in its place in the script. -/
structure Locates (g : Segment) (script : List String) (b : Batch) : Prop where
  contentLines : b.content.toList.splitOn '\n' = g.lines.map (fun l => l.shown.toList) ++ [[]]
  fileLine : ∀ k l, g.lines[k]? = some l →
    b.fileLine (k + 1) = l.number ∧ script[b.fileLine (k + 1) - 1]? = some l.text

/-- The segments that are kept, counted on from the given number, give the batches one by one. -/
def Give (script : List String) (gs : List Segment) (number : Nat) (bs : List Batch) : Prop :=
  List.Forall₂ (fun g b => g.1.Gives g.2 b ∧ g.1.Locates script b)
    ((gs.filter isKept).zipIdx number) bs

/-- The segment with lines before it. -/
def prepend (pre : List Line) (g : Segment) : Segment := { g with lines := pre ++ g.lines }

end Segment

theorem cut_nil : cut [] = [⟨[], none⟩] := rfl

theorem cut_cons (l : Line) (ls : List Line) : cut (l :: ls) =
    if l.isSeparator then ⟨[], some l⟩ :: cut ls else (cut ls).modifyHead (.prepend [l]) := by
  by_cases hl : l.isSeparator
  · simp [cut, List.splitOnP_cons_eq_if_modifyHead, hl]
  · have hfilter : (l :: ls).filter Line.isSeparator = ls.filter Line.isSeparator := by
      rw [List.filter_cons, if_neg hl]
    simp only [cut, List.splitOnP_cons_eq_if_modifyHead, if_neg hl, hfilter]
    generalize (ls.filter Line.isSeparator).map some ++ [none] = closers
    cases List.splitOnP Line.isSeparator ls <;> cases closers <;> simp [Segment.prepend]

theorem cut_ne_nil (ls : List Line) : cut ls ≠ [] := by
  simp [cut, List.zipWith_eq_nil_iff, List.splitOnP_ne_nil]

theorem flatMap_cut (ls : List Line) :
    (cut ls).flatMap (fun g => g.lines ++ g.closer.toList) = ls := by
  induction ls with
  | nil => rfl
  | cons l ls ih =>
    rw [cut_cons]
    split
    · simp [ih]
    · cases hcut : cut ls with
      | nil => exact absurd hcut (cut_ne_nil ls)
      | cons g gs => simpa [hcut, Segment.prepend] using ih

theorem map_text_labelled (isOpen : Bool) (number : Nat) (texts : List String) :
    (labelled isOpen number texts).map Line.text = texts := by
  induction texts generalizing isOpen number with
  | nil => rfl
  | cons text texts ih => simp [labelled, ih]

theorem getElem?_labelled {isOpen : Bool} {number i : Nat} {texts : List String} {l : Line}
    (h : (labelled isOpen number texts)[i]? = some l) :
    l.number = number + i ∧ texts[i]? = some l.text := by
  induction texts generalizing isOpen number i with
  | nil => simp [labelled] at h
  | cons text texts ih =>
    rw [labelled] at h
    cases i with
    | zero =>
      cases h
      exact ⟨rfl, rfl⟩
    | succ i =>
      obtain ⟨hnumber, htext⟩ := ih h
      exact ⟨by omega, htext⟩

theorem modifyHead_prepend_prepend (found : List Line) (l : Line) (gs : List Segment) :
    (gs.modifyHead (.prepend [l])).modifyHead (.prepend found) =
      gs.modifyHead (.prepend (found ++ [l])) := by
  cases gs <;> simp [Segment.prepend]

theorem modifyHead_prepend_nil (gs : List Segment) : gs.modifyHead (.prepend []) = gs := by
  cases gs <;> simp [Segment.prepend]

/-- Texts without a line feed, each followed by one, are cut at the line feeds. -/
theorem splitOn_join {texts : List String} (h : ∀ text ∈ texts, '\n' ∉ text.toList) :
    (String.join (texts.map (· ++ "\n"))).toList.splitOn '\n' =
      texts.map String.toList ++ [[]] := by
  induction texts with
  | nil => simp
  | cons text texts ih =>
    have htext : ∀ c ∈ text.toList, (c == '\n') = false := by
      intro c hc
      rw [beq_eq_false_iff_ne]
      rintro rfl
      exact h text (by simp) hc
    have hrest := ih fun other hother => h other (by simp [hother])
    simp only [String.toList_join, List.splitOn] at hrest ⊢
    simp [List.splitOnP_append_cons, List.splitOnP_eq_singleton htext, hrest]

/-! ### Drafts -/

/-- The draft holds the lines found since the last separator; the next line has the given number. -/
structure Draft.Holds (d : Draft) (script : List String) (found : List Line) (next : Nat) :
    Prop where
  lines : d.lines = (found.map Line.shown).reverse
  directives : d.directives = (found.filterMap Line.directive?).reverse
  numbers : found.map Line.number = List.range' d.startLine found.length
  texts : ∀ l ∈ found, script[l.number - 1]? = some l.text
  next : next = d.startLine + found.length

/-- The draft with one more line. -/
def Draft.push (d : Draft) (l : Line) : Draft :=
  { d with lines := l.shown :: d.lines, directives := l.directive?.toList ++ d.directives }

section

variable {script : List String} {d : Draft} {found : List Line} {next : Nat} {l : Line}

theorem Draft.holds_empty (start : Nat) : (Draft.empty start).Holds script [] start where
  lines := rfl
  directives := rfl
  numbers := rfl
  texts := by simp
  next := rfl

theorem Draft.Holds.push (h : d.Holds script found next) (hnumber : l.number = next)
    (htext : script[next - 1]? = some l.text) :
    (d.push l).Holds script (found ++ [l]) (next + 1) where
  lines := by simp [Draft.push, h.lines]
  directives := by cases hl : l.directive? <;> simp [Draft.push, h.directives, hl]
  numbers := by simp [Draft.push, h.numbers, List.range'_concat, hnumber, h.next]
  texts := by
    intro m hm
    rcases List.mem_append.mp hm with hm | hm
    · exact h.texts m hm
    · rw [List.mem_singleton.mp hm, hnumber, htext]
  next := by simp [Draft.push, h.next, Nat.add_assoc]

theorem Draft.Holds.content (h : d.Holds script found next) :
    d.content = String.join ((found.map Line.shown).map (· ++ "\n")) := by
  rw [Draft.content, h.lines, List.reverse_reverse]

/-- A draft is dropped where none of its lines counts. -/
theorem Draft.Holds.isEmpty (h : d.Holds script found next) :
    d.isEmpty = !found.any Line.counts := by
  have hfeed : Text.isBlank '\n' = true := by decide
  have hline (l : Line) : l.counts = false ↔
      (∀ c ∈ l.shown.toList, Text.isBlank c) ∧ l.directive? = none := by
    by_cases hl : l.isDirective <;>
      simp [Line.counts, Line.shown, Line.directive?, hl, Text.trim_eq_empty]
  have hblank : Text.trim d.content = "" ↔ ∀ l ∈ found, ∀ c ∈ l.shown.toList, Text.isBlank c := by
    simp only [Text.trim_eq_empty, h.content, String.toList_join]
    constructor
    · intro hall l hl c hc
      exact hall c (by simpa using ⟨l, hl, .inl hc⟩)
    · intro hall c hc
      simp only [List.map_map, List.mem_flatMap, List.mem_map, Function.comp_apply] at hc
      obtain ⟨_, ⟨l, hl, rfl⟩, hc⟩ := hc
      rcases List.mem_append.mp (String.toList_append ▸ hc) with hc | hc
      · exact hall l hl c hc
      · have hc : c = '\n' := by simpa using hc
        rw [hc, hfeed]
  rw [Bool.eq_iff_iff]
  simp [Draft.isEmpty, hblank, h.directives, hline, forall_and]

theorem Draft.Holds.gives (h : d.Holds script found next) (hne : found ≠ [])
    (number : Nat) (closer : Option Line) :
    Segment.Gives ⟨found, closer⟩ number
      (d.finish number (closer.bind fun l => l.separator?.join)) where
  number := rfl
  startLine := by
    obtain ⟨first, rest, rfl⟩ := List.exists_cons_of_ne_nil hne
    have hnumbers := h.numbers
    simp [List.range'_succ] at hnumbers
    simp [Draft.finish, hnumbers.1]
  content := by simp [Draft.finish, h.content, Function.comp_def]
  repetitions := rfl
  directives := by simp [Draft.finish, h.directives]

theorem Draft.Holds.locates (h : d.Holds script found next)
    (hfeed : ∀ text ∈ script, '\n' ∉ text.toList) (number : Nat) (closer : Option Line) :
    Segment.Locates ⟨found, closer⟩ script
      (d.finish number (closer.bind fun l => l.separator?.join)) where
  contentLines := by
    have hshown : ∀ text ∈ found.map Line.shown, '\n' ∉ text.toList := by
      intro text htext
      obtain ⟨l, hl, rfl⟩ := List.mem_map.mp htext
      unfold Line.shown
      split
      · simp
      · exact hfeed _ (List.mem_of_getElem? (h.texts l hl))
    simpa [Draft.finish, h.content, Function.comp_def] using splitOn_join hshown
  fileLine := by
    intro k l hl
    have hnumber : l.number = d.startLine + k := by
      obtain ⟨hk, rfl⟩ := List.getElem?_eq_some_iff.mp hl
      simpa [hk] using congrArg (·[k]?) h.numbers
    have hfile : (d.finish number (closer.bind fun l => l.separator?.join)).fileLine (k + 1) =
        l.number := by
      simp [Batch.fileLine, Draft.finish, hnumber]
    rw [hfile]
    exact ⟨rfl, h.texts l (List.mem_of_getElem? hl)⟩

end

/-! ### Runs -/

/-- One line of a script: a separator closes the draft, any other line goes on it. -/
theorem splitFrom_cons (isOpen : Bool) (d : Draft) (line number : Nat) (text : String)
    (rest : List String) : splitFrom isOpen d line number (text :: rest) =
      match Line.separator? ⟨line, text, isOpen⟩ with
      | some repetitions => close d number repetitions fun next =>
          splitFrom false (Draft.empty (line + 1)) (line + 1) next rest
      | none => splitFrom (Line.leavesOpen ⟨line, text, isOpen⟩) (d.push ⟨line, text, isOpen⟩)
          (line + 1) number rest := by
  cases isOpen with
  | true => rfl
  | false =>
    cases hsep : separator? (Text.trim text) with
    | some repetitions => simp [splitFrom, lineRole, trimmedRole, Line.separator?, hsep]
    | none =>
      by_cases hdir : isDirective (Text.trim text) <;>
        simp [splitFrom, lineRole, trimmedRole, Line.separator?, Line.leavesOpen, Line.isSeparator,
          Line.isDirective, Draft.push, Line.shown, Line.directive?, hsep, hdir]

section

variable {script : List String} (hfeed : ∀ text ∈ script, '\n' ∉ text.toList)

include hfeed

/-- A finished draft comes first where it is kept, and else leaves its number to the next. -/
theorem close_segments {d : Draft} {found : List Line} {next : Nat} (h : d.Holds script found next)
    (number : Nat) (closer : Option Line) {gs : List Segment} {rest : Nat → List Batch}
    (hrest : ∀ k, Segment.Give script gs k (rest k)) :
    Segment.Give script (⟨found, closer⟩ :: gs) number
      (close d number (closer.bind fun l => l.separator?.join) rest) := by
  unfold Segment.Give close
  rw [h.isEmpty, List.filter_cons]
  by_cases hkept : found.any Line.counts
  · have hne : found ≠ [] := by
      rintro rfl
      cases hkept
    simp only [Segment.isKept, hkept, Bool.not_true, if_true, List.zipIdx_cons]
    exact .cons ⟨h.gives hne number closer, h.locates hfeed number closer⟩ (hrest _)
  · simp only [Segment.isKept, hkept]
    exact hrest _

/-- The lines that are left, together with those of the draft, are cut into the segments that give
the batches. -/
theorem splitFrom_segments {ls : List String} {n : Nat} (hls : script.drop n = ls) (isOpen : Bool)
    {d : Draft} {found : List Line} (h : d.Holds script found (n + 1)) (number : Nat) :
    Segment.Give script ((cut (labelled isOpen (n + 1) ls)).modifyHead (.prepend found)) number
      (splitFrom isOpen d (n + 1) number ls) := by
  induction ls generalizing n isOpen d found number with
  | nil =>
    simp only [labelled, cut_nil, splitFrom, Segment.prepend, List.modifyHead_cons, List.append_nil]
    exact close_segments hfeed h number none fun _ => .nil
  | cons text ls ih =>
    have htext : script[n]? = some text := by simp [← List.head?_drop, hls]
    have hrest : script.drop (n + 1) = ls := by simp [← List.tail_drop, hls]
    rw [labelled, cut_cons, splitFrom_cons, Line.isSeparator]
    cases hsep : Line.separator? ⟨n + 1, text, isOpen⟩ with
    | some repetitions =>
      have hopen : Line.leavesOpen ⟨n + 1, text, isOpen⟩ = false := by
        simp [Line.leavesOpen, Line.isSeparator, hsep]
      have hclose := close_segments hfeed h number (some ⟨n + 1, text, isOpen⟩) fun k =>
        ih hrest false (Draft.holds_empty _) k
      simpa [hsep, hopen, modifyHead_prepend_nil, Segment.prepend] using hclose
    | none =>
      simp only [Option.isSome_none, Bool.false_eq_true, if_false, modifyHead_prepend_prepend]
      exact ih hrest _ (h.push (l := ⟨n + 1, text, isOpen⟩) rfl htext) number

end

/-- The word alone is a separator. -/
theorem separator?_trim_go : separator? (Text.trim "GO") = some none := by
  have htrim : Text.trim "GO" = "GO" := by decide +kernel
  rw [htrim]
  cbv

/-- Two lines of code with a separator between them. -/
theorem split_pair {script first last content content' : String}
    (hlines : Text.lines script = [first, "GO", last]) (hfirst : lineRole first = .code)
    (hlast : lineRole last = .code) (hcomment : trackComment false first = false)
    (hcontent : first ++ "\n" = content) (hblank : Text.trim content ≠ "")
    (hcontent' : last ++ "\n" = content') (hblank' : Text.trim content' ≠ "") :
    split script = [⟨1, content, 1, none, []⟩, ⟨2, content', 3, none, []⟩] := by
  have hbetween : lineRole "GO" = .separator none := by
    rw [lineRole, trimmedRole, separator?_trim_go]
  simp [split, hlines, splitFrom, hfirst, hbetween, hlast, hcomment, Draft.empty, close,
    Draft.finish, Draft.content, Draft.isEmpty, String.join, hcontent, hblank, hcontent', hblank']

/-- The segments of a script and their separators are its lines. The batches are what the segments
give that have a directive or a line that is not blank, numbered in order. Each batch keeps the
lines of its segment, and its lines are found in the script by their numbers. -/
theorem split_segments (script : String) :
    (segments script).flatMap (fun g => (g.lines ++ g.closer.toList).map Line.text) =
      Text.lines script ∧
    List.Forall₂ (fun g b => g.1.Gives g.2 b ∧ g.1.Locates (Text.lines script) b)
      (((segments script).filter Segment.isKept).zipIdx 1) (split script) := by
  constructor
  · have hcut := congrArg (List.map Line.text) (flatMap_cut (labelled false 1 (Text.lines script)))
    rwa [List.map_flatMap, map_text_labelled] at hcut
  · have hfeed : ∀ text ∈ Text.lines script, '\n' ∉ text.toList := fun _ =>
      Text.lineFeed_notMem_lines
    have hrun := splitFrom_segments hfeed List.drop_zero false (Draft.holds_empty 1) 1
    rwa [modifyHead_prepend_nil] at hrun

end Batch

end Portability
