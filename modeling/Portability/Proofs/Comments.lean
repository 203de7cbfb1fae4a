import Mathlib
import Portability.Proofs.BatchSplit

/-! Comments over the lines of a script. A scan of the whole text knows strings, delimited
identifiers and comments wherever lines end; the batches are told from each line and from whether a
comment is open before it. Both agree on the comments as long as no string goes on over the end of a
line and no delimited identifier holds what begins a string or a comment. -/
namespace Portability

/-! ### Separators hold no mark of a comment -/

namespace Text

theorem mem_dropWhile_isBlank {c : Char} {cs : List Char} (hc : isBlank c = false) (h : c ∈ cs) :
    c ∈ cs.dropWhile isBlank := by
  rw [← List.takeWhile_append_dropWhile (p := isBlank) (l := cs)] at h
  refine (List.mem_append.mp h).resolve_left fun hin => ?_
  rw [List.mem_takeWhile_imp hin] at hc
  cases hc

theorem mem_trimChars {c : Char} {cs : List Char} (hc : isBlank c = false) (h : c ∈ cs) :
    c ∈ trimChars cs := by
  have hleft := mem_dropWhile_isBlank hc h
  exact List.mem_reverse.mpr (mem_dropWhile_isBlank hc (List.mem_reverse.mpr hleft))

/-- Whatever is not blank is in some word. -/
theorem exists_word_of_mem {c : Char} {run cs : List Char} (hc : isBlank c = false)
    (h : c ∈ run ∨ c ∈ cs) : ∃ word ∈ wordsFrom run cs, c ∈ word := by
  induction cs generalizing run with
  | nil =>
    have hrun : c ∈ run := h.resolve_right (by simp)
    exact ⟨run.reverse, by simp [wordsFrom, List.ne_nil_of_mem hrun], List.mem_reverse.mpr hrun⟩
  | cons d rest ih =>
    rw [wordsFrom]
    by_cases hblank : isBlank d
    · have hrest : c ∈ run ∨ c ∈ rest := by
        refine h.imp_right fun hmem => (List.mem_cons.mp hmem).resolve_left ?_
        rintro rfl
        rw [hblank] at hc
        cases hc
      rw [if_pos hblank]
      by_cases hempty : run.isEmpty
      · rw [if_pos hempty]
        rw [List.isEmpty_iff.mp hempty] at hrest
        exact ih hrest
      · rw [if_neg hempty]
        rcases hrest with hrun | hrest
        · exact ⟨run.reverse, List.mem_cons_self, List.mem_reverse.mpr hrun⟩
        · have hin : c ∈ ([] : List Char) ∨ c ∈ rest := Or.inr hrest
          obtain ⟨word, hword, hin⟩ := ih hin
          exact ⟨word, List.mem_cons_of_mem _ hword, hin⟩
    · rw [if_neg hblank]
      refine ih ?_
      rcases h with hrun | hmem
      · exact Or.inl (List.mem_cons_of_mem d hrun)
      · rcases List.mem_cons.mp hmem with rfl | hrest
        · exact Or.inl List.mem_cons_self
        · exact Or.inr hrest

/-- A value that is read digit by digit, from one that is read already, is read of digits only. -/
theorem isDigit_of_foldl {cs : List Char} {value : Option Nat}
    (h : (cs.foldl (fun value c => value.bind fun n =>
      if c.isDigit then some (10 * n + (c.toNat - '0'.toNat)) else none) value).isSome) :
    value.isSome ∧ ∀ c ∈ cs, c.isDigit := by
  induction cs generalizing value with
  | nil => exact ⟨h, by simp⟩
  | cons c rest ih =>
    obtain ⟨hnext, hrest⟩ := ih h
    obtain ⟨n, rfl⟩ : ∃ n, value = some n := by
      cases value with
      | none => cases hnext
      | some n => exact ⟨n, rfl⟩
    have hc : c.isDigit := by
      by_contra hc
      simp [hc] at hnext
    exact ⟨rfl, List.forall_mem_cons.mpr ⟨hc, hrest⟩⟩

theorem isDigit_of_digitsValue? {cs : List Char} (h : (digitsValue? cs).isSome) :
    ∀ c ∈ cs, c.isDigit := by
  cases cs with
  | nil => cases h
  | cons c rest => exact (isDigit_of_foldl h).2

theorem slash_notMem_of_same {word : String} (h : same word "go") : '/' ∉ word.toList := by
  intro hmem
  have hlower : lower word = lower "go" := by simpa [same] using h
  have hin : '/' ∈ (lower word).toList := by
    rw [lower, String.toLower, String.toList_map]
    exact List.mem_map.mpr ⟨'/', hmem, by decide⟩
  rw [hlower, lower, String.toLower, String.toList_map] at hin
  revert hin
  decide

theorem slash_notMem_of_parseNat? {limit : Nat} {word : String}
    (h : (parseNat? limit word).isSome) : '/' ∉ word.toList := by
  intro hmem
  unfold parseNat? at h
  have hdigits := Option.isSome_of_isSome_filter _ _ h
  split at hdigits
  · rename_i rest hword
    rw [hword] at hmem
    have hin : '/' ∈ rest := (List.mem_cons.mp hmem).resolve_left (by decide)
    exact absurd (isDigit_of_digitsValue? hdigits '/' hin) (by decide)
  · exact absurd (isDigit_of_digitsValue? hdigits '/' hmem) (by decide)

end Text

/-- A separator is made of a word and perhaps a count and a semicolon. -/
theorem Batch.slash_notMem_of_separator? {line : String}
    (h : (separator? (Text.trim line)).isSome) : '/' ∉ line.toList := by
  intro hmem
  have hblank : Text.isBlank '/' = false := by decide
  have htrim : '/' ∈ (Text.trim line).toList := by
    rw [Text.trim, String.toList_ofList]
    exact Text.mem_trimChars hblank hmem
  have hbody : '/' ∈ (withoutSemicolon (Text.trim line)).toList := by
    unfold withoutSemicolon
    split
    · rename_i hlast
      obtain ⟨body, hline⟩ := List.getLast?_eq_some_iff.mp hlast
      rw [hline] at htrim
      rw [String.toList_ofList, hline, List.dropLast_concat]
      exact (List.mem_append.mp htrim).resolve_right (by decide)
    · exact htrim
  have hsome : '/' ∈ ([] : List Char) ∨ '/' ∈ (withoutSemicolon (Text.trim line)).toList :=
    Or.inr hbody
  obtain ⟨word, hword, hin⟩ := Text.exists_word_of_mem hblank hsome
  have hword' : String.ofList word ∈ Text.words (withoutSemicolon (Text.trim line)) :=
    List.mem_map_of_mem hword
  have hin' : '/' ∈ (String.ofList word).toList := by rwa [String.toList_ofList]
  unfold separator? at h
  split at h
  · rename_i go hwords
    rw [hwords, List.mem_singleton] at hword'
    rw [hword'] at hin'
    split at h
    · exact Text.slash_notMem_of_same (by assumption) hin'
    · cases h
  · rename_i go count hwords
    rw [hwords] at hword'
    split at h
    · rcases List.mem_cons.mp hword' with heq | hcount
      · rw [heq] at hin'
        exact Text.slash_notMem_of_same (by assumption) hin'
      · rw [List.mem_singleton.mp hcount] at hin'
        exact Text.slash_notMem_of_parseNat? (by simpa using h) hin'
    · cases h
  · cases h

namespace Batch

section

variable {c : Char} {rest : List Char}

theorem commentAfter_code_cons (hquote : c ≠ '\x27') (hdash : c = '-' → rest.head? ≠ some '-')
    (hslash : c = '/' → rest.head? ≠ some '*') :
    commentAfter .code (c :: rest) = commentAfter .code rest := by
  rw [commentAfter]
  · simpa using hquote
  · rintro tail rfl rfl
    simp at hdash
  · rintro tail rfl rfl
    simp at hslash

theorem commentAfter_comment_cons (hstar : c = '*' → rest.head? ≠ some '/') :
    commentAfter .comment (c :: rest) = commentAfter .comment rest := by
  rw [commentAfter]
  rintro tail rfl rfl
  simp at hstar

end

/-! ### The scan of a text -/

/-- What a scan of a text stands in. -/
inductive Region where
  | code
  /-- Behind a dash, which another one makes the beginning of a comment. -/
  | dash
  /-- Behind a slash, which a star makes the beginning of a comment. -/
  | slash
  | string
  | bracketed
  /-- Behind a closing bracket, which another one makes a part of the identifier. -/
  | closing
  | quoted
  | lineComment
  /-- In a block comment inside as many others. -/
  | comment (depth : Nat)
  /-- In a block comment, behind a star. -/
  | star (depth : Nat)
  /-- In a block comment, behind a slash that may begin another one. -/
  | opening (depth : Nat)
  deriving DecidableEq, Repr

namespace Region

/-- What a character leads to outside of everything. -/
def ofCode : Char → Region
  | '\x27' => .string
  | '[' => .bracketed
  | '"' => .quoted
  | '-' => .dash
  | '/' => .slash
  | _ => .code

/-- What is around a block comment that ends. -/
def outside : Nat → Region
  | 0 => .code
  | depth + 1 => .comment depth

/-- The scan reads one more character. Doubled marks in a string or between double quotes close and
open it again. `nests` says whether block comments nest. -/
def next (nests : Bool) : Region → Char → Region
  | .code, c => ofCode c
  | .dash, c => if c = '-' then .lineComment else ofCode c
  | .slash, c => if c = '*' then .comment 0 else ofCode c
  | .string, c => if c = '\x27' then .code else .string
  | .bracketed, c => if c = ']' then .closing else .bracketed
  | .closing, c => if c = ']' then .bracketed else ofCode c
  | .quoted, c => if c = '"' then .code else .quoted
  | .lineComment, c => if c = '\n' then .code else .lineComment
  | .comment depth, c =>
    if c = '*' then .star depth else if c = '/' ∧ nests then .opening depth else .comment depth
  | .star depth, c =>
    if c = '/' then outside depth else if c = '*' then .star depth else .comment depth
  | .opening depth, c =>
    if c = '*' then .comment (depth + 1) else if c = '/' then .opening depth else .comment depth

/-- The scan reads a text. -/
def after (nests : Bool) (r : Region) (cs : List Char) : Region := cs.foldl (next nests) r

theorem after_append (nests : Bool) (r : Region) (xs ys : List Char) :
    r.after nests (xs ++ ys) = (r.after nests xs).after nests ys := List.foldl_append

/-- A block comment is open. -/
def isComment : Region → Bool
  | .comment _ | .star _ | .opening _ => true
  | _ => false

/-- What follows in the text cannot be told from its line alone: a string goes on over the end of
the line, a string or a comment seems to begin inside a delimited identifier, or a block comment
ends inside another. -/
def misleads : Region → List Char → Bool
  | .string, '\n' :: _ => true
  | .bracketed, '\x27' :: _ | .bracketed, '-' :: '-' :: _ | .bracketed, '/' :: '*' :: _ => true
  | .quoted, '\x27' :: _ | .quoted, '-' :: '-' :: _ | .quoted, '/' :: '*' :: _ => true
  | .star (_ + 1), '/' :: _ | .opening _, '*' :: '/' :: _ => true
  | _, _ => false

/-- Nothing in the text misleads. -/
def clear (nests : Bool) : Region → List Char → Bool
  | _, [] => true
  | r, c :: rest => !r.misleads (c :: rest) && clear nests (r.next nests c) rest

/-- Whether a comment is open at the end of the line of which the characters are left, as it is
found without knowing delimited identifiers and comments inside comments. -/
def tracked : Region → List Char → Bool
  | .code, cs | .bracketed, cs | .closing, cs | .quoted, cs => commentAfter .code cs
  | .dash, cs => commentAfter .code ('-' :: cs)
  | .slash, cs => commentAfter .code ('/' :: cs)
  | .string, cs => commentAfter .text cs
  | .lineComment, _ => false
  | .comment _, cs | .opening _, cs => commentAfter .comment cs
  | .star _, cs => commentAfter .comment ('*' :: cs)

end Region

variable {nests : Bool} {r : Region} {c : Char} {cs rest : List Char}

namespace Region

theorem tracked_code_cons (c : Char) (rest : List Char) :
    tracked .code (c :: rest) = tracked (ofCode c) rest := by
  by_cases hquote : c = '\x27'
  · subst hquote
    rfl
  by_cases hdash : c = '-'
  · subst hdash
    rfl
  by_cases hslash : c = '/'
  · subst hslash
    rfl
  have hplain : commentAfter .code (c :: rest) = commentAfter .code rest :=
    commentAfter_code_cons hquote (absurd · hdash) (absurd · hslash)
  unfold ofCode
  split <;> first | contradiction | exact hplain

theorem tracked_dash_cons (c : Char) (rest : List Char) :
    tracked .dash (c :: rest) = tracked (next nests .dash c) rest := by
  by_cases hdash : c = '-'
  · subst hdash
    rfl
  · have hplain : commentAfter .code ('-' :: c :: rest) = commentAfter .code (c :: rest) :=
      commentAfter_code_cons (by decide) (fun _ => by simpa using hdash) (by simp)
    rw [next, if_neg hdash]
    exact hplain.trans (tracked_code_cons c rest)

theorem tracked_slash_cons (c : Char) (rest : List Char) :
    tracked .slash (c :: rest) = tracked (next nests .slash c) rest := by
  by_cases hstar : c = '*'
  · subst hstar
    rfl
  · have hplain : commentAfter .code ('/' :: c :: rest) = commentAfter .code (c :: rest) :=
      commentAfter_code_cons (by decide) (by simp) (fun _ => by simpa using hstar)
    rw [next, if_neg hstar]
    exact hplain.trans (tracked_code_cons c rest)

/-- Inside a delimited identifier that does not mislead, every character is skipped. -/
theorem commentAfter_of_not_misleads (hr : r = .bracketed ∨ r = .quoted)
    (h : r.misleads (c :: rest) = false) :
    commentAfter .code (c :: rest) = commentAfter .code rest := by
  refine commentAfter_code_cons ?_ ?_ ?_
  · rintro rfl
    rcases hr with rfl | rfl <;> cases h
  · rintro rfl hhead
    obtain ⟨tail, rfl⟩ := List.head?_eq_some_iff.mp hhead
    rcases hr with rfl | rfl <;> cases h
  · rintro rfl hhead
    obtain ⟨tail, rfl⟩ := List.head?_eq_some_iff.mp hhead
    rcases hr with rfl | rfl <;> cases h

/-- One character that does not mislead leads both ways of looking to the same. -/
theorem tracked_cons (nests : Bool) (h : r.misleads (c :: rest) = false) (hfeed : c ≠ '\n') :
    r.tracked (c :: rest) = (r.next nests c).tracked rest := by
  cases r with
  | code => exact tracked_code_cons c rest
  | dash => exact tracked_dash_cons c rest
  | slash => exact tracked_slash_cons c rest
  | string =>
    simp only [next, tracked, commentAfter]
    split <;> rfl
  | bracketed =>
    have hskip := commentAfter_of_not_misleads (Or.inl rfl) h
    simp only [next]
    split <;> exact hskip
  | closing =>
    by_cases hclose : c = ']'
    · subst hclose
      rfl
    · rw [next, if_neg hclose]
      exact tracked_code_cons c rest
  | quoted =>
    have hskip := commentAfter_of_not_misleads (Or.inr rfl) h
    simp only [next]
    split <;> exact hskip
  | lineComment =>
    rw [next, if_neg hfeed]
    rfl
  | comment depth =>
    by_cases hstar : c = '*'
    · subst hstar
      rfl
    · have hskip : commentAfter .comment (c :: rest) = commentAfter .comment rest :=
        commentAfter_comment_cons (absurd · hstar)
      rw [next, if_neg hstar]
      split <;> exact hskip
  | star depth =>
    by_cases hslash : c = '/'
    · subst hslash
      cases depth with
      | zero => rfl
      | succ depth => cases h
    · have hskip : commentAfter .comment ('*' :: c :: rest) = commentAfter .comment (c :: rest) :=
        commentAfter_comment_cons fun _ => by simpa using hslash
      by_cases hstar : c = '*'
      · subst hstar
        exact hskip
      · rw [next, if_neg hslash, if_neg hstar]
        exact hskip.trans (commentAfter_comment_cons (absurd · hstar))
  | opening depth =>
    have hskip : commentAfter .comment (c :: rest) = commentAfter .comment rest := by
      refine commentAfter_comment_cons ?_
      rintro rfl hhead
      obtain ⟨tail, rfl⟩ := List.head?_eq_some_iff.mp hhead
      cases h
    simp only [next]
    split
    · exact hskip
    · split <;> exact hskip

/-- At the end of a line both ways of looking find the same. -/
theorem tracked_nil : r.tracked [] = (r.next nests '\n').isComment := by
  cases r with
  | comment depth => cases nests <;> rfl
  | _ => rfl

/-- What misleads does so whatever comes behind it. -/
theorem misleads_append (h : r.misleads cs = true) (tail : List Char) :
    r.misleads (cs ++ tail) = true := by
  unfold misleads at h
  split at h <;> first | rfl | cases h

theorem tracked_eq (hfeed : '\n' ∉ cs) (h : r.clear nests (cs ++ ['\n'])) :
    r.tracked cs = (r.after nests (cs ++ ['\n'])).isComment := by
  induction cs generalizing r with
  | nil => exact tracked_nil
  | cons c rest ih =>
    obtain ⟨hc, hrest⟩ := List.ne_and_not_mem_of_not_mem_cons hfeed
    obtain ⟨hfirst, hclear⟩ := Bool.and_eq_true_iff.mp h
    have hkept : r.misleads (c :: rest) = false := Bool.eq_false_iff.mpr fun hmisleads => by
      have hmore : r.misleads (c :: (rest ++ ['\n'])) = true := misleads_append hmisleads _
      exact absurd (hfirst.symm.trans (congrArg not hmore)) (by decide)
    rw [tracked_cons nests hkept (Ne.symm hc)]
    exact ih hrest hclear

/-- No string goes on over the end of a text that is clear up to its end. -/
theorem after_ne_string (h : r.clear nests (cs ++ ['\n'])) : r.after nests cs ≠ .string := by
  induction cs generalizing r with
  | nil =>
    rintro rfl
    cases h
  | cons c rest ih => exact ih (Bool.and_eq_true_iff.mp h).2

/-- A line begins outside of everything, in an identifier or in a comment. -/
def startsLine : Region → Bool
  | .code | .bracketed | .quoted | .comment _ => true
  | _ => false

theorem tracked_of_startsLine (h : r.startsLine) (cs : List Char) :
    r.tracked cs = commentAfter (if r.isComment then .comment else .code) cs := by
  cases r <;> first | rfl | cases h

/-- The end of a line leads to where a line begins, or it is inside a string. -/
theorem startsLine_feed : (r.next nests '\n').startsLine ∨ r = .string := by
  cases r with
  | string => exact Or.inr rfl
  | comment depth => cases nests <;> exact Or.inl rfl
  | _ => exact Or.inl rfl

/-- A carriage return before the end of a line changes nothing. -/
theorem after_closeLine (r : Region) (cs : List Char) :
    r.after nests (Text.closeLine cs.reverse ++ ['\n']) = r.after nests (cs ++ ['\n']) := by
  have hreturn : ∀ r : Region, (r.next nests '\r').next nests '\n' = r.next nests '\n' := by
    intro r
    cases r <;> cases nests <;> rfl
  cases hcs : cs.reverse with
  | nil =>
    obtain rfl : cs = [] := by simpa using hcs
    rfl
  | cons c rest =>
    obtain rfl : cs = rest.reverse ++ [c] := by
      rw [← List.reverse_cons, ← hcs, List.reverse_reverse]
    by_cases hc : c = '\r'
    · subst hc
      simp [Text.closeLine, after, hreturn]
    · rw [Text.closeLine, List.reverse_cons]
      exact fun line heq => hc (List.cons.inj heq).1

end Region

/-! ### Lines that can be told one by one -/

/-- The lines with a line feed behind each. -/
def written (lines : List String) : List Char := lines.flatMap fun line => line.toList ++ ['\n']

/-- The line can be told from whether it begins inside a comment: nothing in it misleads. A line
that is a command to the script runner, and so no part of any batch, leaves nothing open. -/
def Region.tells (nests : Bool) (r : Region) (line : String) : Bool :=
  if !r.isComment && isDirective (Text.trim line) then
    let next := r.after nests (line.toList ++ ['\n'])
    !next.isComment && next != .string
  else r.clear nests (line.toList ++ ['\n'])

/-- All lines can be told, wherever the scan has come with the lines before them. -/
def Region.tellsAll (nests : Bool) : Region → List String → Bool
  | _, [] => true
  | r, line :: rest =>
    r.tells nests line && tellsAll nests (r.after nests (line.toList ++ ['\n'])) rest

theorem commentAfter_eq_false {state : LineState} (hstate : state ≠ .comment) (h : '/' ∉ cs) :
    commentAfter state cs = false := by
  fun_induction commentAfter state cs with
  | case5 c rest ih => exact ih (by split <;> simp) fun hmem => h (List.mem_cons_of_mem c hmem)
  | _ => simp_all

theorem Line.leavesOpen_eq (l : Line) :
    l.leavesOpen = if l.isDirective then false else trackComment l.inComment l.text := by
  unfold leavesOpen
  by_cases hdirective : l.isDirective
  · simp [hdirective]
  · by_cases hseparator : l.isSeparator
    · obtain ⟨number, text, inComment⟩ := l
      cases inComment with
      | true => cases hseparator
      | false =>
        have hslash : '/' ∉ text.toList :=
          slash_notMem_of_separator? (by simpa [isSeparator, separator?] using hseparator)
        have hnone : trackComment false text = false :=
          commentAfter_eq_false (by decide) hslash
        simp [hnone]
    · simp [hdirective, hseparator]

/-- One line that can be told: the batches are told what the scan finds at its end. -/
theorem Region.leavesOpen_eq {line : String} (h : r.tells nests line) (hstart : r.startsLine)
    (hfeed : '\n' ∉ line.toList) (number : Nat) :
    (r.after nests (line.toList ++ ['\n'])).startsLine ∧
      Line.leavesOpen ⟨number, line, r.isComment⟩ =
        (r.after nests (line.toList ++ ['\n'])).isComment := by
  have hend : (r.after nests (line.toList ++ ['\n'])).startsLine ∨
      r.after nests line.toList = .string := by
    rw [after_append]
    exact startsLine_feed
  rw [Line.leavesOpen_eq, Line.isDirective]
  unfold tells at h
  split at h
  · rename_i hlifted
    obtain ⟨hcomment, hstring⟩ := Bool.and_eq_true_iff.mp h
    refine ⟨hend.resolve_right fun heq => ?_, ?_⟩
    · rw [after_append, heq] at hstring
      cases hstring
    · rw [if_pos hlifted]
      simpa using hcomment.symm
  · rename_i hlifted
    refine ⟨hend.resolve_right (after_ne_string h), ?_⟩
    rw [if_neg hlifted, ← tracked_eq hfeed h, tracked_of_startsLine hstart]
    rfl

/-- As long as the lines can be told, the batches are told what the scan finds. -/
theorem inComment_labelled {texts : List String} {number i : Nat} {l : Line}
    (hfeed : ∀ text ∈ texts, '\n' ∉ text.toList) (hstart : r.startsLine)
    (hl : (labelled r.isComment number texts)[i]? = some l)
    (htells : r.tellsAll nests (texts.take i)) :
    l.inComment = (r.after nests (written (texts.take i))).isComment := by
  induction texts generalizing r number i with
  | nil => simp [labelled] at hl
  | cons text rest ih =>
    cases i with
    | zero =>
      cases hl
      rfl
    | succ i =>
      rw [List.take_succ_cons] at htells ⊢
      obtain ⟨hfirst, hothers⟩ := Bool.and_eq_true_iff.mp htells
      obtain ⟨hnext, hopen⟩ :=
        Region.leavesOpen_eq hfirst hstart (hfeed text List.mem_cons_self) number
      rw [labelled, List.getElem?_cons_succ, hopen] at hl
      rw [written, List.flatMap_cons, Region.after_append]
      exact ih (fun t ht => hfeed t (List.mem_cons_of_mem text ht)) hnext hl hothers

/-! ### The text before a line -/

/-- A text without a line feed is one line at most. -/
theorem length_linesFrom_le_one {line : List Char} (h : '\n' ∉ cs) :
    (Text.linesFrom line cs).length ≤ 1 := by
  induction cs generalizing line with
  | nil =>
    rw [Text.linesFrom]
    split <;> simp
  | cons c rest ih =>
    obtain ⟨hc, hrest⟩ := List.ne_and_not_mem_of_not_mem_cons h
    rw [Text.linesFrom, if_neg (Ne.symm hc)]
    exact ih hrest

/-- The text before a line is a text of lines, and the scan over it is that over its lines. -/
theorem exists_before (nests : Bool) {cs : List Char} {i : Nat}
    (h : i < (Text.linesFrom [] cs).length) :
    ∃ before rest, cs = before ++ rest ∧ (before = [] ∨ before.getLast? = some '\n') ∧
      Text.linesFrom [] before = (Text.linesFrom [] cs).take i ∧
      Text.linesFrom [] rest = (Text.linesFrom [] cs).drop i ∧
      ∀ r : Region, r.after nests before =
        r.after nests ((Text.linesFrom [] before).flatMap (· ++ ['\n'])) := by
  induction i generalizing cs with
  | zero => exact ⟨[], cs, rfl, Or.inl rfl, rfl, rfl, fun _ => rfl⟩
  | succ i ih =>
    have hmem : '\n' ∈ cs := by
      by_contra hnot
      have hone : (Text.linesFrom [] cs).length ≤ 1 := length_linesFrom_le_one hnot
      omega
    obtain ⟨line, more, rfl, hline⟩ := List.eq_append_cons_of_mem hmem
    have hlines : Text.linesFrom [] (line ++ '\n' :: more) =
        Text.closeLine line.reverse :: Text.linesFrom [] more := by
      rw [Text.linesFrom_append hline, List.append_nil]
    rw [hlines] at h ⊢
    obtain ⟨before, rest, rfl, hend, hbefore, hrest, hscan⟩ := ih (by simpa using h)
    have hfirst : Text.linesFrom [] (line ++ '\n' :: before) =
        Text.closeLine line.reverse :: Text.linesFrom [] before := by
      rw [Text.linesFrom_append hline, List.append_nil]
    refine ⟨line ++ '\n' :: before, rest, by simp, Or.inr ?_, ?_, hrest, fun r => ?_⟩
    · rcases hend with rfl | hend
      · exact List.getLast?_concat
      · rw [List.getLast?_append, List.getLast?_cons, hend]
        rfl
    · rw [hfirst, hbefore, List.take_succ_cons]
    · calc r.after nests (line ++ '\n' :: before)
          = (r.after nests (line ++ ['\n'])).after nests before := by
            rw [← Region.after_append, List.append_assoc, List.singleton_append]
        _ = (r.after nests (Text.closeLine line.reverse ++ ['\n'])).after nests
              ((Text.linesFrom [] before).flatMap (· ++ ['\n'])) := by
            rw [Region.after_closeLine, hscan]
        _ = r.after nests ((Text.linesFrom [] (line ++ '\n' :: before)).flatMap (· ++ ['\n'])) := by
            rw [hfirst, List.flatMap_cons, ← Region.after_append]

/-- What the scan of a whole text stands in at its end. -/
def scan (nests : Bool) (text : String) : Region := Region.after nests .code text.toList

/-- Comments are told from the lines of a script as they are from its text. The segments that give
the batches are those in which each line is said to begin inside a comment or not. Where the lines
before it can be told, that is what a scan of the text before it finds, whether comments nest or
not: separators and commands are hidden by comments, and by nothing else. -/
theorem inComment_eq_scan (nests : Bool) (script : String) :
    List.Forall₂ (fun g b => g.1.Gives g.2 b ∧ g.1.Locates (Text.lines script) b)
      (((segments script).filter Segment.isKept).zipIdx 1) (split script) ∧
    ∀ g ∈ segments script, ∀ l ∈ g.lines ++ g.closer.toList, ∃ before rest,
      script = before ++ rest ∧ (before = "" ∨ before.toList.getLast? = some '\n') ∧
      Text.lines before = (Text.lines script).take (l.number - 1) ∧
      (Text.lines rest).head? = some l.text ∧
      (Region.code.tellsAll nests (Text.lines before) →
        let hidden := (scan nests before).isComment
        l.inComment = hidden ∧
          ((Batch.separator? (Text.trim l.text)).isSome → l.isSeparator = !hidden) ∧
          (Batch.isDirective (Text.trim l.text) → l.isDirective = !hidden)) := by
  have hfeed : ∀ text ∈ Text.lines script, '\n' ∉ text.toList := fun _ =>
    Text.lineFeed_notMem_lines
  constructor
  · have hrun := splitFrom_segments hfeed List.drop_zero false (Draft.holds_empty 1) 1
    rwa [modifyHead_prepend_nil] at hrun
  · intro g hg l hl
    have hmem : l ∈ labelled false 1 (Text.lines script) := by
      rw [← flatMap_cut (labelled false 1 (Text.lines script))]
      exact List.mem_flatMap.mpr ⟨g, hg, hl⟩
    obtain ⟨i, hi⟩ := List.mem_iff_getElem?.mp hmem
    obtain ⟨hnumber, htext⟩ := getElem?_labelled hi
    have hlt : i < (Text.linesFrom [] script.toList).length := by
      simpa [Text.lines] using (List.getElem?_eq_some_iff.mp htext).1
    obtain ⟨before, rest, hscript, hend, hbefore, hrest, hscan⟩ := exists_before nests hlt
    have hlines : Text.lines (String.ofList before) = (Text.lines script).take i := by
      rw [Text.lines, String.toList_ofList, hbefore, List.map_take, Text.lines]
    have hbehind : Text.lines (String.ofList rest) = (Text.lines script).drop i := by
      rw [Text.lines, String.toList_ofList, hrest, List.map_drop, Text.lines]
    refine ⟨String.ofList before, String.ofList rest, ?_, ?_, ?_, ?_, fun htells => ?_⟩
    · rw [← String.toList_inj, String.toList_append, String.toList_ofList, String.toList_ofList,
        hscript]
    · simpa using hend
    · rw [hlines, hnumber, Nat.add_sub_cancel_left]
    · rw [hbehind, List.head?_drop, htext]
    · have hwritten : written (Text.lines (String.ofList before)) =
          (Text.linesFrom [] before).flatMap (· ++ ['\n']) := by
        simp [written, Text.lines, List.flatMap_map]
      have hinside : l.inComment = (scan nests (String.ofList before)).isComment := by
        rw [hlines] at htells
        rw [inComment_labelled (r := .code) hfeed rfl hi htells, ← hlines,
          hwritten, ← hscan, scan, String.toList_ofList]
      refine ⟨hinside, fun hseparator => ?_, fun hdirective => ?_⟩
      · rw [← hinside, Line.isSeparator, Line.separator?]
        cases l.inComment with
        | false => simpa using hseparator
        | true => rfl
      · rw [← hinside, Line.isDirective, hdirective, Bool.and_true]

/-- A comment over a separator hides it. -/
theorem inComment_eq_scan_hidden :
    ∃ g ∈ segments "/*\nGO\n*/", ∃ l ∈ g.lines ++ g.closer.toList,
      l.text = "GO" ∧ l.isSeparator = false := by
  have hsegments : segments "/*\nGO\n*/" =
      [⟨[⟨1, "/*", false⟩, ⟨2, "GO", true⟩, ⟨3, "*/", true⟩], none⟩] := by decide +kernel
  have hlines : (Text.lines "/*\nGO\n*/").take 1 = ["/*"] := by decide +kernel
  have hgo : (Batch.separator? (Text.trim "GO")).isSome := by rw [separator?_trim_go]; rfl
  have hg := hsegments ▸ List.mem_singleton_self _
  obtain ⟨before, rest, -, -, hbefore, -, htold⟩ := (inComment_eq_scan true "/*\nGO\n*/").2 _ hg
    ⟨2, "GO", true⟩ (by decide)
  have htells : Region.code.tellsAll true (Text.lines before) = true := by
    rw [hbefore.trans hlines]
    decide +kernel
  obtain ⟨hinside, hseparator, -⟩ := htold htells
  refine ⟨_, hg, ⟨2, "GO", true⟩, by decide, rfl, (hseparator hgo).trans ?_⟩
  rw [← hinside]
  rfl

end Batch

end Portability
