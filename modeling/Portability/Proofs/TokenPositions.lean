import Mathlib
import Portability.Proofs.Judging
import Portability.Proofs.SourceOrder

/-! Every token stands where the characters before it lead to: its line is one more than the line
feeds before it. -/
namespace Portability

theorem Position.line_next (p : Position) (c : Char) :
    (p.next c).line = p.line + [c].count '\n' := by
  unfold next
  split <;> simp_all

/-- Line feeds are counted, and nothing else begins a line. -/
theorem Position.line_advance (p : Position) (cs : List Char) :
    (p.advance cs).line = p.line + cs.count '\n' := by
  induction cs generalizing p with
  | nil => simp [advance]
  | cons c cs ih =>
    have hrest : (p.advance (c :: cs)).line = (p.next c).line + cs.count '\n' := ih (p.next c)
    have hcount : (c :: cs).count '\n' = [c].count '\n' + cs.count '\n' := by
      rw [← List.count_append, List.singleton_append]
    rw [hrest, line_next, hcount, Nat.add_assoc]

theorem Position.advance_append (p : Position) (cs ds : List Char) :
    p.advance (cs ++ ds) = (p.advance cs).advance ds := List.foldl_append

namespace Lexer

/-- The scan reads some characters at the head of the text and leaves the others. -/
def Scan.Reads (s : Scan) (cs : List Char) : Prop := s.read ≠ [] ∧ s.read ++ s.rest = cs

/-! ### Quoted texts and comments -/

/-- Characters put before what is read come before all that was there. -/
theorem append_of_map {read? : Option (List Char × List Char)} {raw after tail rest : List Char}
    (before : List Char) (h : read?.map (fun r => (before ++ r.1, r.2)) = some (raw, after))
    (hread : ∀ {raw}, read? = some (raw, after) → raw ++ tail = rest) :
    raw ++ tail = before ++ rest := by
  obtain ⟨r, hr, heq⟩ := Option.map_eq_some_iff.mp h
  cases heq
  rw [List.append_assoc, hread hr]

theorem readDelimited_append {close : Char} {cs raw after : List Char}
    (h : readDelimited close cs = some (raw, after)) : raw ++ close :: after = cs := by
  fun_induction readDelimited close cs generalizing raw with
  | case1 | case3 => cases h
  | case2 | case5 =>
    cases h
    rfl
  | case4 rest ih => exact append_of_map [close, close] h ih
  | case6 c d rest hc ih => exact append_of_map [c] h ih

theorem readBackslashed_append {cs raw after : List Char}
    (h : readBackslashed cs = some (raw, after)) : raw ++ '\x27' :: after = cs := by
  fun_induction readBackslashed cs generalizing raw with
  | case1 | case3 => cases h
  | case2 | case6 =>
    cases h
    rfl
  | case4 d rest ih => exact append_of_map ['\\', d] h ih
  | case5 rest hslash ih => exact append_of_map ['\x27', '\x27'] h ih
  | case7 c d rest hslash hquote ih => exact append_of_map [c] h ih

theorem readFenced_append {tag : List Char} {expected : Option (List Char)}
    {cs read after : List Char} (h : readFenced tag expected cs = some (read, after)) :
    read ++ '$' :: after = cs := by
  fun_induction readFenced tag expected cs generalizing read with
  | case1 => cases h
  | case2 c rest ih => exact append_of_map [c] h ih
  | case3 =>
    cases h
    rfl
  | case4 c rest hc ih => exact append_of_map [c] h ih
  | case5 c rest t ts ih => exact append_of_map [c] h ih

theorem readBlockComment_append {depth : Nat} {last : Char} {cs read after : List Char}
    (h : readBlockComment depth last cs = some (read, after)) : read ++ after = cs := by
  fun_induction readBlockComment depth last cs generalizing read with
  | case1 => cases h
  | case2 depth last c rest hopen ih => exact append_of_map [c] h ih
  | case3 =>
    cases h
    rfl
  | case4 depth last c rest hopen hclose hdepth ih => exact append_of_map [c] h ih
  | case5 depth last c rest hopen hclose ih => exact append_of_map [c] h ih

/-! ### Scans -/

section

variable {position : Position} {c : Char} {cs rest : List Char} {s : Scan}

theorem scanString_reads (h : scanString position rest = .ok s) : s.Reads ('\x27' :: rest) := by
  unfold scanString at h
  split at h
  · cases h
  · rename_i raw after hread
    cases h
    exact ⟨by simp, by simp [← readDelimited_append hread]⟩

theorem scanLettered_reads {make : String → Token}
    (h : scanLettered make c position rest = .ok s) : s.Reads (c :: '\x27' :: rest) := by
  unfold scanLettered at h
  split at h
  · cases h
  · rename_i raw after hread
    cases h
    exact ⟨by simp, by simp [← readBackslashed_append hread]⟩

theorem scanEscaped_reads (h : scanEscaped c position rest = .ok s) :
    s.Reads (c :: '\x27' :: rest) := by
  unfold scanEscaped at h
  split at h
  · cases h
  · rename_i raw after hread
    split at h
    · cases h
    · cases h
      exact ⟨by simp, by simp [← readBackslashed_append hread]⟩

theorem scanIdentifier_reads {quote : Quote} (h : scanIdentifier quote position rest = .ok s) :
    s.Reads (quote.opener :: rest) := by
  unfold scanIdentifier at h
  split at h
  · cases h
  · rename_i raw after hread
    cases h
    exact ⟨by simp, by simp [← readDelimited_append hread]⟩

theorem isPrefix_take_filter (test : Char → Bool) (cs : List Char) :
    (cs.take 1).filter test <+: cs := by
  cases cs with
  | nil => exact List.prefix_refl []
  | cons c cs => by_cases hc : test c <;> simp [hc]

theorem isPrefix_exponentOf (cs : List Char) : exponentOf cs <+: cs := by
  unfold exponentOf
  split
  · rename_i e rest
    split
    · dsimp only
      split
      · exact List.nil_prefix
      · have hsign := isPrefix_take_filter (fun c => c = '+' || c = '-') rest
        generalize (rest.take 1).filter (fun c => c = '+' || c = '-') = sign at *
        have hdigits : sign ++ (rest.drop sign.length).takeWhile Char.isDigit <+: rest := by
          conv_rhs => rw [← List.prefix_iff_eq_append.mp hsign]
          exact (List.prefix_append_right_inj _).mpr (List.takeWhile_prefix _)
        exact (List.prefix_cons_inj e).mpr hdigits
    · exact List.nil_prefix
  · exact List.nil_prefix

theorem scanNumber_reads (hc : c.isDigit ∨ c = '.') :
    (scanNumber (c :: rest)).Reads (c :: rest) := by
  have hwhole := List.takeWhile_append_dropWhile (p := Char.isDigit) (l := c :: rest)
  have hdigit : c.isDigit → (c :: rest).takeWhile Char.isDigit ≠ [] := by simp
  have hpoint : ¬ c.isDigit → (c :: rest).dropWhile Char.isDigit = '.' :: rest := by
    intro hnot
    simp [hc.resolve_left hnot]
  dsimp only [scanNumber]
  split
  · rename_i more hzero hx
    rw [hzero, hx] at hwhole
    exact ⟨by simp, by simpa [List.takeWhile_append_dropWhile] using hwhole⟩
  · generalize (c :: rest).takeWhile Char.isDigit = whole at *
    generalize (c :: rest).dropWhile Char.isDigit = after at *
    -- each piece is taken from the head of what the pieces before it left
    have hdot := List.prefix_iff_eq_append.mp (isPrefix_take_filter (· = '.') after)
    have hsome : whole ++ (after.take 1).filter (· = '.') ≠ [] := by
      by_cases hfirst : c.isDigit
      · simp [hdigit hfirst]
      · simp [hpoint hfirst]
    generalize (after.take 1).filter (· = '.') = point at *
    have hfraction := List.prefix_iff_eq_append.mp
      (List.takeWhile_prefix Char.isDigit (l := after.drop point.length))
    generalize (after.drop point.length).takeWhile Char.isDigit = fraction at *
    split
    · exact ⟨by simp_all, by simp only [List.append_assoc, hfraction, hdot, hwhole]⟩
    · have hexponent := List.prefix_iff_eq_append.mp
        (isPrefix_exponentOf ((after.drop point.length).drop fraction.length))
      generalize exponentOf ((after.drop point.length).drop fraction.length) = exponent at *
      have hsuffix := List.prefix_iff_eq_append.mp (isPrefix_take_filter (· = 'L')
        (((after.drop point.length).drop fraction.length).drop exponent.length))
      refine ⟨?_, ?_⟩
      · simp_all
      · simp only [List.append_assoc, hsuffix, hexponent, hfraction, hdot, hwhole]

theorem scanWord_reads {start : List Char} (hstart : start ≠ []) :
    (scanWord start rest).Reads (start ++ rest) := by
  refine ⟨?_, ?_⟩
  · simp [scanWord, hstart]
  · simp [scanWord, List.append_assoc, List.takeWhile_append_dropWhile]

theorem scanAt_reads : (scanAt rest).Reads ('@' :: rest) := by
  unfold scanAt
  split
  · rename_i rest
    split
    · exact ⟨by simp, rfl⟩
    · split
      · exact ⟨by simp, rfl⟩
      · exact scanWord_reads (by simp)
  · exact ⟨by simp, rfl⟩
  · exact ⟨by simp, rfl⟩
  · exact ⟨by simp, rfl⟩
  · split
    · exact ⟨by simp, rfl⟩
    · exact scanWord_reads (by simp)

theorem scanHash_reads : (scanHash rest).Reads ('#' :: rest) := by
  unfold scanHash
  split
  · exact ⟨by simp, rfl⟩
  · exact ⟨by simp, rfl⟩
  · exact ⟨by simp, rfl⟩
  · exact ⟨by simp, rfl⟩
  · split
    · exact ⟨by simp, rfl⟩
    · exact scanWord_reads (by simp)

theorem scanDollar_reads (h : scanDollar position rest = .ok s) : s.Reads ('$' :: rest) := by
  have hrest := List.prefix_iff_eq_append.mp
    (List.takeWhile_prefix (fun c => Text.isLetter c || Text.isNumeral c || c == '_') (l := rest))
  dsimp only [scanDollar] at h
  split at h
  · rename_i body hbody
    rw [hbody] at hrest
    split at h
    · cases h
    · rename_i read more hread
      cases h
      refine ⟨by simp, ?_⟩
      simpa [← readFenced_append hread] using hrest
  · cases h
    exact ⟨by simp, by simpa using hrest⟩

theorem scanLineComment_reads : (scanLineComment rest).Reads ('-' :: '-' :: rest) := by
  have htext := List.prefix_iff_eq_append.mp (List.takeWhile_prefix (· ≠ '\n') (l := rest))
  refine ⟨by simp [scanLineComment], ?_⟩
  simpa [scanLineComment] using htext

theorem scanBlockComment_reads (h : scanBlockComment position rest = .ok s) :
    s.Reads ('/' :: '*' :: rest) := by
  unfold scanBlockComment at h
  split at h
  · cases h
  · rename_i text after hread
    cases h
    exact ⟨by simp, by simp [← readBlockComment_append hread]⟩

theorem text_ne_empty (m : Mark) : m.text.toList ≠ [] := by
  cases m <;> decide

theorem scanPlain_reads (h : scanPlain position c rest = .ok s) : s.Reads (c :: rest) := by
  unfold scanPlain at h
  split at h
  · rename_i m hmark
    cases h
    have hfits : m.text.toList.isPrefixOf (c :: rest) = true := by
      simpa using List.find?_some hmark
    have hprefix := List.isPrefixOf_iff_prefix.mp hfits
    have hsplit := List.prefix_iff_eq_append.mp hprefix
    rw [String.length_toList] at hsplit
    exact ⟨text_ne_empty m, hsplit⟩
  split at h
  · rename_i hc
    cases h
    have hdigits := List.prefix_iff_eq_append.mp (List.takeWhile_prefix Text.isNumeral (l := rest))
    exact ⟨by simp, by simpa [hc] using hdigits⟩
  split at h
  · cases h
    exact scanWord_reads (by simp)
  split at h
  · rename_i hc
    rw [hc]
    exact scanDollar_reads h
  split at h
  · cases h
    exact ⟨by simp, rfl⟩
  · cases h
    exact ⟨by simp, rfl⟩

/-- Whatever the next token is, it is read from the head of the text. -/
theorem scan_reads (h : scan position c rest = .ok s) : s.Reads (c :: rest) := by
  revert h
  fun_cases scan position c rest
  case case1 =>
    rintro ⟨⟩
    exact ⟨by simp, rfl⟩
  case case2 | case3 =>
    rintro ⟨⟩
    exact ⟨by simp, by simp [*]⟩
  case case4 hc =>
    rintro ⟨⟩
    exact scanNumber_reads hc
  case case5 hc => exact hc ▸ scanString_reads
  case case6 hc => exact hc ▸ scanIdentifier_reads
  case case7 hc => exact hc ▸ scanIdentifier_reads
  case case8 hc =>
    rintro ⟨⟩
    exact hc ▸ scanAt_reads
  case case9 hc =>
    rintro ⟨⟩
    exact hc ▸ scanHash_reads
  case case10 | case11 => exact scanLettered_reads
  case case12 => exact scanEscaped_reads
  case case14 hc =>
    rintro ⟨⟩
    rw [hc]
    exact scanLineComment_reads
  case case16 hc => exact hc ▸ scanBlockComment_reads
  -- no quote, dash or star behind the character that would make it the start of more
  case case13 | case15 | case17 | case18 => exact scanPlain_reads

end

/-! ### The whole text -/

/-- The position is that of some character of a text whose first character stands at `start`. -/
def Stands (start : Position) (cs : List Char) (p : Position) : Prop :=
  ∃ before after, cs = before ++ after ∧ after ≠ [] ∧ p = start.advance before

theorem Stands.first (start : Position) (c : Char) (rest : List Char) :
    Stands start (c :: rest) start := ⟨[], c :: rest, rfl, by simp, rfl⟩

theorem Stands.after {start p : Position} {rest : List Char} (read : List Char)
    (h : Stands (start.advance read) rest p) : Stands start (read ++ rest) p := by
  obtain ⟨before, after, rfl, hafter, rfl⟩ := h
  exact ⟨read ++ before, after, by simp, hafter, (Position.advance_append _ _ _).symm⟩

/-- Every lexeme stands at a character of the text. -/
theorem lexemesFrom_stands {n : Nat} {start : Position} {cs : List Char} {xs : List Lexeme}
    (h : lexemesFrom n start cs = .ok xs) : ∀ x ∈ xs, Stands start cs x.position := by
  fun_induction lexemesFrom n start cs generalizing xs with
  | case1 | case2 =>
    cases h
    simp
  | case3 n position more ih =>
    obtain ⟨after, hafter, h⟩ := exists_of_bind_eq_ok h
    cases h
    intro x hx
    rcases List.mem_cons.mp hx with rfl | hx
    · exact .first position '!' ('=' :: more)
    rcases List.mem_cons.mp hx with rfl | hx
    · exact Stands.after ['!'] (.first _ '=' more)
    · exact Stands.after ['!', '='] (ih hafter x hx)
  | case4 n position c rest hother ih =>
    obtain ⟨s, hs, h⟩ := exists_of_bind_eq_ok h
    obtain ⟨after, hafter, h⟩ := exists_of_bind_eq_ok h
    cases h
    obtain ⟨-, hread⟩ := scan_reads hs
    intro x hx
    rcases List.mem_cons.mp hx with rfl | hx
    · exact .first position c rest
    · exact hread ▸ Stands.after s.read (ih s hafter x hx)

end Lexer

/-- The lexeme stands in the text right behind the given characters. -/
def Lexeme.StandsBehind (x : Lexeme) (text : String) (before : List Char) : Prop :=
  ∃ after, text.toList = before ++ after ∧ after ≠ [] ∧ x.position = Position.advance ⟨1, 1⟩ before

theorem Lexeme.StandsBehind.line {x : Lexeme} {text : String} {before : List Char}
    (h : x.StandsBehind text before) : x.position.line = 1 + before.count '\n' := by
  obtain ⟨after, -, -, hposition⟩ := h
  rw [hposition, Position.line_advance]

/-- There is always more to come behind a line that a token stands on. -/
theorem Lexeme.StandsBehind.count_lt {x : Lexeme} {text : String} {before : List Char}
    (h : x.StandsBehind text before) (hends : text.toList.getLast? = some '\n') :
    before.count '\n' < text.toList.count '\n' := by
  obtain ⟨after, hsplit, hafter, -⟩ := h
  rw [hsplit, List.getLast?_append_of_ne_nil before hafter] at hends
  have hfeed : 0 < after.count '\n' := List.count_pos_iff.mpr (List.mem_of_getLast? hends)
  rw [hsplit, List.count_append]
  omega

/-- The tokens of a stream, those that were joined included, stand in its text. -/
theorem exists_standsBehind {text : String} {xs : List Lexeme} {pos : Nat} {x : Lexeme}
    (h : lexemes text = .ok xs) (hx : (Source.ofLexemes xs).lexemeAt? pos = some x) :
    ∃ before, x.StandsBehind text before := by
  rw [Source.lexemeAt?_ofLexemes] at hx
  obtain ⟨⟨y, i⟩, hy, rfl⟩ := Option.map_eq_some_iff.mp hx
  have hmerged : (y, i) ∈ (mergeLexemes xs).zipIdx :=
    List.mem_of_mem_filter (List.mem_of_getElem? hy)
  have hmem : y ∈ mergeLexemes xs := List.fst_mem_of_mem_zipIdx hmerged
  have hposition : y.position ∈ xs.map (·.position) :=
    (positions_mergeLexemes xs).subset (List.mem_map_of_mem hmem)
  obtain ⟨z, hz, hsame⟩ := List.mem_map.mp hposition
  obtain ⟨before, after, hsplit, hafter, hstands⟩ := Lexer.lexemesFrom_stands h z hz
  exact ⟨before, after, hsplit, hafter, hsame.symm.trans hstands⟩

/-! ### Nodes -/

/-- The line of a text on which a node begins: that of its first token, of the last token for a node
past the end, and 1 where there are no tokens. A token is on the line after the line feeds before
it. -/
inductive Node.BeginsOn (text : String) (n : Node) : Nat → Prop
  | token {xs : List Lexeme} {x : Lexeme} {before : List Char} (hlex : lexemes text = .ok xs)
      (hx : (Source.ofLexemes xs).lexemeAt? n.start = some x)
      (hplace : x.StandsBehind text before) : BeginsOn text n (1 + before.count '\n')
  | past {xs : List Lexeme} {x : Lexeme} {before : List Char} (hlex : lexemes text = .ok xs)
      (hpast : (Source.ofLexemes xs).size ≤ n.start)
      (hx : (Source.ofLexemes xs).lexemeAt? ((Source.ofLexemes xs).size - 1) = some x)
      (hplace : x.StandsBehind text before) : BeginsOn text n (1 + before.count '\n')
  | empty {xs : List Lexeme} (hlex : lexemes text = .ok xs)
      (hnone : (Source.ofLexemes xs).size = 0) : BeginsOn text n 1
  | untokenized {e : LexError} (hlex : lexemes text = .error e) : BeginsOn text n 1

theorem Node.beginsOn_of_standsFor {text : String} {xs : List Lexeme} {n : Node} {line : Nat}
    (hlex : lexemes text = .ok xs) (h : (Source.ofLexemes xs).StandsFor n.start line) :
    n.BeginsOn text line := by
  cases h with
  | here hx =>
    obtain ⟨before, hplace⟩ := exists_standsBehind hlex hx
    rw [hplace.line, Nat.max_eq_left (by omega)]
    exact .token hlex hx hplace
  | past hpast hx =>
    obtain ⟨before, hplace⟩ := exists_standsBehind hlex hx
    rw [hplace.line, Nat.max_eq_left (by omega)]
    exact .past hlex hpast hx hplace
  | empty hnone => exact .empty hlex hnone

/-- Every node of the tree of a text is on the line on which it begins. -/
theorem Tree.beginsOn_of_mem {text : String} {t : Tree} {site : Site} (h : ofText? text = some t)
    (hsite : site ∈ t.sites) : site.node.BeginsOn text site.node.line := by
  unfold ofText? Source.ofText at h
  cases hlex : lexemes text with
  | error e =>
    rw [hlex] at h
    cases h
    have hline : site.node.line = 1 := by
      simp only [sites, unparsed, Node.sites, Node.sitesFrom, sitesOfParts, List.append_nil,
        List.mem_cons, List.not_mem_nil, or_false] at hsite
      rcases hsite with rfl | rfl <;> rfl
    rw [hline]
    exact .untokenized hlex
  | ok xs =>
    rw [hlex] at h
    have hplaced := ofSource?_placed (Source.ofLexemes xs)
    rw [show ofSource? (Source.ofLexemes xs) = some t from h] at hplaced
    cases (hplaced.1.of_mem hsite).1 with
    | intro line parts covers below =>
      rw [line]
      exact Node.beginsOn_of_standsFor hlex Source.standsFor_lineAt

/-- In a text that ends with a line feed, nodes begin on lines that the text has. -/
theorem Node.BeginsOn.bounds {text : String} {n : Node} {line : Nat} (h : n.BeginsOn text line)
    (hends : text.toList.getLast? = some '\n') : 1 ≤ line ∧ line ≤ text.toList.count '\n' := by
  have hsome : 0 < text.toList.count '\n' := List.count_pos_iff.mpr (List.mem_of_getLast? hends)
  cases h with
  | token hlex hx hplace =>
    have hlt := hplace.count_lt hends
    omega
  | past hlex hpast hx hplace =>
    have hlt := hplace.count_lt hends
    omega
  | empty => omega
  | untokenized => omega

end Portability
