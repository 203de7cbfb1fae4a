import Mathlib
import Portability.Proofs.TokenMerge
import Portability.Proofs.TokenPositions

/-! What the tokens of a text look like: how a bare word begins and goes on, what a number is made
of, and what follows a sign that is no word yet. -/
namespace Portability

/-- The characters of a bare word: a start and any number of word characters, or nothing but
signs. -/
inductive BareWord : List Char → Prop
  | plain {c : Char} {more : List Char} (hc : Lexer.isWordStart c = true)
      (hmore : ∀ d ∈ more, Lexer.isWordPart d = true) : BareWord (c :: more)
  | localName (c : Char) {more : List Char} (hmore : ∀ d ∈ more, Lexer.isWordPart d = true) :
      BareWord ('@' :: c :: more)
  | systemName (c : Char) {more : List Char} (hmore : ∀ d ∈ more, Lexer.isWordPart d = true) :
      BareWord ('@' :: '@' :: c :: more)
  | temporaryName (c : Char) {more : List Char} (hmore : ∀ d ∈ more, Lexer.isWordPart d = true) :
      BareWord ('#' :: c :: more)
  | signs {cs : List Char} (hne : cs ≠ []) (hcs : ∀ c ∈ cs, c = '@' ∨ c = '#') : BareWord cs

/-- The characters of a number: it begins with a digit, or with a point and more. -/
structure NumberText (cs : List Char) : Prop where
  mem : ∀ c ∈ cs, c.isDigit = true ∨ c ∈ ['.', 'e', 'E', '+', '-']
  begins : ∃ c more, cs = c :: more ∧ (c.isDigit = true ∨ c = '.' ∧ more ≠ [])

/-- The token looks like one of its kind. -/
def Token.Shaped : Token → Prop
  | .word value none => BareWord value.toList
  | .number digits _ => NumberText digits.toList
  | _ => True

theorem Token.isSigil_eq_false {t : Token} {c : Char} (h : c ∈ t.display.toList)
    (hc : c ≠ '@' ∧ c ≠ '#') : t.isSigil = false := by
  unfold isSigil
  split
  · rfl
  · rw [Bool.and_eq_false_iff]
    right
    rw [String.all_bool_eq, List.all_eq_false]
    exact ⟨c, h, by simp [hc]⟩

/-- A digit or a point is no sign. -/
theorem NumberText.isSigil_eq_false {digits : String} {long : Bool} (h : NumberText digits.toList) :
    (Token.number digits long).isSigil = false := by
  obtain ⟨c, more, hcs, hc⟩ := h.begins
  have hshown : c ∈ (Token.number digits long).display.toList := by
    cases long <;> simp [Token.display, hcs]
  apply Token.isSigil_eq_false hshown
  constructor
  · rintro rfl
    revert hc
    simp
  · rintro rfl
    revert hc
    simp

theorem Token.isSigil_mark (m : Mark) :
    (Token.mark m).isSigil = (m == .atSign || m == .doubleAt || m == .hash) := by
  have hchars : (Token.mark m).isSigil =
      (!m.text.toList.isEmpty && m.text.toList.all fun c => c == '@' || c == '#') := by
    have hempty : m.text.isEmpty = m.text.toList.isEmpty := by
      rw [Bool.eq_iff_iff]
      simp
    simp [isSigil, display, String.all_bool_eq, hempty]
  rw [hchars]
  cases m <;> decide

namespace Lexer

/-- The token looks like one of its kind, and where it is nothing but signs, a space follows or the
text ends. -/
structure Scan.Shaped (s : Scan) : Prop where
  token : s.token.Shaped
  gap : s.token.isSigil = true → ∀ c ∈ s.rest.head?, c = ' '

section

variable {position : Position} {c : Char} {cs rest : List Char} {s : Scan}

theorem shaped_of_not_sigil (htoken : s.token.Shaped) (h : s.token.isSigil = false) : s.Shaped where
  token := htoken
  gap hsigil := by
    rw [h] at hsigil
    cases hsigil

/-- A token that shows a character that is no sign. -/
theorem shaped_of_mem (htoken : s.token.Shaped) (h : c ∈ s.token.display.toList)
    (hc : c ≠ '@' ∧ c ≠ '#') : s.Shaped :=
  shaped_of_not_sigil htoken (Token.isSigil_eq_false h hc)

theorem shaped_mark {m : Mark} {read : List Char}
    (h : (m == .atSign || m == .doubleAt || m == .hash) = false) :
    (Scan.mk (.mark m) read rest).Shaped :=
  shaped_of_not_sigil trivial ((Token.isSigil_mark m).trans h)

theorem shaped_scanWord {start : List Char}
    (h : ∀ more, (∀ d ∈ more, isWordPart d = true) → BareWord (start ++ more)) :
    (scanWord start rest).Shaped where
  token := by
    show BareWord (String.ofList (start ++ rest.takeWhile isWordPart)).toList
    rw [String.toList_ofList]
    exact h _ fun d hd => List.mem_takeWhile_imp hd
  gap hsigil := by cases hsigil

theorem shaped_scanAt : (scanAt rest).Shaped := by
  unfold scanAt
  split
  · split
    · exact ⟨trivial, by simp⟩
    · next c more =>
      split
      · next hc => exact ⟨trivial, by simp [hc]⟩
      · exact shaped_scanWord fun more hmore => .systemName c hmore
  · exact shaped_mark rfl
  · exact shaped_mark rfl
  · exact ⟨trivial, by simp⟩
  · next c more _ _ _ =>
    split
    · next hc => exact ⟨trivial, by simp [hc]⟩
    · exact shaped_scanWord fun more hmore => .localName c hmore

theorem shaped_scanHash : (scanHash rest).Shaped := by
  unfold scanHash
  split
  · exact shaped_mark rfl
  · exact shaped_mark rfl
  · exact shaped_mark rfl
  · exact ⟨trivial, by simp⟩
  · next c more _ _ _ =>
    split
    · next hc => exact ⟨trivial, by simp [hc]⟩
    · exact shaped_scanWord fun more hmore => .temporaryName c hmore

theorem mem_exponentOf {d : Char} (h : d ∈ exponentOf cs) :
    d.isDigit = true ∨ d ∈ ['e', 'E', '+', '-'] := by
  unfold exponentOf at h
  split at h
  · next e rest =>
    split at h
    · next he =>
      dsimp only at h
      split at h
      · cases h
      · rcases List.mem_append.mp h with h | h
        · rcases List.mem_cons.mp h with rfl | h
          · right
            rcases Bool.or_eq_true_iff.mp he with he | he <;> simp [of_decide_eq_true he]
          · have := (List.mem_filter.mp h).2
            right
            rcases Bool.or_eq_true_iff.mp this with hd | hd <;> simp [of_decide_eq_true hd]
        · exact .inl (List.mem_takeWhile_imp h)
    · cases h
  · cases h

theorem numberText_append {whole point fraction exponent : List Char}
    (hwhole : ∀ d ∈ whole, d.isDigit = true) (hpoint : ∀ d ∈ point, d = '.')
    (hlength : point.length ≤ 1) (hfraction : ∀ d ∈ fraction, d.isDigit = true)
    (hexponent : ∀ d ∈ exponent, d.isDigit = true ∨ d ∈ ['e', 'E', '+', '-'])
    (hne : whole ++ point ≠ []) (hmantissa : whole ++ point ++ fraction ≠ ['.']) :
    NumberText (whole ++ point ++ fraction ++ exponent) where
  mem d hd := by
    simp only [List.mem_append] at hd
    rcases hd with ((hd | hd) | hd) | hd
    · exact .inl (hwhole d hd)
    · exact .inr (by simp [hpoint d hd])
    · exact .inl (hfraction d hd)
    · exact (hexponent d hd).imp_right fun hd => List.mem_cons_of_mem _ hd
  begins := by
    cases whole with
    | cons d more =>
      exact ⟨d, more ++ point ++ fraction ++ exponent, rfl, .inl (hwhole d List.mem_cons_self)⟩
    | nil =>
      cases point with
      | nil => exact absurd rfl hne
      | cons d more =>
        have hd : d = '.' := hpoint d List.mem_cons_self
        have hmore : more = [] := List.length_eq_zero_iff.mp (by simpa using hlength)
        subst hd hmore
        exact ⟨'.', fraction ++ exponent, rfl, .inr ⟨rfl, by simp_all⟩⟩

theorem shaped_number {digits read : List Char} {long : Bool} (h : NumberText digits) :
    (Scan.mk (.number (String.ofList digits) long) read rest).Shaped := by
  have hdigits : NumberText (String.ofList digits).toList := by rwa [String.toList_ofList]
  exact shaped_of_not_sigil hdigits hdigits.isSigil_eq_false

theorem shaped_scanNumber (hc : c.isDigit = true ∨ c = '.') : (scanNumber (c :: rest)).Shaped := by
  have hne : (c :: rest).takeWhile Char.isDigit ++
      (((c :: rest).dropWhile Char.isDigit).take 1).filter (· = '.') ≠ [] := by
    by_cases hdigit : c.isDigit = true
    · simp [hdigit]
    · have hpoint : c = '.' := hc.resolve_left hdigit
      simp [hpoint]
  unfold scanNumber
  dsimp only
  split
  · exact shaped_of_mem (c := 'X') trivial (by simp [Token.display]) (by decide)
  · split
    · exact shaped_mark rfl
    · next hmantissa =>
      apply shaped_number
      refine numberText_append ?_ ?_ ?_ ?_ ?_ hne hmantissa
      · exact fun d hd => List.mem_takeWhile_imp hd
      · exact fun d hd => of_decide_eq_true (List.mem_filter.mp hd).2
      · exact (List.length_filter_le _ _).trans (List.length_take_le 1 _)
      · exact fun d hd => List.mem_takeWhile_imp hd
      · exact fun d hd => mem_exponentOf hd

theorem shaped_scanDollar (h : scanDollar position rest = .ok s) : s.Shaped := by
  unfold scanDollar at h
  dsimp only at h
  split at h
  · split at h
    · cases h
    · cases h
      exact shaped_of_mem (c := '$') trivial (by simp [Token.display]) (by decide)
  · cases h
    exact shaped_of_mem (c := '$') trivial (by simp [Token.display]) (by decide)

theorem shaped_scanPlain (hc : c ≠ '@' ∧ c ≠ '#') (h : scanPlain position c rest = .ok s) :
    s.Shaped := by
  unfold scanPlain at h
  split at h
  · next m hmark =>
    have hplain : ∀ m ∈ plainMarks, (m == .atSign || m == .doubleAt || m == .hash) = false := by
      decide
    cases h
    exact shaped_mark (hplain m (List.mem_of_find?_eq_some hmark))
  split at h
  · cases h
    exact shaped_of_mem (c := '?') trivial (by simp [Token.display]) (by decide)
  split at h
  · next hstart =>
    cases h
    exact shaped_scanWord fun more hmore => .plain hstart hmore
  split at h
  · exact shaped_scanDollar h
  split at h
  · cases h
    exact shaped_of_mem (c := ' ') trivial (by simp [Token.display]) (by decide)
  · cases h
    exact shaped_of_mem trivial (by simp [Token.display]) hc

/-- Whatever the next token is, it looks like one of its kind. -/
theorem shaped_scan (h : scan position c rest = .ok s) : s.Shaped := by
  revert h
  fun_cases scan position c rest
  case case1 hblank =>
    rintro ⟨⟩
    refine shaped_of_mem (c := c) trivial (by simp [Token.display]) ?_
    rcases hblank with rfl | rfl | rfl <;> decide
  case case2 | case3 =>
    rintro ⟨⟩
    exact shaped_of_mem (c := '\n') trivial (by simp [Token.display]) (by decide)
  case case4 hc =>
    rintro ⟨⟩
    exact shaped_scanNumber hc
  case case5 =>
    unfold scanString
    split
    · rintro ⟨⟩
    · rintro ⟨⟩
      exact shaped_of_mem (c := '\x27') trivial (by simp [Token.display]) (by decide)
  case case6 | case7 =>
    unfold scanIdentifier
    split
    · rintro ⟨⟩
    · rintro ⟨⟩
      exact shaped_of_not_sigil trivial rfl
  case case8 =>
    rintro ⟨⟩
    exact shaped_scanAt
  case case9 =>
    rintro ⟨⟩
    exact shaped_scanHash
  case case10 | case11 =>
    unfold scanLettered
    split
    · rintro ⟨⟩
    · rintro ⟨⟩
      exact shaped_of_mem (c := '\x27') trivial (by simp [Token.display]) (by decide)
  case case12 =>
    unfold scanEscaped
    split
    · rintro ⟨⟩
    · split
      · rintro ⟨⟩
      · rintro ⟨⟩
        exact shaped_of_mem (c := '\x27') trivial (by simp [Token.display]) (by decide)
  case case14 =>
    rintro ⟨⟩
    exact shaped_of_mem (c := '-') trivial (by simp [scanLineComment, Token.display]) (by decide)
  case case16 =>
    unfold scanBlockComment
    split
    · rintro ⟨⟩
    · rintro ⟨⟩
      exact shaped_of_mem (c := '*') trivial (by simp [Token.display]) (by decide)
  case case13 | case15 | case17 | case18 => exact shaped_scanPlain ⟨‹_›, ‹_›⟩

end

/-- Lexemes of which each looks like one of its kind; a space follows each that is nothing but
signs. -/
structure Shaped (xs : List Lexeme) : Prop where
  token : ∀ x ∈ xs, x.token.Shaped
  gap : xs.IsChain fun x y => x.token.isSigil = true → y.token = .space " "

theorem Shaped.cons {x : Lexeme} {xs : List Lexeme} (hx : x.token.Shaped)
    (hgap : x.token.isSigil = true → ∀ y ∈ xs.head?, y.token = .space " ") (h : Shaped xs) :
    Shaped (x :: xs) where
  token := List.forall_mem_cons.mpr ⟨hx, h.token⟩
  gap := List.isChain_cons.mpr ⟨fun y hy hsigil => hgap hsigil y hy, h.gap⟩

/-- A space is a lexeme of its own. -/
theorem token_of_lexemesFrom_space {n : Nat} {start : Position} {rest : List Char}
    {xs : List Lexeme} (h : lexemesFrom n start (' ' :: rest) = .ok xs) :
    ∀ x ∈ xs.head?, x.token = .space " " := by
  cases n with
  | zero =>
    cases h
    simp
  | succ n =>
    obtain ⟨s, hs, h⟩ := exists_of_bind_eq_ok h
    obtain ⟨after, -, h⟩ := exists_of_bind_eq_ok h
    have hspace : s.token = .space " " := by
      unfold scan at hs
      rw [if_pos (Or.inl rfl)] at hs
      cases hs
      rfl
    cases h
    simp [hspace]

theorem shaped_lexemesFrom {n : Nat} {start : Position} {cs : List Char} {xs : List Lexeme}
    (h : lexemesFrom n start cs = .ok xs) : Shaped xs := by
  fun_induction lexemesFrom n start cs generalizing xs with
  | case1 | case2 =>
    cases h
    exact ⟨by simp, .nil⟩
  | case3 n position more ih =>
    obtain ⟨after, hafter, h⟩ := exists_of_bind_eq_ok h
    cases h
    have hmark : ∀ m : Mark, m = .bang ∨ m = .eq → (Token.mark m).isSigil = false := by
      rintro m (rfl | rfl) <;> exact Token.isSigil_mark _
    refine .cons trivial ?_ (.cons trivial ?_ (ih hafter))
    · simp [hmark]
    · simp [hmark]
  | case4 n position c rest hother ih =>
    obtain ⟨s, hs, h⟩ := exists_of_bind_eq_ok h
    obtain ⟨after, hafter, h⟩ := exists_of_bind_eq_ok h
    cases h
    have hscan := shaped_scan hs
    refine .cons hscan.token ?_ (ih s hafter)
    intro hsigil
    have hspace := hscan.gap hsigil
    cases hrest : s.rest with
    | nil =>
      rw [hrest] at hafter
      cases n <;> cases hafter <;> simp
    | cons d more =>
      rw [hrest] at hafter hspace
      obtain rfl : d = ' ' := hspace d rfl
      exact token_of_lexemesFrom_space hafter

end Lexer

/-! ### Joined lexemes -/

theorem Token.isSigil_space : (Token.space " ").isSigil = false :=
  isSigil_eq_false (c := ' ') (by simp [display]) (by decide)

/-- What is nothing but signs is a word of signs. -/
theorem Token.bareWord_display {t : Token} (h : t.isSigil = true) : BareWord t.display.toList := by
  unfold isSigil at h
  split at h
  · cases h
  · simp only [Bool.and_eq_true, String.all_bool_eq, List.all_eq_true] at h
    refine .signs ?_ ?_
    · intro hnil
      simp [String.toList_eq_nil_iff.mp hnil] at h
    · intro c hc
      simpa using h.2 c hc

/-- A space joins nothing. -/
theorem Lexeme.join_space {x : Lexeme} (h : x.token = .space " ") (rest : List Lexeme) :
    x.join rest = x :: rest := by
  obtain ⟨token, position⟩ := x
  obtain rfl : token = .space " " := h
  simp [join, Token.isSigil_space]

/-- A sign joins nothing where a space follows it. -/
theorem Lexeme.shaped_join {x : Lexeme} {rest : List Lexeme} (hx : x.token.Shaped)
    (hrest : ∀ y ∈ rest, y.token.Shaped)
    (hgap : x.token.isSigil = true → ∀ y ∈ rest.head?, y.token = .space " ") :
    ∀ y ∈ x.join rest, y.token.Shaped := by
  have hjoin := joins_join x rest
  generalize x.join rest = joined at hjoin ⊢
  cases hjoin with
  | name hsign =>
    -- the space after a sign is no bare word
    have hspace := hgap hsign _ rfl
    cases hspace
  | sign hsign => exact List.forall_mem_cons.mpr ⟨Token.bareWord_display hsign, hrest⟩
  | hex => exact List.forall_mem_cons.mpr ⟨trivial, (List.forall_mem_cons.mp hrest).2⟩
  | kept => exact List.forall_mem_cons.mpr ⟨hx, hrest⟩

/-- Bare words and numbers look the same where lexemes have been joined. -/
theorem shaped_mergeLexemes {xs : List Lexeme} (h : Lexer.Shaped xs) :
    ∀ x ∈ mergeLexemes xs, x.token.Shaped := by
  induction xs with
  | nil => simp [mergeLexemes]
  | cons x rest ih =>
    have hrest : Lexer.Shaped rest :=
      ⟨fun y hy => h.token y (List.mem_cons_of_mem x hy), h.gap.tail⟩
    refine Lexeme.shaped_join (h.token x List.mem_cons_self) (ih hrest) ?_
    intro hsigil y hy
    cases rest with
    | nil => simp at hy
    | cons z more =>
      have hspace : z.token = .space " " := (List.isChain_cons_cons.mp h.gap).1 hsigil
      change y ∈ (z.join (mergeLexemes more)).head? at hy
      rw [Lexeme.join_space hspace, List.head?_cons] at hy
      rw [← Option.some.inj hy, hspace]

namespace Source

/-- Every token of a text looks like one of its kind. -/
theorem shaped_of_ofText {text : String} {s : Source} (h : ofText text = .ok s) {pos : Nat}
    {t : Token} (ht : s.tokenAt? pos = some t) : t.Shaped := by
  cases hxs : Portability.lexemes text with
  | error e =>
    rw [ofText, hxs] at h
    cases h
  | ok xs =>
    rw [ofText, hxs] at h
    cases h
    obtain ⟨x, hx, rfl⟩ := Option.map_eq_some_iff.mp ht
    obtain ⟨i, -, hat⟩ := Option.bind_eq_some_iff.mp hx
    refine shaped_mergeLexemes (Lexer.shaped_lexemesFrom hxs) x ?_
    exact List.mem_of_getElem? (i := i) (by simpa [ofLexemes] using hat)

end Source

end Portability
