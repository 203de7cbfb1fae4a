import Portability.Proofs.RoundTrip.Rendering

/-! How each level of the expression grammar reads its operands. -/
namespace Portability

/-! ### Where an operand begins and ends -/

/-- The level of the operator that a word goes on with after an operand. -/
def wordBinding : String → Option Level
  | "COLLATE" => some .signed
  | "NOT" | "IN" | "BETWEEN" | "LIKE" | "ESCAPE" | "IS" => some .predicate
  | "AND" => some .conjunction
  | "OR" => some .disjunction
  | _ => none

/-- The level of the operator that a token goes on with after an operand. -/
def Token.binding : Token → Option Level
  | .mark m =>
    if m = .period then some .signed
    else if m ∈ [.star, .slash, .percent] then some .multiplicative
    else if m ∈ [.plus, .minus, .amp, .pipe, .caret] then some .additive
    else if m ∈ [.eq, .ne, .lt, .gt, .le, .ge, .bang] then some .predicate
    else none
  | .word w none => wordBinding (Text.upper w)
  | _ => none

theorem binding_keyword {w : String} {l : Level} (h : w ∈ keywords) (hl : wordBinding w = some l) :
    (Token.word w none).binding = some l := by
  rw [Token.binding, (upper_keyword w h).1, hl]

/-- An operand of the level ends at the position: no operator there binds as tightly. -/
def Source.Ends (s : Source) (m : Level) (pos : Nat) : Prop :=
  ∀ t l, s.tokenAt? pos = some t → t.binding = some l → l.rank < m.rank

/-- An operand of the level may begin at the position. -/
def Source.Opens (s : Source) (m : Level) (pos : Nat) : Prop :=
  ∃ t, s.tokenAt? pos = some t ∧ t.opens m = true

namespace Source

variable {s : Source} {pos start stop : Nat} {m l : Level} {t : Token}

theorem ends_of_binding (ht : s.tokenAt? pos = some t) (hl : t.binding = some l)
    (hlt : l.rank < m.rank) : s.Ends m pos := by
  intro u k hu hk
  obtain rfl : t = u := Option.some.inj (ht.symm.trans hu)
  obtain rfl : l = k := Option.some.inj (hl.symm.trans hk)
  exact hlt

theorem ends_of_free (ht : s.tokenAt? pos = some t) (hl : t.binding = none) : s.Ends m pos := by
  intro u k hu hk
  obtain rfl : t = u := Option.some.inj (ht.symm.trans hu)
  rw [hl] at hk
  cases hk

theorem Ends.tighter (h : s.Ends m pos) (hle : m.rank ≤ l.rank) : s.Ends l pos :=
  fun t k ht hk => Nat.lt_of_lt_of_le (h t k ht hk) hle

theorem Ends.not_isWord {word : String} (h : s.Ends m pos) (hkey : word ∈ keywords)
    (hword : wordBinding word = some l) (hle : m.rank ≤ l.rank) :
    (View.mk s pos).isWord word = false := by
  by_contra hcontra
  obtain ⟨w, htoken, hsame⟩ := exists_word_of_isWordAt (by simpa [View.isWord] using hcontra)
  have hbinding : (Token.word w none).binding = some l := by
    rw [Token.binding, Text.upper_eq_of_same hsame, (upper_keyword word hkey).1, hword]
  exact Nat.not_lt_of_le hle (h _ _ htoken hbinding)

theorem Ends.not_isMark {mark : Mark} (h : s.Ends m pos)
    (hmark : (Token.mark mark).binding = some l) (hle : m.rank ≤ l.rank) :
    (View.mk s pos).isMark mark = false := by
  by_contra hcontra
  have htoken := tokenAt?_of_isMarkAt (by simpa [View.isMark] using hcontra)
  exact Nat.not_lt_of_le hle (h _ _ htoken hmark)

theorem not_same_of_at {w word : String} (h : w.toList.head? = some '@')
    (hword : (Text.lower word).toList.head? ≠ some '@') : Text.same w word = false := by
  by_contra hcontra
  have hlower : Text.lower w = Text.lower word := by simpa [Text.same] using hcontra
  apply hword
  rw [← hlower, Text.lower, String.toLower]
  simp [h]

/-- Where an operand begins no other word stands than a variable or `NOT`. -/
theorem Opens.not_isWord {word : String} (h : s.Opens m pos) (hkey : word ∈ keywords)
    (hnot : apart "NOT" word = true ∨ Level.negation.looser m = true) :
    (View.mk s pos).isWord word = false := by
  by_contra hcontra
  obtain ⟨w, htoken, hsame⟩ := exists_word_of_isWordAt (by simpa [View.isWord] using hcontra)
  obtain ⟨t, ht, hopens⟩ := h
  obtain rfl : t = .word w none := Option.some.inj (ht.symm.trans htoken)
  simp only [Token.opens, Bool.or_eq_true, Bool.and_eq_true, beq_iff_eq, Bool.not_eq_true']
    at hopens
  rcases hopens with hvar | ⟨rfl, hlevel⟩
  · simp [not_same_of_at hvar (upper_keyword word hkey).2] at hsame
  · rcases hnot with hnot | hnot
    · simp [not_same_of_apart hnot] at hsame
    · simp [hnot] at hlevel

theorem Opens.lt (h : s.Opens m pos) : pos < s.size := by
  obtain ⟨t, ht, -⟩ := h
  exact lt_of_tokenAt? ht

theorem Opens.not_isMark {mark : Mark} (h : s.Opens m pos)
    (hmark : (Token.mark mark).opens m = false) : (View.mk s pos).isMark mark = false := by
  by_contra hcontra
  have htoken := tokenAt?_of_isMarkAt (by simpa [View.isMark] using hcontra)
  obtain ⟨t, ht, hopens⟩ := h
  obtain rfl : t = .mark mark := Option.some.inj (ht.symm.trans htoken)
  simp [hmark] at hopens

end Source

/-! ### The parser of each level -/

namespace Level

/-- The parser of a level, given parsers for the phrases inside. -/
def parser (parse : Descent) : Level → Parser Node
  | disjunction => parse .expression
  | conjunction => Parser.chainLeft (parse .negation) (Parser.logical? "AND")
  | negation => parse .negation
  | predicate => Parser.predicate parse
  | additive => Parser.additive parse
  | multiplicative => Parser.multiplicative parse
  | signed => parse .signed

/-- The phrases that the parser of a level calls for where it begins have a rank below this. -/
def allowance : Level → Nat
  | disjunction => 3
  | conjunction | negation => 2
  | predicate | additive | multiplicative | signed => 1

/-- The operator of a chain. -/
def operator? : Level → View → Option Kind
  | disjunction => Parser.logical? "OR"
  | conjunction => Parser.logical? "AND"
  | additive => Parser.binaryOp? [.plus, .minus, .amp, .pipe, .caret]
  | multiplicative => Parser.binaryOp? [.star, .slash, .percent]
  | negation | predicate | signed => fun _ => none

/-- An operand of the level stands between the positions, and its tree has the shape. -/
def Reads (m : Level) (s : Source) (start stop : Nat) (shape : Shape) : Prop :=
  ∀ parse : Descent, parse.Serves s start m.allowance →
    Gives s (m.parser parse) start stop (·.shape = shape)

/-- Operands and operators of a chain stand between the positions, and combined from the left they
have the shape. A level without chains has the one operand. -/
inductive Reaches (m : Level) (s : Source) (start : Nat) : Nat → Shape → Prop
  | first {stop : Nat} {shape : Shape} (h : m.operand.Reads s start stop shape) :
      Reaches m s start stop shape
  | next {mid stop : Nat} {left right : Shape} {kind : Kind} (hleft : Reaches m s start mid left)
      (hle : start ≤ mid) (hlt : mid < s.size) (hop : m.operator? ⟨s, mid⟩ = some kind)
      (hright : m.operand.Reads s (mid + 1) stop right) (hstop : mid < stop) :
      Reaches m s start stop (.of kind [left, right])

variable {m l : Level} {s : Source} {parse : Descent} {start pos stop rank : Nat} {shape : Shape}

theorem Reads.behind (h : m.Reads s pos stop shape) (hserves : parse.Serves s start rank)
    (hlt : start < pos) (hle : pos ≤ s.size) :
    Gives s (m.parser parse) pos stop (·.shape = shape) :=
  h parse (hserves.behind hlt hle)

/-- What is read so far of a chain goes on as rounds of the chain do. -/
theorem Reaches.continues {P : Node → Prop} (h : m.Reaches s start pos shape)
    (hserves : parse.Serves s start m.operand.allowance)
    (hrest : ∀ left k, left.shape = shape → s.size - pos < k →
      Gives s (Parser.rounds (Gives.chainRound (m.operand.parser parse) m.operator?) k left)
        pos stop P) :
    Gives s (Parser.chainLeft (m.operand.parser parse) m.operator?) start stop P := by
  induction h with
  | first h => exact .chainLeft (h parse hserves) fun left hleft => hrest left _ hleft (by omega)
  | next _ hle hlt hop hright hstop ih =>
    refine ih fun left k hleft hk => ?_
    obtain ⟨k, rfl⟩ : ∃ j, k = j + 1 := ⟨k - 1, by omega⟩
    have hright := hright.behind hserves (Nat.lt_succ_of_le hle) hlt
    refine .again (Gives.chainRound_again hlt hop hright) hlt hstop fun n hn => ?_
    exact hrest n k (hleft ▸ hn) (by omega)

theorem Reaches.gives (h : m.Reaches s start stop shape)
    (hserves : parse.Serves s start m.operand.allowance)
    (hend : m.operator? ⟨s, stop⟩ = none) :
    Gives s (Parser.chainLeft (m.operand.parser parse) m.operator?) start stop
      (·.shape = shape) := by
  refine h.continues hserves fun left k hleft hk => ?_
  obtain ⟨k, rfl⟩ : ∃ j, k = j + 1 := ⟨k - 1, by omega⟩
  exact .done ((Gives.chainRound_done hend).imp fun r ⟨n, hr, hn⟩ => ⟨n, hr, hn ▸ hleft⟩)

theorem logical?_of_ends {op : String} (h : s.Ends m pos)
    (hkey : op ∈ keywords) (hop : wordBinding op = some m) :
    Parser.logical? op ⟨s, pos⟩ = none := by
  simp [Parser.logical?, h.not_isWord hkey hop (Nat.le_refl _)]

theorem binaryOp?_of_ends {marks : List Mark} (h : s.Ends m pos)
    (hmarks : ∀ k ∈ marks, (Token.mark k).binding = some m) :
    Parser.binaryOp? marks ⟨s, pos⟩ = none := by
  unfold Parser.binaryOp?
  split
  · rename_i k htoken
    have hk : k ∉ marks := fun hk => Nat.lt_irrefl _ (h _ _ htoken (hmarks k hk))
    simp [hk]
  · rfl

theorem operator?_of_ends (h : s.Ends m pos) : m.operator? ⟨s, pos⟩ = none := by
  cases m with
  | disjunction | conjunction => exact logical?_of_ends h (by decide) rfl
  | additive | multiplicative => exact binaryOp?_of_ends h (by decide)
  | negation | predicate | signed => rfl

theorem Reaches.reads (h : m.Reaches s start stop shape) (hend : s.Ends m stop) :
    m.Reads s start stop shape := by
  have hnone := operator?_of_ends hend
  cases m with
  | disjunction =>
    intro parse hserves
    refine Phrase.reads_of_body (p := .expression) ?_ parse 3 (by decide) hserves
    exact fun parse hserves => h.gives hserves hnone
  | conjunction | additive | multiplicative => exact fun parse hserves => h.gives hserves hnone
  | negation | predicate | signed =>
    cases h with
    | first h => exact h
    | next _ _ _ hop => cases hop

theorem comparison?_of_ends (h : s.Ends .predicate pos) :
    Parser.comparison? ⟨s, pos⟩ = none := by
  have hnot (k : Mark) (l : Level) (hk : (Token.mark k).binding = some l)
      (hl : Level.predicate.rank ≤ l.rank) : s.tokenAt? pos ≠ some (.mark k) :=
    fun htoken => Nat.not_lt_of_le hl (h _ _ htoken hk)
  unfold Parser.comparison?
  split
  · exact absurd ‹_› (hnot .bang .predicate (by decide) (by decide))
  · exact absurd ‹_› (hnot .bang .predicate (by decide) (by decide))
  · exact absurd ‹_› (hnot .bang .predicate (by decide) (by decide))
  · exact absurd ‹_› (hnot .star .multiplicative (by decide) (by decide))
  · exact absurd ‹_› (hnot .eq .predicate (by decide) (by decide))
  · rename_i k htoken _ _ _ _ _
    have hmarks : ∀ k ∈ [Mark.eq, .ne, .lt, .gt, .le, .ge],
        (Token.mark k).binding = some .predicate := by decide
    refine if_neg fun hk => hnot k .predicate (hmarks k ?_) (by decide) htoken
    simpa using hk
  · rfl

theorem gives_testOf_of_ends {left : Node} (h : s.Ends .predicate pos) :
    Gives s (Parser.testOf parse left) pos pos (·.shape = left.shape) := by
  have hword (word : String) (hkey : word ∈ keywords) (hword : wordBinding word = some .predicate) :
      (View.mk s pos).isWord word = false := h.not_isWord hkey hword (Nat.le_refl _)
  refine .skip (by simp [hword "NOT" (by decide) rfl]) ?_
  refine .skip (hword "IN" (by decide) rfl) ?_
  refine .skip (hword "BETWEEN" (by decide) rfl) ?_
  refine .skip (hword "LIKE" (by decide) rfl) ?_
  refine .skip (hword "IS" (by decide) rfl) ?_
  exact .ret rfl

/-- An operand of a tighter level is one of this level where it ends. -/
theorem Reads.loosen (h : m.tighter.Reads s start stop shape) (hend : s.Ends m stop)
    (hnot : m = .negation → (View.mk s start).isWord "NOT" = false) :
    m.Reads s start stop shape := by
  cases m with
  | disjunction | conjunction | additive | multiplicative =>
    refine Reaches.reads (.first ?_) hend
    exact h
  | signed => exact h
  | negation =>
    intro parse hserves
    refine Phrase.reads_of_body (p := .negation) ?_ parse 2 (by decide) hserves
    refine fun parse hserves => .look (.no ?_ (h parse hserves))
    simp [hnot rfl]
  | predicate =>
    intro parse hserves
    refine .seq (h parse hserves) fun left hleft => .look ?_
    simp only [comparison?_of_ends hend]
    exact hleft ▸ gives_testOf_of_ends hend

theorem Reads.loosen_to (h : l.Reads s start stop shape) (hle : m.rank ≤ l.rank)
    (hend : s.Ends m stop)
    (hnot : Level.negation.rank < l.rank → (View.mk s start).isWord "NOT" = false) :
    m.Reads s start stop shape := by
  -- the levels between the two are passed one by one, from the tight one on
  induction hk : l.rank - m.rank generalizing m with
  | zero =>
    obtain rfl : m = l := eq_of_rank_eq (by omega)
    exact h
  | succ k ih =>
    have hrank := rank_tighter (m := m) (l := l) (by omega)
    have htighter : m.tighter.Reads s start stop shape :=
      ih (by omega) (hend.tighter (by omega)) (by omega)
    refine htighter.loosen hend fun hm => hnot ?_
    subst hm
    omega

/-! ### Operands with a sign, and operands in parentheses -/

theorem gives_suffixes {first : Node} (h : s.Ends .signed pos) :
    Gives s (Parser.suffixes parse first) pos pos (· = first) := by
  have hcollate := h.not_isWord (by decide : "COLLATE" ∈ keywords) rfl (Nat.le_refl _)
  have hperiod := h.not_isMark (rfl : (Token.mark .period).binding = _) (Nat.le_refl _)
  refine .loop (.done (.look (.no ?_ (.no ?_ (.ret ⟨first, rfl, rfl⟩)))))
  · simp [hcollate]
  · simp [hperiod]

/-- An operand without sign and without suffix. -/
theorem reads_signed {t : Token} (ht : s.tokenAt? start = some t)
    (hsign : ∀ op : Sign, t ≠ .mark op.mark) (hend : s.Ends .signed stop)
    (h : ∀ parse : Descent, parse.Serves s start 0 →
      Gives s (Parser.primary parse) start stop (·.shape = shape)) :
    signed.Reads s start stop shape := by
  intro parse hserves
  refine Phrase.reads_of_body (p := .signed) ?_ parse 1 (by decide) hserves
  intro parse hserves
  refine .position (.look ?_)
  have htoken : (View.mk s start).token? 0 = some t := ht
  rw [htoken]
  split
  · exact absurd (Option.some.inj ‹_›) (hsign .minus)
  · exact absurd (Option.some.inj ‹_›) (hsign .plus)
  · exact absurd (Option.some.inj ‹_›) (hsign .tilde)
  · exact .seq (h parse hserves) fun first hfirst =>
      (gives_suffixes hend).imp fun n hn => hn ▸ hfirst

theorem reads_number {digits : String} {long : Bool}
    (ht : s.tokenAt? start = some (.number digits long)) (hend : s.Ends .signed (start + 1)) :
    signed.Reads s start (start + 1) (.of (.literal .number) []) := by
  refine reads_signed ht (by simp) hend fun parse _ => .position (.look ?_)
  have htoken : (View.mk s start).token? 0 = some (.number digits long) := ht
  simp only [htoken]
  exact .advance (Source.lt_of_tokenAt? ht) .leaf

theorem reads_variable {v : Variable} (ht : s.tokenAt? start = some (.word v.name none))
    (hend : s.Ends .signed (start + 1)) :
    signed.Reads s start (start + 1) (.of (.localVariable v.name) []) := by
  refine reads_signed ht (by simp) hend fun parse _ => .position (.look ?_)
  have htoken : (View.mk s start).token? 0 = some (.word v.name none) := ht
  simp only [htoken]
  refine .position (.look ?_)
  obtain ⟨name, rest, hname, hrest⟩ := v
  simp only [hname]
  split
  · rename_i heq
    cases heq
    simp at hrest
  · exact .advance (Source.lt_of_tokenAt? ht) .leaf
  · rename_i hnone
    exact (hnone rest rfl).elim
  · contradiction

theorem reads_sign {op : Sign} (ht : s.tokenAt? start = some (.mark op.mark))
    (h : signed.Reads s (start + 1) stop shape) :
    signed.Reads s start stop (.of (.unaryOp op.mark.text) [shape]) := by
  intro parse hserves
  refine Phrase.reads_of_body (p := .signed) ?_ parse 1 (by decide) hserves
  intro parse hserves
  refine .position (.look ?_)
  have hlt := Source.lt_of_tokenAt? ht
  have hoperand := h.behind hserves (Nat.lt_succ_self _) hlt
  have hdisplay : (View.mk s start).display = op.mark.text := by
    simp [View.display, View.token?, ht, Token.display]
  have htoken : (View.mk s start).token? 0 = some (.mark op.mark) := ht
  cases op <;> simp only [htoken, Sign.mark]
  all_goals
    refine .look (.advance hlt (.seq hoperand fun n hn => ?_))
    rw [hdisplay]
    exact .node (by simp [hn])

/-- An operand in parentheses is an operand of the tightest level. -/
theorem reads_enclosed (hopen : s.tokenAt? start = some (.mark .lparen))
    (hopens : s.Opens .disjunction (start + 1)) (h : disjunction.Reads s (start + 1) stop shape)
    (hclose : s.tokenAt? stop = some (.mark .rparen)) (hend : s.Ends .signed (stop + 1)) :
    signed.Reads s start (stop + 1) shape := by
  have hsign (op : Sign) : Token.mark .lparen ≠ .mark op.mark := by cases op <;> simp [Sign.mark]
  refine reads_signed hopen hsign hend fun parse hserves => ?_
  refine .position (.look ?_)
  have htoken : (View.mk s start).token? 0 = some (.mark .lparen) := hopen
  simp only [htoken]
  have hselect : (View.mk s start).isWordAt 1 "SELECT" = false :=
    hopens.not_isWord (by decide) (.inl (by decide))
  have hwith : (View.mk s start).isWordAt 1 "WITH" = false :=
    hopens.not_isWord (by decide) (.inl (by decide))
  refine .no (by simp [View.startsQueryAt, hselect, hwith]) ?_
  have hlt := Source.lt_of_tokenAt? hopen
  refine .advance hlt (.seq (h.behind hserves (Nat.lt_succ_self _) hlt) fun n hn => ?_)
  have hcomma : (View.mk s stop).isMark .comma = false := by
    simp [View.isMark, View.isMarkAt, View.token?, hclose]
  refine .seq (.manyWhile_none hcomma) fun _ _ => ?_
  exact .eat (Source.isMark_of_token hclose) (Source.lt_of_tokenAt? hclose) (.ret hn)

theorem reads_negation (ht : s.tokenAt? start = some (.word "NOT" none))
    (h : negation.Reads s (start + 1) stop shape) :
    negation.Reads s start stop (.of .negation [shape]) := by
  intro parse hserves
  refine Phrase.reads_of_body (p := .negation) ?_ parse 2 (by decide) hserves
  intro parse hserves
  have hlt := Source.lt_of_tokenAt? ht
  refine .look (.yes (Source.isWord_of_token ht) (.position (.advance hlt ?_)))
  exact .seq (h.behind hserves (Nat.lt_succ_self _) hlt) fun n hn => .node (by simp [hn])

/-! ### Predicates -/

theorem advanceBy_eq {n : Nat} (h : pos + n ≤ s.size) :
    Parser.advanceBy n s pos = some ((), pos + n) := by
  induction n generalizing pos with
  | zero => rfl
  | succ n ih =>
    have hlt : pos < s.size := by omega
    have hrest : Parser.advanceBy n s (pos + 1) = some ((), pos + 1 + n) := ih (by omega)
    simp only [Parser.advanceBy, bind, Parser.advance, if_pos hlt, hrest]
    congr 2
    omega

/-- The operator is read whole where an operand follows it. -/
theorem comparison?_of_stands {op : Relation} (h : s.Stands start op.tokens stop)
    (hopens : s.Opens .additive stop) :
    Parser.comparison? ⟨s, start⟩ = some (op.text, stop - start) := by
  have hstar : s.tokenAt? stop ≠ some (.mark .star) := by
    obtain ⟨t, ht, hopens⟩ := hopens
    rintro hstar
    obtain rfl : t = .mark .star := Option.some.inj (ht.symm.trans hstar)
    cases hopens
  cases op
  case notEq | notLt | notGt =>
    obtain ⟨hbang, hmark, rfl⟩ := h
    simp [Parser.comparison?, View.token?, hbang, hmark, Relation.text]
    omega
  all_goals
    obtain ⟨hmark, rfl⟩ := h
    simp [Parser.comparison?, View.token?, hmark, hstar, Relation.text, Mark.text]

theorem gives_comparand {after : Nat} {right : Shape} (hserves : parse.Serves s start rank)
    (hlt : start < after) (hopens : s.Opens .additive after)
    (hright : additive.Reads s after stop right) :
    Gives s (Parser.comparand parse) after stop (·.shape = right) := by
  have hquantifier : (View.mk s after).isOneOf ["ANY", "SOME", "ALL"] = false := by
    have hkey : ∀ word ∈ ["ANY", "SOME", "ALL"], word ∈ keywords := by decide
    by_contra hcontra
    obtain ⟨word, hmem, hword⟩ := View.isWord_of_isOneOf (by simpa using hcontra)
    simp [hopens.not_isWord (hkey word hmem) (.inr rfl)] at hword
  refine .look (.no (by simp [hquantifier]) ?_)
  exact hright.behind hserves hlt (Nat.le_of_lt hopens.lt)

/-- An operand with a test behind it that begins with a word. -/
theorem reads_test {mid : Nat} {operand : Shape} {w : String}
    (hoperand : additive.Reads s start mid operand)
    (hword : s.tokenAt? mid = some (.word w none))
    (htest : ∀ (parse : Descent) (left : Node), parse.Serves s start 1 → left.shape = operand →
      Gives s (Parser.testOf parse left) mid stop (·.shape = shape)) :
    predicate.Reads s start stop shape := by
  intro parse hserves
  refine .seq (hoperand parse hserves) fun n hn => .look ?_
  have hnone : Parser.comparison? ⟨s, mid⟩ = none := by
    simp [Parser.comparison?, View.token?, hword]
  simp only [hnone]
  exact htest parse n hserves hn

/-- The `NOT` before a test is read with the test. -/
theorem eatTestNegation_of_stands {negated : Bool} {w : String}
    (hnot : s.Stands start (notTokens negated) pos) (hword : s.tokenAt? pos = some (.word w none))
    (hw : w ∈ ["IN", "BETWEEN", "LIKE"]) :
    Parser.eatTestNegation s start = some (negated, pos) := by
  cases negated with
  | false =>
    obtain rfl : start = pos := hnot
    have hapart : ∀ w ∈ ["IN", "BETWEEN", "LIKE"], apart w "NOT" = true := by decide
    simp [Parser.eatTestNegation, Parser.eatIf, bind, Parser.look, pure,
      Source.not_isWord_of_apart hword (hapart w hw)]
  | true =>
    obtain ⟨ht, rfl⟩ := hnot
    have hlt := Source.lt_of_tokenAt? ht
    have hnext : (View.mk s start).isOneOfAt 1 ["IN", "BETWEEN", "LIKE"] = true := by
      have hsame : Text.oneOf w ["IN", "BETWEEN", "LIKE"] = true :=
        List.any_eq_true.mpr ⟨w, hw, by simp [Text.same]⟩
      simpa [View.isOneOfAt, View.word?, View.token?, hword] using hsame
    simp [Parser.eatTestNegation, Parser.eatIf, bind, Parser.look, Parser.advance, pure,
      Source.isWord_of_token ht, hnext, hlt]

end Level

end Portability
