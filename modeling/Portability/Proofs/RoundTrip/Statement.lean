import Portability.Proofs.RoundTrip.Expression

/-! Statements of control flow, with or without semicolons between them, and how they are read. -/
namespace Portability

/-- Statements of control flow, over expressions. -/
inductive Statement where
  | print (value : Expression)
  | assign (v : Variable) (value : Expression)
  | breakLoop
  | continueLoop
  | ifThen (condition : Expression) (yes : Statement)
  | ifElse (condition : Expression) (yes no : Statement)
  | whileLoop (condition : Expression) (body : Statement)
  | block (kind : BlockKind) (body : List Statement)

/-- The words that tell the kinds of blocks apart. -/
def BlockKind.words : BlockKind → List Token
  | plain => []
  | tryBody => [.word "TRY" none]
  | catchBody => [.word "CATCH" none]

/-- A semicolon if it is written. -/
def semicolonIf (written : Bool) : List Token := if written then [.mark .semicolon] else []

namespace Statement

mutual

/-- The tree of a statement. -/
def shape : Statement → Shape
  | print value => .of .print [value.shape]
  | assign v value => .of (.variableAssignment v.name "=") [value.shape]
  | breakLoop => .of .breakLoop []
  | continueLoop => .of .continueLoop []
  | ifThen condition yes => .of .ifElse [condition.shape, yes.shape]
  | ifElse condition yes no => .of .ifElse [condition.shape, yes.shape, no.shape]
  | whileLoop condition body => .of .whileLoop [condition.shape, body.shape]
  | block kind body => .of (.block kind) (shapes body)

/-- The trees of several statements. -/
def shapes : List Statement → List Shape
  | [] => []
  | st :: rest => st.shape :: shapes rest

end

/-- The statement ends in an `IF` without `ELSE`: an `ELSE` behind it would belong to that one. -/
def endsOpen : Statement → Bool
  | ifThen .. => true
  | ifElse _ _ no => no.endsOpen
  | whileLoop _ body => body.endsOpen
  | _ => false

mutual

/-- Wherever an `ELSE` is written, its own `IF` is the nearest one that has none. -/
def wellNested : Statement → Bool
  | ifThen _ yes => yes.wellNested
  | ifElse _ yes no => !yes.endsOpen && yes.wellNested && no.wellNested
  | whileLoop _ body => body.wellNested
  | block _ body => allWellNested body
  | _ => true

/-- All of the statements are well nested. -/
def allWellNested : List Statement → Bool
  | [] => true
  | st :: rest => st.wellNested && allWellNested rest

end

mutual

/-- The tokens write the statement. A semicolon may stand before `ELSE`. -/
inductive Renders : Statement → List Token → Prop
  | print (value : Expression) : Renders (.print value) (.word "PRINT" none :: value.bare)
  | assign (v : Variable) (value : Expression) : Renders (.assign v value)
      (.word "SET" none :: .word v.name none :: .mark .eq :: value.bare)
  | breakLoop : Renders .breakLoop [.word "BREAK" none]
  | continueLoop : Renders .continueLoop [.word "CONTINUE" none]
  | ifThen (condition : Expression) {yes : Statement} {ts : List Token} (hyes : Renders yes ts) :
      Renders (.ifThen condition yes) (.word "IF" none :: (condition.bare ++ ts))
  | ifElse (condition : Expression) {yes no : Statement} {ts us : List Token}
      (hyes : Renders yes ts) (semicolon : Bool) (hno : Renders no us) :
      Renders (.ifElse condition yes no) (.word "IF" none :: (condition.bare ++
        (ts ++ (semicolonIf semicolon ++ .word "ELSE" none :: us))))
  | whileLoop (condition : Expression) {body : Statement} {ts : List Token}
      (hbody : Renders body ts) :
      Renders (.whileLoop condition body) (.word "WHILE" none :: (condition.bare ++ ts))
  | block (kind : BlockKind) {body : List Statement} {ts : List Token}
      (hbody : RendersAll body ts) : Renders (.block kind body)
        (.word "BEGIN" none :: (kind.words ++ (ts ++ .word "END" none :: kind.words)))

/-- The tokens write the statements one after the other. A semicolon may stand behind each. -/
inductive RendersAll : List Statement → List Token → Prop
  | nil : RendersAll [] []
  | cons {st : Statement} {rest : List Statement} {ts us : List Token} (hst : Renders st ts)
      (semicolon : Bool) (hrest : RendersAll rest us) :
      RendersAll (st :: rest) (ts ++ (semicolonIf semicolon ++ us))

end

end Statement

/-! ### What follows a statement -/

/-- The words that statements of control flow begin with. -/
def leads : List String := ["PRINT", "SET", "BREAK", "CONTINUE", "IF", "WHILE", "BEGIN"]

/-- Another statement, the end of a block or nothing follows. -/
def Source.Halts (s : Source) (pos : Nat) : Prop :=
  ∀ t, s.tokenAt? pos = some t → ∃ w ∈ "END" :: leads, t = .word w none

/-- What may follow a statement. An `ELSE` may follow one that is not open. -/
inductive Source.Closes (s : Source) (pos : Nat) : Bool → Prop
  | halts {isOpen : Bool} (h : s.Halts pos) : Closes s pos isOpen
  | semicolon {isOpen : Bool} (h : s.tokenAt? pos = some (.mark .semicolon))
      (hnext : s.Halts (pos + 1)) : Closes s pos isOpen
  | otherwise (h : s.tokenAt? pos = some (.word "ELSE" none)) : Closes s pos false
  | semicolonOtherwise (h : s.tokenAt? pos = some (.mark .semicolon))
      (hnext : s.tokenAt? (pos + 1) = some (.word "ELSE" none)) : Closes s pos false

namespace Source

variable {s : Source} {pos : Nat} {isOpen : Bool}

theorem Halts.not_isWord (h : s.Halts pos) {word : String}
    (hword : ("END" :: leads).all (apart · word) = true) : (View.mk s pos).isWord word = false := by
  by_contra hcontra
  obtain ⟨w, ht, hsame⟩ := exists_word_of_isWordAt (by simpa [View.isWord] using hcontra)
  obtain ⟨w', hmem, heq⟩ := h _ ht
  cases heq
  rw [not_same_of_apart (List.all_eq_true.mp hword w hmem)] at hsame
  cases hsame

theorem Halts.ends (h : s.Halts pos) {m : Level} : s.Ends m pos := by
  have hfree : ∀ w ∈ "END" :: leads, w ∈ keywords ∧ wordBinding w = none := by decide
  intro t l ht hl
  obtain ⟨w, hmem, rfl⟩ := h t ht
  rw [Token.binding, (upper_keyword w (hfree w hmem).1).1, (hfree w hmem).2] at hl
  cases hl

theorem halts_of_token {w : String} (ht : s.tokenAt? pos = some (.word w none))
    (hw : w ∈ "END" :: leads) : s.Halts pos := by
  intro t ht'
  obtain rfl : t = .word w none := Option.some.inj (ht'.symm.trans ht)
  exact ⟨w, hw, rfl⟩

theorem halts_of_size_le (h : s.size ≤ pos) : s.Halts pos := by
  intro t ht
  rw [tokenAt?_of_size_le h] at ht
  cases ht

namespace Closes

theorem weaken (h : s.Closes pos true) : s.Closes pos isOpen := by
  cases h with
  | halts h => exact .halts h
  | semicolon h hnext => exact .semicolon h hnext

theorem ends (h : s.Closes pos isOpen) {m : Level} : s.Ends m pos := by
  cases h with
  | halts h => exact h.ends
  | semicolon h | semicolonOtherwise h => exact ends_of_free h (by decide)
  | otherwise h =>
    refine ends_of_free h ?_
    rw [Token.binding, (upper_keyword "ELSE" (by decide)).1]
    rfl

theorem not_isConversation (h : s.Closes pos isOpen) :
    (View.mk s pos).isWord "CONVERSATION" = false := by
  cases h with
  | halts h => exact h.not_isWord (by decide)
  | semicolon h | semicolonOtherwise h =>
    simp [View.isWord, View.isWordAt, View.word?, View.token?, h]
  | otherwise h => exact not_isWord_of_apart h (by decide)

/-- No `ELSE` follows an open statement. -/
theorem eatElse (h : s.Closes pos true) : Parser.eatElse s pos = some (false, pos) := by
  cases h with
  | halts h =>
    have helse : (View.mk s pos).isWord "ELSE" = false := h.not_isWord (by decide)
    have hsemicolon : (View.mk s pos).isMark .semicolon = false := by
      by_contra hcontra
      obtain ⟨w, -, heq⟩ := h _ (tokenAt?_of_isMarkAt (by simpa [View.isMark] using hcontra))
      cases heq
    simp [Parser.eatElse, Parser.eatIf, bind, Parser.look, pure, hsemicolon,
      Parser.eatWord_of_not helse]
  | semicolon h hnext =>
    have hnone : (View.mk s pos).isWord "ELSE" = false := by
      simp [View.isWord, View.isWordAt, View.word?, View.token?, h]
    have helse : (View.mk s pos).isWordAt 1 "ELSE" = false := hnext.not_isWord (by decide)
    simp [Parser.eatElse, Parser.eatIf, bind, Parser.look, pure, helse,
      Parser.eatWord_of_not hnone]

end Closes

/-- The `ELSE` of an `IF` is read with the semicolon before it. -/
theorem eatElse_of_stands {written : Bool} {mid : Nat}
    (hsemicolon : s.Stands pos (semicolonIf written) mid)
    (helse : s.tokenAt? mid = some (.word "ELSE" none)) :
    Parser.eatElse s pos = some (true, mid + 1) := by
  cases written with
  | false =>
    obtain rfl : pos = mid := hsemicolon
    have hnone : (View.mk s pos).isMark .semicolon = false := by
      simp [View.isMark, View.isMarkAt, View.token?, helse]
    simp [Parser.eatElse, Parser.eatIf, bind, Parser.look, pure, hnone, eatWord_of_token helse]
  | true =>
    obtain ⟨hmark, rfl⟩ := hsemicolon
    have hnext : (View.mk s pos).isWordAt 1 "ELSE" = true := isWord_of_token helse
    simp [Parser.eatElse, Parser.eatIf, bind, Parser.look, Parser.advance, pure,
      isMark_of_token hmark, hnext, lt_of_tokenAt? hmark, eatWord_of_token helse]

/-- Before its `ELSE` a branch is closed. -/
theorem closes_of_else {written : Bool} {mid : Nat}
    (hsemicolon : s.Stands pos (semicolonIf written) mid)
    (helse : s.tokenAt? mid = some (.word "ELSE" none)) : s.Closes pos false := by
  cases written with
  | false =>
    obtain rfl : pos = mid := hsemicolon
    exact .otherwise helse
  | true =>
    obtain ⟨hmark, rfl⟩ := hsemicolon
    exact .semicolonOtherwise hmark helse

/-- Before another statement or the end of the list a statement is closed. -/
theorem closes_of_halts {written : Bool} {mid : Nat}
    (hsemicolon : s.Stands pos (semicolonIf written) mid) (h : s.Halts mid) :
    s.Closes pos isOpen := by
  cases written with
  | false =>
    obtain rfl : pos = mid := hsemicolon
    exact .halts h
  | true =>
    obtain ⟨hmark, rfl⟩ := hsemicolon
    exact .semicolon hmark h

end Source

/-! ### One case per statement -/

/-- The statement that a word begins is one token long at least. -/
theorem reads_statement {s : Source} {start stop : Nat} {w : String} {shape : Shape}
    (ht : s.tokenAt? start = some (.word w none)) (hw : w ∈ leads) (hlt : start < stop)
    (h : ∀ parse : Descent, parse.Serves s start 1 →
      Gives s (Parser.keywordStatement parse w) start stop (·.shape = shape)) :
    Phrase.statement.Reads s start stop shape := by
  have hlead : ∀ w ∈ leads, w ∈ statementWords ∧ w ∈ keywords := by decide
  obtain ⟨hstatement, hkey⟩ := hlead w hw
  have hat : (View.mk s start).atStatementWord = true :=
    View.isOneOf_of_isWord hstatement (Source.isWord_of_token ht)
  have hkeyword : (View.mk s start).keyword? = some w := by
    simp [View.keyword?, View.word?, View.token?, ht, (upper_keyword w hkey).1]
  have hparen : (View.mk s start).isMark .lparen = false := by
    simp [View.isMark, View.isMarkAt, View.token?, ht]
  refine Phrase.reads_of_body fun parse hserves => .position ?_
  have hshape : Gives s (Parser.statementShape parse) start stop (·.shape = shape) := by
    refine .look (.no (by simp [hat]) (.no (by simp [hparen]) ?_))
    simp only [hkeyword]
    exact h parse hserves
  refine .seq hshape fun n hn => .position (.no ?_ (.ret hn))
  simpa using Nat.ne_of_gt hlt

namespace Statement

/-- Wherever its tokens stand closed, the statement is read with its own tree as the result. -/
def Sound (st : Statement) : Prop :=
  st.wellNested = true → ∀ (ts : List Token) (s : Source) (start stop : Nat), Renders st ts →
    s.Stands start ts stop → s.Closes stop st.endsOpen →
    Phrase.statement.Reads s start stop st.shape

variable {s : Source} {start stop pos rank : Nat} {ts : List Token} {st : Statement}
  {parse : Descent}

theorem Renders.lead (h : Renders st ts) : ∃ w ∈ leads, ∃ rest, ts = .word w none :: rest := by
  cases h <;> exact ⟨_, by decide, _, rfl⟩

theorem Renders.halts (h : Renders st ts) (hs : s.Stands start ts stop) : s.Halts start := by
  obtain ⟨w, hw, rest, rfl⟩ := h.lead
  exact Source.halts_of_token hs.1 (List.mem_cons_of_mem _ hw)

theorem Renders.lt (h : Renders st ts) (hs : s.Stands start ts stop) : start < s.size := by
  obtain ⟨w, hw, rest, rfl⟩ := h.lead
  exact Source.lt_of_tokenAt? hs.1

/-- An expression behind the first token of a statement. -/
theorem gives_expression (e : Expression) (hserves : parse.Serves s start rank)
    (hlt : start < pos) (hs : s.Stands pos e.bare stop) (hend : s.Ends .disjunction stop) :
    Gives s (parse .expression) pos stop (·.shape = e.shape) :=
  (e.reads hs hend).behind hserves hlt
    (Nat.le_of_lt ((Expression.opening e .disjunction).opens hs).lt)

/-- A branch behind the first token of a statement. -/
theorem gives_branch (h : st.Sound) (hnested : st.wellNested = true) (hrenders : Renders st ts)
    (hserves : parse.Serves s start rank) (hlt : start < pos) (hs : s.Stands pos ts stop)
    (hcloses : s.Closes stop st.endsOpen) :
    Gives s (Parser.branch parse) pos stop (·.map Node.shape = [st.shape]) := by
  have hsize := hrenders.lt hs
  have hsees : Parser.sees (!·.atEnd) s pos = some (true, pos) := by
    simp [Parser.sees, bind, Parser.look, pure, View.atEnd, hsize]
  exact .itemAfter hsees
    ((h hnested ts s pos stop hrenders hs hcloses).behind hserves hlt (Nat.le_of_lt hsize))

theorem sound_print (value : Expression) : (print value).Sound := by
  intro _ ts s start stop hrenders hs hcloses
  cases hrenders
  have hlt := Source.lt_of_tokenAt? hs.1
  refine reads_statement hs.1 (by decide) hs.2.le fun parse hserves => ?_
  refine .position (.advance hlt ?_)
  have hvalue := gives_expression value hserves (Nat.lt_succ_self _) hs.2 hcloses.ends
  exact .seq hvalue fun n hn => .node (by simp [hn])

theorem assignmentTarget?_of_stands {v : Variable} (ht : s.tokenAt? pos = some (.word v.name none))
    (heq : s.tokenAt? (pos + 1) = some (.mark .eq)) :
    Parser.assignmentTarget? s pos = some (some (v.name, "="), pos + 2) := by
  have hname : (View.mk s pos).variableName? = some v.name := by
    obtain ⟨name, rest, hname, hrest⟩ := v
    simp only [View.variableName?, View.word?, View.token?, Nat.add_zero, ht, hname]
    split
    · rename_i h
      cases h
      simp at hrest
    · rfl
    · rename_i hnone
      exact (hnone rest rfl).elim
  have hassign : Parser.assignment? ⟨s, pos⟩ 1 = some ("=", 1) := by
    simp [Parser.assignment?, View.token?, heq]
  have hlt := Source.lt_of_tokenAt? heq
  have hskip := Level.advanceBy_eq (n := 2) (by omega : pos + 2 ≤ s.size)
  simp only [Parser.assignmentTarget?, bind, Parser.look, hname, hassign, hskip, pure]

theorem sound_assign (v : Variable) (value : Expression) : (assign v value).Sound := by
  intro _ ts s start stop hrenders hs hcloses
  cases hrenders
  obtain ⟨hset, hvar, heq, hvalue⟩ := hs
  have hlt := Source.lt_of_tokenAt? hset
  refine reads_statement hset (by decide) (by have := hvalue.le; omega) fun parse hserves => ?_
  refine .position (.advance hlt (.scan (assignmentTarget?_of_stands hvar heq) ?_))
  have hcursor : (View.mk s (start + 1 + 2)).isWord "CURSOR" = false :=
    ((Expression.opening value .disjunction).opens hvalue).not_isWord (by decide)
      (.inl (by decide))
  have hexpr := gives_expression value hserves (by omega) hvalue hcloses.ends
  refine .seq (.look (.no (by simp [hcursor]) hexpr)) fun n hn => ?_
  exact .node (by simp [hn])

theorem sound_breakLoop : breakLoop.Sound := by
  intro _ ts s start stop hrenders hs hcloses
  cases hrenders
  obtain ⟨ht, rfl⟩ := hs
  refine reads_statement ht (by decide) (Nat.lt_succ_self _) fun parse hserves => ?_
  exact .position (.advance (Source.lt_of_tokenAt? ht) .leaf)

theorem sound_continueLoop : continueLoop.Sound := by
  intro _ ts s start stop hrenders hs hcloses
  cases hrenders
  obtain ⟨ht, rfl⟩ := hs
  refine reads_statement ht (by decide) (Nat.lt_succ_self _) fun parse hserves => ?_
  exact .position (.advance (Source.lt_of_tokenAt? ht) .leaf)

theorem Sound.ifThen (condition : Expression) (h : st.Sound) : (ifThen condition st).Sound := by
  intro hnested ts s start stop hrenders hs hcloses
  cases hrenders with
  | ifThen _ hyes =>
    simp only [Source.stands_cons, Source.stands_append] at hs
    obtain ⟨ht, mid, hcondition, hs⟩ := hs
    have hmid := hcondition.le
    have hlt : start < stop := by have := hs.le; omega
    refine reads_statement ht (by decide) hlt fun parse hserves => ?_
    refine .position (.advance (Source.lt_of_tokenAt? ht) ?_)
    refine .seq (gives_expression condition hserves (Nat.lt_succ_self _) hcondition
      (hyes.halts hs).ends) fun c hc => ?_
    have hbranch := gives_branch h hnested hyes hserves (by omega) hs hcloses.weaken
    refine .seq hbranch fun yes hyes => ?_
    refine .seq (.listAfter_none hcloses.eatElse) fun no hno => ?_
    exact .node (by simp [hc, hyes, hno])

theorem Sound.ifElse (condition : Expression) {no : Statement} (h : st.Sound) (hno : no.Sound) :
    (ifElse condition st no).Sound := by
  intro hnested ts s start stop hrenders hs hcloses
  cases hrenders with
  | ifElse _ hyes semicolon hother =>
    simp only [wellNested, Bool.and_eq_true, Bool.not_eq_true'] at hnested
    obtain ⟨⟨hclosed, hnested⟩, hnested'⟩ := hnested
    simp only [Source.stands_cons, Source.stands_append] at hs
    obtain ⟨ht, mid, hcondition, after, hs, word, hsemicolon, helse, hs'⟩ := hs
    have hmid := hcondition.le
    have hafter := hs.le
    have hword := hsemicolon.le
    have hlt : start < stop := by have := hs'.le; omega
    refine reads_statement ht (by decide) hlt fun parse hserves => ?_
    refine .position (.advance (Source.lt_of_tokenAt? ht) ?_)
    refine .seq (gives_expression condition hserves (Nat.lt_succ_self _) hcondition
      (hyes.halts hs).ends) fun c hc => ?_
    have hcloses' : s.Closes after st.endsOpen := hclosed ▸ Source.closes_of_else hsemicolon helse
    refine .seq (gives_branch h hnested hyes hserves (by omega) hs hcloses') fun yes hyes => ?_
    refine .seq (.listAfter (Source.eatElse_of_stands hsemicolon helse)
      (gives_branch hno hnested' hother hserves (by omega) hs' hcloses)) fun no hno => ?_
    exact .node (by simp [hc, hyes, hno])

theorem Sound.whileLoop (condition : Expression) (h : st.Sound) :
    (whileLoop condition st).Sound := by
  intro hnested ts s start stop hrenders hs hcloses
  cases hrenders with
  | whileLoop _ hbody =>
    simp only [Source.stands_cons, Source.stands_append] at hs
    obtain ⟨ht, mid, hcondition, hs⟩ := hs
    have hmid := hcondition.le
    have hlt : start < stop := by have := hs.le; omega
    refine reads_statement ht (by decide) hlt fun parse hserves => ?_
    refine .position (.advance (Source.lt_of_tokenAt? ht) ?_)
    refine .seq (gives_expression condition hserves (Nat.lt_succ_self _) hcondition
      (hbody.halts hs).ends) fun c hc => ?_
    refine .seq (gives_branch h hnested hbody hserves (by omega) hs hcloses) fun body hbody => ?_
    exact .node (by simp [hc, hbody])

/-! ### Lists of statements -/

/-- A round that drops a semicolon and takes a statement from a position on. -/
structure TakesStatements (s : Source) (lo : Nat)
    (round : List Node → Parser (Round (List Node) (List Node))) : Prop where
  semicolon (found : List Node) (pos : Nat) (ht : s.tokenAt? pos = some (.mark .semicolon)) :
    Gives s (round found) pos (pos + 1) fun r => ∃ next, r = .again next ∧ next = found
  statement (found : List Node) (pos stop : Nat) (w : String) (shape : Shape) (hlo : lo ≤ pos)
    (ht : s.tokenAt? pos = some (.word w none)) (hw : w ∈ leads)
    (hreads : Phrase.statement.Reads s pos stop shape) :
    Gives s (round found) pos stop fun r => ∃ next, r = .again next ∧
      next.map Node.shape = shape :: found.map Node.shape

theorem RendersAll.halts {body : List Statement} (h : RendersAll body ts)
    (hs : s.Stands start ts stop) (hstop : s.Halts stop) : s.Halts start := by
  cases h with
  | nil => exact (Source.stands_nil.mp hs) ▸ hstop
  | cons hst semicolon hrest =>
    obtain ⟨mid, hs, -⟩ := Source.stands_append.mp hs
    exact hst.halts hs

theorem RendersAll.exists_word {body : List Statement} (h : RendersAll body ts)
    (hs : s.Stands start ts stop) (hend : s.tokenAt? stop = some (.word "END" none)) :
    ∃ w ∈ "END" :: leads, s.tokenAt? start = some (.word w none) := by
  cases h with
  | nil => exact ⟨"END", by simp, Source.stands_nil.mp hs ▸ hend⟩
  | cons hst semicolon hrest =>
    obtain ⟨mid, hs, -⟩ := Source.stands_append.mp hs
    obtain ⟨w, hw, rest, rfl⟩ := hst.lead
    exact ⟨w, List.mem_cons_of_mem _ hw, hs.1⟩

/-- All statements of a list are taken; what was found so far stands behind them, last one
first. -/
theorem gives_rounds {round : List Node → Parser (Round (List Node) (List Node))} {lo k : Nat}
    {P : List Node → Prop} {body : List Statement} (found : List Node)
    (hround : TakesStatements s lo round) (hlo : lo ≤ pos) (hsound : ∀ st ∈ body, st.Sound)
    (hnested : allWellNested body = true) (hrenders : RendersAll body ts)
    (hs : s.Stands pos ts stop) (hstop : s.Halts stop) (hk : s.size - pos < k)
    (hdone : ∀ (all : List Node) (j : Nat), s.size - stop < j →
      all.map Node.shape = (shapes body).reverse ++ found.map Node.shape →
      Gives s (Parser.rounds round j all) stop stop P) :
    Gives s (Parser.rounds round k found) pos stop P := by
  induction body generalizing pos k found ts with
  | nil =>
    cases hrenders
    obtain rfl : pos = stop := hs
    exact hdone found k hk rfl
  | cons st rest ih =>
    cases hrenders with
    | cons hst semicolon hrest =>
      simp only [allWellNested, Bool.and_eq_true] at hnested
      simp only [Source.stands_append] at hs
      obtain ⟨mid, hs, after, hsemicolon, hs'⟩ := hs
      have hhalts : s.Halts after := hrest.halts hs' hstop
      have hreads := hsound st (by simp) hnested.1 _ s pos mid hst hs
        (Source.closes_of_halts hsemicolon hhalts)
      obtain ⟨w, hw, tail, rfl⟩ := hst.lead
      have hsize := Source.lt_of_tokenAt? hs.1
      have hmid : pos < mid := hs.2.le
      obtain ⟨k, rfl⟩ : ∃ j, k = j + 1 := ⟨k - 1, by omega⟩
      refine .again (hround.statement found pos mid w st.shape hlo hs.1 hw hreads) hsize hmid
        fun next hnext => ?_
      have hlater (k : Nat) (hk : s.size - after < k) :
          Gives s (Parser.rounds round k next) after stop P := by
        have hafter := hsemicolon.le
        refine ih next (by omega) (fun x hx => hsound x (by simp [hx])) hnested.2 hrest hs' hk ?_
        intro all j hj hall
        exact hdone all j hj (by simp [hall, hnext, shapes])
      cases semicolon with
      | false =>
        obtain rfl : mid = after := hsemicolon
        exact hlater k (by omega)
      | true =>
        obtain ⟨hmark, rfl⟩ := hsemicolon
        have hsize' := Source.lt_of_tokenAt? hmark
        obtain ⟨k, rfl⟩ : ∃ j, k = j + 1 := ⟨k - 1, by omega⟩
        refine .again (hround.semicolon next mid hmark) hsize' (Nat.lt_succ_self _) ?_
        rintro _ rfl
        exact hlater k (by omega)

/-- A round of the loop over the statements of a block. -/
def listRound (parse : Descent) (statements : List Node) :
    Parser (Round (List Node) (List Node)) := do
  let v ← Parser.look
  if v.isMark .semicolon then
    Parser.advance
    return .again statements
  else if v.atEnd || v.atBlockEnd then return .done statements.reverse
  else return .again ((← parse .statement) :: statements)

theorem takesStatements_listRound {lo : Nat} (hserves : parse.Serves s start rank)
    (hlt : start < lo) : TakesStatements s lo (listRound parse) where
  semicolon found pos ht :=
    .look (.yes (Source.isMark_of_token ht) (.advance (Source.lt_of_tokenAt? ht)
      (.ret ⟨found, rfl, rfl⟩)))
  statement found pos stop w shape hlo ht hw hreads := by
    have hsize := Source.lt_of_tokenAt? ht
    have hmark : (View.mk s pos).isMark .semicolon = false := by
      simp [View.isMark, View.isMarkAt, View.token?, ht]
    have hapart : ∀ w ∈ leads, apart w "END" = true := by decide
    have hword : (View.mk s pos).isWord "END" = false :=
      Source.not_isWord_of_apart ht (hapart w hw)
    refine .look (.no (by simp [hmark]) (.no ?_ ?_))
    · simp [View.atEnd, View.atBlockEnd, hword, hsize]
    · refine .seq (hreads.behind hserves (by omega) (Nat.le_of_lt hsize)) fun n hn => ?_
      exact .ret ⟨n :: found, rfl, by simp [hn]⟩

/-- A list of statements up to `END`. -/
theorem gives_statementList {body : List Statement} (hserves : parse.Serves s start rank)
    (hlt : start < pos) (hsound : ∀ st ∈ body, st.Sound) (hnested : allWellNested body = true)
    (hrenders : RendersAll body ts) (hs : s.Stands pos ts stop)
    (hend : s.tokenAt? stop = some (.word "END" none))
    (hnext : (View.mk s (stop + 1)).isWord "CONVERSATION" = false) :
    Gives s (Parser.statementList parse) pos stop (·.map Node.shape = shapes body) := by
  have hhalts : s.Halts stop := Source.halts_of_token hend (by simp)
  refine Gives.loop (gives_rounds [] (takesStatements_listRound hserves hlt) (Nat.le_refl _) hsound
    hnested hrenders hs hhalts (by omega) fun all j hj hall => ?_)
  obtain ⟨j, rfl⟩ : ∃ i, j = i + 1 := ⟨j - 1, by omega⟩
  have hmark : (View.mk s stop).isMark .semicolon = false := by
    simp [View.isMark, View.isMarkAt, View.token?, hend]
  have hnext : (View.mk s stop).isWordAt 1 "CONVERSATION" = false := hnext
  refine .done (.look (.no (by simp [hmark]) (.yes ?_ (.ret ⟨all.reverse, rfl, ?_⟩))))
  · simp [View.atBlockEnd, Source.isWord_of_token hend, hnext]
  · simp [hall]

/-! ### Blocks -/

theorem not_isOneOfAt_one {w : String} {words : List String}
    (ht : s.tokenAt? (pos + 1) = some (.word w none)) (h : words.all (apart w) = true) :
    (View.mk s pos).isOneOfAt 1 words = false := by
  simp only [View.isOneOfAt, View.word?, View.token?, ht, Text.oneOf]
  refine List.any_eq_false.mpr fun word hmem => ?_
  have hsame := not_same_of_apart (List.all_eq_true.mp h word hmem)
  unfold Text.same at hsame ⊢
  rw [Bool.not_eq_true, beq_eq_false_iff_ne]
  exact (beq_eq_false_iff_ne.mp hsame).symm

/-- The kind of a block is read where a statement or the end of the block follows. -/
theorem blockKind_of_stands {kind : BlockKind} {w : String} (hs : s.Stands start kind.words pos)
    (ht : s.tokenAt? pos = some (.word w none)) (hw : w ∈ "END" :: leads) :
    Parser.blockKind s start = some (kind, pos) := by
  cases kind with
  | plain =>
    obtain rfl : start = pos := hs
    have hapart : ∀ w ∈ "END" :: leads, apart w "TRY" = true ∧ apart w "CATCH" = true ∧
        apart w "ATOMIC" = true := by decide
    obtain ⟨htry, hcatch, hatomic⟩ := hapart w hw
    have htry := Parser.eatWord_of_not (Source.not_isWord_of_apart ht htry)
    have hcatch := Parser.eatWord_of_not (Source.not_isWord_of_apart ht hcatch)
    have hatomic := Parser.eatWord_of_not (Source.not_isWord_of_apart ht hatomic)
    simp [Parser.blockKind, bind, pure, htry, hcatch, hatomic]
  | tryBody =>
    obtain ⟨htry, rfl⟩ := hs
    simp [Parser.blockKind, bind, pure, Source.eatWord_of_token htry]
  | catchBody =>
    obtain ⟨hcatch, rfl⟩ := hs
    have hnot : (View.mk s start).isWord "TRY" = false :=
      Source.not_isWord_of_apart hcatch (by decide)
    have htry := Parser.eatWord_of_not hnot
    simp [Parser.blockKind, bind, pure, htry, Source.eatWord_of_token hcatch]

theorem blockEnd_of_stands {kind : BlockKind} (ht : s.tokenAt? start = some (.word "END" none))
    (hs : s.Stands (start + 1) kind.words stop) :
    Parser.blockEnd kind s start = some ((), stop) := by
  cases kind with
  | plain =>
    obtain rfl : start + 1 = stop := hs
    simp [Parser.blockEnd, bind, pure, Source.eatWord_of_token ht]
  | tryBody | catchBody =>
    obtain ⟨hword, rfl⟩ := hs
    simp [Parser.blockEnd, bind, pure, Source.eatWord_of_token ht, Source.eatWord_of_token hword]

theorem Sound.block (kind : BlockKind) {body : List Statement} (h : ∀ st ∈ body, st.Sound) :
    (block kind body).Sound := by
  intro hnested ts s start stop hrenders hs hcloses
  cases hrenders with
  | block _ hbody =>
    simp only [Source.stands_cons, Source.stands_append] at hs
    obtain ⟨ht, first, hkind, last, hs, hend, hkind'⟩ := hs
    have hconversation : (View.mk s (last + 1)).isWord "CONVERSATION" = false := by
      cases kind with
      | plain => exact (Source.stands_nil.mp hkind') ▸ hcloses.not_isConversation
      | tryBody | catchBody => exact Source.not_isWord_of_apart hkind'.1 (by decide)
    obtain ⟨w, hw, hword⟩ := hbody.exists_word hs hend
    obtain ⟨next, hnext, hin⟩ : ∃ next ∈ "TRY" :: "CATCH" :: "END" :: leads,
        s.tokenAt? (start + 1) = some (.word next none) := by
      cases kind with
      | plain => exact ⟨w, by simp [List.mem_cons.mp hw], Source.stands_nil.mp hkind ▸ hword⟩
      | tryBody | catchBody => exact ⟨_, by decide, hkind.1⟩
    have hle : start + 1 ≤ first := hkind.le
    refine reads_statement ht (by decide) (by have := hs.le; have := hkind'.le; omega)
      fun parse hserves => .position (.look ?_)
    have hapart : ∀ w ∈ "TRY" :: "CATCH" :: "END" :: leads,
        ["TRAN", "TRANSACTION"].all (apart w) = true ∧ apart w "DISTRIBUTED" = true ∧
        ["DIALOG", "CONVERSATION"].all (apart w) = true := by decide
    obtain ⟨htran, hdistributed, hdialog⟩ := hapart next hnext
    have hdistributed : (View.mk s start).isWordAt 1 "DISTRIBUTED" = false :=
      Source.not_isWord_of_apart hin hdistributed
    refine .no (by simp [not_isOneOfAt_one hin htran]) (.no (by simp [hdistributed]) ?_)
    refine .no (by simp [not_isOneOfAt_one hin hdialog]) ?_
    refine .advance (Source.lt_of_tokenAt? ht) (.scan (blockKind_of_stands hkind hword hw) ?_)
    refine .seq (gives_statementList hserves (by omega) h hnested hbody hs hend hconversation)
      fun statements hstatements => ?_
    exact .scan (blockEnd_of_stands hend hkind') (.node hstatements)

/-- Every statement is read: by recursion, one case per construct. -/
theorem sound : (st : Statement) → st.Sound
  | .print value => sound_print value
  | .assign v value => sound_assign v value
  | .breakLoop => sound_breakLoop
  | .continueLoop => sound_continueLoop
  | .ifThen condition yes => (sound yes).ifThen condition
  | .ifElse condition yes no => (sound yes).ifElse condition (sound no)
  | .whileLoop condition body => (sound body).whileLoop condition
  | .block kind _ => Sound.block kind fun st _ => sound st

end Statement

end Portability
