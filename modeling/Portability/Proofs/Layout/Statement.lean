import Portability.Proofs.Layout.Definition
import Portability.Proofs.Text

/-! Every phrase is laid out, and the statements of a batch leave out no token but semicolons. The
phrases inside a phrase stand further on or have a lower rank, so that their nesting is bounded. -/
namespace Portability

/-- A part put in front of a node that nothing is asked of. -/
theorem Node.Placed.withFirst {s : Source} {n first : Node} (hn : n.Placed s) (hfree : n.kind.Free)
    (hfirst : first.Placed s) (hlt : first.start < n.start) (hle : first.stop ≤ n.start) :
    (Parser.withFirst n first).Placed s := by
  unfold Parser.withFirst
  rw [if_pos hlt]
  cases hn with
  | intro line parts covers below =>
    have hfirst' := hfirst
    cases hfirst' with
    | intro line' parts' covers' below' =>
      have hone : Laid first.start [first] n.start := .one (Nat.le_refl _) parts'.le hle
      refine .intro line' (hone.append parts) (hfree _ _ _ _) fun c hc => ?_
      rcases List.mem_cons.mp hc with rfl | hc
      · exact hfirst
      · exact below c hc

theorem View.isWord_of_keyword? {v : View} {word : String} (h : v.keyword? = some word) :
    v.isWord word = true := by
  obtain ⟨w, hw, hupper⟩ := Option.map_eq_some_iff.mp h
  have hsame : Text.same w word = true := Text.same_of_upper hupper
  simpa [View.isWord, View.isWordAt, hw] using hsame

namespace Parser

variable {s : Source} {parse : Descent} {pos : Nat}

/-- The statement behind common table expressions spans its own tokens. -/
theorem spans_afterWith (h : AllFrom s parse (pos + 1)) : SpansFree s pos (afterWith parse) := by
  refine .look ?_
  generalize hword : (View.mk s pos).keyword? = word?
  have hpos : ∀ word, word? = some word → pos < s.size :=
    fun word heq => View.lt_of_isWord (View.isWord_of_keyword? (hword.trans heq))
  split
  · exact spans_insertStatement h (hpos _ rfl)
  · exact spans_updateStatement h (hpos _ rfl)
  · exact spans_deleteStatement h (hpos _ rfl)
  · exact spans_mergeStatement h (hpos _ rfl)
  · refine .position (.step (lays_queryExpression h) fun body q hq _ => ?_)
    refine .step (lays_queryTail (h.mono (by omega))) fun tail q' hq' _ => ?_
    exact .free (by simp) fun _ _ _ _ => trivial

/-- A statement with common table expressions begins where they do. -/
theorem spans_withStatement (h : AllFrom s parse (pos + 1)) :
    Spans s pos (withStatement parse) := by
  refine .position (.step (lays_withClause? h) fun ctes? q hq hctes => ?_)
  split
  · rename_i ctes
    obtain ⟨hexact, hlt⟩ := hctes ctes rfl
    refine .step (spans_afterWith (h.mono (by omega))) fun n q' hq' hn => .given fun hl => ?_
    obtain ⟨hn, hfree⟩ := hn
    have hbefore : ctes.start < n.start := by
      rw [hexact.1, hn.1]
      exact hlt
    have hplaced : (withFirst n ctes).Placed s :=
      (hl.placed n (by simp)).withFirst hfree (hl.placed ctes (by simp)) hbefore
        (by rw [hexact.2, hn.1])
    have hspan : (withFirst n ctes).Exact pos q' := by
      unfold withFirst
      rw [if_pos hbefore]
      exact ⟨hexact.1, hn.2⟩
    have hbegin := Nat.le_of_eq hspan.1.symm
    exact .amend (.one hplaced hbegin hplaced.le (Nat.le_of_eq hspan.2) hl.bound) hspan
  · exact .rewind rfl hq (Nat.le_refl pos) spans_otherStatement

theorem spans_wordStatement {kind : Kind} (hfree : kind.Free) :
    Spans s pos (wordStatement kind) := by
  refine .position (.scan fun _ q hq => ?_)
  exact .leaf (hfree _ _ _ _)

theorem spans_namedStatement {make : String → Kind} (hfree : ∀ name, (make name).Free) :
    Spans s pos (namedStatement make) := by
  refine .position (.scan fun _ q hq => .scan fun name q₁ h₁ => ?_)
  exact .leaf (hfree name _ _ _ _)

theorem spans_labelStatement : Spans s pos labelStatement := by
  refine .position (.scan fun name q hq => .scan fun _ q₁ h₁ => ?_)
  exact .leaf trivial

theorem spans_keywordStatement {word : String} (h : AllFrom s parse (pos + 1))
    (hquery : ParsesFrom s parse .query pos) (hword : (View.mk s pos).keyword? = some word) :
    Spans s pos (keywordStatement parse word) := by
  have hseen := View.isWord_of_keyword? hword
  have hpos : pos < s.size := View.lt_of_isWord hseen
  have hbody : ∀ q, pos ≤ q → LaysAll s q (tableElements parse) :=
    fun q hq => lays_tableElements (h.mono (by omega))
  clear hword
  unfold keywordStatement
  split
  · exact spans_queryStatement hquery
  · exact spans_withStatement h
  · exact (spans_insertStatement h hpos).imp fun _ _ hn => hn.1
  · exact (spans_updateStatement h hpos).imp fun _ _ hn => hn.1
  · exact (spans_deleteStatement h hpos).imp fun _ _ hn => hn.1
  · exact (spans_mergeStatement h hpos).imp fun _ _ hn => hn.1
  · exact .look (.ite (fun _ => spans_truncateStatement) fun _ => spans_otherStatement)
  · exact spans_definitionStatement h hpos
  · exact spans_definitionStatement h hpos
  · exact spans_dropStatement
  · exact spans_declareStatement h hpos hbody
  · exact spans_setStatement h hpos
  · exact spans_ifStatement h hpos
  · exact spans_whileStatement h hpos
  · exact spans_beginStatement h hseen
  · exact spans_wordStatement fun _ _ _ _ => trivial
  · exact spans_wordStatement fun _ _ _ _ => trivial
  · exact spans_namedStatement fun _ _ _ _ _ => trivial
  · exact spans_returnStatement h hpos
  · exact spans_waitForStatement h
  · exact spans_transactionEnd
  · exact spans_transactionEnd
  · exact spans_transactionEnd
  · exact spans_executeStatement h hpos
  · exact spans_executeStatement h hpos
  · exact spans_printStatement h hpos
  · exact spans_raiserrorStatement h
  · exact spans_throwStatement h hpos
  · exact spans_cursorStatement h _
  · exact spans_cursorStatement h _
  · exact spans_cursorStatement h _
  · exact spans_cursorStatement h _
  · exact spans_namedStatement fun _ _ _ _ _ => trivial
  · exact spans_permissionStatement
  · exact spans_permissionStatement
  · exact spans_permissionStatement
  · exact spans_otherStatement

/-- Whatever it begins with, a statement spans the tokens that it reads. -/
theorem spans_statementShape (h : AllFrom s parse (pos + 1))
    (hquery : ParsesFrom s parse .query pos) : Spans s pos (statementShape parse) := by
  refine .look (.ite (fun _ => spans_labelStatement) fun _ => .ite (fun _ => ?_) fun _ => ?_)
  · exact spans_queryStatement hquery
  · generalize hword : (View.mk s pos).keyword? = word?
    cases word? with
    | some word => exact spans_keywordStatement h hquery hword
    | none => exact spans_otherStatement

/-- A statement that reads nothing is dropped for one that reads a token. -/
theorem spans_statementBody (h : AllFrom s parse (pos + 1))
    (hquery : ParsesFrom s parse .query pos) :
    Lays s pos pos [] (statementBody parse) (fun n => [n]) fun n q =>
      n.Exact pos q ∧ (pos < s.size → pos < q) := by
  refine .position (.step (spans_statementShape h hquery) fun found q hq hfound => .position ?_)
  refine .ite (fun hstay => ?_) fun hmoved => .ret (by simp) ⟨hfound, fun _ => ?_⟩
  · have hstay : q = pos := by simpa using hstay
    refine .run (Lifted.moves moves_advance) fun _ q₁ _ h₁ => .scan fun text q₂ h₂ => ?_
    refine .place (by simp) trivial fun n hn _ => ⟨hn, fun hlt => ?_⟩
    rw [if_pos (by omega)] at h₁
    omega
  · have hne : q ≠ pos := by simpa using hmoved
    omega

/-! ### The knot -/

theorem lays_phraseBody {p : Phrase} (h : AllFrom s parse (pos + 1))
    (hlower : ∀ p' : Phrase, p'.rank < p.rank → ParsesFrom s parse p' pos) :
    Lays s pos pos [] (phraseBody parse p) (fun n => [n]) fun n q => p.Ends s pos n q := by
  cases p with
  | expression => exact lays_expressionBody (hlower .negation (by decide))
  | negation => exact lays_negationBody (hlower .signed (by decide)) h
  | signed => exact lays_signedBody h
  | query => exact spans_queryBody h
  | tableSource => exact lays_tableSourceBody h
  | statement => exact spans_statementBody h (hlower .query (by decide))

/-- Three phrases at most begin at one token, so this depth is never used up. -/
theorem lays_phrase {depth : Nat} {p : Phrase} (hdepth : 3 * (s.size - pos) + p.rank < depth) :
    Lays s pos pos [] (phrase depth p) (fun n => [n]) fun n q => p.Ends s pos n q := by
  induction depth generalizing p pos with
  | zero => omega
  | succ depth ih =>
    have hinside : ∀ (p' : Phrase) q, pos < q ∨ p'.rank < p.rank → pos ≤ q →
        Lays s q q [] (inside p (s.size - pos) (phrase depth) p') (fun n => [n])
          fun n q' => p'.Ends s q n q' := by
      intro p' q hfurther hq
      refine .given fun hl => .remaining ?_
      have hb := hl.bound
      have hrank : p'.rank ≤ 2 := by cases p' <;> decide
      have hle : 3 * (s.size - q) + p'.rank < depth := by omega
      refine .ite (fun _ => ih hle) fun hstuck => absurd ?_ hstuck
      simp only [Bool.or_eq_true, Bool.and_eq_true, decide_eq_true_eq, beq_iff_eq]
      omega
    refine .remaining (lays_phraseBody (fun p' q hq => ?_) fun p' hrank q hq => ?_)
    · exact hinside p' q (Or.inl (by omega)) (by omega)
    · exact hinside p' q (Or.inr hrank) hq

/-! ### Batches -/

/-- The statements and semicolons of a batch cover its tokens up to the end. -/
theorem lays_statements {depth : Nat} (hdepth : 3 * s.size + 1 < depth) :
    Lays s 0 0 [] (statements depth) (fun ns => ns) fun ns q =>
      Tiled s 0 ns q ∧ s.size ≤ q := by
  refine .loopWith (fun found => found.reverse) (fun found q => Tiled s 0 found.reverse q)
    (by simp) .nil fun found q hq htiled => .look (.ite (fun hend => ?_) fun hgo => ?_)
  · refine .ret (by simp) ⟨by simpa using htiled, ?_⟩
    simpa [View.atEnd] using hend
  have hlt : q < s.size := View.lt_of_not_atEnd (by simpa using hgo)
  refine .ite (fun hmark => .advance hlt (.ret (by simp) ?_)) fun _ => ?_
  · exact ⟨fun _ => by omega, htiled.semicolon hmark⟩
  · have hrank : 3 * (s.size - q) + Phrase.statement.rank < depth := by
      show 3 * (s.size - q) + 1 < depth
      omega
    refine .step (lays_phrase hrank) fun n q' hq' hn => .ret (by simp) ?_
    have hread : q < q' := hn.2 hlt
    refine ⟨fun _ => hread, ?_⟩
    simpa using htiled.statement hq hn.1.1 hn.1.2 hread

/-- The root of a batch spans all of its tokens. -/
theorem lays_batch : Lays s 0 0 [] batch (fun n => [n]) fun n q =>
    n.Exact 0 s.size ∧ n.kind = .batch ∧ q = s.size := by
  refine .look (.step (lays_statements ?_) fun found q hq hfound => .given fun hl => ?_)
  · show 3 * s.size + 1 < phrasesPerToken * (s.size + 1)
    unfold phrasesPerToken
    omega
  obtain rfl : q = s.size := Nat.le_antisymm hl.bound hfound.2
  refine .seq (Q := fun n q => n.Exact 0 s.size ∧ n.kind = .batch ∧ q = s.size)
    (.place (by simp) hfound.1 fun n hn hkind => ⟨hn, hkind, rfl⟩) fun root q hroot => ?_
  -- The root ends with the last token already, so that nothing is amended.
  have hsame : { root with stop := s.size } = root := by
    have hstop := hroot.1.2
    cases root
    simpa using hstop.symm
  refine .given fun hl => .amend ?_ ?_
  · rw [hsame]
    exact hl
  · rw [hsame]
    exact hroot

end Parser

namespace Tree

/-- The tree stands over all tokens, each node where its tokens are. Only a source that lacks a
`KEY` may keep it from being finished. -/
theorem ofSource?_placed (s : Source) :
    match ofSource? s with
    | some t => t.root.Placed s ∧ t.root.Exact 0 s.size ∧ t.root.kind = .batch
    | none => ¬s.Keyed := by
  have hrun := Parser.lays_batch (s := s) (.nil (Nat.le_refl 0) (Nat.zero_le _)) ⟨0, #[]⟩ rfl
  unfold ofSource?
  cases hbatch : Parser.batch s ⟨0, #[]⟩ with
  | none =>
    rw [hbatch] at hrun
    exact hrun
  | some r =>
    rw [hbatch] at hrun
    obtain ⟨hl, hexact, hkind, -⟩ := hrun
    exact ⟨hl.placed _ (by simp), hexact, hkind⟩

/-- Every keyed source has a tree. -/
theorem exists_ofSource? {s : Source} (h : s.Keyed) : ∃ t, ofSource? s = some t := by
  have hplaced := ofSource?_placed s
  cases hres : ofSource? s with
  | some t => exact ⟨t, rfl⟩
  | none =>
    rw [hres] at hplaced
    exact absurd h hplaced

end Tree

end Portability
