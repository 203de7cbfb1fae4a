import Portability.Proofs.Apart
import Portability.Proofs.RoundTrip.Statement

/-! Scripts written by the grammar of expressions and control flow come back as the trees they were
written from: no combination regroups operands, gives an `ELSE` to another `IF` or closes another
block. -/
namespace Portability

/-- The significant tokens of a source, in order. -/
def Source.tokens (s : Source) : List (Option Token) := (List.range s.size).map s.tokenAt?

theorem Source.stands_of_getElem? {s : Source} {start : Nat} {ts : List Token}
    (h : ∀ i t, ts[i]? = some t → s.tokenAt? (start + i) = some t) :
    s.Stands start ts (start + ts.length) := by
  induction ts generalizing start with
  | nil => rfl
  | cons t ts ih =>
    have hrest : s.Stands (start + 1) ts (start + 1 + ts.length) := by
      refine ih fun i u hu => ?_
      rw [Nat.add_right_comm]
      exact h (i + 1) u hu
    rw [List.length_cons, ← Nat.add_assoc, Nat.add_right_comm]
    exact ⟨h 0 t rfl, hrest⟩

/-- Texts are written in tokens where their tokens are these. -/
theorem Source.exists_spells {text : String} {ts : List Token}
    (h : (Source.ofText text).toOption.map Source.tokens = some (ts.map some)) :
    ∃ s, Source.ofText text = .ok s ∧ s.Spells ts := by
  cases hsource : Source.ofText text with
  | error e => simp [hsource, Except.toOption] at h
  | ok s =>
    have htokens : s.tokens = ts.map some := by simpa [hsource, Except.toOption] using h
    have hsize : s.size = ts.length := by simpa [tokens] using congrArg List.length htokens
    refine ⟨s, rfl, ?_⟩
    rw [Spells, hsize, ← Nat.zero_add ts.length]
    refine stands_of_getElem? fun i t ht => ?_
    have hi := congrArg (·[i]?) htokens
    have hlt : i < s.size := hsize ▸ (List.getElem?_eq_some_iff.mp ht).1
    simpa [tokens, ht, hlt] using hi

namespace Statement

/-- A round of the loop over the statements of a batch. -/
def batchRound (depth : Nat) (found : List Node) : Parser (Round (List Node) (List Node)) := do
  let v ← Parser.look
  if v.atEnd then return .done found.reverse
  else if v.isMark .semicolon then
    Parser.advance
    return .again found
  else return .again ((← Parser.phrase depth .statement) :: found)

theorem shapes_eq_map (body : List Statement) : shapes body = body.map shape := by
  induction body with
  | nil => rfl
  | cons st rest ih => simp [shapes, ih]

variable {s : Source} {depth : Nat} {ts : List Token} {body : List Statement}

theorem takesStatements_batchRound (hdepth : 3 * s.size + 3 ≤ depth) :
    TakesStatements s 0 (batchRound depth) where
  semicolon found pos ht := by
    have hsize := Source.lt_of_tokenAt? ht
    refine .look (.no (by simp [View.atEnd, hsize]) (.yes (Source.isMark_of_token ht) ?_))
    exact .advance hsize (.ret ⟨found, rfl, rfl⟩)
  statement found pos stop w shape _ ht _ hreads := by
    have hsize := Source.lt_of_tokenAt? ht
    have hmark : (View.mk s pos).isMark .semicolon = false := by
      simp [View.isMark, View.isMarkAt, View.token?, ht]
    have hserves : Descent.Serves (Parser.phrase depth) s pos 2 :=
      serves_phrase (by omega) (by decide)
    refine .look (.no (by simp [View.atEnd, hsize]) (.no (by simp [hmark]) ?_))
    refine .seq (hreads _ 2 (by decide) hserves) fun n hn => .ret ⟨n :: found, rfl, by simp [hn]⟩

theorem gives_statements (hdepth : 3 * s.size + 3 ≤ depth) (hnested : allWellNested body = true)
    (hrenders : RendersAll body ts) (hs : s.Spells ts) :
    Gives s (Parser.statements depth) 0 s.size (·.map Node.shape = shapes body) := by
  refine Gives.loop (gives_rounds [] (takesStatements_batchRound hdepth) (Nat.le_refl _)
    (fun st _ => st.sound) hnested hrenders hs (Source.halts_of_size_le (Nat.le_refl _)) (by omega)
    fun all j hj hall => ?_)
  obtain ⟨j, rfl⟩ : ∃ i, j = i + 1 := ⟨j - 1, by omega⟩
  exact .done (.look (.yes (by simp [View.atEnd]) (.ret ⟨all.reverse, rfl, by simp [hall]⟩)))

/-- The tree of a source, and of every text with these tokens, that the statements are written
in. -/
theorem exists_tree (hnested : allWellNested body = true) (hrenders : RendersAll body ts)
    (hs : s.Spells ts) : ∃ t, Tree.ofSource? s = some t ∧
      (∀ text, Source.ofText text = .ok s → Tree.ofText? text = some t) ∧
      t.root.shape = .of .batch (body.map shape) := by
  have hdepth : 3 * s.size + 3 ≤ Parser.phrasesPerToken * (s.size + 1) := by
    unfold Parser.phrasesPerToken
    omega
  have hbatch : Gives s Parser.batch 0 s.size (·.shape = .of .batch (shapes body)) := by
    refine .look (.seq (gives_statements hdepth hnested hrenders hs) fun found hfound => ?_)
    refine .seq (.node hfound) fun root hroot c hc => ⟨_, _, rfl, hc, ?_⟩
    rw [← hroot, Node.shape_eq, Node.shape_eq]
  obtain ⟨root, c, hrun, -, hshape⟩ := hbatch ⟨0, #[]⟩ rfl
  have htree : Tree.ofSource? s = some ⟨s, root, c.nodes⟩ := by simp [Tree.ofSource?, hrun]
  refine ⟨_, htree, fun text htext => ?_, shapes_eq_map body ▸ hshape⟩
  rw [Tree.ofText?, htext]
  exact htree

end Statement

namespace Tree

/-- An expression after `PRINT` is read as the expression it was written from: with the parentheses
that its operands need and no others, whatever white space and comments stand between its tokens. -/
theorem shape_of_print (e : Expression) (s : Source)
    (hs : s.Spells (.word "PRINT" none :: e.tokens .disjunction)) :
    ∃ t, ofSource? s = some t ∧ (∀ text, Source.ofText text = .ok s → ofText? text = some t) ∧
      t.root.shape = .of .batch [.of .print [e.shape]] := by
  have hrenders : Statement.RendersAll [.print e] (.word "PRINT" none :: e.bare) := by
    simpa [semicolonIf] using Statement.RendersAll.cons (.print e) false .nil
  exact Statement.exists_tree rfl hrenders hs

theorem shape_of_print_disjunction :
    ∃ t, ofText? "PRINT NOT @a!=1 OR -(1+@b)*2 IN(3)" = some t ∧ t.root.shape =
      .of .batch [.of .print [.of (.logical "OR")
        [.of .negation [.of (.comparison "!=")
          [.of (.localVariable "@a") [], .of (.literal .number) []]],
        .of (.inList false) [.of (.binaryOp "*") [.of (.unaryOp "-") [.of (.binaryOp "+")
          [.of (.literal .number) [], .of (.localVariable "@b") []]], .of (.literal .number) []],
          .of (.literal .number) []]]]] := by
  have htokens : (Source.ofText "PRINT NOT @a!=1 OR -(1+@b)*2 IN(3)").toOption.map Source.tokens =
      some ((Token.word "PRINT" none :: Expression.tokens (.binary .or
        (.negation (.comparison .notEq (.var ⟨"@a", ['a'], rfl, by decide⟩) (.number "1" false)))
        (.inList false (.binary .star (.sign .minus (.binary .plus (.number "1" false)
          (.var ⟨"@b", ['b'], rfl, by decide⟩))) (.number "2" false)) (.number "3" false) []))
        .disjunction).map some) :=
    Source.map_ofText_of_apart (by decide +kernel)
  obtain ⟨s, htext, hs⟩ := Source.exists_spells htokens
  obtain ⟨t, -, htree, hshape⟩ := shape_of_print _ s hs
  exact ⟨t, htree _ htext, hshape⟩

/-- Statements of control flow are read as the list they were written from: with or without a
semicolon behind each and before `ELSE`, every `ELSE` belongs to its own `IF` and every `END` closes
its own block. -/
theorem shape_of_controlFlow (body : List Statement) (ts : List Token) (s : Source)
    (hnested : Statement.allWellNested body = true) (hrenders : Statement.RendersAll body ts)
    (hs : s.Spells ts) :
    ∃ t, ofSource? s = some t ∧ (∀ text, Source.ofText text = .ok s → ofText? text = some t) ∧
      t.root.shape = .of .batch (body.map Statement.shape) :=
  Statement.exists_tree hnested hrenders hs

theorem shape_of_controlFlow_dangling :
    ∃ t, ofText? "IF @a=1 IF @b=2 BREAK;ELSE BEGIN SET @a=3;END ELSE CONTINUE" = some t ∧
      t.root.shape = .of .batch [.of .ifElse
        [.of (.comparison "=") [.of (.localVariable "@a") [], .of (.literal .number) []],
        .of .ifElse
          [.of (.comparison "=") [.of (.localVariable "@b") [], .of (.literal .number) []],
          .of .breakLoop [],
          .of (.block .plain) [.of (.variableAssignment "@a" "=") [.of (.literal .number) []]]],
        .of .continueLoop []]] := by
  have hrenders : Statement.RendersAll
      [.ifElse (.comparison .eq (.var ⟨"@a", ['a'], rfl, by decide⟩) (.number "1" false))
        (.ifElse (.comparison .eq (.var ⟨"@b", ['b'], rfl, by decide⟩) (.number "2" false))
          .breakLoop
          (.block .plain [.assign ⟨"@a", ['a'], rfl, by decide⟩ (.number "3" false)]))
        .continueLoop] _ :=
    .cons (.ifElse _ (.ifElse _ .breakLoop true (.block .plain (.cons (.assign _ _) true .nil)))
      false .continueLoop) false .nil
  have htokens : (Source.ofText
      "IF @a=1 IF @b=2 BREAK;ELSE BEGIN SET @a=3;END ELSE CONTINUE").toOption.map Source.tokens =
      some ([.word "IF" none, .word "@a" none, .mark .eq, .number "1" false, .word "IF" none,
        .word "@b" none, .mark .eq, .number "2" false, .word "BREAK" none, .mark .semicolon,
        .word "ELSE" none, .word "BEGIN" none, .word "SET" none, .word "@a" none, .mark .eq,
        .number "3" false, .mark .semicolon, .word "END" none, .word "ELSE" none,
        .word "CONTINUE" none].map some) :=
    Source.map_ofText_of_apart (by decide +kernel)
  obtain ⟨s, htext, hs⟩ := Source.exists_spells htokens
  obtain ⟨t, -, htree, hshape⟩ := shape_of_controlFlow _ _ s rfl hrenders hs
  exact ⟨t, htree _ htext, hshape⟩

end Tree

end Portability
